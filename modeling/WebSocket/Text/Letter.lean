/-!
# Texts that differ in the case of letters

Header names and tokens are compared without regard to the case of the letters A to Z. Other
letters count as they stand.
-/

namespace WebSocket

/-- Whether two texts are equal up to the case of the letters A to Z. -/
def equalIgnoringCase (s t : List Char) : Bool :=
  s.map Char.toLower == t.map Char.toLower

end WebSocket
