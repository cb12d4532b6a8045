import WebSocket.Bytes
import WebSocket.Text.Utf8

/-!
# Messages

What the application sends and receives: a text or a byte string.
-/

namespace WebSocket

inductive Message where
  | text (content : String)
  | binary (content : Bytes)
  deriving DecidableEq, Repr

namespace Message

def isText : Message → Bool
  | text _ => true
  | binary _ => false

def isBinary : Message → Bool
  | text _ => false
  | binary _ => true

def payload : Message → Bytes
  | text content => Bytes.ofString content
  | binary content => content

def text? : Message → Option String
  | text content => some content
  | binary _ => none

def binary? : Message → Option Bytes
  | text _ => none
  | binary content => some content

/-- The message read as text, whatever its bytes are (`into_text`). -/
def toText : Message → String
  | text content => content
  | binary content => Utf8.decodeLossy content

end Message

end WebSocket
