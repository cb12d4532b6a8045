import WebSocket.Bytes

/-!
# Base64

Three bytes are written as four letters of six bits each; a group that lacks bytes at the end is
filled up with `=`.
-/

namespace WebSocket.Base64

def letter (sextet : Nat) : Char :=
  if sextet < 26 then Char.ofNat (65 + sextet)
  else if sextet < 52 then Char.ofNat (71 + sextet)
  else if sextet < 62 then Char.ofNat (sextet - 4)
  else if sextet = 62 then '+'
  else '/'

def letters : Bytes → List Char
  | [] => []
  | [a] =>
    let n := 16 * a.toNat
    [letter (n / 64), letter (n % 64), '=', '=']
  | [a, b] =>
    let n := 4 * Bytes.toNat [a, b]
    [letter (n / 4096), letter (n / 64 % 64), letter (n % 64), '=']
  | a :: b :: c :: rest =>
    let n := Bytes.toNat [a, b, c]
    letter (n / 262144) :: letter (n / 4096 % 64) :: letter (n / 64 % 64) :: letter (n % 64)
      :: letters rest

def encode (bytes : Bytes) : String := String.ofList (letters bytes)

theorem length_letters (bytes : Bytes) : (letters bytes).length = (bytes.length + 2) / 3 * 4 := by
  fun_induction letters bytes with
  | case1 => rfl
  | case2 => simp
  | case3 => simp
  | case4 a b c rest n ih =>
    simp only [List.length_cons, ih]
    omega

end WebSocket.Base64
