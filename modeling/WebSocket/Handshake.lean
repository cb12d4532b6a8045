import WebSocket.Error
import WebSocket.Handshake.Base64
import WebSocket.Handshake.Sha1
import WebSocket.Text.Blank
import WebSocket.Text.Letter

/-!
# The upgrade handshake

The client sends a random key with its upgrade request, and the response has to answer that very
key. Sending the request and reading the response is for the transport; `UpgradeResponse.validate`
decides whether the response is accepted.
-/

namespace WebSocket

/-- What is added to every key before its digest is taken (`WS_GUID`). -/
def handshakeGuid : String := "258EAFA5-E914-47DA-95CA-C5AB0DC85B11"

/-- The answer to a key (`compute_accept_key`): the digest of the key and the common suffix, in
base64. -/
def acceptFor (key : String) : String :=
  Base64.encode (Sha1.digest (Bytes.ofString key ++ Bytes.ofString handshakeGuid))

/-- The key of an attempt (`ClientKey`). -/
structure HandshakeKey where
  text : String
  deriving DecidableEq, Repr

namespace HandshakeKey

/-- The key that `generate` makes of a nonce. -/
def ofNonce (nonce : Bytes) : HandshakeKey := ⟨Base64.encode nonce⟩

def accept (key : HandshakeKey) : String := acceptFor key.text

end HandshakeKey

def splitCommas : List Char → List (List Char)
  | [] => [[]]
  | c :: rest =>
    match splitCommas rest with
    | piece :: pieces => if c = ',' then [] :: piece :: pieces else (c :: piece) :: pieces
    | [] => [[c]]

/-- The response to an upgrade request: a status and headers in the order they came. -/
structure UpgradeResponse where
  status : Nat
  headers : List (String × String) := []
  deriving DecidableEq, Repr

namespace UpgradeResponse

/-- The first value under a header name (`header`), without the blanks around it. -/
def header? (response : UpgradeResponse) (name : String) : Option (List Char) :=
  (response.headers.find? fun header => equalIgnoringCase header.1.toList name.toList).map
    fun header => trimBlanks header.2.toList

def hasToken (value : List Char) (token : String) : Bool :=
  (splitCommas value).any fun piece => equalIgnoringCase (trimBlanks piece) token.toList

/-- The first rule of `validate` that a response breaks. -/
def flaw? (response : UpgradeResponse) (key : HandshakeKey) : Option HandshakeFlaw :=
  if response.status ≠ 101 then some (.wrongStatus response.status)
  else
    match response.header? "upgrade" with
    | none => some .missingUpgrade
    | some upgrade =>
      if !equalIgnoringCase upgrade "websocket".toList then
        some (.wrongUpgrade (String.ofList upgrade))
      else
        match response.header? "connection" with
        | none => some .missingConnection
        | some connection =>
          if !hasToken connection "upgrade" then
            some (.wrongConnection (String.ofList connection))
          else
            match response.header? "sec-websocket-accept" with
            | none => some .missingAccept
            | some accept =>
              if accept != key.accept.toList then some .wrongAccept else none

def validate (response : UpgradeResponse) (key : HandshakeKey) : Except Error Unit :=
  match response.flaw? key with
  | some flaw => .error (.invalidHandshake flaw)
  | none => .ok ()

end UpgradeResponse

end WebSocket
