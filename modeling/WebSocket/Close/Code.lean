/-!
# Close codes

A close frame gives its reason as a number, the status. `CloseCode` names the statuses that have a
meaning of their own. Some statuses must never be sent (`CloseCode.isReserved`) and only a few
ranges may (`CloseCode.isAllowed`).
-/

namespace WebSocket

inductive CloseCode where
  | normal
  | goingAway
  | protocolError
  | unsupportedData
  | invalidPayload
  | policyViolation
  | messageTooBig
  | mandatoryExtension
  | internalError
  | other (status : UInt16)
  deriving DecidableEq, Repr

namespace CloseCode

instance : Inhabited CloseCode := ⟨normal⟩

def status : CloseCode → UInt16
  | normal => 1000
  | goingAway => 1001
  | protocolError => 1002
  | unsupportedData => 1003
  | invalidPayload => 1007
  | policyViolation => 1008
  | messageTooBig => 1009
  | mandatoryExtension => 1010
  | internalError => 1011
  | other status => status

/-- The code that a status stands for (`from_u16`), by its name if it has one. -/
def ofStatus (status : UInt16) : CloseCode :=
  if status = 1000 then normal
  else if status = 1001 then goingAway
  else if status = 1002 then protocolError
  else if status = 1003 then unsupportedData
  else if status = 1007 then invalidPayload
  else if status = 1008 then policyViolation
  else if status = 1009 then messageTooBig
  else if status = 1010 then mandatoryExtension
  else if status = 1011 then internalError
  else other status

/-- Statuses that an endpoint reports to itself and never sends. -/
def isReserved (code : CloseCode) : Bool :=
  (1004 ≤ code.status && code.status ≤ 1006) || code.status == 1015

/-- Statuses that may be sent: the assigned ones and those of applications. -/
def isAllowed (code : CloseCode) : Bool :=
  (1000 ≤ code.status && code.status ≤ 1003) || (1007 ≤ code.status && code.status ≤ 1014)
    || (3000 ≤ code.status && code.status ≤ 4999)

def name : CloseCode → String
  | normal => "Normal"
  | goingAway => "GoingAway"
  | protocolError => "ProtocolError"
  | unsupportedData => "UnsupportedData"
  | invalidPayload => "InvalidPayload"
  | policyViolation => "PolicyViolation"
  | messageTooBig => "MessageTooBig"
  | mandatoryExtension => "MandatoryExtension"
  | internalError => "InternalError"
  | other status => "Other(" ++ toString status.toNat ++ ")"

@[simp] theorem status_ofStatus (status : UInt16) : (ofStatus status).status = status := by
  unfold ofStatus
  grind [CloseCode.status]

end CloseCode

end WebSocket
