/-!
# Code — message types, answer statuses and failure reasons

The three code sets of the protocol.  On the wire a code is a decimal number; `ofCode?` finds the
member of a set with a given number.
-/

namespace CertEnroll

/-! ### Message types -/

/-- What a message asks for; `certRep` answers every request. -/
inductive MessageType
  | certRep
  | pkcsReq
  | getCertInitial
  | getCert
  | getCrl
  deriving DecidableEq, Repr

namespace MessageType

/-- The number of a message type. -/
def code : MessageType → Nat
  | certRep => 3
  | pkcsReq => 19
  | getCertInitial => 20
  | getCert => 21
  | getCrl => 22

/-- The message type with a given number. -/
def ofCode? : Nat → Option MessageType
  | 3 => some certRep
  | 19 => some pkcsReq
  | 20 => some getCertInitial
  | 21 => some getCert
  | 22 => some getCrl
  | _ => none

/-- The protocol's name of a message type. -/
def name : MessageType → String
  | certRep => "CertRep"
  | pkcsReq => "PKCSReq"
  | getCertInitial => "GetCertInitial"
  | getCert => "GetCert"
  | getCrl => "GetCRL"

/-- Every message type but the answer is sent by the requester. -/
def isRequest (t : MessageType) : Bool :=
  t ≠ certRep

theorem ofCode?_code (t : MessageType) : ofCode? t.code = some t := by
  cases t <;> rfl

end MessageType

/-! ### Answer statuses -/

/-- How an answer decides a request. -/
inductive PkiStatus
  | success
  | failure
  | pending
  deriving DecidableEq, Repr

namespace PkiStatus

/-- The number of a status. -/
def code : PkiStatus → Nat
  | success => 0
  | failure => 2
  | pending => 3

/-- The status with a given number. -/
def ofCode? : Nat → Option PkiStatus
  | 0 => some success
  | 2 => some failure
  | 3 => some pending
  | _ => none

/-- The protocol's name of a status. -/
def name : PkiStatus → String
  | success => "SUCCESS"
  | failure => "FAILURE"
  | pending => "PENDING"

theorem ofCode?_code (s : PkiStatus) : ofCode? s.code = some s := by
  cases s <;> rfl

end PkiStatus

/-! ### Failure reasons -/

/-- Why a request was rejected. -/
inductive FailInfo
  | badAlg
  | badMessageCheck
  | badRequest
  | badTime
  | badCertId
  deriving DecidableEq, Repr

namespace FailInfo

/-- The number of a failure reason. -/
def code : FailInfo → Nat
  | badAlg => 0
  | badMessageCheck => 1
  | badRequest => 2
  | badTime => 3
  | badCertId => 4

/-- The failure reason with a given number. -/
def ofCode? : Nat → Option FailInfo
  | 0 => some badAlg
  | 1 => some badMessageCheck
  | 2 => some badRequest
  | 3 => some badTime
  | 4 => some badCertId
  | _ => none

/-- The protocol's name of a failure reason. -/
def name : FailInfo → String
  | badAlg => "badAlg"
  | badMessageCheck => "badMessageCheck"
  | badRequest => "badRequest"
  | badTime => "badTime"
  | badCertId => "badCertId"

theorem ofCode?_code (f : FailInfo) : ofCode? f.code = some f := by
  cases f <;> rfl

end FailInfo

end CertEnroll
