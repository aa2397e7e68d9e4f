import CertEnroll.Cipher
import CertEnroll.Code
import CertEnroll.Digest
import CertEnroll.Json

/-!
# Json.Names — the names under which codes and algorithms stand in JSON texts
-/

namespace CertEnroll

/-- The member of a list that a JSON value names. -/
def Json.member? {α : Type} (all : List α) (name : α → String) (v : Json) : Option α := do
  let s ← v.name?
  all.find? fun a => name a = s

namespace MessageType

/-- Every message type. -/
def all : List MessageType := [certRep, pkcsReq, getCertInitial, getCert, getCrl]

/-- The name of a message type in JSON texts. -/
def jsonName : MessageType → String
  | certRep => "CertRep"
  | pkcsReq => "PkcsReq"
  | getCertInitial => "GetCertInitial"
  | getCert => "GetCert"
  | getCrl => "GetCrl"

/-- The message type that a JSON value names. -/
def ofJson? : Json → Option MessageType := Json.member? all jsonName

end MessageType

namespace PkiStatus

/-- Every status. -/
def all : List PkiStatus := [success, failure, pending]

/-- The name of a status in JSON texts. -/
def jsonName : PkiStatus → String
  | success => "Success"
  | failure => "Failure"
  | pending => "Pending"

/-- The status that a JSON value names. -/
def ofJson? : Json → Option PkiStatus := Json.member? all jsonName

end PkiStatus

namespace FailInfo

/-- Every failure reason. -/
def all : List FailInfo := [badAlg, badMessageCheck, badRequest, badTime, badCertId]

/-- The name of a failure reason in JSON texts. -/
def jsonName : FailInfo → String
  | badAlg => "BadAlg"
  | badMessageCheck => "BadMessageCheck"
  | badRequest => "BadRequest"
  | badTime => "BadTime"
  | badCertId => "BadCertId"

/-- The failure reason that a JSON value names. -/
def ofJson? : Json → Option FailInfo := Json.member? all jsonName

end FailInfo

namespace Digest

/-- The name of a digest in JSON texts. -/
def jsonName : Digest → String
  | md5 => "Md5"
  | sha1 => "Sha1"
  | sha256 => "Sha256"
  | sha512 => "Sha512"

/-- The digest that a JSON value names. -/
def ofJson? : Json → Option Digest := Json.member? all jsonName

end Digest

namespace Cipher

/-- The name of a cipher in JSON texts. -/
def jsonName : Cipher → String
  | des => "Des"
  | tripleDes => "DesEde3"
  | aes128 => "Aes128"

/-- The cipher that a JSON value names. -/
def ofJson? : Json → Option Cipher := Json.member? all jsonName

end Cipher

end CertEnroll
