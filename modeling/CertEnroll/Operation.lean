import CertEnroll.Der.Document
import CertEnroll.X509.Issue

/-!
# Operation — what a requester asks for

The operation is the content of a request's envelope.  Its kind does not travel with it: the reader
learns it from the message type.
-/

namespace CertEnroll

open Der (Fields sequence)
open X509 (CertificationRequest IssuerAndSerial Name SerialNumber)

/-- The names by which a waiting request is found again. -/
structure IssuerAndSubject where
  issuer : Name
  subject : Name
  deriving DecidableEq

instance : Der IssuerAndSubject where
  toElement i := sequence [Der.toElement i.issuer, Der.toElement i.subject]
  ofElement? := Fields.ofSequence? do
    return ⟨← Fields.value, ← Fields.value⟩

/-- An operation that a requester asks for. -/
inductive Operation
  /-- Issue a certificate. -/
  | pkcsReq (request : CertificationRequest)
  /-- Go on with a request that waits. -/
  | getCertInitial (names : IssuerAndSubject)
  /-- Return a certificate. -/
  | getCert (id : IssuerAndSerial)
  /-- Return the revocation list for a certificate. -/
  | getCrl (id : IssuerAndSerial)
  deriving DecidableEq

namespace Operation

/-- The message type of a request for an operation. -/
def messageType : Operation → MessageType
  | pkcsReq _ => .pkcsReq
  | getCertInitial _ => .getCertInitial
  | getCert _ => .getCert
  | getCrl _ => .getCrl

/-- Whether an answer may ask to wait. -/
def isDelayable : Operation → Bool
  | pkcsReq _ => true
  | getCertInitial _ => true
  | _ => false

/-- A request for a certificate, signed by its key. -/
def enrollment (key : Rsa.PrivateKey) (subject : Name) (password : Option String) : Result Operation :=
  (X509.issueRequest key subject password).map pkcsReq

/-- The octets of an operation. -/
def write : Operation → Result Bytes
  | pkcsReq r => Der.write r
  | getCertInitial i => Der.write i
  | getCert i => Der.write i
  | getCrl i => Der.write i

/-- The operation of a message type that octets encode. -/
def read (t : MessageType) (b : Bytes) : Result Operation :=
  match t with
  | .pkcsReq => (Der.read b).map pkcsReq
  | .getCertInitial => (Der.read b).map getCertInitial
  | .getCert => (Der.read b).map getCert
  | .getCrl => (Der.read b).map getCrl
  | .certRep => .error (.unexpectedMessageType t)

/-- The password of a request for a certificate. -/
def challengePassword? : Operation → Option String
  | pkcsReq r => r.password?
  | _ => none

end Operation

end CertEnroll
