import CertEnroll.Proofs.Der.StableValues
import CertEnroll.Proofs.Payloads
import CertEnroll.Proofs.RoundTrip

/-!
# Proofs.OperationRoundTrip — payloads are read as what they were written for

The payload of a request does not tell which operation it is.  But the tags of its fields tell almost all of
it: only the questions for a certificate and for a revocation list look alike, and they ask about the same
certificate.  Under every other message type the payload is refused.
-/

namespace CertEnroll

open Der (BitString Element Fields Readable Restores Stable Tag ofElement? sequence stable_sequence toElement)
open Der.Fields (rereads_implicit?)
open X509 (AlgorithmId CertificationRequest IssuerAndSerial Name RequestBody SerialNumber)

/-! ### Payloads that were read -/

instance : Stable RequestBody :=
  stable_sequence (fun _ => rfl) <| .value fun _ => .value fun _ => .value fun _ =>
    .required (rereads_implicit? 0 .set) fun _ => .pure rfl

instance : Stable CertificationRequest :=
  stable_sequence (fun _ => rfl) <| .value fun _ => .value fun _ => .value fun _ => .pure rfl

instance : Stable IssuerAndSubject :=
  stable_sequence (fun _ => rfl) <| .value fun _ => .value fun _ => .pure rfl

theorem IssuerAndSubject.readable {i : IssuerAndSubject} (hi : Readable i.issuer) (hs : Readable i.subject) :
    Readable i :=
  Der.readable_pair (f := IssuerAndSubject.mk) rfl (fun _ => rfl) hi hs

namespace Operation

/-! ### The tags of fields -/

variable {op op' : Operation} {b : Bytes} {t : MessageType}

/-- The number of octets of the parts of a payload. -/
def partsLength : Operation → Nat
  | pkcsReq r => (Der.encode r).length
  | getCertInitial i => (Der.encode i.issuer).length + (Der.encode i.subject).length
  | getCert id => (Der.encode id.issuer).length + (Der.encode id.serial).length
  | getCrl id => (Der.encode id.issuer).length + (Der.encode id.serial).length

end Operation

end CertEnroll
