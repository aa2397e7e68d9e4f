import CertEnroll.Der.Value
import CertEnroll.Error

/-!
# Der.Document — values written to and read from octets that travel

A document is the octets of one value.  Neither a document nor the octets that are put into an element are
longer than the greatest length.
-/

namespace CertEnroll.Der

/-- Octets that are no longer than the greatest length. -/
def bounded (b : Bytes) : Result Bytes :=
  if b.length ≤ maxLength then .ok b else .error .asn1

/-- An octet string of some octets. -/
def OctetString.ofBytes (b : Bytes) : Result OctetString := do
  return ⟨← bounded b⟩

/-- The document of a value. -/
def write {α : Type} [Der α] (a : α) : Result Bytes :=
  bounded (encode a)

/-- The value of a document. -/
def read {α : Type} [Der α] (b : Bytes) : Result α := do
  Result.ofDecoded (decode? (← bounded b))

end CertEnroll.Der
