import CertEnroll.X509.Certificate

/-!
# X509.Request — certification requests
-/

namespace CertEnroll.X509

open Der (BitString Fields SmallNumber sequence)

/-- The signed part of a certification request; its only version is zero. -/
structure RequestBody where
  version : SmallNumber 0
  subject : Name
  keyInfo : KeyInfo
  attributes : Attributes
  deriving DecidableEq

instance : Der RequestBody where
  toElement r :=
    sequence [Der.toElement r.version, Der.toElement r.subject, Der.toElement r.keyInfo,
      (Der.toElement r.attributes).retag 0]
  ofElement? := Fields.ofSequence? do
    let version ← Fields.value
    let subject ← Fields.value
    let keyInfo ← Fields.value
    let attributes ← Fields.required (Fields.implicit? 0 .set)
    return ⟨version, subject, keyInfo, attributes⟩

/-- A certification request. -/
structure CertificationRequest where
  body : RequestBody
  algorithm : AlgorithmId
  signature : BitString
  deriving DecidableEq

instance : Der CertificationRequest where
  toElement r := sequence [Der.toElement r.body, Der.toElement r.algorithm, Der.toElement r.signature]
  ofElement? := Fields.ofSequence? do
    return ⟨← Fields.value, ← Fields.value, ← Fields.value⟩

end CertEnroll.X509
