import CertEnroll.Der.Time
import CertEnroll.X509.Name

/-!
# X509.Certificate — certificates and revocation lists

The fields are kept as far as they are read; the values of extensions stay octets.
-/

namespace CertEnroll.X509

open Der (BitString Element Fields Member OctetString Oid SmallNumber Time sequence optionalField)

/-! ### Keys and extensions -/

/-- A public key with its algorithm. -/
structure KeyInfo where
  algorithm : AlgorithmId
  key : BitString
  deriving DecidableEq

instance : Der KeyInfo where
  toElement k := sequence [Der.toElement k.algorithm, Der.toElement k.key]
  ofElement? := Fields.ofSequence? do
    return ⟨← Fields.value, ← Fields.value⟩

/-- An extension of a certificate or of a revocation list. -/
structure Extension where
  id : Oid
  critical : Bool
  value : OctetString
  deriving DecidableEq

/-- An extension that is not critical does not say so. -/
instance : Der Extension where
  toElement x :=
    sequence (Der.toElement x.id ::
      optionalField (if x.critical then some (Der.toElement true) else none) ++
      [Der.toElement x.value])
  ofElement? := Fields.ofSequence? do
    let id ← Fields.value
    let critical ← Fields.optional (· = .boolean)
    let value ← Fields.value
    return ⟨id, critical.getD false, value⟩

/-- The version of a certificate or of a revocation list, counted from zero. -/
abbrev Version := SmallNumber 2

/-- The first version. -/
def Version.v1 : Version := ⟨0, by decide⟩

/-- The version of certificates with extensions. -/
def Version.v3 : Version := ⟨2, by decide⟩

/-- When a certificate holds. -/
structure Validity where
  notBefore : Time
  notAfter : Time
  deriving DecidableEq

instance : Der Validity where
  toElement v := sequence [Der.toElement v.notBefore, Der.toElement v.notAfter]
  ofElement? := Fields.ofSequence? do
    return ⟨← Fields.value, ← Fields.value⟩

/-! ### Certificates -/

/-- The signed part of a certificate. -/
structure CertificateBody where
  version : Version
  serial : SerialNumber
  signature : AlgorithmId
  issuer : Name
  validity : Validity
  subject : Name
  keyInfo : KeyInfo
  issuerId : Option BitString
  subjectId : Option BitString
  extensions : Option (List Extension)
  deriving DecidableEq

/-- The first version is not written. -/
instance : Der CertificateBody where
  toElement c :=
    sequence (
      optionalField (if c.version = .v1 then none else some ((Der.toElement c.version).wrap 0)) ++
      [Der.toElement c.serial, Der.toElement c.signature, Der.toElement c.issuer,
        Der.toElement c.validity, Der.toElement c.subject, Der.toElement c.keyInfo] ++
      optionalField (c.issuerId.map fun i => (Der.toElement i).retag 1) ++
      optionalField (c.subjectId.map fun i => (Der.toElement i).retag 2) ++
      optionalField (c.extensions.map fun x => (Der.toElement x).wrap 3))
  ofElement? := Fields.ofSequence? do
    let version ← Fields.explicit? 0
    let serial ← Fields.value
    let signature ← Fields.value
    let issuer ← Fields.value
    let validity ← Fields.value
    let subject ← Fields.value
    let keyInfo ← Fields.value
    let issuerId ← Fields.implicit? 1 .bitString
    let subjectId ← Fields.implicit? 2 .bitString
    let extensions ← Fields.explicit? 3
    return ⟨version.getD .v1, serial, signature, issuer, validity, subject, keyInfo, issuerId,
      subjectId, extensions⟩

/-- A certificate. -/
structure Certificate where
  body : CertificateBody
  algorithm : AlgorithmId
  signature : BitString
  deriving DecidableEq

instance : Der Certificate where
  toElement c := sequence [Der.toElement c.body, Der.toElement c.algorithm, Der.toElement c.signature]
  ofElement? := Fields.ofSequence? do
    return ⟨← Fields.value, ← Fields.value, ← Fields.value⟩

/-- The issuer and serial number that name a certificate. -/
def Certificate.id (c : Certificate) : IssuerAndSerial :=
  ⟨c.body.issuer, c.body.serial⟩

/-! ### Revocation lists -/

/-- An entry of a revocation list. -/
structure Revoked where
  serial : SerialNumber
  date : Time
  extensions : Option (List Extension)
  deriving DecidableEq

instance : Der Revoked where
  toElement r :=
    sequence ([Der.toElement r.serial, Der.toElement r.date] ++
      optionalField (r.extensions.map Der.toElement))
  ofElement? := Fields.ofSequence? do
    return ⟨← Fields.value, ← Fields.value, ← Fields.optional (· = .sequence)⟩

/-- The signed part of a revocation list. -/
structure RevocationBody where
  version : Version
  signature : AlgorithmId
  issuer : Name
  thisUpdate : Time
  nextUpdate : Option Time
  revoked : Option (List Revoked)
  extensions : Option (List Extension)
  deriving DecidableEq

instance : Der RevocationBody where
  toElement c :=
    sequence (
      [Der.toElement c.version, Der.toElement c.signature, Der.toElement c.issuer,
        Der.toElement c.thisUpdate] ++
      optionalField (c.nextUpdate.map Der.toElement) ++
      optionalField (c.revoked.map Der.toElement) ++
      optionalField (c.extensions.map fun x => (Der.toElement x).wrap 0))
  ofElement? := Fields.ofSequence? do
    let version ← Fields.value
    let signature ← Fields.value
    let issuer ← Fields.value
    let thisUpdate ← Fields.value
    let nextUpdate ← Fields.optional Time.hasTag
    let revoked ← Fields.optional (· = .sequence)
    let extensions ← Fields.explicit? 0
    return ⟨version, signature, issuer, thisUpdate, nextUpdate, revoked, extensions⟩

/-- A revocation list. -/
structure RevocationList where
  body : RevocationBody
  algorithm : AlgorithmId
  signature : BitString
  deriving DecidableEq

instance : Der RevocationList where
  toElement c := sequence [Der.toElement c.body, Der.toElement c.algorithm, Der.toElement c.signature]
  ofElement? := Fields.ofSequence? do
    return ⟨← Fields.value, ← Fields.value, ← Fields.value⟩

end CertEnroll.X509
