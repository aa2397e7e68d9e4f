import CertEnroll.Cms.ContentInfo

/-!
# Cms.SignedData — signed content
-/

namespace CertEnroll.Cms

open Der (Element Fields Member OctetString Oid SetOf sequence optionalField)
open X509 (AlgorithmId Attributes)

/-- The content that is signed, if it is there. -/
structure SignedContent where
  contentType : Oid
  content : Option Element
  deriving DecidableEq

instance : Der SignedContent where
  toElement c :=
    sequence (Der.toElement c.contentType :: optionalField (c.content.map fun e => e.wrap 0))
  ofElement? := Fields.ofSequence? do
    return ⟨← Fields.value, ← Fields.explicit? 0⟩

/-- A signer, what the signer says about the content, and the signature. -/
structure SignerInfo where
  version : Version
  signer : KeyHolder
  digest : AlgorithmId
  signedAttributes : Option Attributes
  signatureAlgorithm : AlgorithmId
  signature : OctetString
  unsignedAttributes : Option Attributes
  deriving DecidableEq

/-- A signer that leaves an optional part out may be repeated in a set. -/
instance : Member SignerInfo where
  toElement s :=
    sequence (
      [Der.toElement s.version, Der.toElement s.signer, Der.toElement s.digest] ++
      optionalField (s.signedAttributes.map fun a => (Der.toElement a).retag 0) ++
      [Der.toElement s.signatureAlgorithm, Der.toElement s.signature] ++
      optionalField (s.unsignedAttributes.map fun a => (Der.toElement a).retag 1))
  ofElement? := Fields.ofSequence? do
    let version ← Fields.value
    let signer ← Fields.value
    let digest ← Fields.value
    let signedAttributes ← Fields.implicit? 0 .set
    let signatureAlgorithm ← Fields.value
    let signature ← Fields.value
    let unsignedAttributes ← Fields.implicit? 1 .set
    return ⟨version, signer, digest, signedAttributes, signatureAlgorithm, signature,
      unsignedAttributes⟩
  repeats s :=
    s.digest.parameters.isNone || s.signedAttributes.isNone ||
      s.signatureAlgorithm.parameters.isNone || s.unsignedAttributes.isNone

/-- Content, its signers, and certificates and revocation lists that come with them. -/
structure SignedData where
  version : Version
  digests : SetOf AlgorithmId
  content : SignedContent
  certificates : Option (SetOf CertificateChoice)
  revocations : Option (SetOf RevocationChoice)
  signers : SetOf SignerInfo
  deriving DecidableEq

instance : Der SignedData where
  toElement s :=
    sequence (
      [Der.toElement s.version, Der.toElement s.digests, Der.toElement s.content] ++
      optionalField (s.certificates.map fun c => (Der.toElement c).retag 0) ++
      optionalField (s.revocations.map fun c => (Der.toElement c).retag 1) ++
      [Der.toElement s.signers])
  ofElement? := Fields.ofSequence? do
    let version ← Fields.value
    let digests ← Fields.value
    let content ← Fields.value
    let certificates ← Fields.implicit? 0 .set
    let revocations ← Fields.implicit? 1 .set
    let signers ← Fields.value
    return ⟨version, digests, content, certificates, revocations, signers⟩

end CertEnroll.Cms
