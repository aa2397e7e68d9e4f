import CertEnroll.Cms.ContentInfo
import CertEnroll.Der.Time

/-!
# Cms.EnvelopedData — encrypted content

The content key reaches a recipient in one of five ways.  Only key transport is ever used; the others
are read so that a message that mixes them can be told from one that is malformed.
-/

namespace CertEnroll.Cms

open Der (BitString Element Fields Member OctetString Oid SetOf Time sequence optionalField)
open X509 (AlgorithmId Attribute Attributes IssuerAndSerial)

/-! ### Key transport -/

/-- A content key encrypted for the key of a recipient. -/
structure KeyTransport where
  version : Version
  recipient : KeyHolder
  algorithm : AlgorithmId
  encryptedKey : OctetString
  deriving DecidableEq

instance : Der KeyTransport where
  toElement k :=
    sequence [Der.toElement k.version, Der.toElement k.recipient, Der.toElement k.algorithm,
      Der.toElement k.encryptedKey]
  ofElement? := Fields.ofSequence? do
    return ⟨← Fields.value, ← Fields.value, ← Fields.value, ← Fields.value⟩

/-! ### Key agreement -/

/-- The sender of an agreed key. -/
inductive Originator
  | holder (id : KeyHolder)
  | key (algorithm : AlgorithmId) (key : BitString)
  deriving DecidableEq

instance : Der Originator where
  toElement
    | .holder h => Der.toElement h
    | .key algorithm key => (sequence [Der.toElement algorithm, Der.toElement key]).retag 1
  ofElement? e :=
    match e.tag with
    | .context true ⟨1, _⟩ =>
      { e with tag := .sequence } |> Fields.ofSequence? do
        return .key (← Fields.value) (← Fields.value)
    | _ => (Der.ofElement? e).map .holder

/-- A content key encrypted with an agreed key.  The recipient is named by its certificate, in no other
way. -/
structure AgreedKey where
  recipient : IssuerAndSerial
  encryptedKey : OctetString
  deriving DecidableEq

instance : Der AgreedKey where
  toElement k := sequence [Der.toElement k.recipient, Der.toElement k.encryptedKey]
  ofElement? := Fields.ofSequence? do
    return ⟨← Fields.value, ← Fields.value⟩

/-- Content keys for recipients that agreed on keys with a sender. -/
structure KeyAgreement where
  version : Version
  originator : Originator
  keyMaterial : Option OctetString
  algorithm : AlgorithmId
  keys : List AgreedKey
  deriving DecidableEq

instance : Der KeyAgreement where
  toElement k :=
    sequence (
      [Der.toElement k.version, (Der.toElement k.originator).wrap 0] ++
      optionalField (k.keyMaterial.map fun m => (Der.toElement m).wrap 1) ++
      [Der.toElement k.algorithm, Der.toElement k.keys])
  ofElement? := Fields.ofSequence? do
    let version ← Fields.value
    let originator ← Fields.required (Fields.explicit? 0)
    let keyMaterial ← Fields.explicit? 1
    let algorithm ← Fields.value
    let keys ← Fields.value
    return ⟨version, originator, keyMaterial, algorithm, keys⟩

/-! ### Shared keys, passwords and other ways -/

/-- A shared key named by an identifier, with a date and an attribute. -/
structure SharedKeyId where
  id : OctetString
  date : Option Time
  keyAttribute : Option Attribute
  deriving DecidableEq

instance : Der SharedKeyId where
  toElement k :=
    sequence (Der.toElement k.id ::
      optionalField (k.date.map Der.toElement) ++ optionalField (k.keyAttribute.map Der.toElement))
  ofElement? := Fields.ofSequence? do
    return ⟨← Fields.value, ← Fields.optional (· = .generalizedTime), ← Fields.optional (· = .sequence)⟩

/-- A content key encrypted with a key that both sides have. -/
structure SharedKey where
  version : Version
  key : SharedKeyId
  algorithm : AlgorithmId
  encryptedKey : OctetString
  deriving DecidableEq

instance : Der SharedKey where
  toElement k :=
    sequence [Der.toElement k.version, Der.toElement k.key, Der.toElement k.algorithm,
      Der.toElement k.encryptedKey]
  ofElement? := Fields.ofSequence? do
    return ⟨← Fields.value, ← Fields.value, ← Fields.value, ← Fields.value⟩

/-- A content key encrypted with a key derived from a password. -/
structure PasswordKey where
  version : Version
  derivation : Option AlgorithmId
  algorithm : AlgorithmId
  encryptedKey : OctetString
  deriving DecidableEq

instance : Der PasswordKey where
  toElement k :=
    sequence (Der.toElement k.version ::
      optionalField (k.derivation.map fun d => (Der.toElement d).retag 0) ++
      [Der.toElement k.algorithm, Der.toElement k.encryptedKey])
  ofElement? := Fields.ofSequence? do
    let version ← Fields.value
    let derivation ← Fields.implicit? 0 .sequence
    let algorithm ← Fields.value
    let encryptedKey ← Fields.value
    return ⟨version, derivation, algorithm, encryptedKey⟩

/-- A content key that reaches the recipient in a way of its own. -/
structure OtherKey where
  type : Oid
  value : Element
  deriving DecidableEq

instance : Der OtherKey where
  toElement k := sequence [Der.toElement k.type, k.value]
  ofElement? := Fields.ofSequence? do
    return ⟨← Fields.value, ← Fields.next⟩

/-! ### Recipients -/

/-- A recipient and the way in which the content key reaches it. -/
inductive RecipientInfo
  | transport (k : KeyTransport)
  | agreement (k : KeyAgreement)
  | shared (k : SharedKey)
  | password (k : PasswordKey)
  | other (k : OtherKey)
  deriving DecidableEq

instance : Member RecipientInfo where
  toElement
    | .transport k => Der.toElement k
    | .agreement k => (Der.toElement k).retag 1
    | .shared k => (Der.toElement k).retag 2
    | .password k => (Der.toElement k).retag 3
    | .other k => (Der.toElement k).retag 4
  ofElement? e :=
    let inner : Element := { e with tag := .sequence }
    match e.tag with
    | .sequence => (Der.ofElement? e).map .transport
    | .context true ⟨1, _⟩ => (Der.ofElement? inner).map .agreement
    | .context true ⟨2, _⟩ => (Der.ofElement? inner).map .shared
    | .context true ⟨3, _⟩ => (Der.ofElement? inner).map .password
    | .context true ⟨4, _⟩ => (Der.ofElement? inner).map .other
    | _ => none
  weight := Der.highOctets

/-! ### The envelope -/

/-- What the sender says about itself. -/
structure OriginatorInfo where
  certificates : Option (SetOf CertificateChoice)
  revocations : Option (SetOf RevocationChoice)
  deriving DecidableEq

instance : Der OriginatorInfo where
  toElement o :=
    sequence (
      optionalField (o.certificates.map fun c => (Der.toElement c).retag 0) ++
      optionalField (o.revocations.map fun c => (Der.toElement c).retag 1))
  ofElement? := Fields.ofSequence? do
    return ⟨← Fields.implicit? 0 .set, ← Fields.implicit? 1 .set⟩

/-- Encrypted content and how it was encrypted. -/
structure EncryptedContent where
  contentType : Oid
  algorithm : AlgorithmId
  content : Option OctetString
  deriving DecidableEq

instance : Der EncryptedContent where
  toElement c :=
    sequence ([Der.toElement c.contentType, Der.toElement c.algorithm] ++
      optionalField (c.content.map fun b => (Der.toElement b).retag 0))
  ofElement? := Fields.ofSequence? do
    return ⟨← Fields.value, ← Fields.value, ← Fields.implicit? 0 .octetString⟩

/-- Encrypted content and its recipients. -/
structure EnvelopedData where
  version : Version
  originator : Option OriginatorInfo
  recipients : SetOf RecipientInfo
  content : EncryptedContent
  unprotectedAttributes : Option Attributes
  deriving DecidableEq

instance : Der EnvelopedData where
  toElement d :=
    sequence (
      Der.toElement d.version ::
      optionalField (d.originator.map fun o => (Der.toElement o).retag 0) ++
      [Der.toElement d.recipients, Der.toElement d.content] ++
      optionalField (d.unprotectedAttributes.map fun a => (Der.toElement a).retag 1))
  ofElement? := Fields.ofSequence? do
    let version ← Fields.value
    let originator ← Fields.implicit? 0 .sequence
    let recipients ← Fields.value
    let content ← Fields.value
    let unprotectedAttributes ← Fields.implicit? 1 .set
    return ⟨version, originator, recipients, content, unprotectedAttributes⟩

end CertEnroll.Cms
