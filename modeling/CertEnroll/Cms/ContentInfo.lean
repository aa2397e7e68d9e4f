import CertEnroll.X509.Certificate

/-!
# Cms.ContentInfo — typed content and the parts that messages share
-/

namespace CertEnroll.Cms

open Der (Element Fields Member OctetString Oid SetOf SmallNumber sequence optionalField)
open X509 (AlgorithmId Certificate IssuerAndSerial RevocationList)

/-! ### Content types -/

/-- Plain octets. -/
def dataType : Oid := .ofArcs [1, 2, 840, 113549, 1, 7, 1]

/-- Signed content. -/
def signedDataType : Oid := .ofArcs [1, 2, 840, 113549, 1, 7, 2]

/-- Encrypted content. -/
def envelopedDataType : Oid := .ofArcs [1, 2, 840, 113549, 1, 7, 3]

/-- Content with its type. -/
structure ContentInfo where
  contentType : Oid
  content : Element
  deriving DecidableEq

instance : Der ContentInfo where
  toElement c := sequence [Der.toElement c.contentType, c.content.wrap 0]
  ofElement? := Fields.ofSequence? do
    return ⟨← Fields.value, ← Fields.required (Fields.explicit? 0)⟩

/-- The version of a message structure. -/
abbrev Version := SmallNumber 5

/-- Version 0. -/
def Version.v0 : Version := ⟨0, by decide⟩

/-- Version 1. -/
def Version.v1 : Version := ⟨1, by decide⟩

/-! ### Certificates and revocation lists that come with a message -/

/-- A certificate, or something else in its place. -/
inductive CertificateChoice
  | certificate (c : Certificate)
  | other (format : Oid) (value : Element)
  deriving DecidableEq

instance : Member CertificateChoice where
  toElement
    | .certificate c => Der.toElement c
    | .other format value => (sequence [Der.toElement format, value]).wrap 3
  ofElement? e :=
    match e.tag with
    | .sequence => (Der.ofElement? e).map .certificate
    | .context true ⟨3, _⟩ => do
      let inner ← Element.ofBytes? e.content
      inner |> Fields.ofSequence? do
        return .other (← Fields.value) (← Fields.next)
    | _ => none
  weight := Der.highOctets

/-- A revocation list, or something else in its place. -/
inductive RevocationChoice
  | list (l : RevocationList)
  | other (format : AlgorithmId) (value : Element)
  deriving DecidableEq

instance : Member RevocationChoice where
  toElement
    | .list l => Der.toElement l
    | .other format value => (sequence [Der.toElement format, value]).retag 1
  ofElement? e :=
    match e.tag with
    | .sequence => (Der.ofElement? e).map .list
    | .context true ⟨1, _⟩ =>
      { e with tag := .sequence } |> Fields.ofSequence? do
        return .other (← Fields.value) (← Fields.next)
    | _ => none
  weight := Der.highOctets

/-! ### Naming a key -/

/-- What names the holder of a key: its certificate, or an identifier of the key. -/
inductive KeyHolder
  | certificate (id : IssuerAndSerial)
  | keyId (id : OctetString)
  deriving DecidableEq

instance : Der KeyHolder where
  toElement
    | .certificate i => Der.toElement i
    | .keyId i => (Der.toElement i).retag 0
  ofElement? e :=
    match e.tag with
    | .sequence => (Der.ofElement? e).map .certificate
    | .context false ⟨0, _⟩ => some (.keyId ⟨e.content⟩)
    | _ => none

end CertEnroll.Cms
