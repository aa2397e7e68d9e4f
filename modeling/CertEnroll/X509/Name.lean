import CertEnroll.Der.SetOf

/-!
# X509.Name — distinguished names, algorithm identifiers and attributes

The small structures that certificates, requests and messages share.
-/

namespace CertEnroll.X509

open Der (Element Fields Member Oid SetOf sequence optionalField)

/-! ### Names -/

/-- A typed value of a name. -/
structure NameAttribute where
  type : Oid
  value : Element
  deriving DecidableEq

instance : Member NameAttribute where
  toElement a := sequence [Der.toElement a.type, a.value]
  ofElement? := Fields.ofSequence? do
    return ⟨← Fields.value, ← Fields.value⟩

/-- A distinguished name: sets of typed values, from the most general to the most special. -/
structure Name where
  parts : List (SetOf NameAttribute)
  deriving DecidableEq

instance : Der Name where
  toElement n := Der.toElement n.parts
  ofElement? e := (Der.ofElement? e).map Name.mk

/-! ### Algorithms -/

/-- An algorithm and its parameters. -/
structure AlgorithmId where
  algorithm : Oid
  parameters : Option Element
  deriving DecidableEq

/-- The parameters of algorithms that have none. -/
def nullParameters : Element := ⟨.null, []⟩

/-- An algorithm whose parameters are a null value. -/
def AlgorithmId.plain (o : Oid) : AlgorithmId := ⟨o, some nullParameters⟩

/-- Algorithms without parameters may be repeated in a set. -/
instance : Member AlgorithmId where
  toElement a := sequence (Der.toElement a.algorithm :: optionalField a.parameters)
  ofElement? := Fields.ofSequence? do
    return ⟨← Fields.value, ← Fields.nextIf fun _ => true⟩
  repeats a := a.parameters.isNone

/-! ### Attributes -/

/-- A named set of values. -/
structure Attribute where
  type : Oid
  values : SetOf Element
  deriving DecidableEq

instance : Member Attribute where
  toElement a := sequence [Der.toElement a.type, Der.toElement a.values]
  ofElement? := Fields.ofSequence? do
    return ⟨← Fields.value, ← Fields.value⟩

/-- An attribute with one value. -/
def Attribute.single (o : Oid) (v : Element) : Attribute := ⟨o, .singleton v⟩

/-- A set of attributes. -/
abbrev Attributes := SetOf Attribute

/-! ### Serial numbers -/

/-- The number that an issuer gives to a certificate, as the content octets of an integer. -/
structure SerialNumber where
  content : Bytes
  deriving DecidableEq, Repr

namespace SerialNumber

/-- The most octets of a serial number that is read. -/
def maxRead : Nat := 21

/-- The most octets of a serial number that is made. -/
def maxMade : Nat := 20

/-- Whether octets are the shortest two's complement form of an integer. -/
def isCanonical : Bytes → Bool
  | [] => false
  | [_] => true
  | a :: b :: _ => !(a = 0 && b < 128) && !(a = 255 && 128 ≤ b)

/-- An unsigned number without its leading zeros; zero keeps one. -/
def strip : Bytes → Bytes
  | 0 :: b :: r => strip (b :: r)
  | l => l

/-- The serial number of an unsigned big-endian number. -/
def ofUnsigned? (b : Bytes) : Option SerialNumber :=
  let s := strip b
  let content := if 128 ≤ s.headD 0 then 0 :: s else s
  if content.length ≤ maxMade then some ⟨content⟩ else none

end SerialNumber

instance : Der SerialNumber where
  toElement n := ⟨.integer, n.content⟩
  ofElement? e :=
    if e.tag = .integer ∧ SerialNumber.isCanonical e.content = true ∧
        e.content.length ≤ SerialNumber.maxRead then
      some ⟨e.content⟩
    else none

/-- What names a certificate: its issuer and the number the issuer gave it. -/
structure IssuerAndSerial where
  issuer : Name
  serial : SerialNumber
  deriving DecidableEq

instance : Der IssuerAndSerial where
  toElement i := sequence [Der.toElement i.issuer, Der.toElement i.serial]
  ofElement? := Fields.ofSequence? do
    return ⟨← Fields.value, ← Fields.value⟩

end CertEnroll.X509
