import CertEnroll.Der.Tag

/-!
# Der.Element — tagged values, their octets and the reader of octets

An element is a tag and its content octets.  It is written as the tag, the shortest form of the length
and the content; `read` takes one element off the front of a string and refuses every other form of
the length.  `split?` reads a string that consists of elements.
-/

namespace CertEnroll.Der

/-- A tagged value; the content is not looked into. -/
structure Element where
  /-- The kind of value. -/
  tag : Tag
  /-- The content octets. -/
  content : Bytes
  deriving DecidableEq, Repr

/-- The greatest length that a reader or a writer accepts. -/
def maxLength : Nat := 0x0fffffff

/-- The shortest form of a length. -/
def lengthOctets (n : Nat) : Bytes :=
  if n < 128 then [UInt8.ofNat n]
  else UInt8.ofNat (128 + Bytes.digitCount n) :: Bytes.ofNatMin n

/-- The length at the front of a string, in its shortest form and at most `maxLength`. -/
def readLength (b : Bytes) : Option (Nat × Bytes) :=
  match b with
  | [] => none
  | f :: r =>
    if f < 128 then some (f.toNat, r)
    else
      let digits := r.take (f.toNat - 128)
      let n := Bytes.toNat digits
      if digits.length ≤ 4 ∧ n ≤ maxLength ∧ lengthOctets n = f :: digits then
        some (n, r.drop (f.toNat - 128))
      else none

namespace Element

/-- The content is no longer than the greatest length. -/
def Fits (e : Element) : Prop := e.content.length ≤ maxLength

instance (e : Element) : Decidable e.Fits := inferInstanceAs (Decidable (_ ≤ _))

/-- The octets before the content. -/
def header (e : Element) : Bytes :=
  e.tag.octet :: lengthOctets e.content.length

/-- The octets of an element. -/
def encode (e : Element) : Bytes :=
  e.header ++ e.content

/-- The element at the front of a string, and what follows it. -/
def read (b : Bytes) : Option (Element × Bytes) :=
  match b with
  | [] => none
  | t :: r => do
    let tag ← Tag.ofOctet? t
    let (n, r) ← readLength r
    let content := r.take n
    if content.length = n then some (⟨tag, content⟩, r.drop n) else none

/-- The elements of a string, at most `k` of them. -/
def readMany : Nat → Bytes → Option (List Element)
  | _, [] => some []
  | 0, _ => none
  | k + 1, b => do
    let (e, r) ← read b
    let es ← readMany k r
    return e :: es

/-- The elements that a string consists of. -/
def split? (b : Bytes) : Option (List Element) :=
  readMany b.length b

/-- The octets of elements in a row. -/
def join (es : List Element) : Bytes :=
  es.flatMap encode

/-- The element that a string consists of. -/
def ofBytes? (b : Bytes) : Option Element :=
  match read b with
  | some (e, []) => some e
  | _ => none

/-- An element that is made of elements. -/
def ofElements (tag : Tag) (es : List Element) : Element :=
  ⟨tag, join es⟩

/-- The elements inside an element with a given tag. -/
def elements? (tag : Tag) (e : Element) : Option (List Element) :=
  if e.tag = tag then split? e.content else none

/-- The element under an outer tag. -/
def wrap (number : Nat) (e : Element) : Element :=
  ⟨.contextOf true number, e.encode⟩

/-- An element whose tag is replaced by a number; it stays made of elements or not. -/
def retag (number : Nat) (e : Element) : Element :=
  ⟨.contextOf e.tag.isConstructed number, e.content⟩

end Element

end CertEnroll.Der
