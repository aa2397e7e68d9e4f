import CertEnroll.Der.Oid

/-!
# Der.Value — values that are written as elements and read from them

`toElement` writes a value as one element and `ofElement?` reads it.  A value made of fields is a
sequence; `Fields` reads the fields one after the other from the elements that the sequence holds, and
all of them have to be read.
-/

namespace CertEnroll

/-- Values that have an encoding. -/
class Der (α : Type) where
  /-- The element that a value is written as. -/
  toElement : α → Der.Element
  /-- The value that an element is read as. -/
  ofElement? : Der.Element → Option α

namespace Der

/-- The octets of a value. -/
def encode {α : Type} [Der α] (a : α) : Bytes :=
  (toElement a).encode

/-- The value that octets encode; nothing may follow it. -/
def decode? {α : Type} [Der α] (b : Bytes) : Option α := do
  let e ← Element.ofBytes? b
  ofElement? e

/-! ### Fields of a sequence -/

/-- A reader of the elements of a sequence. -/
abbrev Fields (α : Type) := StateT (List Element) Option α

namespace Fields

/-- The next element. -/
def next : Fields Element := fun es =>
  match es with
  | [] => none
  | e :: r => some (e, r)

/-- The next element, read as a value. -/
def value {α : Type} [Der α] : Fields α := do
  let e ← next
  (ofElement? e : Option α)

/-- The next element if there is one and its tag is acceptable. -/
def nextIf (accept : Tag → Bool) : Fields (Option Element) := fun es =>
  match es with
  | [] => some (none, [])
  | e :: r => if accept e.tag then some (some e, r) else some (none, e :: r)

/-- An optional field whose tag tells whether it is present. -/
def optional {α : Type} [Der α] (accept : Tag → Bool) : Fields (Option α) := do
  match ← nextIf accept with
  | none => return none
  | some e =>
    let a ← (ofElement? e : Option α)
    return some a

/-- Whether a tag is context-specific with a number below `n`. -/
def isBelow (n : Nat) (t : Tag) : Bool :=
  match t.contextNumber? with
  | some k => k < n
  | none => false

/-- Whether a tag is context-specific with number `n`. -/
def isNumber (n : Nat) (t : Tag) : Bool :=
  t.contextNumber? = some n

/-- Passes over fields with context-specific numbers below `n`. -/
def skipBelow (n : Nat) : Fields Unit := fun es =>
  some ((), es.dropWhile fun e => isBelow n e.tag)

/-- The field with context-specific number `n`, if present; lower numbers before it are passed over. -/
def numbered (n : Nat) : Fields (Option Element) := do
  skipBelow n
  nextIf (isNumber n)

/-- A value under an outer tag with number `n`, if present. -/
def explicit? {α : Type} [Der α] (n : Nat) : Fields (Option α) := do
  match ← numbered n with
  | none => return none
  | some e =>
    if e.tag.isConstructed then
      let a ← (decode? e.content : Option α)
      return some a
    else failure

/-- A value whose tag is replaced by number `n`, if present; `tag` is the tag replaced. -/
def implicit? {α : Type} [Der α] (n : Nat) (tag : Tag) : Fields (Option α) := do
  match ← numbered n with
  | none => return none
  | some e =>
    if e.tag.isConstructed = tag.isConstructed then
      let a ← (ofElement? { e with tag := tag } : Option α)
      return some a
    else failure

/-- A value that has to be present. -/
def required {α : Type} (f : Fields (Option α)) : Fields α := do
  match ← f with
  | none => failure
  | some a => return a

/-- Reads all of some elements. -/
def readAll {α : Type} (f : Fields α) (es : List Element) : Option α :=
  match f.run es with
  | some (a, []) => some a
  | _ => none

/-- Reads the fields of a sequence. -/
def ofSequence? {α : Type} (f : Fields α) (e : Element) : Option α := do
  let es ← e.elements? .sequence
  f.readAll es

end Fields

/-- The element of a sequence of fields. -/
def sequence (es : List Element) : Element :=
  .ofElements .sequence es

/-- A field that may be absent. -/
def optionalField (e : Option Element) : List Element := e.toList

/-! ### Values of single types -/

instance : Der Element where
  toElement e := e
  ofElement? e := some e

instance : Der Oid where
  toElement o := ⟨.objectIdentifier, o.content⟩
  ofElement? e := if e.tag = .objectIdentifier then Oid.read? e.content else none

/-- A truth value is one octet, all zeros or all ones. -/
instance : Der Bool where
  toElement b := ⟨.boolean, [if b then 0xff else 0]⟩
  ofElement? e :=
    if e.tag = .boolean then
      match e.content with
      | [0] => some false
      | [0xff] => some true
      | _ => none
    else none

/-- An octet string. -/
structure OctetString where
  /-- The octets. -/
  bytes : Bytes
  deriving DecidableEq, Repr

instance : Der OctetString where
  toElement s := ⟨.octetString, s.bytes⟩
  ofElement? e := if e.tag = .octetString then some ⟨e.content⟩ else none

/-- A string of bits: octets, of whose last some low bits do not count. -/
structure BitString where
  /-- The number of bits that do not count. -/
  unused : Nat
  /-- The octets. -/
  bytes : Bytes
  /-- Fewer than eight bits are left out, and none without octets. -/
  valid : (unused < 8 ∧ (bytes = [] → unused = 0))
  deriving DecidableEq

/-- A string of whole octets. -/
def BitString.ofBytes (b : Bytes) : BitString :=
  ⟨0, b, by decide, fun _ => rfl⟩

instance : Der BitString where
  toElement s := ⟨.bitString, UInt8.ofNat s.unused :: s.bytes⟩
  ofElement? e :=
    if e.tag = .bitString then
      match e.content with
      | [] => none
      | u :: b =>
        if h : u.toNat < 8 ∧ (b = [] → u.toNat = 0) then some ⟨u.toNat, b, h⟩ else none
    else none

/-- A number between 0 and 127 in one octet. -/
structure SmallNumber (bound : Nat) where
  /-- The number. -/
  value : Nat
  /-- The number is at most the bound, and the bound fits one octet. -/
  le_bound : value ≤ bound ∧ bound < 128
  deriving DecidableEq

instance (bound : Nat) : Der (SmallNumber bound) where
  toElement n := ⟨.integer, [UInt8.ofNat n.value]⟩
  ofElement? e :=
    if e.tag = .integer then
      match e.content with
      | [b] => if h : b.toNat ≤ bound ∧ bound < 128 then some ⟨b.toNat, h⟩ else none
      | _ => none
    else none

/-! ### Sequences of values of one type -/

instance {α : Type} [Der α] : Der (List α) where
  toElement l := sequence (l.map toElement)
  ofElement? e := do
    let es ← e.elements? .sequence
    es.mapM ofElement?

end Der

end CertEnroll
