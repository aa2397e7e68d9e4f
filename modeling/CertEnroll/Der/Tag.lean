import CertEnroll.Bytes

/-!
# Der.Tag — the identifier octets of encoded values

A tag is one of the universal types or a number below 31 in one of the other classes.  Every tag is
written as one octet; `ofOctet?` reads back exactly these octets.
-/

namespace CertEnroll.Der

/-- What kind of value an element holds. -/
inductive Tag
  | boolean
  | integer
  | bitString
  | octetString
  | null
  | objectIdentifier
  | real
  | enumerated
  | utf8String
  | numericString
  | printableString
  | teletexString
  | videotexString
  | ia5String
  | utcTime
  | generalizedTime
  | visibleString
  | bmpString
  | sequence
  | set
  | application (constructed : Bool) (number : Fin 31)
  | context (constructed : Bool) (number : Fin 31)
  | privateUse (constructed : Bool) (number : Fin 31)
  deriving DecidableEq, Repr

namespace Tag

/-- The bit that marks an element made of elements. -/
def constructedBit (constructed : Bool) : Nat :=
  if constructed then 0x20 else 0

/-- The octet of a tag, as a number. -/
def code : Tag → Nat
  | boolean => 0x01
  | integer => 0x02
  | bitString => 0x03
  | octetString => 0x04
  | null => 0x05
  | objectIdentifier => 0x06
  | real => 0x09
  | enumerated => 0x0a
  | utf8String => 0x0c
  | numericString => 0x12
  | printableString => 0x13
  | teletexString => 0x14
  | videotexString => 0x15
  | ia5String => 0x16
  | utcTime => 0x17
  | generalizedTime => 0x18
  | visibleString => 0x1a
  | bmpString => 0x1e
  | sequence => 0x30
  | set => 0x31
  | application c n => 0x40 + constructedBit c + n.val
  | context c n => 0x80 + constructedBit c + n.val
  | privateUse c n => 0xc0 + constructedBit c + n.val

/-- The octet of a tag. -/
def octet (t : Tag) : UInt8 := UInt8.ofNat t.code

/-- The universal tags. -/
def universal : List Tag :=
  [boolean, integer, bitString, octetString, null, objectIdentifier, real, enumerated, utf8String,
    numericString, printableString, teletexString, videotexString, ia5String, utcTime,
    generalizedTime, visibleString, bmpString, sequence, set]

/-- The tag that an octet stands for. -/
def ofOctet? (b : UInt8) : Option Tag :=
  let n := b.toNat % 32
  let constructed := b.toNat / 32 % 2 = 1
  if b.toNat < 0x40 then universal.find? (·.octet = b)
  else if h : n < 31 then
    match b.toNat / 64 with
    | 1 => some (application constructed ⟨n, h⟩)
    | 2 => some (context constructed ⟨n, h⟩)
    | _ => some (privateUse constructed ⟨n, h⟩)
  else none

/-- Whether an element with the tag is made of elements. -/
def isConstructed : Tag → Bool
  | sequence => true
  | set => true
  | application c _ => c
  | context c _ => c
  | privateUse c _ => c
  | _ => false

/-- A context-specific tag; its number is taken modulo 31. -/
def contextOf (constructed : Bool) (number : Nat) : Tag :=
  context constructed ⟨number % 31, Nat.mod_lt number (by decide)⟩

/-- The number of a context-specific tag. -/
def contextNumber? : Tag → Option Nat
  | context _ n => some n.val
  | _ => none

theorem ofOctet?_octet (t : Tag) : ofOctet? t.octet = some t := by
  cases t with
  | application c n => revert c n; decide
  | context c n => revert c n; decide
  | privateUse c n => revert c n; decide
  | _ => decide

end Tag

end CertEnroll.Der
