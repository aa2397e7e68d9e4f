import CertEnroll.Der.Element

/-!
# Der.Oid — object identifiers

An object identifier is kept as its content octets, which decide whether two of them are equal.  The
first octet holds two arcs, and each further arc is a number in base 128 whose last octet is the only
one below 128.  An object identifier that is made of a dotted text keeps the octets written for it, also
where they spell other arcs or are too many to be read.
-/

namespace CertEnroll.Der

/-! ### Content octets -/

/-- Whether octets are the content of an object identifier: the last arc ends with them. -/
def isOidContent (b : Bytes) : Bool :=
  2 ≤ b.length && b.length ≤ 39 && b.headD 255 < 120 && b.getLastD 255 < 128

/-- Whether the arcs of octets are small enough to be read; `size` counts the octets of an arc begun.
An octet after the fourth of an arc has to be below sixteen. -/
def arcsFit : Nat → Bytes → Bool
  | _, [] => true
  | size, b :: r =>
    if 4 ≤ size && 16 ≤ b then false
    else arcsFit (if b < 128 then 0 else size + 1) r

/-- The fewest content octets of an object identifier that is read. -/
def shortestOid : Nat := 3

/-- An object identifier. -/
structure Oid where
  /-- The content octets. -/
  content : Bytes
  /-- The content is well formed. -/
  valid : isOidContent content = true
  deriving DecidableEq, Repr

namespace Oid

/-- One more than the greatest arc. -/
def arcLimit : Nat := 0x100000000

/-- The number of octets kept for an arc. -/
def arcWidth (n : Nat) : Nat :=
  if n < 0x80 then 1
  else if n < 0x4000 then 2
  else if n < 0x200000 then 3
  else if n < 0x20000000 then 4
  else 5

/-- An octet of an arc; all but the last are marked. -/
def arcOctet (last : Bool) (digit : Nat) : UInt8 :=
  UInt8.ofNat (if last then digit else digit % 128 + 128)

/-- The octets of an arc that has a given width: digits in base 128, from the last octet back, as long
as more than 128 is left.  What is left then goes into the first octet, and the octets between stay
zero; an arc left with 128 there is read as another number, or as several. -/
def arcOctets : Nat → Nat → Bool → Option Bytes
  | 0, _, _ => none
  | width + 1, n, last =>
    if n ≤ 128 then some (arcOctet last n :: List.replicate width 0)
    else (arcOctets width (n / 128) false).map (· ++ [arcOctet last (n % 128)])

/-- The content octets of a list of arcs. -/
def contentOfArcs? : List Nat → Option Bytes
  | a :: b :: rest => do
    guard (a ≤ 2 ∧ b ≤ 39)
    let later ← rest.mapM fun n => arcOctets (arcWidth n) n true
    return UInt8.ofNat (40 * a + b) :: later.flatten
  | _ => none

/-- The object identifier with given content octets. -/
def ofContent? (b : Bytes) : Option Oid :=
  if h : isOidContent b = true then some ⟨b, h⟩ else none

/-- The object identifier of a list of arcs. -/
def ofArcs (arcs : List Nat)
    (valid : isOidContent ((contentOfArcs? arcs).getD []) = true := by decide) : Oid :=
  ⟨(contentOfArcs? arcs).getD [], valid⟩

/-- The object identifier that content octets are read as. -/
def read? (b : Bytes) : Option Oid :=
  if shortestOid ≤ b.length && arcsFit 0 (b.drop 1) then ofContent? b else none

/-- The arcs after the first two; `acc` is the arc begun, kept below `arcLimit`. -/
def laterArcs : Nat → Bytes → List Nat
  | _, [] => []
  | acc, b :: r =>
    let acc := (128 * acc + b.toNat % 128) % arcLimit
    if b < 128 then acc :: laterArcs 0 r else laterArcs acc r

/-- The arcs of an object identifier. -/
def arcs (o : Oid) : List Nat :=
  let first := (o.content.headD 0).toNat
  first / 40 :: first % 40 :: laterArcs 0 (o.content.drop 1)

/-- The arcs in decimal, with dots between them. -/
def dotted (o : Oid) : String :=
  String.intercalate "." (o.arcs.map fun n => toString n)

/-- The arc that digits spell; no digits spell zero. -/
def arcOfDigits? (s : List Char) : Option Nat :=
  if s.all Text.isDigit then some (Text.decimal s % arcLimit) else none

/-- The most content octets of an object identifier that is made of a text. -/
def longestDotted : Nat := 38

/-- The object identifier that a dotted text names.  The text starts and ends with a digit. -/
def ofDotted? (s : String) : Option Oid := do
  let parts := (s.splitOn ".").map String.toList
  guard (parts.headD [] ≠ [] ∧ parts.getLastD [] ≠ [])
  let content ← contentOfArcs? (← parts.mapM arcOfDigits?)
  guard (content.length ≤ longestDotted)
  ofContent? content

end Oid

end CertEnroll.Der
