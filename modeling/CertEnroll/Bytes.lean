import CertEnroll.Text.Digits

/-!
# Bytes — octet strings, their hexadecimal text and the numbers they spell

An octet string is a list of bytes.  `toHex` writes two lower-case digits per byte and `ofHex?` reads
digits of either case back; `toNat` reads a string as a big-endian number, and `ofNat w` is its
inverse on the strings of width `w`.
-/

namespace CertEnroll

/-- An octet string. -/
abbrev Bytes := List UInt8

namespace Bytes

/-! ### Hexadecimal text -/

/-- The digits of a string, two for each byte, the high half first. -/
def hexDigits : Bytes → List Char
  | [] => []
  | b :: r => Text.hexDigit (b.toNat / 16) :: Text.hexDigit (b.toNat % 16) :: hexDigits r

/-- The lower-case hexadecimal text of a string. -/
def toHex (b : Bytes) : String :=
  String.ofList b.hexDigits

/-- The string that a list of hexadecimal digits spells; the digits come in pairs. -/
def ofHexDigits? : List Char → Option Bytes
  | [] => some []
  | [_] => none
  | h :: l :: r => do
    let h ← Text.hexValue? h
    let l ← Text.hexValue? l
    let r ← ofHexDigits? r
    return UInt8.ofNat (16 * h + l) :: r

/-- The string that a hexadecimal text spells. -/
def ofHex? (s : String) : Option Bytes :=
  ofHexDigits? s.toList

theorem ofHexDigits?_hexDigits (b : Bytes) : ofHexDigits? b.hexDigits = some b := by
  induction b with
  | nil => rfl
  | cons x r ih =>
    have hx := x.toNat_lt
    have low := Text.hexValue?_hexDigit (Nat.mod_lt x.toNat (by decide : 0 < 16))
    have high := Text.hexValue?_hexDigit (show x.toNat / 16 < 16 by omega)
    have join : UInt8.ofNat (16 * (x.toNat / 16) + x.toNat % 16) = x := by
      rw [Nat.div_add_mod, UInt8.ofNat_toNat]
    simp only [hexDigits, ofHexDigits?, low, high, ih]
    exact congrArg (fun y => some (y :: r)) join

/-- The hexadecimal text of a string spells the string. -/
theorem ofHex?_toHex (b : Bytes) : ofHex? b.toHex = some b := by
  simp [ofHex?, toHex, ofHexDigits?_hexDigits]

/-! ### Big-endian numbers -/

/-- The number whose base-256 digits, most significant first, are the bytes. -/
def toNat (b : Bytes) : Nat :=
  b.foldl (fun n d => 256 * n + d.toNat) 0

/-- The last `w` base-256 digits of a number, most significant first. -/
def ofNat : Nat → Nat → Bytes
  | 0, _ => []
  | w + 1, n => ofNat w (n / 256) ++ [UInt8.ofNat n]

/-- The number of base-256 digits of `n`, none for zero. -/
def digitCount (n : Nat) : Nat :=
  if n = 0 then 0 else n.log2 / 8 + 1

/-- The base-256 digits of `n` without leading zeros. -/
def ofNatMin (n : Nat) : Bytes :=
  ofNat (digitCount n) n

@[simp] theorem length_ofNat (w n : Nat) : (ofNat w n).length = w := by
  induction w generalizing n with
  | zero => rfl
  | succ w ih => simp [ofNat, ih]

/-! ### Pieces of a string -/

/-- Bytewise exclusive or, as long as the shorter string. -/
def xor (a b : Bytes) : Bytes :=
  List.zipWith (· ^^^ ·) a b

/-- The first `k` pieces of `n` bytes each. -/
def chunks (n : Nat) : Nat → Bytes → List Bytes
  | 0, _ => []
  | k + 1, b => b.take n :: chunks n k (b.drop n)

/-- The text of a string of ASCII bytes. -/
def ascii? (b : Bytes) : Option String :=
  if b.all (· < 128) then some (String.ofList (b.map fun c => Char.ofNat c.toNat)) else none

/-- The bytes of a text, one for each character of the ASCII range. -/
def ofAscii (s : String) : Bytes :=
  s.toList.map fun c => UInt8.ofNat c.toNat

/-- The UTF-8 form of a text. -/
def ofUtf8 (s : String) : Bytes :=
  s.toUTF8.data.toList

/-- The text whose UTF-8 form is the string. -/
def utf8? (b : Bytes) : Option String :=
  String.fromUTF8? ⟨b.toArray⟩

end Bytes

end CertEnroll
