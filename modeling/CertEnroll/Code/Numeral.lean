import CertEnroll.Error
import CertEnroll.Text.Digits

/-!
# Code.Numeral — codes read from numbers and from decimal numerals

A numeral is a non-empty row of ASCII digits, of any length.  A code fits in one octet, and so does the
number that is kept while a numeral is read: a digit with which it no longer fits ends the reading.
-/

namespace CertEnroll

namespace Numeral

/-- The numeral of a number. -/
def ofNat (n : Nat) : String := toString n

/-- One more than the greatest number of one octet. -/
def limit : Nat := 256

/-- The member of a code set with a given number. -/
def ofCode {α : Type} (set : CodeSet) (ofCode? : Nat → Option α) (n : Nat) : Result α :=
  Result.ofOption (.invalidCode set (ofNat n)) (ofCode? n)

/-- The octet with a given number, if there is one. -/
def octet? (n : Nat) : Option UInt8 :=
  if n < limit then some (UInt8.ofNat n) else none

/-- The number of a row of digits that ends with `c`, where `n` is the number of those before it. -/
def append? (n : UInt8) (c : Char) : Option UInt8 := do
  let tens ← octet? (n.toNat * 10)
  octet? (tens.toNat + (c.toNat - 48))

/-- The number of a row of digits, which are taken from the left. -/
def value? (s : List Char) : Option UInt8 :=
  s.foldlM append? 0

/-- The member of a code set that a numeral names.  A number of one octet that is no code is reported
as the number, without leading zeros; any other text is reported as it is. -/
def parse {α : Type} (set : CodeSet) (ofCode? : Nat → Option α) (s : String) : Result α :=
  if s ≠ "" ∧ s.toList.all Text.isDigit = true then do
    let n ← Result.ofOption (.invalidCode set s) (value? s.toList)
    ofCode set ofCode? n.toNat
  else .error (.invalidCode set s)

end Numeral

/-- The message type that a numeral names. -/
def MessageType.parse : String → Result MessageType := Numeral.parse .messageType ofCode?

/-- The message type with a given number. -/
def MessageType.ofCode : Nat → Result MessageType := Numeral.ofCode .messageType ofCode?

/-- The status that a numeral names. -/
def PkiStatus.parse : String → Result PkiStatus := Numeral.parse .pkiStatus ofCode?

/-- The status with a given number. -/
def PkiStatus.ofCode : Nat → Result PkiStatus := Numeral.ofCode .pkiStatus ofCode?

/-- The failure reason that a numeral names. -/
def FailInfo.parse : String → Result FailInfo := Numeral.parse .failInfo ofCode?

/-- The failure reason with a given number. -/
def FailInfo.ofCode : Nat → Result FailInfo := Numeral.ofCode .failInfo ofCode?

end CertEnroll
