import CertEnroll.Der.Document
import CertEnroll.Digest.Identifier

/-!
# TransactionId.Derive — transaction ids made from a key or at random

Both are the hexadecimal text of some bytes, which stays within the alphabet of printable strings.
-/

namespace CertEnroll

open X509 (KeyInfo)

/-! ### Hexadecimal text is printable -/

theorem Text.isPrintable_hexDigit {n : Nat} (h : n < 16) : Text.isPrintable (Text.hexDigit n) = true := by
  have : ∀ k : Fin 16, Text.isPrintable (Text.hexDigit k) = true := by decide
  exact this ⟨n, h⟩

theorem Bytes.hexDigits_printable (b : Bytes) : b.hexDigits.all Text.isPrintable = true := by
  induction b with
  | nil => rfl
  | cons x r ih =>
    have hx := x.toNat_lt
    simp [Bytes.hexDigits, Text.isPrintable_hexDigit (show x.toNat / 16 < 16 by omega),
      Text.isPrintable_hexDigit (Nat.mod_lt x.toNat (by decide : 0 < 16)), ih]

theorem Bytes.allPrintable_toHex (b : Bytes) : Text.allPrintable b.toHex = true := by
  simp [Text.allPrintable, Bytes.toHex, Bytes.hexDigits_printable]

theorem Bytes.length_hexDigits (b : Bytes) : b.hexDigits.length = 2 * b.length := by
  induction b with
  | nil => rfl
  | cons x r ih =>
    simp only [Bytes.hexDigits, List.length_cons, ih]
    omega

/-- The hexadecimal text of octets, of which there are some and not too many, names a transaction. -/
theorem Bytes.isName_toHex {b : Bytes} (h : 0 < b.length ∧ 2 * b.length ≤ Der.maxLength) :
    Text.IsName b.toHex := by
  have hlength : b.toHex.length = 2 * b.length := by
    rw [Bytes.toHex, String.length_ofList, b.length_hexDigits]
  refine ⟨fun hempty => ?_, b.allPrintable_toHex, hlength ▸ h.2⟩
  rw [hempty, String.length_empty] at hlength
  omega

namespace TransactionId

/-- The transaction id that is the hexadecimal text of some bytes. -/
def ofBytes (b : Bytes) (h : 0 < b.length ∧ 2 * b.length ≤ Der.maxLength) : TransactionId :=
  ⟨b.toHex, Bytes.isName_toHex h⟩

theorem length_hash_bounds (d : Digest) (b : Bytes) :
    0 < (d.hash b).length ∧ 2 * (d.hash b).length ≤ Der.maxLength := by
  rw [Digest.length_hash]
  cases d <;> decide

/-- The transaction id of a public key: the digest of the key structure.  A structure that has no document
has none. -/
def ofKey (k : KeyInfo) (d : Digest) : Result TransactionId := do
  return ofBytes (d.hash (← Der.write k)) (length_hash_bounds d _)

/-- The number of random bytes of a transaction id. -/
def randomSize : Nat := 16

theorem length_draw_bounds (r : Random) :
    0 < ((Random.draw randomSize).run r).1.length ∧
      2 * ((Random.draw randomSize).run r).1.length ≤ Der.maxLength := by
  rw [Random.length_draw]
  decide

/-- A random transaction id. -/
def draw : StateM Random TransactionId := fun r =>
  let drawn := (Random.draw randomSize).run r
  (ofBytes drawn.1 (length_draw_bounds r), drawn.2)

end TransactionId

end CertEnroll
