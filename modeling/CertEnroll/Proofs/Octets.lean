import CertEnroll.Bytes
import Mathlib.Data.List.Induction
import Mathlib.Tactic.Ring

/-!
# Proofs.Octets — numbers and the octets that spell them

Reading a number from octets and writing it in a fixed width undo each other, up to the numbers that do
not fit.  `digitCount` is the least width that holds a number.
-/

namespace CertEnroll.Bytes

/-! ### Reading and writing -/

@[simp] theorem toNat_nil : toNat [] = 0 := rfl

theorem toNat_concat (b : Bytes) (d : UInt8) : toNat (b ++ [d]) = 256 * toNat b + d.toNat := by
  simp [toNat]

/-- A zero in front does not count. -/
@[simp] theorem toNat_zero_cons (b : Bytes) : toNat (0 :: b) = toNat b := rfl

theorem toNat_lt (b : Bytes) : toNat b < 256 ^ b.length := by
  induction b using List.reverseRecOn with
  | nil => simp
  | append_singleton b d ih =>
    have hd := d.toNat_lt
    rw [toNat_concat, List.length_append, List.length_singleton, Nat.pow_succ]
    omega

theorem toNat_ofNat (w n : Nat) : toNat (ofNat w n) = n % 256 ^ w := by
  induction w generalizing n with
  | zero => simp [ofNat, Nat.mod_one]
  | succ w ih =>
    have hd : (UInt8.ofNat n).toNat = n % 256 := by simp
    rw [ofNat, toNat_concat, ih, hd, Nat.pow_succ, Nat.mul_comm (256 ^ w) 256, Nat.mod_mul]
    omega

theorem toNat_ofNat_of_lt {w n : Nat} (h : n < 256 ^ w) : toNat (ofNat w n) = n := by
  rw [toNat_ofNat, Nat.mod_eq_of_lt h]

/-- Octets are the number they spell, written in their own width. -/
theorem ofNat_toNat (b : Bytes) : ofNat b.length (toNat b) = b := by
  induction b using List.reverseRecOn with
  | nil => rfl
  | append_singleton b d ih =>
    have hd := d.toNat_lt
    have hq : (256 * toNat b + d.toNat) / 256 = toNat b := by omega
    have hr : UInt8.ofNat (256 * toNat b + d.toNat) = d := by
      apply UInt8.toNat_inj.mp
      rw [UInt8.toNat_ofNat']
      omega
    rw [List.length_append, List.length_singleton, ofNat, toNat_concat, hq, hr, ih]

/-- Octets of one length are told apart by the numbers they spell. -/
theorem toNat_inj {a b : Bytes} (hl : a.length = b.length) (h : toNat a = toNat b) : a = b := by
  rw [← ofNat_toNat a, ← ofNat_toNat b, hl, h]

/-! ### The least width -/

theorem digitCount_le_iff {n w : Nat} : digitCount n ≤ w ↔ n < 256 ^ w := by
  have hpow : 256 ^ w = 2 ^ (8 * w) := by rw [Nat.pow_mul]
  unfold digitCount
  split
  case isTrue h =>
    rw [h]
    exact iff_of_true (Nat.zero_le w) (Nat.pow_pos (by decide))
  case isFalse h =>
    have hlog := Nat.log2_lt h (k := 8 * w)
    rw [hpow, ← hlog]
    omega

theorem lt_pow_digitCount (n : Nat) : n < 256 ^ digitCount n :=
  digitCount_le_iff.mp (Nat.le_refl _)

theorem pow_le_of_lt_digitCount {n w : Nat} (h : w < digitCount n) : 256 ^ w ≤ n := by
  have := digitCount_le_iff (n := n) (w := w)
  omega

theorem digitCount_le_of_log2 {n w : Nat} (h : n = 0 ∨ n.log2 < 8 * w) : digitCount n ≤ w := by
  have hpow : 256 ^ w = 2 ^ (8 * w) := by rw [Nat.pow_mul]
  rw [digitCount_le_iff, hpow]
  by_cases hzero : n = 0
  · rw [hzero]
    exact Nat.two_pow_pos _
  · exact (Nat.log2_lt hzero).mp (h.resolve_left hzero)

theorem toNat_ofNatMin (n : Nat) : toNat (ofNatMin n) = n :=
  toNat_ofNat_of_lt (lt_pow_digitCount n)

@[simp] theorem length_ofNatMin (n : Nat) : (ofNatMin n).length = digitCount n :=
  length_ofNat _ _

end CertEnroll.Bytes
