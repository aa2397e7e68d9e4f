/-!
# Rsa.Inverse — inverses modulo a number

Euclid's algorithm is run on the modulus and a number, and beside each remainder it keeps a multiplier
that gives the number that remainder.  Main statement: what `inverse?` finds is an inverse
(`mul_inverse?`).
-/

namespace CertEnroll.Rsa

/-- Euclid's algorithm on the last two remainders and their multipliers; the result is the greatest
common divisor and its multiplier. -/
def euclid (r s : Nat) (t u : Int) : Nat × Int :=
  if s = 0 then (r, t)
  else euclid s (r % s) u (t - (r / s : Nat) * u)
termination_by s
decreasing_by exact Nat.mod_lt _ (Nat.pos_of_ne_zero ‹_›)

/-- The inverse of a number, if it has no common factor with the modulus. -/
def inverse? (n modulus : Nat) : Option Nat :=
  match euclid modulus (n % modulus) 0 1 with
  | (1, t) => some (t % modulus).toNat
  | _ => none

/-- Multipliers that give their remainders go on doing so. -/
theorem dvd_euclid {n m : Int} (r s : Nat) (t u : Int) (hr : m ∣ t * n - r) (hs : m ∣ u * n - s) :
    m ∣ (euclid r s t u).2 * n - (euclid r s t u).1 := by
  fun_induction euclid r s t u with
  | case1 r t u => exact hr
  | case2 r s t u h ih =>
    refine ih hs ?_
    have hq : (r : Int) = s * (r / s : Nat) + (r % s : Nat) := by
      exact_mod_cast (Nat.div_add_mod r s).symm
    have : (t - (r / s : Nat) * u) * n - (r % s : Nat) =
        (t * n - r) - (r / s : Nat) * (u * n - s) := by
      rw [hq]
      simp only [Int.sub_mul, Int.mul_sub, Int.mul_assoc, Int.mul_comm (s : Int)]
      omega
    rw [this]
    exact Int.dvd_sub hr (Int.dvd_mul_of_dvd_right hs)

/-- What is found is an inverse. -/
theorem mul_inverse? {n m u : Nat} (hm : 1 < m) (h : inverse? n m = some u) : n * u % m = 1 := by
  have hd := dvd_euclid (n := n) (m := m) m (n % m) 0 1 (by simp) (by
    rw [Int.one_mul, Int.natCast_emod]
    exact Int.dvd_self_sub_emod)
  unfold inverse? at h
  split at h
  case h_2 => cases h
  case h_1 t e =>
    rw [e] at hd
    cases h
    have hpos : (m : Int) ≠ 0 := by omega
    have hu : (((t % m).toNat : Nat) : Int) = t % m := Int.toNat_of_nonneg (Int.emod_nonneg t hpos)
    have h1 : t * n % (m : Int) = 1 % m :=
      Int.emod_eq_emod_iff_emod_sub_eq_zero.mpr (Int.emod_eq_zero_of_dvd hd)
    have one : (1 : Int) % m = 1 := Int.emod_eq_of_lt (by omega) (by omega)
    apply Int.ofNat_inj.mp
    rw [Int.natCast_emod, Int.natCast_mul, hu, Int.mul_emod, Int.emod_emod, ← Int.mul_emod,
      Int.mul_comm, h1, one]
    rfl

end CertEnroll.Rsa
