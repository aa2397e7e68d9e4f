/-!
# Rsa.Power — powers modulo a number

The exponent is read bit by bit, most significant first; each bit squares the value and a one
multiplies it by the base.
-/

namespace CertEnroll.Rsa

/-- The binary digits of a number, most significant first. -/
def binaryDigits (n : Nat) : List Bool :=
  (List.range (n.log2 + 1)).reverse.map n.testBit

/-- The value after one more digit of the exponent. -/
def powerStep (base modulus acc : Nat) (digit : Bool) : Nat :=
  let square := acc * acc % modulus
  if digit then square * base % modulus else square

/-- A power modulo a number. -/
def power (base exponent modulus : Nat) : Nat :=
  (binaryDigits exponent).foldl (powerStep (base % modulus) modulus) (1 % modulus)

/-- One more digit doubles the exponent and adds the digit. -/
theorem powerStep_pow (base modulus k : Nat) (d : Bool) :
    powerStep (base % modulus) modulus (Nat.pow base k % modulus) d =
      Nat.pow base (2 * k + d.toNat) % modulus := by
  cases d <;>
    simp [powerStep, Nat.pow_eq, Nat.two_mul, Nat.pow_add, Nat.mul_assoc]

/-- What a row of digits adds to an exponent. -/
theorem foldl_powerStep (base modulus : Nat) (ds : List Bool) (k : Nat) :
    ds.foldl (powerStep (base % modulus) modulus) (Nat.pow base k % modulus) =
      Nat.pow base (ds.foldl (fun n d => 2 * n + d.toNat) k) % modulus := by
  induction ds generalizing k with
  | nil => rfl
  | cons d ds ih => rw [List.foldl_cons, List.foldl_cons, powerStep_pow, ih]

end CertEnroll.Rsa
