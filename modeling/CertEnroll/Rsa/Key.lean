import CertEnroll.Bytes

/-!
# Rsa.Key — public and private keys and the checks made on them

A key is made of natural numbers.  The checks are made in a fixed order, and the first that fails
names the fault.
-/

namespace CertEnroll.Rsa

/-- What is wrong with a key or with its use. -/
inductive Fault
  | modulusTooLarge
  | exponentTooLarge
  | exponentTooSmall
  | invalidModulus
  | invalidExponent
  | invalidPrime
  | messageTooLong
  | inconsistent
  deriving DecidableEq, Repr

/-- The wording of a fault. -/
def Fault.message : Fault → String
  | modulusTooLarge => "modulus too large"
  | exponentTooLarge => "public exponent too large"
  | exponentTooSmall => "public exponent too small"
  | invalidModulus => "invalid modulus"
  | invalidExponent => "invalid exponent"
  | invalidPrime => "invalid prime value"
  | messageTooLong => "message too long"
  | inconsistent => "internal error"

/-- A public key. -/
structure PublicKey where
  /-- The modulus. -/
  modulus : Nat
  /-- The public exponent. -/
  exponent : Nat
  deriving DecidableEq, Repr

/-- A private key with the primes of its modulus.  There are exactly two of them: a key over more primes,
which the standard also has, is not one of these. -/
structure PrivateKey where
  /-- The public half. -/
  publicKey : PublicKey
  /-- The private exponent. -/
  secret : Nat
  /-- The first prime. -/
  prime1 : Nat
  /-- The second prime. -/
  prime2 : Nat
  deriving DecidableEq, Repr

/-- The number of bytes of the modulus. -/
def PublicKey.size (k : PublicKey) : Nat := Bytes.digitCount k.modulus

/-- The number of bits of the greatest modulus of a key that comes from outside. -/
def modulusBits : Nat := 4096

/-- The greatest public exponent. -/
def maxExponent : Nat := 0x1ffffffff

/-- Fails with a fault unless a condition holds. -/
def require (condition : Bool) (fault : Fault) : Except Fault Unit :=
  if condition then .ok () else .error fault

/-- The checks on the public half of a key; the modulus may be of any size. -/
def PublicKey.check (k : PublicKey) : Except Fault Unit := do
  require (k.exponent < 0x10000000000000000) .exponentTooLarge
  require (k.exponent < k.modulus && k.modulus % 2 = 1) .invalidModulus
  require (k.exponent % 2 = 1) .invalidExponent
  require (2 ≤ k.exponent) .exponentTooSmall
  require (k.exponent ≤ maxExponent) .exponentTooLarge

/-- A public key that comes from outside. -/
def PublicKey.ofNumbers (modulus exponent : Nat) : Except Fault PublicKey := do
  require (modulus = 0 || modulus.log2 < modulusBits) .modulusTooLarge
  let k : PublicKey := ⟨modulus, exponent⟩
  k.check
  return k

/-- The checks on a private key: its public half, its primes and its exponents. -/
def PrivateKey.check (k : PrivateKey) : Except Fault Unit := do
  k.publicKey.check
  require (1 < k.prime1 && 1 < k.prime2) .invalidPrime
  require (k.prime1 * k.prime2 = k.publicKey.modulus) .invalidModulus
  require (k.secret * k.publicKey.exponent % (k.prime1 - 1) = 1) .invalidExponent
  require (k.secret * k.publicKey.exponent % (k.prime2 - 1) = 1) .invalidExponent

/-- A private key that passes the checks. -/
def PrivateKey.checked (k : PrivateKey) : Except Fault PrivateKey := do
  k.check
  return k

end CertEnroll.Rsa
