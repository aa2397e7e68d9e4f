import CertEnroll.Error
import CertEnroll.X509.Certificate

/-!
# X509.PublicKey — the keys that certificates and requests carry
-/

namespace CertEnroll

open Der (BitString Fields Oid sequence)

/-! ### Natural numbers as integers -/

/-- A natural number, written as an integer. -/
structure Der.Natural where
  value : Nat
  deriving DecidableEq, Repr

/-- The content octets of a natural number: its digits, after a zero if the first is above 127. -/
def Der.naturalContent (n : Nat) : Bytes :=
  let digits := Bytes.ofNatMin n
  if n = 0 ∨ 128 ≤ digits.headD 0 then 0 :: digits else digits

instance : Der Der.Natural where
  toElement n := ⟨.integer, Der.naturalContent n.value⟩
  ofElement? e :=
    let n := Bytes.toNat e.content
    if e.tag = .integer ∧ e.content = Der.naturalContent n then some ⟨n⟩ else none

/-! ### Public keys -/

/-- The algorithm of keys that sign and encrypt. -/
def rsaEncryption : Oid := .ofArcs [1, 2, 840, 113549, 1, 1, 1]

/-- The two numbers of a public key. -/
structure Rsa.KeyNumbers where
  modulus : Der.Natural
  exponent : Der.Natural
  deriving DecidableEq

instance : Der Rsa.KeyNumbers where
  toElement k := sequence [Der.toElement k.modulus, Der.toElement k.exponent]
  ofElement? := Fields.ofSequence? do
    return ⟨← Fields.value, ← Fields.value⟩

/-- The octets of a public key. -/
def Rsa.PublicKey.encode (k : Rsa.PublicKey) : Bytes :=
  Der.encode (⟨⟨k.modulus⟩, ⟨k.exponent⟩⟩ : Rsa.KeyNumbers)

namespace X509

/-- A public key with its algorithm. -/
def KeyInfo.ofKey (k : Rsa.PublicKey) : KeyInfo :=
  ⟨.plain rsaEncryption, .ofBytes k.encode⟩

/-- The public key of a key structure, if every part of the structure is as it should be. -/
def KeyInfo.key? (k : KeyInfo) : Option Rsa.PublicKey := do
  guard (k.algorithm.parameters = some nullParameters)
  guard (k.key.unused = 0)
  let numbers ← (Der.decode? k.key.bytes : Option Rsa.KeyNumbers)
  (Rsa.PublicKey.ofNumbers numbers.modulus.value numbers.exponent.value).toOption

/-- The public key of a certificate. -/
def Certificate.publicKey (c : Certificate) : Result Rsa.PublicKey :=
  let k := c.body.keyInfo
  if k.algorithm.algorithm = rsaEncryption then Result.ofOption .publicKey k.key?
  else .error (.unsupportedAlgorithm k.algorithm.algorithm)

end X509

end CertEnroll
