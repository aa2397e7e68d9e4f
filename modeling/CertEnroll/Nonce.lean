import CertEnroll.Random

/-!
# Nonce — random strings that tie an answer to its request
-/

namespace CertEnroll

/-- A nonce. -/
structure Nonce where
  bytes : Bytes
  deriving DecidableEq, Repr

namespace Nonce

/-- The number of bytes of a nonce where no other is chosen. -/
def standardSize : Nat := 16

/-- A fresh nonce of `n` bytes. -/
def draw (n : Nat) : StateM Random Nonce := do
  return ⟨← Random.draw n⟩

/-- A nonce as it is shown. -/
def text (n : Nonce) : String :=
  "Nonce(" ++ n.bytes.toHex ++ ")"

end Nonce

end CertEnroll
