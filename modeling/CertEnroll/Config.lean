import CertEnroll.Cipher
import CertEnroll.Digest
import CertEnroll.Nonce

/-!
# Config — the choices a requester makes for a transaction
-/

namespace CertEnroll

/-- The choices for a transaction. -/
structure Config where
  /-- The digest under signatures and in ids made from keys. -/
  digest : Digest
  /-- The cipher of envelopes. -/
  cipher : Cipher
  /-- The number of bytes of the nonce of a request. -/
  nonceSize : Nat
  /-- Whether the signatures of answers are verified. -/
  verifies : Bool
  deriving DecidableEq, Repr

/-- The usual choices. -/
def Config.standard : Config :=
  ⟨.standard, .standard, Nonce.standardSize, true⟩

end CertEnroll
