import CertEnroll.Bytes

/-!
# Cipher.Chaining — cipher block chaining

Each block is combined with the encrypted block before it, the first with an initial vector.
-/

namespace CertEnroll.Cipher

/-- A permutation of blocks and its inverse. -/
structure BlockCipher where
  /-- The number of bytes of a block. -/
  size : Nat
  /-- The encrypted form of a block. -/
  encrypt : Bytes → Bytes
  /-- The block of an encrypted form. -/
  decrypt : Bytes → Bytes

namespace BlockCipher

/-- Encrypts blocks in a row; `prev` is the encrypted block before the first. -/
def chain (c : BlockCipher) : Bytes → List Bytes → List Bytes
  | _, [] => []
  | prev, p :: ps =>
    let e := c.encrypt (Bytes.xor p prev)
    e :: c.chain e ps

/-- Decrypts blocks in a row; `prev` is the encrypted block before the first. -/
def unchain (c : BlockCipher) : Bytes → List Bytes → List Bytes
  | _, [] => []
  | prev, e :: es => Bytes.xor (c.decrypt e) prev :: c.unchain e es

/-- The blocks of a string of whole blocks. -/
def blocks (c : BlockCipher) (b : Bytes) : List Bytes :=
  b.chunks c.size (b.length / c.size)

/-- Encrypts a string of whole blocks. -/
def encryptChained (c : BlockCipher) (iv m : Bytes) : Bytes :=
  (c.chain iv (c.blocks m)).flatten

/-- Decrypts a string of whole blocks. -/
def decryptChained (c : BlockCipher) (iv m : Bytes) : Bytes :=
  (c.unchain iv (c.blocks m)).flatten

end BlockCipher

end CertEnroll.Cipher
