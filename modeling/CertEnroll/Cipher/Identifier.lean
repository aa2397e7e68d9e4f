import CertEnroll.Cipher
import CertEnroll.Der.Document
import CertEnroll.X509.Name

/-!
# Cipher.Identifier — how ciphers are named in messages, and encryption under checked lengths
-/

namespace CertEnroll.Cipher

open Der (Oid)
open X509 (AlgorithmId)

/-- The object identifier of a cipher. -/
def oid : Cipher → Oid
  | des => .ofArcs [1, 3, 14, 3, 2, 7]
  | tripleDes => .ofArcs [1, 2, 840, 113549, 3, 7]
  | aes128 => .ofArcs [2, 16, 840, 1, 101, 3, 4, 1, 2]

/-- The cipher with a given object identifier. -/
def ofOid (o : Oid) : Result Cipher :=
  Result.ofOption (.unsupportedAlgorithm o) (all.find? fun c => c.oid = o)

/-- The cipher that a name means. -/
def parse (s : String) : Result Cipher :=
  Result.ofOption (.unknownAlgorithmName s) (ofName? s)

/-- The algorithm of a cipher with an initial vector. -/
def algorithmId (c : Cipher) (iv : Bytes) : Result AlgorithmId := do
  return ⟨c.oid, some ⟨.octetString, ← Der.bounded iv⟩⟩

/-- The cipher of an algorithm and its initial vector, whose length has to be right. -/
def ofAlgorithmId (a : AlgorithmId) : Result (Cipher × Bytes) := do
  let c ← ofOid a.algorithm
  match a.parameters with
  | some ⟨.octetString, iv⟩ => if iv.length = c.blockSize then .ok (c, iv) else .error .invalidKeyLength
  | _ => .error .invalidKeyLength

/-- Encrypts a message. -/
def encrypt (c : Cipher) (key iv m : Bytes) : Result Bytes :=
  if c.fits key iv then .ok (c.ciphertext key iv m) else .error .invalidKeyLength

/-- Decrypts a ciphertext. -/
def decrypt (c : Cipher) (key iv m : Bytes) : Result Bytes :=
  if c.fits key iv then Result.ofOption .decryption (c.plaintext? key iv m)
  else .error .invalidKeyLength

end CertEnroll.Cipher
