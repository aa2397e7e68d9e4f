import CertEnroll.Rsa.Signature

/-!
# Rsa.Encryption — short messages encrypted for the holder of a private key

A message is put behind at least eight random bytes, none of them zero, and a zero.
-/

namespace CertEnroll.Rsa

/-- The number of zero bytes in a row after which a random stream is given up. -/
def drawLimit : Nat := 0x100000000

/-- Random bytes none of which is zero: the zeros among given bytes are replaced. -/
def replaceZeros : Bytes → StateM Random Bytes
  | [] => pure []
  | b :: r => do
    let b ← if b = 0 then Random.drawNonZero drawLimit else pure b
    let r ← replaceZeros r
    return b :: r

/-- The message behind its filling. -/
def encryptedBlock (filling m : Bytes) : Bytes :=
  0 :: 2 :: filling ++ 0 :: m

/-- The message of a filled block. -/
def openBlock? : Bytes → Option Bytes
  | 0 :: 2 :: r =>
    let filling := r.takeWhile (· ≠ 0)
    match r.dropWhile (· ≠ 0) with
    | 0 :: m => if 8 ≤ filling.length then some m else none
    | _ => none
  | _ => none

/-- Encrypts a message. -/
def encrypt (k : PublicKey) (m : Bytes) : Drawing Bytes := do
  if k.size < m.length + 11 then
    throw (.rsa .messageTooLong)
  let start ← (Random.draw (k.size - m.length - 3) : StateM Random Bytes)
  let filling ← (replaceZeros start : StateM Random Bytes)
  let n := Bytes.toNat (encryptedBlock filling m)
  return Bytes.ofNat k.size (power n k.exponent k.modulus)

/-- The message of a ciphertext of any length. -/
def decrypt? (k : PrivateKey) (c : Bytes) : Option Bytes := do
  let n := Bytes.toNat c
  guard (n < k.publicKey.modulus)
  let r ← k.apply? n
  openBlock? (Bytes.ofNat k.publicKey.size r)

end CertEnroll.Rsa
