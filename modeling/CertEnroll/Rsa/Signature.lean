import CertEnroll.Digest.Identifier
import CertEnroll.Rsa.Inverse
import CertEnroll.Rsa.Key
import CertEnroll.Rsa.Power

/-!
# Rsa.Signature — signatures over digests

The digest and its algorithm are filled up to the size of the key; a signature is accepted if it opens
to exactly that string.
-/

namespace CertEnroll

open Der (OctetString sequence)

namespace Rsa

/-- A digest and its algorithm. -/
def digestInfo (d : Digest) (m : Bytes) : Bytes :=
  (sequence [Der.toElement d.algorithmId, Der.toElement (⟨d.hash m⟩ : OctetString)]).encode

/-- The string of `size` bytes that is signed, if it fits. -/
def signedBlock? (size : Nat) (info : Bytes) : Option Bytes :=
  if size < info.length + 11 then none
  else some (0 :: 1 :: List.replicate (size - info.length - 3) 0xff ++ 0 :: info)

/-- The number that leaves given remainders at the two primes; `u` is the inverse of the second prime
at the first. -/
def PrivateKey.join (k : PrivateKey) (u r1 r2 : Nat) : Nat :=
  let step := (r1 + (k.prime1 - r2 % k.prime1)) * u % k.prime1
  r2 + step * k.prime2

/-- The power of a number to the private exponent.  It is taken at each prime, where the exponent
counts only up to a multiple of the prime less one, unless the primes have a common factor. -/
def PrivateKey.power (k : PrivateKey) (n : Nat) : Nat :=
  match inverse? k.prime2 k.prime1 with
  | some u =>
    k.join u (Rsa.power n (k.secret % (k.prime1 - 1)) k.prime1)
      (Rsa.power n (k.secret % (k.prime2 - 1)) k.prime2)
  | none => Rsa.power n k.secret k.publicKey.modulus

/-- What the private exponent makes of a number, if the public exponent undoes it. -/
def PrivateKey.apply? (k : PrivateKey) (n : Nat) : Option Nat :=
  let r := k.power n
  if Rsa.power r k.publicKey.exponent k.publicKey.modulus = n then some r else none

/-- The signature of a message, or the fault that prevents it. -/
def sign (d : Digest) (k : PrivateKey) (m : Bytes) : Except Fault Bytes :=
  let size := k.publicKey.size
  match signedBlock? size (digestInfo d m) with
  | none => .error .messageTooLong
  | some block =>
    match k.apply? (Bytes.toNat block) with
    | none => .error .inconsistent
    | some s => .ok (Bytes.ofNat size s)

/-- Whether a signature of a message is right. -/
def verifies (d : Digest) (k : PublicKey) (m signature : Bytes) : Bool :=
  let n := Bytes.toNat signature
  signature.length = k.size && n < k.modulus &&
    signedBlock? k.size (digestInfo d m) = some (Bytes.ofNat k.size (power n k.exponent k.modulus))

end Rsa

/-- The signature of a message. -/
def Digest.sign (d : Digest) (k : Rsa.PrivateKey) (m : Bytes) : Result Bytes :=
  (Rsa.sign d k m).mapError .rsa

/-- Succeeds if a signature of a message is right. -/
def Digest.verify (d : Digest) (k : Rsa.PublicKey) (m signature : Bytes) : Result Unit :=
  if Rsa.verifies d k m signature then .ok () else .error .verification

end CertEnroll
