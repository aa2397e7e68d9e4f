import CertEnroll.Digest.Md5
import CertEnroll.Digest.Sha1
import CertEnroll.Digest.Sha256
import CertEnroll.Digest.Sha512

/-!
# Digest — the message digests that signatures, attributes and identifiers may use
-/

namespace CertEnroll

/-- A message digest algorithm. -/
inductive Digest
  | md5
  | sha1
  | sha256
  | sha512
  deriving DecidableEq, Repr

namespace Digest

/-- Every digest algorithm. -/
def all : List Digest := [md5, sha1, sha256, sha512]

/-- The digest used where none is chosen. -/
def standard : Digest := sha256

/-- The digest of a message. -/
def hash : Digest → Bytes → Bytes
  | md5 => Md5.hash
  | sha1 => Sha1.hash
  | sha256 => Sha256.hash
  | sha512 => Sha512.hash

/-- The number of bytes of a digest. -/
def size : Digest → Nat
  | md5 => 16
  | sha1 => 20
  | sha256 => 32
  | sha512 => 64

@[simp] theorem length_hash (d : Digest) (m : Bytes) : (d.hash m).length = d.size := by
  cases d <;> simp [hash, size, Md5.hash, Sha1.hash, Sha256.hash, Sha512.hash, littleEndian]

/-- The name of a digest. -/
def name : Digest → String
  | md5 => "MD5"
  | sha1 => "SHA-1"
  | sha256 => "SHA-256"
  | sha512 => "SHA-512"

/-- The digest that a name means; case and hyphens do not count. -/
def ofName? (s : String) : Option Digest :=
  match (s.toList.filter (· ≠ '-')).map Char.toUpper with
  | ['M', 'D', '5'] => some md5
  | ['S', 'H', 'A', '1'] => some sha1
  | ['S', 'H', 'A', '2', '5', '6'] => some sha256
  | ['S', 'H', 'A', '5', '1', '2'] => some sha512
  | _ => none

end Digest

end CertEnroll
