import CertEnroll.Cipher.Aes
import CertEnroll.Cipher.Des
import CertEnroll.Cipher.Padding
import CertEnroll.Random

/-!
# Cipher — the content ciphers of an envelope

Each is a block cipher in chaining mode on a padded message.  `encrypt?` and `decrypt` want a key and
an initial vector of the right lengths; `decrypt` moreover wants a ciphertext that some message has.
-/

namespace CertEnroll

/-- A content cipher. -/
inductive Cipher
  | des
  | tripleDes
  | aes128
  deriving DecidableEq, Repr

namespace Cipher

/-- Every content cipher. -/
def all : List Cipher := [des, tripleDes, aes128]

/-- The cipher used where none is chosen. -/
def standard : Cipher := tripleDes

/-- The name of a cipher. -/
def name : Cipher → String
  | des => "DES"
  | tripleDes => "DES3"
  | aes128 => "AES"

/-- The cipher that a name means; case and hyphens do not count. -/
def ofName? (s : String) : Option Cipher :=
  match (s.toList.filter (· ≠ '-')).map Char.toUpper with
  | ['D', 'E', 'S'] => some des
  | ['D', 'E', 'S', '3'] => some tripleDes
  | ['3', 'D', 'E', 'S'] => some tripleDes
  | ['D', 'E', 'S', 'E', 'D', 'E'] => some tripleDes
  | ['T', 'R', 'I', 'P', 'L', 'E', 'D', 'E', 'S'] => some tripleDes
  | ['A', 'E', 'S'] => some aes128
  | ['A', 'E', 'S', '1', '2', '8'] => some aes128
  | _ => none

/-- The number of bytes of a key. -/
def keySize : Cipher → Nat
  | des => 8
  | tripleDes => 24
  | aes128 => 16

/-- The number of bytes of a block and of an initial vector. -/
def blockSize : Cipher → Nat
  | des => 8
  | tripleDes => 8
  | aes128 => 16

/-- The block cipher of a key. -/
def blockCipher : Cipher → Bytes → BlockCipher
  | des => Des.cipher
  | tripleDes => Des.tripleCipher
  | aes128 => Aes.cipher

/-- Whether a key and an initial vector have the lengths that a cipher wants. -/
def fits (c : Cipher) (key iv : Bytes) : Bool :=
  key.length = c.keySize && iv.length = c.blockSize

/-- The ciphertext of a message under a key and an initial vector of the right lengths. -/
def ciphertext (c : Cipher) (key iv m : Bytes) : Bytes :=
  (c.blockCipher key).encryptChained iv (pad c.blockSize m)

/-- The message of a ciphertext, if the ciphertext consists of whole blocks, at least one, and what
they decrypt to is a padded message. -/
def plaintext? (c : Cipher) (key iv m : Bytes) : Option Bytes :=
  if m.length % c.blockSize = 0 then
    unpad? c.blockSize ((c.blockCipher key).decryptChained iv m)
  else none

/-! ### Fresh keys -/

/-- A fresh key; the bytes of a DES key have odd parity. -/
def drawKey (c : Cipher) : StateM Random Bytes := do
  let key ← Random.draw c.keySize
  match c with
  | aes128 => pure key
  | _ => pure (key.map Des.oddParity)

/-- A fresh initial vector. -/
def drawIv (c : Cipher) : StateM Random Bytes :=
  Random.draw c.blockSize

end Cipher

end CertEnroll
