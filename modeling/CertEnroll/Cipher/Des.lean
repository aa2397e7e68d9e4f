import CertEnroll.Cipher.Chaining

/-!
# Cipher.Des — the DES block cipher and its threefold use

A block is a list of 64 bits.  It is permuted, passes sixteen rounds that mix one half into the other,
and is permuted back; the same rounds with the subkeys in reverse order undo them.  The lowest bit of
each key byte is a parity bit that the cipher does not read.
-/

namespace CertEnroll.Cipher.Des

/-! ### Bits -/

/-- The bits of a byte, most significant first. -/
def bitsOfByte (b : UInt8) : List Bool :=
  [b &&& 128 != 0, b &&& 64 != 0, b &&& 32 != 0, b &&& 16 != 0,
    b &&& 8 != 0, b &&& 4 != 0, b &&& 2 != 0, b &&& 1 != 0]

/-- The bits of a string. -/
def bitsOfBytes (b : Bytes) : List Bool :=
  b.flatMap bitsOfByte

/-- The number that bits spell, most significant first. -/
def numberOfBits (b : List Bool) : Nat :=
  b.foldl (fun n c => 2 * n + c.toNat) 0

/-- The first `k` bytes of a list of bits. -/
def bytesOfBits : Nat → List Bool → Bytes
  | 0, _ => []
  | k + 1, b => UInt8.ofNat (numberOfBits (b.take 8)) :: bytesOfBits k (b.drop 8)

/-- The bits at the places that a table lists; places count from one. -/
def select (table : List Nat) (b : List Bool) : List Bool :=
  let a := b.toArray
  table.map fun i => a.getD (i - 1) false

/-- Bitwise exclusive or. -/
def xorBits (a b : List Bool) : List Bool :=
  List.zipWith Bool.xor a b

/-! ### Tables -/

/-- The places of the initial permutation. -/
def initialPermutation : List Nat := [
  58, 50, 42, 34, 26, 18, 10, 2, 60, 52, 44, 36, 28, 20, 12, 4,
  62, 54, 46, 38, 30, 22, 14, 6, 64, 56, 48, 40, 32, 24, 16, 8,
  57, 49, 41, 33, 25, 17, 9, 1, 59, 51, 43, 35, 27, 19, 11, 3,
  61, 53, 45, 37, 29, 21, 13, 5, 63, 55, 47, 39, 31, 23, 15, 7]

/-- The places of the final permutation. -/
def finalPermutation : List Nat := [
  40, 8, 48, 16, 56, 24, 64, 32, 39, 7, 47, 15, 55, 23, 63, 31,
  38, 6, 46, 14, 54, 22, 62, 30, 37, 5, 45, 13, 53, 21, 61, 29,
  36, 4, 44, 12, 52, 20, 60, 28, 35, 3, 43, 11, 51, 19, 59, 27,
  34, 2, 42, 10, 50, 18, 58, 26, 33, 1, 41, 9, 49, 17, 57, 25]

/-- The places that widen a half block to 48 bits. -/
def expansion : List Nat := [
  32, 1, 2, 3, 4, 5, 4, 5, 6, 7, 8, 9, 8, 9, 10, 11,
  12, 13, 12, 13, 14, 15, 16, 17, 16, 17, 18, 19, 20, 21, 20, 21,
  22, 23, 24, 25, 24, 25, 26, 27, 28, 29, 28, 29, 30, 31, 32, 1]

/-- The places that permute the output of the substitution boxes. -/
def roundPermutation : List Nat := [
  16, 7, 20, 21, 29, 12, 28, 17, 1, 15, 23, 26, 5, 18, 31, 10,
  2, 8, 24, 14, 32, 27, 3, 9, 19, 13, 30, 6, 22, 11, 4, 25]

/-- The places of the 56 key bits that are used. -/
def keyChoice : List Nat := [
  57, 49, 41, 33, 25, 17, 9, 1, 58, 50, 42, 34, 26, 18,
  10, 2, 59, 51, 43, 35, 27, 19, 11, 3, 60, 52, 44, 36,
  63, 55, 47, 39, 31, 23, 15, 7, 62, 54, 46, 38, 30, 22,
  14, 6, 61, 53, 45, 37, 29, 21, 13, 5, 28, 20, 12, 4]

/-- The places of the 48 bits of a subkey. -/
def subkeyChoice : List Nat := [
  14, 17, 11, 24, 1, 5, 3, 28, 15, 6, 21, 10, 23, 19, 12, 4,
  26, 8, 16, 7, 27, 20, 13, 2, 41, 52, 31, 37, 47, 55, 30, 40,
  51, 45, 33, 48, 44, 49, 39, 56, 34, 53, 46, 42, 50, 36, 29, 32]

/-- How far each half of the key turns before each round. -/
def keyTurns : List Nat := [1, 1, 2, 2, 2, 2, 2, 2, 1, 2, 2, 2, 2, 2, 2, 1]

/-- The eight substitution boxes, four rows of sixteen entries each. -/
def boxes : List (Array Nat) := [
  #[14, 4, 13, 1, 2, 15, 11, 8, 3, 10, 6, 12, 5, 9, 0, 7,
    0, 15, 7, 4, 14, 2, 13, 1, 10, 6, 12, 11, 9, 5, 3, 8,
    4, 1, 14, 8, 13, 6, 2, 11, 15, 12, 9, 7, 3, 10, 5, 0,
    15, 12, 8, 2, 4, 9, 1, 7, 5, 11, 3, 14, 10, 0, 6, 13],
  #[15, 1, 8, 14, 6, 11, 3, 4, 9, 7, 2, 13, 12, 0, 5, 10,
    3, 13, 4, 7, 15, 2, 8, 14, 12, 0, 1, 10, 6, 9, 11, 5,
    0, 14, 7, 11, 10, 4, 13, 1, 5, 8, 12, 6, 9, 3, 2, 15,
    13, 8, 10, 1, 3, 15, 4, 2, 11, 6, 7, 12, 0, 5, 14, 9],
  #[10, 0, 9, 14, 6, 3, 15, 5, 1, 13, 12, 7, 11, 4, 2, 8,
    13, 7, 0, 9, 3, 4, 6, 10, 2, 8, 5, 14, 12, 11, 15, 1,
    13, 6, 4, 9, 8, 15, 3, 0, 11, 1, 2, 12, 5, 10, 14, 7,
    1, 10, 13, 0, 6, 9, 8, 7, 4, 15, 14, 3, 11, 5, 2, 12],
  #[7, 13, 14, 3, 0, 6, 9, 10, 1, 2, 8, 5, 11, 12, 4, 15,
    13, 8, 11, 5, 6, 15, 0, 3, 4, 7, 2, 12, 1, 10, 14, 9,
    10, 6, 9, 0, 12, 11, 7, 13, 15, 1, 3, 14, 5, 2, 8, 4,
    3, 15, 0, 6, 10, 1, 13, 8, 9, 4, 5, 11, 12, 7, 2, 14],
  #[2, 12, 4, 1, 7, 10, 11, 6, 8, 5, 3, 15, 13, 0, 14, 9,
    14, 11, 2, 12, 4, 7, 13, 1, 5, 0, 15, 10, 3, 9, 8, 6,
    4, 2, 1, 11, 10, 13, 7, 8, 15, 9, 12, 5, 6, 3, 0, 14,
    11, 8, 12, 7, 1, 14, 2, 13, 6, 15, 0, 9, 10, 4, 5, 3],
  #[12, 1, 10, 15, 9, 2, 6, 8, 0, 13, 3, 4, 14, 7, 5, 11,
    10, 15, 4, 2, 7, 12, 9, 5, 6, 1, 13, 14, 0, 11, 3, 8,
    9, 14, 15, 5, 2, 8, 12, 3, 7, 0, 4, 10, 1, 13, 11, 6,
    4, 3, 2, 12, 9, 5, 15, 10, 11, 14, 1, 7, 6, 0, 8, 13],
  #[4, 11, 2, 14, 15, 0, 8, 13, 3, 12, 9, 7, 5, 10, 6, 1,
    13, 0, 11, 7, 4, 9, 1, 10, 14, 3, 5, 12, 2, 15, 8, 6,
    1, 4, 11, 13, 12, 3, 7, 14, 10, 15, 6, 8, 0, 5, 9, 2,
    6, 11, 13, 8, 1, 4, 10, 7, 9, 5, 0, 15, 14, 2, 3, 12],
  #[13, 2, 8, 4, 6, 15, 11, 1, 10, 9, 3, 14, 5, 0, 12, 7,
    1, 15, 13, 8, 10, 3, 7, 4, 12, 5, 6, 11, 0, 14, 9, 2,
    7, 11, 4, 1, 9, 12, 14, 2, 0, 6, 10, 13, 15, 3, 5, 8,
    2, 1, 14, 7, 4, 10, 8, 13, 15, 12, 9, 0, 3, 5, 6, 11]]

/-! ### Rounds -/

/-- The four bits that a box gives for six. -/
def substitute (box : Array Nat) (six : List Bool) : List Bool :=
  match six with
  | [a, b, c, d, e, f] =>
    let v := box.getD (16 * numberOfBits [a, f] + numberOfBits [b, c, d, e]) 0
    [v.testBit 3, v.testBit 2, v.testBit 1, v.testBit 0]
  | _ => [false, false, false, false]

/-- Each box in turn, on the next six bits. -/
def substituteAll : List (Array Nat) → List Bool → List Bool
  | [], _ => []
  | box :: rest, b => substitute box (b.take 6) ++ substituteAll rest (b.drop 6)

/-- The round function of a subkey. -/
def roundFunction (subkey half : List Bool) : List Bool :=
  select roundPermutation (substituteAll boxes (xorBits (select expansion half) subkey))

/-- One round: the halves change places, and one is mixed with the other. -/
def round (b : List Bool × List Bool) (subkey : List Bool) : List Bool × List Bool :=
  (b.2, xorBits b.1 (roundFunction subkey b.2))

/-- The sixteen subkeys of a key. -/
def subkeys (key : Bytes) : List (List Bool) :=
  let chosen := select keyChoice (bitsOfBytes key)
  let turned := keyTurns.foldl (fun (acc : List (List Bool × List Bool) × List Bool × List Bool) k =>
    let left := acc.2.1.drop k ++ acc.2.1.take k
    let right := acc.2.2.drop k ++ acc.2.2.take k
    ((left, right) :: acc.1, left, right)) ([], chosen.take 28, chosen.drop 28)
  turned.1.reverse.map fun h => select subkeyChoice (h.1 ++ h.2)

/-- A block of bits passed through the rounds of some subkeys. -/
def passBits (keys : List (List Bool)) (b : List Bool) : List Bool :=
  let start := select initialPermutation b
  let halves := keys.foldl round (start.take 32, start.drop 32)
  select finalPermutation (halves.2 ++ halves.1)

/-- A block passed through the rounds of some subkeys. -/
def pass (keys : List (List Bool)) (b : Bytes) : Bytes :=
  bytesOfBits 8 (passBits keys (bitsOfBytes b))

/-- The cipher of an eight-byte key. -/
def cipher (key : Bytes) : BlockCipher :=
  let keys := subkeys key
  { size := 8
    encrypt := pass keys
    decrypt := pass keys.reverse }

/-- Encryption, decryption and encryption with the three parts of a key of twenty-four bytes. -/
def tripleCipher (key : Bytes) : BlockCipher :=
  let first := cipher (key.take 8)
  let second := cipher ((key.drop 8).take 8)
  let third := cipher (key.drop 16)
  { size := 8
    encrypt := fun b => third.encrypt (second.decrypt (first.encrypt b))
    decrypt := fun b => first.decrypt (second.encrypt (third.decrypt b)) }

/-- A key byte with its lowest bit set so that the number of ones is odd. -/
def oddParity (b : UInt8) : UInt8 :=
  let high := b &&& 0xfe
  let ones := (bitsOfByte high).count true
  if ones % 2 = 0 then high ||| 1 else high

end CertEnroll.Cipher.Des
