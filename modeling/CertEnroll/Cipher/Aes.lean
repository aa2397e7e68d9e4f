import CertEnroll.Cipher.Chaining

/-!
# Cipher.Aes — the AES block cipher with keys of sixteen bytes

A block is four columns of four bytes.  A round substitutes each byte, shifts the rows, mixes the
columns and adds a round key; each of these layers has an inverse, and decryption applies the inverses
in reverse order.
-/

namespace CertEnroll.Cipher.Aes

/-! ### Columns and blocks -/

/-- Four bytes of a block. -/
structure Column where
  b0 : UInt8
  b1 : UInt8
  b2 : UInt8
  b3 : UInt8
  deriving DecidableEq

/-- Four columns. -/
structure Block where
  c0 : Column
  c1 : Column
  c2 : Column
  c3 : Column
  deriving DecidableEq

/-- The column of the first four bytes of a string. -/
def Column.ofBytes (b : Bytes) : Column :=
  ⟨b.getD 0 0, b.getD 1 0, b.getD 2 0, b.getD 3 0⟩

/-- The bytes of a column. -/
def Column.toBytes (c : Column) : Bytes :=
  [c.b0, c.b1, c.b2, c.b3]

/-- The bytes of a column, each mapped. -/
def Column.map (f : UInt8 → UInt8) (c : Column) : Column :=
  ⟨f c.b0, f c.b1, f c.b2, f c.b3⟩

/-- Bytewise exclusive or of columns. -/
def Column.add (c d : Column) : Column :=
  ⟨c.b0 ^^^ d.b0, c.b1 ^^^ d.b1, c.b2 ^^^ d.b2, c.b3 ^^^ d.b3⟩

/-- The block of the first sixteen bytes of a string. -/
def Block.ofBytes (b : Bytes) : Block :=
  ⟨.ofBytes b, .ofBytes (b.drop 4), .ofBytes (b.drop 8), .ofBytes (b.drop 12)⟩

/-- The bytes of a block. -/
def Block.toBytes (b : Block) : Bytes :=
  b.c0.toBytes ++ b.c1.toBytes ++ b.c2.toBytes ++ b.c3.toBytes

/-- The columns of a block, each mapped. -/
def Block.map (f : Column → Column) (b : Block) : Block :=
  ⟨f b.c0, f b.c1, f b.c2, f b.c3⟩

/-- Bytewise exclusive or of blocks. -/
def Block.add (b k : Block) : Block :=
  ⟨b.c0.add k.c0, b.c1.add k.c1, b.c2.add k.c2, b.c3.add k.c3⟩

/-! ### Substitution -/

/-- The substitution of bytes. -/
def box : Array UInt8 := #[
  0x63, 0x7c, 0x77, 0x7b, 0xf2, 0x6b, 0x6f, 0xc5, 0x30, 0x01, 0x67, 0x2b, 0xfe, 0xd7, 0xab, 0x76,
  0xca, 0x82, 0xc9, 0x7d, 0xfa, 0x59, 0x47, 0xf0, 0xad, 0xd4, 0xa2, 0xaf, 0x9c, 0xa4, 0x72, 0xc0,
  0xb7, 0xfd, 0x93, 0x26, 0x36, 0x3f, 0xf7, 0xcc, 0x34, 0xa5, 0xe5, 0xf1, 0x71, 0xd8, 0x31, 0x15,
  0x04, 0xc7, 0x23, 0xc3, 0x18, 0x96, 0x05, 0x9a, 0x07, 0x12, 0x80, 0xe2, 0xeb, 0x27, 0xb2, 0x75,
  0x09, 0x83, 0x2c, 0x1a, 0x1b, 0x6e, 0x5a, 0xa0, 0x52, 0x3b, 0xd6, 0xb3, 0x29, 0xe3, 0x2f, 0x84,
  0x53, 0xd1, 0x00, 0xed, 0x20, 0xfc, 0xb1, 0x5b, 0x6a, 0xcb, 0xbe, 0x39, 0x4a, 0x4c, 0x58, 0xcf,
  0xd0, 0xef, 0xaa, 0xfb, 0x43, 0x4d, 0x33, 0x85, 0x45, 0xf9, 0x02, 0x7f, 0x50, 0x3c, 0x9f, 0xa8,
  0x51, 0xa3, 0x40, 0x8f, 0x92, 0x9d, 0x38, 0xf5, 0xbc, 0xb6, 0xda, 0x21, 0x10, 0xff, 0xf3, 0xd2,
  0xcd, 0x0c, 0x13, 0xec, 0x5f, 0x97, 0x44, 0x17, 0xc4, 0xa7, 0x7e, 0x3d, 0x64, 0x5d, 0x19, 0x73,
  0x60, 0x81, 0x4f, 0xdc, 0x22, 0x2a, 0x90, 0x88, 0x46, 0xee, 0xb8, 0x14, 0xde, 0x5e, 0x0b, 0xdb,
  0xe0, 0x32, 0x3a, 0x0a, 0x49, 0x06, 0x24, 0x5c, 0xc2, 0xd3, 0xac, 0x62, 0x91, 0x95, 0xe4, 0x79,
  0xe7, 0xc8, 0x37, 0x6d, 0x8d, 0xd5, 0x4e, 0xa9, 0x6c, 0x56, 0xf4, 0xea, 0x65, 0x7a, 0xae, 0x08,
  0xba, 0x78, 0x25, 0x2e, 0x1c, 0xa6, 0xb4, 0xc6, 0xe8, 0xdd, 0x74, 0x1f, 0x4b, 0xbd, 0x8b, 0x8a,
  0x70, 0x3e, 0xb5, 0x66, 0x48, 0x03, 0xf6, 0x0e, 0x61, 0x35, 0x57, 0xb9, 0x86, 0xc1, 0x1d, 0x9e,
  0xe1, 0xf8, 0x98, 0x11, 0x69, 0xd9, 0x8e, 0x94, 0x9b, 0x1e, 0x87, 0xe9, 0xce, 0x55, 0x28, 0xdf,
  0x8c, 0xa1, 0x89, 0x0d, 0xbf, 0xe6, 0x42, 0x68, 0x41, 0x99, 0x2d, 0x0f, 0xb0, 0x54, 0xbb, 0x16]

/-- The inverse substitution. -/
def invBox : Array UInt8 := #[
  0x52, 0x09, 0x6a, 0xd5, 0x30, 0x36, 0xa5, 0x38, 0xbf, 0x40, 0xa3, 0x9e, 0x81, 0xf3, 0xd7, 0xfb,
  0x7c, 0xe3, 0x39, 0x82, 0x9b, 0x2f, 0xff, 0x87, 0x34, 0x8e, 0x43, 0x44, 0xc4, 0xde, 0xe9, 0xcb,
  0x54, 0x7b, 0x94, 0x32, 0xa6, 0xc2, 0x23, 0x3d, 0xee, 0x4c, 0x95, 0x0b, 0x42, 0xfa, 0xc3, 0x4e,
  0x08, 0x2e, 0xa1, 0x66, 0x28, 0xd9, 0x24, 0xb2, 0x76, 0x5b, 0xa2, 0x49, 0x6d, 0x8b, 0xd1, 0x25,
  0x72, 0xf8, 0xf6, 0x64, 0x86, 0x68, 0x98, 0x16, 0xd4, 0xa4, 0x5c, 0xcc, 0x5d, 0x65, 0xb6, 0x92,
  0x6c, 0x70, 0x48, 0x50, 0xfd, 0xed, 0xb9, 0xda, 0x5e, 0x15, 0x46, 0x57, 0xa7, 0x8d, 0x9d, 0x84,
  0x90, 0xd8, 0xab, 0x00, 0x8c, 0xbc, 0xd3, 0x0a, 0xf7, 0xe4, 0x58, 0x05, 0xb8, 0xb3, 0x45, 0x06,
  0xd0, 0x2c, 0x1e, 0x8f, 0xca, 0x3f, 0x0f, 0x02, 0xc1, 0xaf, 0xbd, 0x03, 0x01, 0x13, 0x8a, 0x6b,
  0x3a, 0x91, 0x11, 0x41, 0x4f, 0x67, 0xdc, 0xea, 0x97, 0xf2, 0xcf, 0xce, 0xf0, 0xb4, 0xe6, 0x73,
  0x96, 0xac, 0x74, 0x22, 0xe7, 0xad, 0x35, 0x85, 0xe2, 0xf9, 0x37, 0xe8, 0x1c, 0x75, 0xdf, 0x6e,
  0x47, 0xf1, 0x1a, 0x71, 0x1d, 0x29, 0xc5, 0x89, 0x6f, 0xb7, 0x62, 0x0e, 0xaa, 0x18, 0xbe, 0x1b,
  0xfc, 0x56, 0x3e, 0x4b, 0xc6, 0xd2, 0x79, 0x20, 0x9a, 0xdb, 0xc0, 0xfe, 0x78, 0xcd, 0x5a, 0xf4,
  0x1f, 0xdd, 0xa8, 0x33, 0x88, 0x07, 0xc7, 0x31, 0xb1, 0x12, 0x10, 0x59, 0x27, 0x80, 0xec, 0x5f,
  0x60, 0x51, 0x7f, 0xa9, 0x19, 0xb5, 0x4a, 0x0d, 0x2d, 0xe5, 0x7a, 0x9f, 0x93, 0xc9, 0x9c, 0xef,
  0xa0, 0xe0, 0x3b, 0x4d, 0xae, 0x2a, 0xf5, 0xb0, 0xc8, 0xeb, 0xbb, 0x3c, 0x83, 0x53, 0x99, 0x61,
  0x17, 0x2b, 0x04, 0x7e, 0xba, 0x77, 0xd6, 0x26, 0xe1, 0x69, 0x14, 0x63, 0x55, 0x21, 0x0c, 0x7d]

/-- Substitutes a byte. -/
def sub (b : UInt8) : UInt8 := box.getD b.toNat 0

/-- Undoes the substitution of a byte. -/
def invSub (b : UInt8) : UInt8 := invBox.getD b.toNat 0

/-! ### Rows and columns -/

/-- Turns row `i` left by `i` places. -/
def shiftRows (b : Block) : Block :=
  ⟨⟨b.c0.b0, b.c1.b1, b.c2.b2, b.c3.b3⟩, ⟨b.c1.b0, b.c2.b1, b.c3.b2, b.c0.b3⟩,
    ⟨b.c2.b0, b.c3.b1, b.c0.b2, b.c1.b3⟩, ⟨b.c3.b0, b.c0.b1, b.c1.b2, b.c2.b3⟩⟩

/-- Turns row `i` right by `i` places. -/
def unshiftRows (b : Block) : Block :=
  ⟨⟨b.c0.b0, b.c3.b1, b.c2.b2, b.c1.b3⟩, ⟨b.c1.b0, b.c0.b1, b.c3.b2, b.c2.b3⟩,
    ⟨b.c2.b0, b.c1.b1, b.c0.b2, b.c3.b3⟩, ⟨b.c3.b0, b.c2.b1, b.c1.b2, b.c0.b3⟩⟩

@[simp] theorem unshiftRows_shiftRows (b : Block) : unshiftRows (shiftRows b) = b := rfl

@[simp] theorem shiftRows_unshiftRows (b : Block) : shiftRows (unshiftRows b) = b := rfl

/-- Twice a byte, in the field of 256 elements. -/
def double (b : UInt8) : UInt8 :=
  if b < 128 then b <<< 1 else (b <<< 1) ^^^ 0x1b

/-- Multiplies a column by the mixing matrix, whose rows are turns of `2 3 1 1`. -/
def mixColumn (c : Column) : Column :=
  let m (w x y z : UInt8) := double w ^^^ (double x ^^^ x) ^^^ y ^^^ z
  ⟨m c.b0 c.b1 c.b2 c.b3, m c.b1 c.b2 c.b3 c.b0, m c.b2 c.b3 c.b0 c.b1, m c.b3 c.b0 c.b1 c.b2⟩

/-- Multiplies a column by the inverse matrix, whose rows are turns of `14 11 13 9`. -/
def unmixColumn (c : Column) : Column :=
  let m (w x y z : UInt8) :=
    let t := double (double (w ^^^ y))
    let u := double (double (x ^^^ z))
    let v := double (t ^^^ u)
    v ^^^ t ^^^ double w ^^^ (double x ^^^ x) ^^^ y ^^^ z
  ⟨m c.b0 c.b1 c.b2 c.b3, m c.b1 c.b2 c.b3 c.b0, m c.b2 c.b3 c.b0 c.b1, m c.b3 c.b0 c.b1 c.b2⟩

/-! ### Keys -/

/-- The round constants. -/
def roundConstants : List UInt8 :=
  [0x01, 0x02, 0x04, 0x08, 0x10, 0x20, 0x40, 0x80, 0x1b, 0x36]

/-- The round key after `k`. -/
def nextKey (k : Block) (constant : UInt8) : Block :=
  let turned : Column := ⟨sub k.c3.b1 ^^^ constant, sub k.c3.b2, sub k.c3.b3, sub k.c3.b0⟩
  let c0 := k.c0.add turned
  let c1 := k.c1.add c0
  let c2 := k.c2.add c1
  ⟨c0, c1, c2, k.c3.add c2⟩

/-- The round keys that follow `k`, one for each constant. -/
def keysFrom : Block → List UInt8 → List Block
  | _, [] => []
  | k, c :: cs => let n := nextKey k c; n :: keysFrom n cs

/-! ### The cipher -/

/-- A round with mixing. -/
def round (b : Block) (k : Block) : Block :=
  ((shiftRows (b.map (Column.map sub))).map mixColumn).add k

/-- Undoes `round`. -/
def unround (b : Block) (k : Block) : Block :=
  (unshiftRows ((b.add k).map unmixColumn)).map (Column.map invSub)

/-- The last round, without mixing. -/
def lastRound (b : Block) (k : Block) : Block :=
  (shiftRows (b.map (Column.map sub))).add k

/-- Undoes `lastRound`. -/
def unlastRound (b : Block) (k : Block) : Block :=
  (unshiftRows (b.add k)).map (Column.map invSub)

/-- Encrypts a block with a whitening key, the keys of the middle rounds and the last key. -/
def encryptBlock (first : Block) (middle : List Block) (last : Block) (b : Block) : Block :=
  lastRound (middle.foldl round (b.add first)) last

/-- Undoes `encryptBlock`. -/
def decryptBlock (first : Block) (middle : List Block) (last : Block) (b : Block) : Block :=
  (middle.foldr (fun k b => unround b k) (unlastRound b last)).add first

/-- The cipher of a key of sixteen bytes. -/
def cipher (key : Bytes) : BlockCipher :=
  let first := Block.ofBytes key
  let keys := keysFrom first roundConstants
  let middle := keys.dropLast
  let last := keys.getLastD first
  { size := 16
    encrypt := fun b => (encryptBlock first middle last (.ofBytes b)).toBytes
    decrypt := fun b => (decryptBlock first middle last (.ofBytes b)).toBytes }

end CertEnroll.Cipher.Aes
