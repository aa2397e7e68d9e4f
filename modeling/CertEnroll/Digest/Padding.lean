import CertEnroll.Bytes

/-!
# Digest.Padding — how a message is filled up to whole blocks

The four digests read their message in blocks.  The message is followed by the byte `0x80`, by as few
zeros as possible and by its length in bits; the length has a fixed width and ends the last block.
-/

namespace CertEnroll.Digest

/-- The digits of a number, least significant first. -/
def littleEndian (w n : Nat) : Bytes :=
  (Bytes.ofNat w n).reverse

/-- The number of zero bytes between the mark and the length. -/
def paddingZeros (block lengthWidth size : Nat) : Nat :=
  (block - (size + 1 + lengthWidth) % block) % block

/-- A message with its mark, zeros and length field. -/
def padded (block : Nat) (lengthField : Bytes) (m : Bytes) : Bytes :=
  m ++ 0x80 :: List.replicate (paddingZeros block lengthField.length m.length) 0 ++ lengthField

/-- The blocks of a message whose length is written most significant byte first. -/
def blocksBE (block lengthWidth : Nat) (m : Bytes) : List Bytes :=
  let p := padded block (Bytes.ofNat lengthWidth (8 * m.length)) m
  p.chunks block (p.length / block)

/-- The blocks of a message whose length is written least significant byte first. -/
def blocksLE (block lengthWidth : Nat) (m : Bytes) : List Bytes :=
  let p := padded block (littleEndian lengthWidth (8 * m.length)) m
  p.chunks block (p.length / block)

end CertEnroll.Digest
