import CertEnroll.Bytes

/-!
# Cipher.Padding — filling a message up to whole blocks so that the filling can be removed

A message is followed by `k` bytes of value `k`, where `k` between one and the block size makes the
length a multiple of the block size.  `unpad?` takes back exactly such a tail.
-/

namespace CertEnroll.Cipher

/-- The number of filling bytes for a message of `size` bytes. -/
def fillCount (block size : Nat) : Nat :=
  block - size % block

/-- A message and its filling. -/
def pad (block : Nat) (m : Bytes) : Bytes :=
  m ++ List.replicate (fillCount block m.length) (UInt8.ofNat (fillCount block m.length))

/-- The message under a filling: the last byte counts the filling bytes, which all equal it. -/
def unpad? (block : Nat) (p : Bytes) : Option Bytes :=
  match p.getLast? with
  | none => none
  | some last =>
    let k := last.toNat
    let size := p.length - k
    if 1 ≤ k ∧ k ≤ block ∧ p.drop size = List.replicate k last then some (p.take size) else none

theorem fillCount_pos_and_le {block : Nat} (hb : 0 < block) (size : Nat) :
    0 < fillCount block size ∧ fillCount block size ≤ block := by
  have := Nat.mod_lt size hb
  unfold fillCount
  omega

/-- The number of filling bytes fits in one of them. -/
theorem toNat_fillCount {block : Nat} (hb : 0 < block) (hblock : block < 256) (size : Nat) :
    (UInt8.ofNat (fillCount block size)).toNat = fillCount block size := by
  have := fillCount_pos_and_le hb size
  exact UInt8.toNat_ofNat_of_lt' (show _ < 256 by omega)

/-- The padded length is the next strict multiple of the block size. -/
theorem length_pad {block : Nat} (hb : 0 < block) (m : Bytes) :
    (pad block m).length = block * (m.length / block + 1) := by
  have := Nat.div_add_mod m.length block
  have := Nat.mod_lt m.length hb
  simp only [pad, fillCount, List.length_append, List.length_replicate, Nat.mul_add]
  omega

end CertEnroll.Cipher
