import CertEnroll.Cipher.Chaining
import CertEnroll.Cipher.Padding

/-!
# Proofs.Cipher.Chaining — chained and padded messages are decrypted

A block cipher is lawful if its decryption undoes its encryption of blocks.  Chaining then is undone on
whole blocks, and padding makes whole blocks of any message and can be taken off.
-/

namespace CertEnroll

/-! ### Pieces of a string -/

namespace Bytes

@[simp] theorem length_xor (a b : Bytes) : (xor a b).length = min a.length b.length :=
  List.length_zipWith

/-- What is taken together with a list twice cancels if it does so member by member. -/
theorem zipWith_zipWith_cancel {α : Type} {f : α → α → α} (hf : ∀ x y, f (f x y) y = x) {a b : List α}
    (h : a.length ≤ b.length) : (a.zipWith f b).zipWith f b = a := by
  induction a generalizing b with
  | nil => rfl
  | cons x a ih =>
    cases b with
    | nil => simp at h
    | cons y b => rw [List.zipWith_cons_cons, List.zipWith_cons_cons, hf, ih (Nat.le_of_succ_le_succ h)]

/-- The same string added twice cancels. -/
theorem xor_xor_cancel {a b : Bytes} (h : a.length ≤ b.length) : xor (xor a b) b = a :=
  zipWith_zipWith_cancel (fun x y => by rw [UInt8.xor_assoc, UInt8.xor_self, UInt8.xor_zero]) h

theorem chunks_flatten {n : Nat} {bs : List Bytes} (h : ∀ b ∈ bs, b.length = n) :
    chunks n bs.length bs.flatten = bs := by
  induction bs with
  | nil => rfl
  | cons b bs ih =>
    have hb := h b (by simp)
    rw [List.length_cons, List.flatten_cons, chunks, List.take_left' hb, List.drop_left' hb,
      ih fun c hc => h c (by simp [hc])]

theorem flatten_chunks {n k : Nat} {b : Bytes} (h : b.length = n * k) : (chunks n k b).flatten = b := by
  induction k generalizing b with
  | zero =>
    rw [Nat.mul_zero] at h
    rw [List.eq_nil_of_length_eq_zero h]
    rfl
  | succ k ih =>
    have hdrop : (b.drop n).length = n * k := by
      rw [List.length_drop, h, Nat.mul_succ, Nat.add_sub_cancel]
    rw [chunks, List.flatten_cons, ih hdrop, List.take_append_drop]

theorem length_of_mem_chunks {n k : Nat} {b c : Bytes} (h : b.length = n * k) (hc : c ∈ chunks n k b) :
    c.length = n := by
  induction k generalizing b with
  | zero => cases hc
  | succ k ih =>
    have hlength : b.length = n * k + n := by rw [h, Nat.mul_succ]
    cases hc with
    | head =>
      rw [List.length_take, hlength]
      exact Nat.min_eq_left (Nat.le_add_left _ _)
    | tail _ hc => exact ih (by rw [List.length_drop, hlength, Nat.add_sub_cancel]) hc

theorem length_chunks (n k : Nat) (b : Bytes) : (chunks n k b).length = k := by
  induction k generalizing b with
  | zero => rfl
  | succ k ih => rw [chunks, List.length_cons, ih]

theorem length_flatten {n : Nat} {bs : List Bytes} (h : ∀ b ∈ bs, b.length = n) :
    bs.flatten.length = n * bs.length := by
  induction bs with
  | nil => rfl
  | cons b bs ih =>
    rw [List.flatten_cons, List.length_append, h b (by simp), ih fun c hc => h c (by simp [hc]),
      List.length_cons, Nat.mul_succ, Nat.add_comm]

end Bytes

namespace Cipher

/-! ### Chaining -/

namespace BlockCipher

/-- Decryption undoes the encryption of blocks. -/
structure Lawful (c : BlockCipher) : Prop where
  size_pos : 0 < c.size
  length_encrypt : ∀ b : Bytes, b.length = c.size → (c.encrypt b).length = c.size
  decrypt_encrypt : ∀ b : Bytes, b.length = c.size → c.decrypt (c.encrypt b) = b

variable {c : BlockCipher}

theorem length_of_mem_chain (h : c.Lawful) {prev : Bytes} {ps : List Bytes} (hprev : prev.length = c.size)
    (hps : ∀ p ∈ ps, p.length = c.size) : ∀ e ∈ c.chain prev ps, e.length = c.size := by
  induction ps generalizing prev with
  | nil =>
    intro e he
    cases he
  | cons p ps ih =>
    have hmixed : (Bytes.xor p prev).length = c.size := by
      rw [Bytes.length_xor, hps p (by simp), hprev, Nat.min_self]
    have hfirst := h.length_encrypt _ hmixed
    intro e he
    cases he with
    | head => exact hfirst
    | tail _ he => exact ih hfirst (fun q hq => hps q (by simp [hq])) e he

theorem length_chain (c : BlockCipher) (prev : Bytes) (ps : List Bytes) :
    (c.chain prev ps).length = ps.length := by
  induction ps generalizing prev with
  | nil => rfl
  | cons p ps ih => rw [chain, List.length_cons, ih, List.length_cons]

theorem unchain_chain (h : c.Lawful) {prev : Bytes} {ps : List Bytes} (hprev : prev.length = c.size)
    (hps : ∀ p ∈ ps, p.length = c.size) : c.unchain prev (c.chain prev ps) = ps := by
  induction ps generalizing prev with
  | nil => rfl
  | cons p ps ih =>
    have hp := hps p (by simp)
    have hmixed : (Bytes.xor p prev).length = c.size := by
      rw [Bytes.length_xor, hp, hprev, Nat.min_self]
    have hrest := ih (h.length_encrypt _ hmixed) fun q hq => hps q (by simp [hq])
    rw [chain, unchain, hrest, h.decrypt_encrypt _ hmixed,
      Bytes.xor_xor_cancel (Nat.le_of_eq (hp.trans hprev.symm))]

variable {iv m : Bytes} {k : Nat}

theorem blocks_eq (h : c.Lawful) (hm : m.length = c.size * k) : c.blocks m = Bytes.chunks c.size k m := by
  rw [blocks, hm, Nat.mul_div_cancel_left _ h.size_pos]

theorem length_of_mem_blocks (h : c.Lawful) (hm : m.length = c.size * k) :
    ∀ p ∈ c.blocks m, p.length = c.size := by
  intro p hp
  rw [blocks_eq h hm] at hp
  exact Bytes.length_of_mem_chunks hm hp

theorem length_chain_blocks (h : c.Lawful) (hm : m.length = c.size * k) :
    (c.chain iv (c.blocks m)).length = k := by
  rw [length_chain, blocks_eq h hm, Bytes.length_chunks]

theorem length_encryptChained (h : c.Lawful) (hiv : iv.length = c.size) (hm : m.length = c.size * k) :
    (c.encryptChained iv m).length = c.size * k := by
  have hmembers := length_of_mem_chain h hiv (length_of_mem_blocks h hm)
  rw [encryptChained, Bytes.length_flatten hmembers, length_chain_blocks h hm]

/-- Whole blocks that are encrypted in a chain are decrypted. -/
theorem decryptChained_encryptChained (h : c.Lawful) (hiv : iv.length = c.size)
    (hm : m.length = c.size * k) : c.decryptChained iv (c.encryptChained iv m) = m := by
  have hblocks := length_of_mem_blocks h hm
  have hsplit : c.blocks (c.encryptChained iv m) = c.chain iv (c.blocks m) := by
    have hchunks := Bytes.chunks_flatten (length_of_mem_chain h hiv hblocks)
    rw [length_chain_blocks h hm] at hchunks
    rw [blocks_eq h (length_encryptChained h hiv hm)]
    exact hchunks
  rw [decryptChained, hsplit, unchain_chain h hiv hblocks, blocks_eq h hm]
  exact Bytes.flatten_chunks hm

end BlockCipher

/-! ### Padding -/

theorem unpad?_pad {block : Nat} (hpos : 0 < block) (hblock : block < 256) (m : Bytes) :
    unpad? block (pad block m) = some m := by
  have hfill := fillCount_pos_and_le hpos m.length
  have hvalue := toNat_fillCount hpos hblock m.length
  generalize hk : fillCount block m.length = k at hfill hvalue
  have hlast : (pad block m).getLast? = some (UInt8.ofNat k) := by
    rw [pad, hk, List.getLast?_append, List.getLast?_replicate, if_neg (by omega)]
    rfl
  have hsize : (pad block m).length - k = m.length := by
    rw [pad, hk, List.length_append, List.length_replicate, Nat.add_sub_cancel]
  unfold unpad?
  rw [hlast]
  dsimp only
  rw [hvalue, hsize, pad, hk, List.drop_left, List.take_left]
  exact if_pos ⟨hfill.1, hfill.2, rfl⟩

end Cipher

end CertEnroll
