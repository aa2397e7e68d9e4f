import CertEnroll.Proofs.Opening
import Mathlib.Data.Set.Finite.List

/-!
# Proofs.Cipher.Exactness — what can be decrypted is exactly what encryption makes

A lawful block cipher permutes the blocks: there are finitely many of them, and no two are encrypted alike.
So encryption undoes decryption, too, and chaining carries this from blocks to strings of blocks.  Padding can
be taken off a string of whole blocks only if it was put on.  Hence each ciphertext that is decrypted is the
ciphertext of what comes out, and whether it is decrypted at all shows in its last block.
-/

namespace CertEnroll

/-! ### Pieces of a string -/

namespace Bytes

theorem chunks_succ (n k : Nat) (b : Bytes) :
    chunks n (k + 1) b = chunks n k b ++ [(b.drop (n * k)).take n] := by
  induction k generalizing b with
  | zero => rfl
  | succ k ih =>
    have hdrop : (b.drop n).drop (n * k) = b.drop (n * (k + 1)) := by
      rw [List.drop_drop, Nat.mul_succ, Nat.add_comm]
    rw [chunks, ih, hdrop]
    rfl

/-- The last of some pieces ends where they end; before the first of them stands a piece of its own. -/
theorem getLastD_chunks {n : Nat} {before : Bytes} (h : before.length = n) (k : Nat) (b : Bytes) :
    (chunks n k b).getLastD before = ((before ++ b).drop (n * k)).take n := by
  cases k with
  | zero =>
    rw [Nat.mul_zero, List.drop_zero, ← h, List.take_left]
    rfl
  | succ k =>
    have hdrop : (before ++ b).drop (n * (k + 1)) = b.drop (n * k) := by
      rw [Nat.mul_succ, Nat.add_comm, ← List.drop_drop, List.drop_left' h]
    rw [chunks_succ, hdrop, List.getLastD_concat]

end Bytes

namespace Cipher

/-! ### Blocks -/

namespace BlockCipher

variable {c : BlockCipher}

theorem finite_blocks (n : Nat) : {b : Bytes | b.length = n}.Finite := by
  have : Finite UInt8 := Finite.of_injective UInt8.toFin fun _ _ h => UInt8.toFin_inj.mp h
  exact List.finite_length_eq UInt8 n

/-- No two of the finitely many blocks are encrypted alike, so each is the encrypted form of a block. -/
theorem Lawful.encrypt_decrypt (h : c.Lawful) {b : Bytes} (hb : b.length = c.size) :
    (c.decrypt b).length = c.size ∧ c.encrypt (c.decrypt b) = b := by
  have hmaps : Set.MapsTo c.encrypt {b | b.length = c.size} {b | b.length = c.size} :=
    fun x hx => h.length_encrypt x hx
  have hinj : Set.InjOn c.encrypt {b | b.length = c.size} := by
    intro x hx y hy hxy
    rw [← h.decrypt_encrypt x hx, hxy, h.decrypt_encrypt y hy]
  have hbij := ((finite_blocks c.size).injOn_iff_bijOn_of_mapsTo hmaps).mp hinj
  obtain ⟨x, hx, rfl⟩ := hbij.surjOn hb
  rw [h.decrypt_encrypt x hx]
  exact ⟨hx, rfl⟩

/-! ### Chains -/

theorem length_of_mem_unchain (h : c.Lawful) {prev : Bytes} {es : List Bytes} (hprev : prev.length = c.size)
    (hes : ∀ e ∈ es, e.length = c.size) : ∀ p ∈ c.unchain prev es, p.length = c.size := by
  induction es generalizing prev with
  | nil =>
    intro p hp
    cases hp
  | cons e es ih =>
    obtain ⟨he, hes⟩ := List.forall_mem_cons.mp hes
    intro p hp
    cases hp with
    | head => rw [Bytes.length_xor, (h.encrypt_decrypt he).1, hprev, Nat.min_self]
    | tail _ hp => exact ih he hes p hp

theorem length_unchain (c : BlockCipher) (prev : Bytes) (es : List Bytes) :
    (c.unchain prev es).length = es.length := by
  induction es generalizing prev with
  | nil => rfl
  | cons e es ih => rw [unchain, List.length_cons, ih, List.length_cons]

theorem chain_unchain (h : c.Lawful) {prev : Bytes} {es : List Bytes} (hprev : prev.length = c.size)
    (hes : ∀ e ∈ es, e.length = c.size) : c.chain prev (c.unchain prev es) = es := by
  induction es generalizing prev with
  | nil => rfl
  | cons e es ih =>
    obtain ⟨he, hes⟩ := List.forall_mem_cons.mp hes
    obtain ⟨hlength, hback⟩ := h.encrypt_decrypt he
    have hcancel : Bytes.xor (Bytes.xor (c.decrypt e) prev) prev = c.decrypt e :=
      Bytes.xor_xor_cancel (Nat.le_of_eq (hlength.trans hprev.symm))
    rw [unchain, chain, hcancel, hback, ih he hes]

/-- The last block is combined with the encrypted block before it, or with the initial vector. -/
theorem unchain_concat (c : BlockCipher) (prev : Bytes) (es : List Bytes) (e : Bytes) :
    c.unchain prev (es ++ [e]) = c.unchain prev es ++ [Bytes.xor (c.decrypt e) (es.getLastD prev)] := by
  induction es generalizing prev with
  | nil => rfl
  | cons f es ih => rw [List.cons_append, unchain, ih, unchain, List.getLastD_cons, List.cons_append]

variable {iv m : Bytes} {k : Nat}

theorem length_unchain_blocks (h : c.Lawful) (hm : m.length = c.size * k) :
    (c.unchain iv (c.blocks m)).length = k := by
  rw [length_unchain, blocks_eq h hm, Bytes.length_chunks]

theorem length_decryptChained (h : c.Lawful) (hiv : iv.length = c.size) (hm : m.length = c.size * k) :
    (c.decryptChained iv m).length = c.size * k := by
  have hmembers := length_of_mem_unchain h hiv (length_of_mem_blocks h hm)
  rw [decryptChained, Bytes.length_flatten hmembers, length_unchain_blocks h hm]

/-- Whole blocks that are decrypted in a chain are encrypted back. -/
theorem encryptChained_decryptChained (h : c.Lawful) (hiv : iv.length = c.size)
    (hm : m.length = c.size * k) : c.encryptChained iv (c.decryptChained iv m) = m := by
  have hblocks := length_of_mem_blocks h hm
  have hsplit : c.blocks (c.decryptChained iv m) = c.unchain iv (c.blocks m) := by
    have hchunks := Bytes.chunks_flatten (length_of_mem_unchain h hiv hblocks)
    rw [length_unchain_blocks h hm] at hchunks
    rw [blocks_eq h (length_decryptChained h hiv hm)]
    exact hchunks
  rw [encryptChained, hsplit, chain_unchain h hiv hblocks, blocks_eq h hm]
  exact Bytes.flatten_chunks hm

/-- Where a chain ends: the last block of what whole blocks are decrypted to. -/
theorem decryptChained_succ (h : c.Lawful) (hiv : iv.length = c.size) (hm : m.length = c.size * (k + 1)) :
    ∃ front : Bytes, front.length = c.size * k ∧ c.decryptChained iv m =
      front ++ Bytes.xor (c.decrypt (m.drop (c.size * k))) (((iv ++ m).drop (c.size * k)).take c.size) := by
  have hlast : (m.drop (c.size * k)).take c.size = m.drop (c.size * k) := by
    refine List.take_of_length_le ?_
    rw [List.length_drop, hm, Nat.mul_succ]
    omega
  have hblocks : c.blocks m = Bytes.chunks c.size k m ++ [m.drop (c.size * k)] := by
    rw [blocks_eq h hm, Bytes.chunks_succ, hlast]
  have hfront : ∀ e ∈ Bytes.chunks c.size k m, e.length = c.size := fun e he =>
    length_of_mem_blocks h hm e (by simp [hblocks, he])
  refine ⟨(c.unchain iv (Bytes.chunks c.size k m)).flatten, ?_, ?_⟩
  · rw [Bytes.length_flatten (length_of_mem_unchain h hiv hfront), length_unchain, Bytes.length_chunks]
  · rw [decryptChained, hblocks, unchain_concat, Bytes.getLastD_chunks hiv, List.flatten_concat]

end BlockCipher

/-! ### Padding -/

/-- A string ends in a filling: some bytes, at least one, each of which is their number. -/
def EndsFilled (b : Bytes) : Prop :=
  ∃ (front : Bytes) (k : UInt8), k ≠ 0 ∧ b = front ++ List.replicate k.toNat k

variable {block k : Nat} {p front last m : Bytes}

theorem fillCount_eq (hk : 0 < k) (hle : k ≤ block) {size q : Nat} (h : size + k = block * (q + 1)) :
    fillCount block size = k := by
  have hsize : size = block * q + (block - k) := by
    rw [Nat.mul_succ] at h
    omega
  have hmod : size % block = block - k := by
    rw [hsize, Nat.mul_add_mod, Nat.mod_eq_of_lt (by omega)]
  rw [fillCount, hmod]
  omega

/-- Padding is taken off whole blocks exactly if it was put on. -/
theorem unpad?_eq_some (hpos : 0 < block) (hsmall : block < 256) (hp : p.length = block * k) :
    unpad? block p = some m ↔ p = pad block m := by
  refine ⟨fun h => ?_, fun h => h ▸ unpad?_pad hpos hsmall m⟩
  unfold unpad? at h
  split at h
  case h_1 => cases h
  case h_2 last hlast =>
    dsimp only at h
    split at h
    case isFalse => cases h
    case isTrue hfill =>
      cases h
      obtain ⟨hone, hle, htail⟩ := hfill
      have hsplit : p = p.take (p.length - last.toNat) ++ List.replicate last.toNat last := by
        rw [← htail, List.take_append_drop]
      have htotal : (p.take (p.length - last.toNat)).length + last.toNat = p.length := by
        have := congrArg List.length hsplit
        rw [List.length_append, List.length_replicate] at this
        exact this.symm
      obtain ⟨q, rfl⟩ : ∃ q, k = q + 1 := by
        refine Nat.exists_eq_succ_of_ne_zero ?_
        rintro rfl
        omega
      have hcount := fillCount_eq hone hle (htotal.trans hp)
      rw [pad, hcount, UInt8.ofNat_toNat]
      exact hsplit

/-- Whether whole blocks end in padding shows in the last of them. -/
theorem exists_unpad?_iff (hpos : 0 < block) (hsmall : block < 256) (hfront : front.length = block * k)
    (hlast : last.length = block) : (∃ m, unpad? block (front ++ last) = some m) ↔ EndsFilled last := by
  have hlength : (front ++ last).length = block * (k + 1) := by
    rw [List.length_append, hfront, hlast, Nat.mul_succ]
  simp only [unpad?_eq_some hpos hsmall hlength]
  constructor
  · rintro ⟨m, hm⟩
    have hfill := fillCount_pos_and_le hpos m.length
    have hvalue := toNat_fillCount hpos hsmall m.length
    have htotal := congrArg List.length hm
    rw [hlength, pad, List.length_append, List.length_replicate, Nat.mul_succ] at htotal
    have hdrop := congrArg (List.drop (block * k)) hm
    rw [List.drop_left' hfront, pad, List.drop_append_of_le_length (by omega)] at hdrop
    refine ⟨m.drop (block * k), UInt8.ofNat (fillCount block m.length), ?_, ?_⟩
    · intro hzero
      rw [hzero] at hvalue
      exact absurd hvalue.symm (Nat.ne_of_gt hfill.1)
    · rwa [hvalue]
  · rintro ⟨rest, j, hj, rfl⟩
    have hpositive : 0 < j.toNat := Nat.pos_of_ne_zero fun h => hj (UInt8.toNat_inj.mp h)
    rw [List.length_append, List.length_replicate] at hlast
    have hcount : fillCount block (front ++ rest).length = j.toNat := by
      refine fillCount_eq hpositive (by omega) (q := k) ?_
      rw [List.length_append, hfront, Nat.mul_succ]
      omega
    exact ⟨front ++ rest, by rw [pad, hcount, UInt8.ofNat_toNat, List.append_assoc]⟩

/-! ### Ciphertexts -/

variable {c : Cipher} {key iv e : Bytes}

theorem blockSize_pos (c : Cipher) : 0 < c.blockSize := by cases c <;> decide

theorem blockSize_lt (c : Cipher) : c.blockSize < 256 := by cases c <;> decide

/-- The block that the last block of a ciphertext is decrypted to. -/
def lastBlock (c : Cipher) (key iv e : Bytes) : Bytes :=
  Bytes.xor ((c.blockCipher key).decrypt (e.drop (e.length - c.blockSize)))
    (((iv ++ e).drop (e.length - c.blockSize)).take c.blockSize)

theorem plaintext?_eq_some (hiv : iv.length = c.blockSize) :
    c.plaintext? key iv e = some m ↔ c.ciphertext key iv m = e := by
  refine ⟨fun h => ?_, fun h => h ▸ plaintext?_ciphertext hiv key m⟩
  unfold plaintext? at h
  split at h
  case isFalse => cases h
  case isTrue hwhole =>
    obtain ⟨k, hk⟩ := Nat.dvd_of_mod_eq_zero hwhole
    rw [← size_blockCipher c key] at hk hiv
    have hlawful := c.blockCipher_lawful key
    have hlength := BlockCipher.length_decryptChained hlawful hiv hk
    rw [size_blockCipher] at hlength
    have hpad := (unpad?_eq_some c.blockSize_pos c.blockSize_lt hlength).mp h
    rw [ciphertext, ← hpad]
    exact BlockCipher.encryptChained_decryptChained hlawful hiv hk

/-- What whole blocks, at least one, are decrypted to ends in the last block. -/
theorem decryptChained_eq_append (key : Bytes) (hiv : iv.length = c.blockSize)
    (he : e.length = c.blockSize * (k + 1)) :
    ∃ front : Bytes, front.length = c.blockSize * k ∧ (c.lastBlock key iv e).length = c.blockSize ∧
      (c.blockCipher key).decryptChained iv e = front ++ c.lastBlock key iv e := by
  have hlawful := c.blockCipher_lawful key
  have hbefore : e.length - c.blockSize = c.blockSize * k := by rw [he, Nat.mul_succ, Nat.add_sub_cancel]
  unfold lastBlock
  rw [hbefore]
  rw [← size_blockCipher c key] at hiv he ⊢
  obtain ⟨front, hfront, hsplit⟩ := BlockCipher.decryptChained_succ hlawful hiv he
  have hlength := BlockCipher.length_decryptChained hlawful hiv he
  rw [hsplit, List.length_append, hfront, Nat.mul_succ] at hlength
  exact ⟨front, hfront, Nat.add_left_cancel hlength, hsplit⟩

theorem exists_plaintext?_iff (hiv : iv.length = c.blockSize) :
    (∃ m, c.plaintext? key iv e = some m) ↔
      e ≠ [] ∧ c.blockSize ∣ e.length ∧ EndsFilled (c.lastBlock key iv e) := by
  by_cases hwhole : c.blockSize ∣ e.length
  case neg =>
    have hmod : ¬ e.length % c.blockSize = 0 := fun h => hwhole (Nat.dvd_of_mod_eq_zero h)
    simp [plaintext?, hmod, hwhole]
  case pos =>
    have hmod := Nat.mod_eq_zero_of_dvd hwhole
    obtain ⟨k, hk⟩ := hwhole
    cases k with
    | zero =>
      obtain rfl : e = [] := List.eq_nil_of_length_eq_zero hk
      have hnone : c.plaintext? key iv [] = none := by
        simp [plaintext?, BlockCipher.decryptChained, BlockCipher.blocks, Bytes.chunks, BlockCipher.unchain,
          unpad?]
      simp [hnone]
    | succ k =>
      have hne : e ≠ [] := by
        rintro rfl
        have hpos := c.blockSize_pos
        rw [List.length_nil, Nat.mul_succ] at hk
        omega
      obtain ⟨front, hfront, hlast, hsplit⟩ := decryptChained_eq_append key hiv hk
      rw [plaintext?, if_pos hmod, hsplit, exists_unpad?_iff c.blockSize_pos c.blockSize_lt hfront hlast]
      exact ⟨fun h => ⟨hne, ⟨k + 1, hk⟩, h⟩, fun h => h.2.2⟩

theorem decrypt_eq_ok_iff : c.decrypt key iv e = .ok m ↔ c.encrypt key iv m = .ok e := by
  refine ⟨fun h => ?_, decrypt_of_encrypt⟩
  unfold decrypt at h
  split at h
  case isFalse => cases h
  case isTrue hfits =>
    have hlengths : key.length = c.keySize ∧ iv.length = c.blockSize := by simpa [fits] using hfits
    exact encrypt_eq_ok.mpr ⟨hlengths, (plaintext?_eq_some hlengths.2).mp (Result.ofOption_eq_ok.mp h)⟩

/-- A ciphertext is as long as the next greater multiple of the block size. -/
theorem length_of_encrypt (h : c.encrypt key iv m = .ok e) :
    c.blockSize ∣ e.length ∧ m.length < e.length ∧ e.length ≤ m.length + c.blockSize := by
  obtain ⟨⟨-, hiv⟩, rfl⟩ := encrypt_eq_ok.mp h
  have hlength := length_ciphertext hiv key m
  have hdivide := Nat.div_add_mod m.length c.blockSize
  have hmod := Nat.mod_lt m.length c.blockSize_pos
  refine ⟨⟨_, hlength⟩, ?_⟩
  rw [hlength, Nat.mul_succ]
  omega

theorem decrypt_eq_error_iff (hkey : key.length = c.keySize) (hiv : iv.length = c.blockSize) :
    c.decrypt key iv e = .error .decryption ↔
      e = [] ∨ ¬ c.blockSize ∣ e.length ∨ ¬ EndsFilled (c.lastBlock key iv e) := by
  have hnone : c.decrypt key iv e = .error .decryption ↔ ¬ ∃ m, c.plaintext? key iv e = some m := by
    rw [decrypt_of_lengths hkey hiv]
    cases c.plaintext? key iv e <;> simp [Result.ofOption]
  rw [hnone, exists_plaintext?_iff hiv, not_and_or, not_and_or, not_not]

/-- Decryption undoes encryption and nothing else.  With a key and an initial vector of the right lengths,
every message has a ciphertext, as long as the next greater multiple of the block size, and no other message
has the same; a string is refused exactly if it is empty, does not consist of whole blocks or does not end in
a filling.  With other lengths nothing is encrypted or decrypted. -/
theorem decrypts_exactly_ciphertexts (c : Cipher) (key iv : Bytes) :
    (∀ m e, c.decrypt key iv e = .ok m ↔ c.encrypt key iv m = .ok e) ∧
    (key.length = c.keySize ∧ iv.length = c.blockSize →
      (∀ m, ∃ e, c.encrypt key iv m = .ok e ∧
        c.blockSize ∣ e.length ∧ m.length < e.length ∧ e.length ≤ m.length + c.blockSize) ∧
      (∀ m m' e, c.encrypt key iv m = .ok e → c.encrypt key iv m' = .ok e → m = m') ∧
      ∀ e, c.decrypt key iv e = .error .decryption ↔
        e = [] ∨ ¬ c.blockSize ∣ e.length ∨ ¬ EndsFilled (c.lastBlock key iv e)) ∧
    (¬ (key.length = c.keySize ∧ iv.length = c.blockSize) →
      ∀ b, c.encrypt key iv b = .error .invalidKeyLength ∧ c.decrypt key iv b = .error .invalidKeyLength) := by
  refine ⟨fun m e => decrypt_eq_ok_iff, fun hlengths => ⟨fun m => ?_, fun m m' e hm hm' => ?_, fun e => ?_⟩,
    fun hlengths b => ?_⟩
  · have hencrypt : c.encrypt key iv m = .ok (c.ciphertext key iv m) := encrypt_eq_ok.mpr ⟨hlengths, rfl⟩
    exact ⟨_, hencrypt, length_of_encrypt hencrypt⟩
  · have hdecrypt := decrypt_of_encrypt hm
    rw [decrypt_of_encrypt hm'] at hdecrypt
    cases hdecrypt
    rfl
  · exact decrypt_eq_error_iff hlengths.1 hlengths.2
  · have hfits : c.fits key iv = false := by simpa [fits] using hlengths
    simp [encrypt, decrypt, hfits]

/-- Nothing becomes one block that is all filling; under this vector, a block of known encryption. -/
example : des.encrypt [0x13, 0x34, 0x57, 0x79, 0x9b, 0xbc, 0xdf, 0xf1]
    [0x09, 0x2b, 0x4d, 0x6f, 0x81, 0xa3, 0xc5, 0xe7] [] =
      .ok [0x85, 0xe8, 0x13, 0x54, 0x0f, 0x0a, 0xb4, 0x05] := by
  decide +kernel

end Cipher

end CertEnroll
