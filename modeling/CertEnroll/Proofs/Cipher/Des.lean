import CertEnroll.Cipher.Des
import CertEnroll.Proofs.Cipher.Chaining
import Mathlib.Tactic.Set

/-!
# Proofs.Cipher.Des — the rounds are undone by the same rounds in reverse

A round changes one half by what it makes of the other, so that the same round on the exchanged halves
takes the change back.  Hence passing a block through the subkeys and then through the subkeys in reverse
order gives the block back, whatever the subkeys are.
-/

namespace CertEnroll.Cipher.Des

/-! ### Bits -/

theorem length_bitsOfByte (b : UInt8) : (bitsOfByte b).length = 8 := rfl

theorem length_bitsOfBytes (b : Bytes) : (bitsOfBytes b).length = 8 * b.length := by
  induction b with
  | nil => rfl
  | cons x b ih =>
    rw [bitsOfBytes, List.flatMap_cons, List.length_append, length_bitsOfByte, ← bitsOfBytes, ih,
      List.length_cons]
    omega

theorem ofNat_numberOfBits (b : UInt8) : UInt8.ofNat (numberOfBits (bitsOfByte b)) = b := by
  have hall : ∀ n : Fin 256,
      UInt8.ofNat (numberOfBits (bitsOfByte (UInt8.ofFin n))) = UInt8.ofFin n := by decide +kernel
  exact hall b.toFin

theorem bitsOfByte_ofNat {b : List Bool} (h : b.length = 8) :
    bitsOfByte (UInt8.ofNat (numberOfBits b)) = b := by
  have hall : ∀ a b c d e f g h : Bool,
      bitsOfByte (UInt8.ofNat (numberOfBits [a, b, c, d, e, f, g, h])) = [a, b, c, d, e, f, g, h] := by
    decide +kernel
  match b, h with
  | [_, _, _, _, _, _, _, _], _ => exact hall _ _ _ _ _ _ _ _

theorem bytesOfBits_bitsOfBytes (b : Bytes) : bytesOfBits b.length (bitsOfBytes b) = b := by
  induction b with
  | nil => rfl
  | cons x b ih =>
    have htake : (bitsOfBytes (x :: b)).take 8 = bitsOfByte x := List.take_left' (length_bitsOfByte x)
    have hdrop : (bitsOfBytes (x :: b)).drop 8 = bitsOfBytes b := List.drop_left' (length_bitsOfByte x)
    rw [List.length_cons, bytesOfBits, htake, hdrop, ih, ofNat_numberOfBits]

theorem bitsOfBytes_bytesOfBits {k : Nat} {b : List Bool} (h : b.length = 8 * k) :
    bitsOfBytes (bytesOfBits k b) = b := by
  induction k generalizing b with
  | zero =>
    rw [List.eq_nil_of_length_eq_zero h]
    rfl
  | succ k ih =>
    have htake : (b.take 8).length = 8 := by
      rw [List.length_take]
      omega
    have hdrop : (b.drop 8).length = 8 * k := by
      rw [List.length_drop]
      omega
    have hrest : bitsOfBytes (bytesOfBits (k + 1) b) =
        bitsOfByte (UInt8.ofNat (numberOfBits (b.take 8))) ++ bitsOfBytes (bytesOfBits k (b.drop 8)) :=
      List.flatMap_cons
    rw [hrest, ih hdrop, bitsOfByte_ofNat htake, List.take_append_drop]

theorem length_bytesOfBits (k : Nat) (b : List Bool) : (bytesOfBits k b).length = k := by
  induction k generalizing b with
  | zero => rfl
  | succ k ih => rw [bytesOfBits, List.length_cons, ih]

/-! ### Tables -/

@[simp] theorem length_select (table : List Nat) (b : List Bool) :
    (select table b).length = table.length := by
  simp [select]

theorem select_eq (table : List Nat) (b : List Bool) :
    select table b = table.map fun i => b.getD (i - 1) false := by
  simp [select]

/-- Two tables one after the other are one table. -/
theorem select_select {t t' : List Nat} (h : ∀ i ∈ t, i - 1 < t'.length) (b : List Bool) :
    select t (select t' b) = select (t.map fun i => t'.getD (i - 1) 0) b := by
  rw [select_eq, select_eq, select_eq, List.map_map]
  refine List.map_congr_left fun i hi => ?_
  have hlt := h i hi
  simp [List.getD, List.getElem?_eq_getElem hlt]

/-- The table of all places in order. -/
def allPlaces (n : Nat) : List Nat := (List.range n).map (· + 1)

theorem select_allPlaces {n : Nat} {b : List Bool} (h : b.length = n) : select (allPlaces n) b = b := by
  rw [select_eq, allPlaces, List.map_map, ← h]
  refine List.ext_getElem (by simp) fun i hi _ => ?_
  have hlt : i < b.length := by simpa using hi
  simp [List.getD, List.getElem?_eq_getElem hlt]

theorem select_final_initial {b : List Bool} (h : b.length = 64) :
    select finalPermutation (select initialPermutation b) = b := by
  have htable : (finalPermutation.map fun i => initialPermutation.getD (i - 1) 0) = allPlaces 64 := by
    decide
  rw [select_select (by decide), htable, select_allPlaces h]

theorem select_initial_final {b : List Bool} (h : b.length = 64) :
    select initialPermutation (select finalPermutation b) = b := by
  have htable : (initialPermutation.map fun i => finalPermutation.getD (i - 1) 0) = allPlaces 64 := by
    decide
  rw [select_select (by decide), htable, select_allPlaces h]

/-! ### Rounds -/

/-- Both halves of a block are there in full. -/
def Halved (b : List Bool × List Bool) : Prop := b.1.length = 32 ∧ b.2.length = 32

theorem xorBits_xorBits_cancel {a b : List Bool} (h : a.length ≤ b.length) :
    xorBits (xorBits a b) b = a :=
  Bytes.zipWith_zipWith_cancel (by decide) h

@[simp] theorem length_roundFunction (subkey half : List Bool) :
    (roundFunction subkey half).length = 32 := by
  rw [roundFunction, length_select]
  rfl

theorem halved_round {b : List Bool × List Bool} (h : Halved b) (k : List Bool) : Halved (round b k) := by
  refine ⟨h.2, ?_⟩
  simp [round, xorBits, h.1]

theorem halved_foldl_round {b : List Bool × List Bool} (h : Halved b) (ks : List (List Bool)) :
    Halved (ks.foldl round b) := by
  induction ks generalizing b with
  | nil => exact h
  | cons k ks ih => exact ih (halved_round h k)

/-- A round takes itself back on exchanged halves. -/
theorem round_swap_round {b : List Bool × List Bool} (h : Halved b) (k : List Bool) :
    round (round b k).swap k = b.swap := by
  obtain ⟨l, r⟩ := b
  have hl : l.length ≤ (roundFunction k r).length := by
    rw [length_roundFunction]
    exact Nat.le_of_eq h.1
  change (r, xorBits (xorBits l (roundFunction k r)) (roundFunction k r)) = (r, l)
  rw [xorBits_xorBits_cancel hl]

theorem foldl_round_reverse {b : List Bool × List Bool} (h : Halved b) (ks : List (List Bool)) :
    ks.reverse.foldl round (ks.foldl round b).swap = b.swap := by
  induction ks generalizing b with
  | nil => rfl
  | cons k ks ih =>
    rw [List.foldl_cons, List.reverse_cons, List.foldl_append, ih (halved_round h k), List.foldl_cons,
      List.foldl_nil, round_swap_round h]

/-! ### Passing a block -/

theorem halved_split {b : List Bool} (h : b.length = 64) : Halved (b.take 32, b.drop 32) := by
  refine ⟨?_, ?_⟩
  · rw [List.length_take, h]
    rfl
  · rw [List.length_drop, h]

theorem length_passBits (ks : List (List Bool)) (b : List Bool) : (passBits ks b).length = 64 :=
  length_select _ _

theorem passBits_reverse {b : List Bool} (h : b.length = 64) (ks : List (List Bool)) :
    passBits ks.reverse (passBits ks b) = b := by
  set start := select initialPermutation b with hstart
  have hlength : start.length = 64 := length_select _ _
  have hhalved := halved_split hlength
  obtain ⟨hleft, hright⟩ := halved_foldl_round hhalved ks
  set halves := ks.foldl round (start.take 32, start.drop 32) with hhalves
  have hjoined : (halves.2 ++ halves.1).length = 64 := by rw [List.length_append, hleft, hright]
  have hpass : passBits ks b = select finalPermutation (halves.2 ++ halves.1) := rfl
  have htake : (halves.2 ++ halves.1).take 32 = halves.2 := List.take_left' hright
  have hdrop : (halves.2 ++ halves.1).drop 32 = halves.1 := List.drop_left' hright
  have hback := foldl_round_reverse hhalved ks
  rw [← hhalves] at hback
  unfold passBits at hpass ⊢
  dsimp only at hpass ⊢
  rw [hpass, select_initial_final hjoined, htake, hdrop]
  change select finalPermutation ((ks.reverse.foldl round halves.swap).2 ++
    (ks.reverse.foldl round halves.swap).1) = b
  rw [hback, Prod.snd_swap, Prod.fst_swap, List.take_append_drop, hstart, select_final_initial h]

theorem pass_reverse {b : Bytes} (h : b.length = 8) (ks : List (List Bool)) :
    pass ks.reverse (pass ks b) = b := by
  have hbits : (bitsOfBytes b).length = 64 := by rw [length_bitsOfBytes, h]
  rw [pass, pass, bitsOfBytes_bytesOfBits (length_passBits _ _), passBits_reverse hbits, ← h,
    bytesOfBits_bitsOfBytes]

@[simp] theorem length_pass (ks : List (List Bool)) (b : Bytes) : (pass ks b).length = 8 :=
  length_bytesOfBits _ _

/-! ### The ciphers -/

theorem length_encrypt (key b : Bytes) : ((cipher key).encrypt b).length = 8 := length_pass _ _

theorem length_decrypt (key b : Bytes) : ((cipher key).decrypt b).length = 8 := length_pass _ _

theorem decrypt_encrypt {b : Bytes} (h : b.length = 8) (key : Bytes) :
    (cipher key).decrypt ((cipher key).encrypt b) = b :=
  pass_reverse h (subkeys key)

theorem encrypt_decrypt {b : Bytes} (h : b.length = 8) (key : Bytes) :
    (cipher key).encrypt ((cipher key).decrypt b) = b := by
  have hback := pass_reverse h (subkeys key).reverse
  rw [List.reverse_reverse] at hback
  exact hback

theorem cipher_lawful (key : Bytes) : (cipher key).Lawful where
  size_pos := by simp [cipher]
  length_encrypt b _ := length_encrypt key b
  decrypt_encrypt b hb := decrypt_encrypt hb key

theorem tripleCipher_lawful (key : Bytes) : (tripleCipher key).Lawful where
  size_pos := by simp [tripleCipher]
  length_encrypt b _ := length_pass _ _
  decrypt_encrypt b hb := by
    change (cipher (key.take 8)).decrypt ((cipher ((key.drop 8).take 8)).encrypt
      ((cipher (key.drop 16)).decrypt ((cipher (key.drop 16)).encrypt
        ((cipher ((key.drop 8).take 8)).decrypt ((cipher (key.take 8)).encrypt b))))) = b
    rw [decrypt_encrypt (length_decrypt _ _), encrypt_decrypt (length_encrypt _ _), decrypt_encrypt hb]

end CertEnroll.Cipher.Des
