import CertEnroll.Cipher.Aes
import CertEnroll.Proofs.Cipher.Chaining
import Mathlib.Data.Nat.Bitwise
import Mathlib.Tactic.Set

/-!
# Proofs.Cipher.Aes — each layer of a round is undone

The substitution is undone by looking at every byte.  Mixing is undone because doubling respects sums:
what the two matrices make of a column then cancels but for the column itself.
-/

namespace CertEnroll.Cipher.Aes

/-! ### Substitution -/

theorem map_invSub_box :
    box.toList.map (fun b => invBox.toList.getD b.toNat 0) = (List.range 256).map UInt8.ofNat := by
  decide +kernel

theorem invSub_sub (b : UInt8) : invSub (sub b) = b := by
  have hb : b.toNat < 256 := b.toNat_lt
  have hlength : box.toList.length = 256 := by simpa using congrArg List.length map_invSub_box
  have hsize : b.toNat < box.toList.length := by rwa [hlength]
  have hget := congrArg (fun l => l[b.toNat]?) map_invSub_box
  simp only [List.getElem?_map, List.getElem?_eq_getElem hsize, List.getElem?_range hb, Option.map_some,
    Option.some.injEq, UInt8.ofNat_toNat] at hget
  have hsub : sub b = box.toList[b.toNat] := by
    unfold sub Array.getD
    exact dif_pos hsize
  rw [← hsub] at hget
  simpa [invSub] using hget

/-! ### Sums -/

theorem xor_self_left (a b : UInt8) : a ^^^ (a ^^^ b) = b := by
  rw [← UInt8.xor_assoc, UInt8.xor_self, UInt8.zero_xor]

theorem xor_xor_cancel (a b c : UInt8) : a ^^^ b ^^^ (a ^^^ c) = b ^^^ c := by
  rw [UInt8.xor_comm a b, UInt8.xor_assoc, xor_self_left]

theorem xor_left_comm (a b c : UInt8) : a ^^^ (b ^^^ c) = b ^^^ (a ^^^ c) := by
  rw [← UInt8.xor_assoc, UInt8.xor_comm a b, UInt8.xor_assoc]

/-- Doubling shifts, and folds the highest bit back. -/
theorem double_eq (b : UInt8) : double b = (b <<< 1) ^^^ (if b &&& 128 = 0 then 0 else 0x1b) := by
  have hall : ∀ n : Fin 256, double (UInt8.ofFin n) =
      (UInt8.ofFin n <<< 1) ^^^ (if UInt8.ofFin n &&& 128 = 0 then 0 else 0x1b) := by decide +kernel
  exact hall b.toFin

theorem highBit_cases (b : UInt8) : b &&& 128 = 0 ∨ b &&& 128 = 128 := by
  have hbit : (b &&& 128).toNat = (b.toNat.testBit 7).toNat * 2 ^ 7 := by
    rw [UInt8.toNat_and]
    exact Nat.and_two_pow b.toNat 7
  cases hb : b.toNat.testBit 7 with
  | false => exact .inl (UInt8.toNat_inj.mp (by rw [hbit, hb]; rfl))
  | true => exact .inr (UInt8.toNat_inj.mp (by rw [hbit, hb]; rfl))

theorem double_xor (a b : UInt8) : double (a ^^^ b) = double a ^^^ double b := by
  have hhigh : (a ^^^ b) &&& 128 = (a &&& 128) ^^^ (b &&& 128) := by
    apply UInt8.toNat_inj.mp
    rw [UInt8.toNat_and, UInt8.toNat_xor, UInt8.toNat_xor, UInt8.toNat_and, UInt8.toNat_and,
      Nat.and_xor_distrib_right]
  have hshift : (a ^^^ b) <<< 1 = (a <<< 1) ^^^ (b <<< 1) := UInt8.shiftLeft_xor
  rw [double_eq, double_eq a, double_eq b, hhigh, hshift]
  rcases highBit_cases a with ha | ha <;> rcases highBit_cases b with hb | hb <;>
    simp [ha, hb, UInt8.xor_assoc, UInt8.xor_comm, xor_left_comm]

/-! ### Mixing -/

/-- An entry of a mixed column, of the four bytes of the column in turn. -/
def mixed (w x y z : UInt8) : UInt8 :=
  double w ^^^ (double x ^^^ x) ^^^ y ^^^ z

theorem mixed_eq (w x y z : UInt8) : mixed w x y z = double (w ^^^ x) ^^^ (x ^^^ (y ^^^ z)) := by
  simp only [mixed, double_xor, UInt8.xor_assoc]

section Rows

variable (w x y z : UInt8)

theorem mixed_xor_next : mixed w x y z ^^^ mixed x y z w = double (w ^^^ y) ^^^ (w ^^^ x) := by
  simp only [mixed_eq, double_xor, UInt8.xor_assoc, UInt8.xor_comm, xor_left_comm, xor_self_left]

theorem mixed_xor_opposite :
    mixed w x y z ^^^ mixed y z w x = double (w ^^^ y ^^^ (x ^^^ z)) ^^^ (w ^^^ y) := by
  simp only [mixed_eq, double_xor, UInt8.xor_assoc, UInt8.xor_comm, xor_left_comm, xor_self_left]

theorem mixed_xor_others :
    mixed x y z w ^^^ mixed y z w x ^^^ mixed z w x y = double (w ^^^ x) ^^^ w := by
  simp only [mixed_eq, double_xor, UInt8.xor_assoc, UInt8.xor_comm, xor_left_comm, xor_self_left,
    UInt8.xor_self, UInt8.zero_xor]

/-- An entry of the inverse matrix, on a mixed column. -/
theorem unmixed_mixed :
    double (double (double (mixed w x y z ^^^ mixed y z w x)) ^^^
        double (double (mixed x y z w ^^^ mixed z w x y))) ^^^
      double (double (mixed w x y z ^^^ mixed y z w x)) ^^^ double (mixed w x y z) ^^^
      (double (mixed x y z w) ^^^ mixed x y z w) ^^^ mixed y z w x ^^^ mixed z w x y = w := by
  set s := w ^^^ y ^^^ (x ^^^ z) with hs
  have hw : mixed w x y z ^^^ mixed y z w x = double s ^^^ (w ^^^ y) := mixed_xor_opposite w x y z
  have hx : mixed x y z w ^^^ mixed z w x y = double s ^^^ (x ^^^ z) := by
    rw [mixed_xor_opposite, hs, UInt8.xor_comm (x ^^^ z), UInt8.xor_comm y w]
  -- the sum of the four bytes is what the outer doubling leaves of the two inner ones
  have hsum : double s ^^^ (w ^^^ y) ^^^ (double s ^^^ (x ^^^ z)) = s := xor_xor_cancel _ _ _
  have hhigh : double (double (double (double s ^^^ (w ^^^ y))) ^^^
        double (double (double s ^^^ (x ^^^ z)))) ^^^
      double (double (double s ^^^ (w ^^^ y))) = double (double (w ^^^ y)) := by
    rw [← double_xor (double _) (double (double s ^^^ (x ^^^ z))), ← double_xor (double s ^^^ _), hsum,
      double_xor (double s) (w ^^^ y), double_xor (double (double s)), xor_self_left]
  calc
    _ = double (double (double (mixed w x y z ^^^ mixed y z w x)) ^^^
            double (double (mixed x y z w ^^^ mixed z w x y))) ^^^
          double (double (mixed w x y z ^^^ mixed y z w x)) ^^^
        (double (mixed w x y z ^^^ mixed x y z w) ^^^
          (mixed x y z w ^^^ mixed y z w x ^^^ mixed z w x y)) := by
      rw [double_xor (mixed w x y z) (mixed x y z w)]
      simp only [UInt8.xor_assoc]
    _ = double (double (w ^^^ y)) ^^^
        (double (double (w ^^^ y) ^^^ (w ^^^ x)) ^^^ (double (w ^^^ x) ^^^ w)) := by
      rw [hw, hx, hhigh, mixed_xor_next, mixed_xor_others]
    _ = w := by
      rw [double_xor (double (w ^^^ y)), UInt8.xor_assoc, xor_self_left, xor_self_left]

end Rows

theorem unmixColumn_mixColumn (c : Column) : unmixColumn (mixColumn c) = c := by
  obtain ⟨b0, b1, b2, b3⟩ := c
  change Column.mk _ _ _ _ = _
  rw [Column.mk.injEq]
  exact ⟨unmixed_mixed b0 b1 b2 b3, unmixed_mixed b1 b2 b3 b0, unmixed_mixed b2 b3 b0 b1,
    unmixed_mixed b3 b0 b1 b2⟩

/-! ### Rounds -/

theorem Column.add_add_cancel (c d : Column) : (c.add d).add d = c := by
  simp only [Column.add, UInt8.xor_assoc, UInt8.xor_self, UInt8.xor_zero]

theorem Block.add_add_cancel (b k : Block) : (b.add k).add k = b := by
  simp [Block.add, Column.add_add_cancel]

theorem map_invSub_map_sub (b : Block) : (b.map (Column.map sub)).map (Column.map invSub) = b := by
  simp [Block.map, Column.map, invSub_sub]

theorem unround_round (b k : Block) : unround (round b k) k = b := by
  have hmix (b : Block) : (b.map mixColumn).map unmixColumn = b := by
    simp [Block.map, unmixColumn_mixColumn]
  rw [unround, round, Block.add_add_cancel, hmix, unshiftRows_shiftRows, map_invSub_map_sub]

theorem unlastRound_lastRound (b k : Block) : unlastRound (lastRound b k) k = b := by
  rw [unlastRound, lastRound, Block.add_add_cancel, unshiftRows_shiftRows, map_invSub_map_sub]

theorem foldr_unround_foldl_round (ks : List Block) (b : Block) :
    ks.foldr (fun k b => unround b k) (ks.foldl round b) = b := by
  induction ks generalizing b with
  | nil => rfl
  | cons k ks ih => rw [List.foldr_cons, List.foldl_cons, ih, unround_round]

theorem decryptBlock_encryptBlock (first : Block) (middle : List Block) (last b : Block) :
    decryptBlock first middle last (encryptBlock first middle last b) = b := by
  rw [decryptBlock, encryptBlock, unlastRound_lastRound, foldr_unround_foldl_round, Block.add_add_cancel]

/-! ### The cipher -/

theorem Block.ofBytes_toBytes (b : Block) : Block.ofBytes b.toBytes = b := rfl

theorem Block.toBytes_ofBytes {b : Bytes} (h : b.length = 16) : (Block.ofBytes b).toBytes = b := by
  match b, h with
  | [_, _, _, _, _, _, _, _, _, _, _, _, _, _, _, _], _ => rfl

theorem cipher_lawful (key : Bytes) : (cipher key).Lawful where
  size_pos := by simp [cipher]
  length_encrypt b _ := rfl
  decrypt_encrypt b hb := by
    simp only [cipher, Block.ofBytes_toBytes, decryptBlock_encryptBlock]
    exact Block.toBytes_ofBytes hb

end CertEnroll.Cipher.Aes
