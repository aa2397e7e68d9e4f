import CertEnroll.Der.SetOf
import CertEnroll.Proofs.Der.Elements

/-!
# Proofs.Der.Sets — sets hold the members they are built from, in their order

A set that is built from a list holds exactly the members of the list.  Members that are in order already
stay as they are, so a set is built again from its own members.  Where no member may be repeated, a set
can be built from a list exactly if no two of its members are written alike and none of several is too long.
-/

namespace CertEnroll.Der.SetOf

variable {α : Type}

/-! ### Sorting -/

theorem insert_perm (x : List Nat × α) (l : List (List Nat × α)) : (insert x l).Perm (x :: l) := by
  induction l with
  | nil => exact List.Perm.refl _
  | cons y l ih =>
    unfold insert
    split
    · exact (List.Perm.cons y ih).trans (List.Perm.swap x y l)
    · exact List.Perm.refl _

theorem foldr_insert_perm (l : List (List Nat × α)) : (l.foldr insert []).Perm l := by
  induction l with
  | nil => exact List.Perm.refl _
  | cons x l ih => exact (insert_perm x _).trans (List.Perm.cons x ih)

theorem insert_pairwise {x : List Nat × α} {l : List (List Nat × α)}
    (h : l.Pairwise fun y z => ¬ z.1 < y.1) : (insert x l).Pairwise fun y z => ¬ z.1 < y.1 := by
  induction l with
  | nil => exact List.pairwise_singleton _ x
  | cons y l ih =>
    obtain ⟨hy, hl⟩ := List.pairwise_cons.mp h
    unfold insert
    split
    case isTrue hlt =>
      refine List.pairwise_cons.mpr ⟨fun z hz => ?_, ih hl⟩
      rcases List.mem_cons.mp ((insert_perm x l).subset hz) with rfl | hz
      · exact List.lt_asymm hlt
      · exact hy z hz
    case isFalse hge =>
      refine List.pairwise_cons.mpr ⟨fun z hz => ?_, h⟩
      rcases List.mem_cons.mp hz with rfl | hz
      · exact hge
      · exact List.le_trans hge (hy z hz)

theorem foldr_insert_pairwise (l : List (List Nat × α)) :
    (l.foldr insert []).Pairwise fun y z => ¬ z.1 < y.1 := by
  induction l with
  | nil => exact .nil
  | cons x l ih => exact insert_pairwise ih

variable [Member α]

theorem sorted_pairwise (l : List α) : (sorted l).Pairwise fun a b => ¬ orderKey b < orderKey a := by
  refine List.pairwise_map.mpr ?_
  refine (foldr_insert_pairwise _).imp_of_mem fun {x y} hx hy hxy => ?_
  -- every entry is a value with its own key
  have hkey : ∀ z ∈ (l.map fun a => (orderKey a, a)).foldr insert [], z.1 = orderKey z.2 := by
    intro z hz
    obtain ⟨a, -, rfl⟩ := List.mem_map.mp ((foldr_insert_perm _).subset hz)
    rfl
  rwa [← hkey x hx, ← hkey y hy]

theorem sorted_perm (l : List α) : (sorted l).Perm l := by
  have h := (foldr_insert_perm (l.map fun a => (orderKey a, a))).map (·.2)
  rw [List.map_map] at h
  simpa [sorted, Function.comp_def] using h

/-- A member does not stand before what it follows. -/
theorem not_lt_of_precedes {a b : α} (h : precedes a b) : ¬ orderKey b < orderKey a := by
  intro hlt
  rcases h.2 with h | ⟨-, h⟩
  · exact List.lt_asymm h hlt
  · rw [h] at hlt
    exact List.lt_irrefl _ hlt

theorem foldr_insert_of_ascending {l : List α} (h : l.Pairwise precedes) :
    (l.map fun a => (orderKey a, a)).foldr insert [] = l.map fun a => (orderKey a, a) := by
  induction h with
  | nil => rfl
  | @cons a l ha _ ih =>
    rw [List.map_cons, List.foldr_cons, ih]
    cases l with
    | nil => rfl
    | cons b l =>
      rw [List.map_cons, insert, if_neg (not_lt_of_precedes (ha b (by simp)))]

/-- What is in order already is not moved. -/
theorem sorted_of_ascending {l : List α} (h : l.Pairwise precedes) : sorted l = l := by
  rw [sorted, foldr_insert_of_ascending h, List.map_map]
  exact List.map_id _

/-! ### Building -/

theorem ext {s t : SetOf α} (h : s.toList = t.toList) : s = t := by
  cases s
  cases t
  cases h
  rfl

theorem ofList?_eq_some {l : List α} {s : SetOf α} : ofList? l = some s ↔ s.toList = sorted l := by
  unfold ofList?
  dsimp only
  split
  case isTrue h =>
    rw [Option.some.injEq]
    exact ⟨fun hs => hs ▸ rfl, fun hs => ext hs.symm⟩
  case isFalse h =>
    constructor
    · intro hs
      cases hs
    · intro hs
      exact absurd (hs ▸ s.ascending) h

/-- A set holds the members it is built from. -/
theorem perm_of_ofList? {l : List α} {s : SetOf α} (h : ofList? l = some s) : s.toList.Perm l := by
  rw [ofList?_eq_some.mp h]
  exact sorted_perm l

theorem ofList?_toList (s : SetOf α) : ofList? s.toList = some s :=
  ofList?_eq_some.mpr (sorted_of_ascending s.ascending).symm

/-- A member that may not be repeated occurs once. -/
theorem nodup_toList (h : ∀ a : α, Member.repeats a = false) (s : SetOf α) : s.toList.Nodup := by
  refine s.ascending.imp fun {a b} hab => ?_
  rintro rfl
  rcases hab.2 with hlt | ⟨hr, -⟩
  · exact List.lt_irrefl _ hlt
  · rw [h a] at hr
    cases hr

/-- Members of a set that has more than one were compared, so they are not too long. -/
theorem one_lt_size {s : SetOf α} {a b : α} (ha : a ∈ s.toList) (hb : b ∈ s.toList) (h : a ≠ b) :
    1 < s.size := by
  unfold size
  match s.toList, ha, hb with
  | [c], ha, hb => exact absurd ((List.mem_singleton.mp ha).trans (List.mem_singleton.mp hb).symm) h
  | _ :: _ :: _, _, _ => simp

theorem fits_of_size {s : SetOf α} (h : 1 < s.size) {a : α} (ha : a ∈ s.toList) : (toElement a).Fits := by
  obtain ⟨l, hl⟩ := s
  change 1 < l.length at h
  cases hl with
  | nil => cases ha
  | @cons x l hx hl =>
    rcases List.mem_cons.mp ha with rfl | ha
    · obtain ⟨b, hb⟩ := List.exists_mem_of_length_pos (Nat.lt_of_succ_lt_succ h)
      exact (hx b hb).1.1
    · exact (hx a ha).1.2

/-- A set can be built from values that may not be repeated exactly if their keys are different and, where
there is more than one, none of them is too long. -/
theorem exists_ofList?_iff (hα : ∀ a : α, Member.repeats a = false) (l : List α) :
    (∃ s, ofList? l = some s) ↔
      (l.map orderKey).Nodup ∧ (1 < l.length → ∀ a ∈ l, (toElement a).Fits) := by
  have hperm := (sorted_perm l).map orderKey
  constructor
  · rintro ⟨s, hs⟩
    refine ⟨?_, fun hlength a ha => ?_⟩
    · rw [← hperm.nodup_iff, ← ofList?_eq_some.mp hs]
      refine List.pairwise_map.mpr (s.ascending.imp fun {a b} hab => ?_)
      rcases hab.2 with hlt | ⟨hr, -⟩
      · exact fun heq => List.lt_irrefl _ (heq ▸ hlt)
      · rw [hα a] at hr
        cases hr
    · have hmembers := perm_of_ofList? hs
      exact fits_of_size (Nat.lt_of_lt_of_eq hlength hmembers.length_eq.symm) (hmembers.mem_iff.mpr ha)
  · rintro ⟨hl, hfits⟩
    have hdistinct := List.pairwise_map.mp (hperm.nodup_iff.mpr hl)
    have hascending : (sorted l).Pairwise precedes := by
      rcases Nat.lt_or_ge 1 l.length with hmany | hone
      · have hall : ∀ a ∈ sorted l, (toElement a).Fits := fun a ha =>
          hfits hmany a ((sorted_perm l).mem_iff.mp ha)
        refine ((sorted_pairwise l).and hdistinct).imp_of_mem fun {a b} ha hb hab => ?_
        exact ⟨⟨hall a ha, hall b hb⟩, .inl ((List.le_iff_lt_or_eq.mp hab.1).resolve_right hab.2)⟩
      · have hshort : (sorted l).length ≤ 1 := (sorted_perm l).length_eq ▸ hone
        generalize sorted l = s at hshort
        match s, hshort with
        | [], _ => exact .nil
        | [a], _ => exact List.pairwise_singleton _ a
    exact ⟨⟨sorted l, hascending⟩, ofList?_eq_some.mpr rfl⟩

/-! ### Keys -/

/-- Values of one key are written as one element: the key tells where the header and the content end. -/
theorem toElement_eq_of_orderKey {a b : α} (h : orderKey a = orderKey b) : toElement a = toElement b := by
  unfold orderKey at h
  dsimp only at h
  generalize toElement a = e at h ⊢
  generalize toElement b = f at h ⊢
  have hlength : e.content.length = f.content.length := by
    have htotal := congrArg List.length h
    simp only [Element.header, List.length_append, List.length_map, List.length_cons] at htotal
    refine Element.length_content_of_encode ?_
    rw [Element.length_encode, Element.length_encode]
    omega
  have hheader : (e.header.map UInt8.toNat).length = (f.header.map UInt8.toNat).length := by
    simp [Element.header, hlength]
  obtain ⟨hheaders, hrest⟩ := List.append_inj h hheader
  have hoctets (x y : Bytes) (hxy : x.map UInt8.toNat = y.map UInt8.toNat) : x = y :=
    (List.map_inj_right fun _ _ => UInt8.toNat_inj.mp).mp hxy
  have hcontent := hoctets _ _ (List.cons.inj hrest).2
  have htag : e.tag.octet = f.tag.octet := (List.cons.inj (hoctets _ _ hheaders)).1
  have htags : some e.tag = some f.tag := by
    rw [← Tag.ofOctet?_octet, htag, Tag.ofOctet?_octet]
  cases e
  cases f
  cases hcontent
  cases htags
  rfl

end CertEnroll.Der.SetOf
