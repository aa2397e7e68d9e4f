import CertEnroll.Proofs.Der.Origins

/-!
# Proofs.Der.Stability — what was read is written so that it is read again

The readers accept more than the writers make: the members of a set in any order, a default that is spelt
out, a field that no one asks for.  So a value is not always written as the octets that it was read from.
But it is written as an element with the same tag that is no longer, and it is read from this element again.
`Stable` says so of all values of a type, and `Fields.Rewrites` of a reader of fields.
-/

namespace CertEnroll.Der

variable {α β : Type}

namespace Element

/-- A replaced tag is put back. -/
theorem retag_with {e : Element} {t : Tag} (n : Nat) (h : e.tag = t) :
    ({ e.retag n with tag := t } : Element) = e := by
  subst h
  rfl

end Element

/-- The value is written with the tag of the element and no longer, and is read from what is written. -/
structure Restores [Der α] (e : Element) (a : α) : Prop where
  tag_eq : (toElement a).tag = e.tag
  length_le : (toElement a).content.length ≤ e.content.length
  read_again : ofElement? (toElement a) = some a

/-- Types whose values, once read, are written so that they are read again. -/
class Stable (α : Type) [Der α] : Prop where
  restores : ∀ {e : Element} {a : α}, e.Fits → ofElement? e = some a → Restores e a

namespace Restores

variable [Der α] {e : Element} {a : α}

theorem fits (h : Restores e a) (he : e.Fits) : (toElement a).Fits := Nat.le_trans h.length_le he

theorem readable (h : Restores e a) : Readable a := fun _ => h.read_again

theorem length_encode_le (h : Restores e a) : (toElement a).encode.length ≤ e.encode.length :=
  Element.length_encode_mono h.length_le

end Restores

/-- A value that was read from some element is read from its own. -/
theorem Stems.readable [Der α] [Stable α] {a : α} (h : Stems a) : Readable a := by
  obtain ⟨e, he, ha⟩ := h
  have hrestores : Restores e a := Stable.restores he ha
  exact hrestores.readable

/-! ### Values of several kinds -/

section

variable [Der α] [Stable α] [Der β] {f : α → β} {e : Element} {b : β}

/-- A value of one of several kinds, if it is written as what makes it and its element tells the kind. -/
theorem restores_of_map (he : e.Fits) (h : (ofElement? e : Option α).map f = some b)
    (hwrite : ∀ a, toElement (f a) = toElement a)
    (hread : ∀ a : α, ofElement? (toElement a) = (ofElement? (toElement a) : Option α).map f) :
    Restores e b := by
  obtain ⟨a, ha, rfl⟩ := Option.map_eq_some_iff.mp h
  have hrestores : Restores e a := Stable.restores he ha
  refine ⟨?_, ?_, ?_⟩
  · rw [hwrite, hrestores.tag_eq]
  · rw [hwrite]
    exact hrestores.length_le
  · rw [hwrite, hread, hrestores.read_again]
    rfl

/-- A value of one of several kinds, if the number of a replaced tag tells the kind. -/
theorem restores_of_map_retag {t : Tag} {n : Nat} (he : e.Fits)
    (h : (ofElement? ({ e with tag := t } : Element) : Option α).map f = some b)
    (htag : e.tag = Tag.contextOf t.isConstructed n) (hwrite : ∀ a, toElement (f a) = (toElement a).retag n)
    (hread : ∀ a : α, ofElement? ((toElement a).retag n) =
      (ofElement? ({ (toElement a).retag n with tag := t } : Element) : Option α).map f) : Restores e b := by
  obtain ⟨a, ha, rfl⟩ := Option.map_eq_some_iff.mp h
  have hrestores : Restores ({ e with tag := t } : Element) a := Stable.restores he ha
  have ht : (toElement a).tag = t := hrestores.tag_eq
  refine ⟨?_, ?_, ?_⟩
  · rw [hwrite, htag, ← ht]
    rfl
  · rw [hwrite]
    exact hrestores.length_le
  · rw [hwrite, hread, Element.retag_with n ht, hrestores.read_again]
    rfl

end

/-! ### Documents -/

section

variable [Der α] [Stable α] {a : α} {b : Bytes}

theorem exists_restores_of_decode? (h : decode? b = some a) :
    ∃ e : Element, b = e.encode ∧ e.Fits ∧ Restores e a := by
  obtain ⟨e, he, ha⟩ := Option.bind_eq_some_iff.mp h
  obtain ⟨rfl, hfits⟩ := Element.ofBytes?_eq_some.mp he
  exact ⟨e, rfl, hfits, Stable.restores hfits ha⟩

/-- The value of a document has a document of its own, which is no longer and is read as the value. -/
theorem exists_write_of_read (h : read b = .ok a) :
    ∃ b', write a = .ok b' ∧ read b' = .ok a ∧ b'.length ≤ b.length := by
  obtain ⟨hlength, e, rfl, hfits, ha⟩ := read_eq_ok.mp h
  have hrestores : Restores e a := Stable.restores hfits ha
  have hle : (encode a).length ≤ e.encode.length := hrestores.length_encode_le
  have hwrite : write a = .ok (encode a) := write_eq_ok.mpr ⟨rfl, Nat.le_trans hle hlength⟩
  exact ⟨encode a, hwrite, hrestores.readable.read hwrite, hle⟩

end

/-! ### Elements in a row -/

theorem length_join_le_of_restores [Der α] {es : List Element} {l : List α}
    (h : List.Forall₂ Restores es l) : (Element.join (l.map toElement)).length ≤ (Element.join es).length := by
  induction h with
  | nil => exact Nat.le_refl _
  | cons hfa _ ih =>
    have hle := hfa.length_encode_le
    simp only [List.map_cons, Element.join_cons, List.length_append]
    omega

theorem forall₂_restores [Der α] [Stable α] {es : List Element} {l : List α} (hfits : ∀ e ∈ es, e.Fits)
    (h : List.Forall₂ (fun e a => ofElement? e = some a) es l) : List.Forall₂ Restores es l := by
  induction h with
  | nil => exact .nil
  | cons ha _ ih =>
    obtain ⟨he, hes⟩ := List.forall_mem_cons.mp hfits
    exact .cons (Stable.restores he ha) (ih hes)

theorem readable_of_forall₂ [Der α] {es : List Element} {l : List α} (h : List.Forall₂ Restores es l) :
    ∀ a ∈ l, Readable a := by
  intro a ha
  obtain ⟨e, -, hrestores⟩ := exists_mem_of_forall₂ h ha
  exact hrestores.readable

instance [Der α] [Stable α] : Stable (List α) where
  restores {e l} he h := by
    obtain ⟨es, hes, hl⟩ := Option.bind_eq_some_iff.mp h
    obtain ⟨rfl, hfits⟩ := Element.elements?_eq_some.mp hes
    have hrestores := forall₂_restores hfits (forall₂_of_mapM hl)
    have hle := length_join_le_of_restores hrestores
    exact ⟨rfl, hle, readable_list (readable_of_forall₂ hrestores) (Nat.le_trans hle he)⟩

instance [Member α] [Stable α] : Stable (SetOf α) where
  restores {e s} he h := by
    obtain ⟨es, l, rfl, hfits, hl, hperm⟩ := SetOf.ofElement?_eq_some h
    have hrestores := forall₂_restores hfits hl
    -- the order of the members does not change their length
    have hlength : (Element.join (s.toList.map toElement)).length =
        (Element.join (l.map toElement)).length := ((hperm.map toElement).flatMap_right _).length_eq
    have hle : (toElement s).content.length ≤ (Element.ofElements .set es).content.length := by
      change (Element.join (s.toList.map toElement)).length ≤ (Element.join es).length
      rw [hlength]
      exact length_join_le_of_restores hrestores
    have hreadable : Readable s :=
      readable_setOf fun a ha => readable_of_forall₂ hrestores a (hperm.mem_iff.mp ha)
    exact ⟨rfl, hle, hreadable (Nat.le_trans hle he)⟩

/-! ### Fields -/

namespace Fields

/-- What is read to the end of some elements is written as the elements `before` and others, and is read
again from these others.  They are no longer, and the first of them has one of some tags. -/
structure Rewrites (f : Fields β) (before : List Element) (Writes : β → List Element → Prop)
    (Starts : Tag → Prop) : Prop where
  exists_again : ∀ {es x}, (∀ e ∈ es, e.Fits) → f.run es = some (x, []) →
    ∃ ws, Writes x (before ++ ws) ∧ f.run ws = some (x, []) ∧
      (Element.join ws).length ≤ (Element.join es).length ∧ ∀ e ∈ ws.head?, Starts e.tag

/-- How an optional field is written: what is read is written with one of the first tags and read again, and
it is absent before the other tags. -/
structure Rereads (f : Fields (Option α)) (write : α → Element) (Starts Absent : Tag → Prop) : Prop where
  again : ∀ {es o r}, (∀ e ∈ es, e.Fits) → f.run es = some (o, r) → (∀ e ∈ r, e.Fits) ∧
    (Element.join (optionalField (o.map write) ++ r)).length ≤ (Element.join es).length ∧
    ∀ a ∈ o, Starts (write a).tag ∧ ∀ ws, f.run (write a :: ws) = some (some a, ws)
  absent : ∀ ws, (∀ e ∈ ws.head?, Absent e.tag) → f.run ws = some (none, ws)

theorem exists_of_run_bind {f : Fields α} {g : α → Fields β} {es : List Element} {x : β × List Element}
    (h : (f >>= g).run es = some x) : ∃ a r, f.run es = some (a, r) ∧ (g a).run r = some x := by
  obtain ⟨⟨a, r⟩, ha, h⟩ := Option.bind_eq_some_iff.mp h
  exact ⟨a, r, ha, h⟩

variable {before : List Element} {Writes : β → List Element → Prop} {Starts : Tag → Prop}

namespace Rewrites

theorem pure {x : β} (h : Writes x before) : Rewrites (pure x) before Writes fun _ => False where
  exists_again {es y} hfits hrun := by
    cases hrun
    exact ⟨[], by simp [h], rfl, Nat.le_refl _, by simp⟩

theorem value [Der α] [Stable α] {g : α → Fields β}
    (h : ∀ a, Rewrites (g a) (before ++ [toElement a]) Writes Starts) :
    Rewrites (value >>= g) before Writes fun t => ∃ a : α, (toElement a).tag = t where
  exists_again {es x} hfits hrun := by
    obtain ⟨e, r, a, rfl, ha, hrest⟩ := exists_of_run_value hrun
    obtain ⟨he, hr⟩ := List.forall_mem_cons.mp hfits
    have hrestores : Restores e a := Stable.restores he ha
    obtain ⟨ws, hwrite, hagain, hlength, -⟩ := (h a).exists_again hr hrest
    refine ⟨toElement a :: ws, by simpa using hwrite, ?_, ?_, by simp⟩
    · exact run_value_bind.mpr ⟨a, hrestores.read_again, hagain⟩
    · have hle := hrestores.length_encode_le
      simp only [Element.join_cons, List.length_append]
      omega

theorem next {g : Element → Fields β}
    (h : ∀ e, Rewrites (g e) (before ++ [e]) Writes Starts) :
    Rewrites (next >>= g) before Writes fun _ => True where
  exists_again {es x} hfits hrun := by
    cases es with
    | nil => cases hrun
    | cons e r =>
      obtain ⟨ws, hwrite, hagain, hlength, -⟩ := (h e).exists_again (List.forall_mem_cons.mp hfits).2 hrun
      refine ⟨e :: ws, by simpa using hwrite, hagain, ?_, by simp⟩
      simp only [Element.join_cons, List.length_append]
      omega

/-- An optional field that is told by the tags of what may follow it. -/
theorem field {f : Fields (Option α)} {w : α → Element} {First Absent : Tag → Prop} {g : Option α → Fields β}
    (hf : Rereads f w First Absent) (habsent : ∀ t, Starts t → Absent t)
    (h : ∀ o, Rewrites (g o) (before ++ optionalField (o.map w)) Writes Starts) :
    Rewrites (f >>= g) before Writes fun t => First t ∨ Starts t where
  exists_again {es x} hfits hrun := by
    obtain ⟨o, r, ho, hrest⟩ := exists_of_run_bind hrun
    obtain ⟨hr, hle, hagain⟩ := hf.again hfits ho
    obtain ⟨ws, hwrite, hrun', hlength, hstarts⟩ := (h o).exists_again hr hrest
    have hfield : f.run (optionalField (o.map w) ++ ws) = some (o, ws) := by
      cases o with
      | none => exact hf.absent ws fun e he => habsent _ (hstarts e he)
      | some a => exact (hagain a rfl).2 ws
    refine ⟨optionalField (o.map w) ++ ws, by simpa using hwrite, ?_, ?_, ?_⟩
    · rw [run_bind_of_run hfield, hrun']
    · simp only [Element.length_join_append] at hle ⊢
      omega
    · cases o with
      | none => exact fun e he => .inr (hstarts e he)
      | some a =>
        intro e he
        cases he
        exact .inl (hagain a rfl).1

/-- An optional field at the end. -/
theorem last {f : Fields (Option α)} {w : α → Element} {First Absent : Tag → Prop} {x : Option α → β}
    (hf : Rereads f w First Absent) (h : ∀ o, Writes (x o) (before ++ optionalField (o.map w))) :
    Rewrites (f >>= fun o => Pure.pure (x o)) before Writes First where
  exists_again {es y} hfits hrun := by
    have hfield := field hf (fun _ h => h.elim) fun o => pure (h o)
    obtain ⟨ws, hwrite, hagain, hlength, hstarts⟩ := hfield.exists_again hfits hrun
    exact ⟨ws, hwrite, hagain, hlength, fun e he => (hstarts e he).resolve_right id⟩

/-- An optional field that is left out if it has a default value. -/
theorem default [DecidableEq α] {f : Fields (Option α)} {w : α → Element} {First Absent : Tag → Prop}
    {g : Option α → Fields β} {d : α} (hf : Rereads f w First Absent) (habsent : ∀ t, Starts t → Absent t)
    (hd : g none = g (some d))
    (h : ∀ a, Rewrites (g (some a)) (before ++ optionalField (if a = d then none else some (w a))) Writes Starts) :
    Rewrites (f >>= g) before Writes fun t => First t ∨ Starts t where
  exists_again {es x} hfits hrun := by
    obtain ⟨o, r, ho, hrest⟩ := exists_of_run_bind hrun
    obtain ⟨hr, hle, hagain⟩ := hf.again hfits ho
    have hvalue : g o = g (some (o.getD d)) := by
      cases o with
      | none => exact hd
      | some a => rfl
    rw [hvalue] at hrest
    obtain ⟨ws, hwrite, hrun', hlength, hstarts⟩ := (h (o.getD d)).exists_again hr hrest
    rw [Element.length_join_append] at hle
    by_cases hdefault : o.getD d = d
    · rw [if_pos hdefault] at hwrite
      have hfield : f.run ws = some (none, ws) := hf.absent ws fun e he => habsent _ (hstarts e he)
      refine ⟨ws, by simpa [optionalField] using hwrite, ?_, by omega, fun e he => .inr (hstarts e he)⟩
      rw [run_bind_of_run hfield, hd, ← hdefault, hrun']
    · rw [if_neg hdefault] at hwrite
      cases o with
      | none => exact absurd rfl hdefault
      | some a =>
        obtain ⟨hfirst, hfield⟩ := hagain a rfl
        refine ⟨w a :: ws, by simpa [optionalField] using hwrite, ?_, ?_, ?_⟩
        · exact (run_bind_of_run (hfield ws)).trans hrun'
        · simp only [Option.map_some, optionalField, Option.toList_some, Element.join_cons, Element.join_nil,
            List.append_nil, List.length_append] at hle ⊢
          omega
        · intro e he
          cases he
          exact .inl hfirst

theorem required {f : Fields (Option α)} {w : α → Element} {First Absent : Tag → Prop} {g : α → Fields β}
    (hf : Rereads f w First Absent) (h : ∀ a, Rewrites (g a) (before ++ [w a]) Writes Starts) :
    Rewrites (required f >>= g) before Writes First where
  exists_again {es x} hfits hrun := by
    unfold Fields.required at hrun
    rw [bind_assoc] at hrun
    obtain ⟨o, r, ho, hrest⟩ := exists_of_run_bind hrun
    obtain ⟨hr, hle, hagain⟩ := hf.again hfits ho
    cases o with
    | none => cases hrest
    | some a =>
      obtain ⟨ws, hwrite, hrun', hlength, -⟩ := (h a).exists_again hr hrest
      obtain ⟨hfirst, hfield⟩ := hagain a rfl
      refine ⟨w a :: ws, by simpa using hwrite, ?_, ?_, ?_⟩
      · unfold Fields.required
        rw [bind_assoc, run_bind_of_run (hfield ws)]
        exact hrun'
      · simp only [Option.map_some, optionalField, Option.toList_some, Element.join_cons, List.length_append,
          List.cons_append, List.nil_append] at hle ⊢
        omega
      · intro e he
        cases he
        exact hfirst

end Rewrites

/-! ### Optional fields -/

/-- An optional field takes an element with one of some tags, after it passes over those with others. -/
theorem rereads_of_accepts {f : Fields (Option α)} {w : α → Element} (accepts skips : Tag → Bool)
    (read : Element → Option α)
    (haccept : ∀ e r, accepts e.tag = true → skips e.tag = false →
      f.run (e :: r) = (read e).map fun a => (some a, r))
    (hskip : ∀ e r, skips e.tag = true → f.run (e :: r) = f.run r)
    (habsent : ∀ r, (∀ e ∈ r.head?, accepts e.tag = false ∧ skips e.tag = false) → f.run r = some (none, r))
    (hread : ∀ e a, e.Fits → accepts e.tag = true → skips e.tag = false → read e = some a →
      (w a).tag = e.tag ∧ (w a).encode.length ≤ e.encode.length ∧ read (w a) = some a) :
    Rereads f w (fun t => accepts t = true) fun t => accepts t = false ∧ skips t = false where
  absent := habsent
  again {es o r} hfits hrun := by
    induction es with
    | nil =>
      rw [habsent [] (by simp)] at hrun
      cases hrun
      exact ⟨by simp, Nat.le_refl _, by simp⟩
    | cons e rest ih =>
      obtain ⟨he, hrest⟩ := List.forall_mem_cons.mp hfits
      cases hs : skips e.tag with
      | true =>
        rw [hskip e rest hs] at hrun
        obtain ⟨hr, hle, hagain⟩ := ih hrest hrun
        refine ⟨hr, ?_, hagain⟩
        rw [Element.join_cons, List.length_append]
        omega
      | false =>
        cases ha : accepts e.tag with
        | true =>
          rw [haccept e rest ha hs] at hrun
          obtain ⟨a, hval, hsame⟩ := Option.map_eq_some_iff.mp hrun
          cases hsame
          obtain ⟨htag, hle, hagain⟩ := hread e a he ha hs hval
          refine ⟨hrest, ?_, ?_⟩
          · simp only [optionalField, Option.map_some, Option.toList_some, List.cons_append, List.nil_append,
              Element.join_cons, List.length_append]
            omega
          · intro a' ha'
            cases ha'
            rw [← htag] at ha hs
            exact ⟨ha, fun ws => by rw [haccept _ ws ha hs, hagain]; rfl⟩
        | false =>
          have hnone := habsent (e :: rest) fun f hf => by
            cases hf
            exact ⟨ha, hs⟩
          rw [hnone] at hrun
          cases hrun
          exact ⟨hfits, Nat.le_refl _, by simp⟩

theorem Rereads.mono {f : Fields (Option α)} {w : α → Element} {Starts Starts' Absent Absent' : Tag → Prop}
    (h : Rereads f w Starts Absent) (hs : ∀ a, Starts (w a).tag → Starts' (w a).tag)
    (ha : ∀ t, Absent' t → Absent t) : Rereads f w Starts' Absent' where
  absent ws hws := h.absent ws fun e he => ha _ (hws e he)
  again hfits hrun := by
    obtain ⟨hr, hle, hagain⟩ := h.again hfits hrun
    exact ⟨hr, hle, fun a ho => ⟨hs a (hagain a ho).1, (hagain a ho).2⟩⟩

theorem nextIf_absent {accept : Tag → Bool} {r : List Element}
    (h : ∀ e ∈ r.head?, accept e.tag = false) : (nextIf accept).run r = some (none, r) := by
  cases r with
  | nil => rfl
  | cons e r =>
    rw [nextIf_cons, h e rfl]
    rfl

theorem rereads_nextIf (accept : Tag → Bool) :
    Rereads (nextIf accept) id (fun t => accept t = true) fun t => accept t = false := by
  refine (rereads_of_accepts accept (fun _ => false) some ?_ ?_ ?_ ?_).mono (fun _ h => h) fun _ h => ⟨h, rfl⟩
  · intro e r h _
    rw [nextIf_cons, if_pos h]
    rfl
  · intro e r h
    cases h
  · intro r h
    exact nextIf_absent fun e he => (h e he).1
  · intro e a _ _ _ ha
    cases ha
    exact ⟨rfl, Nat.le_refl _, rfl⟩

theorem rereads_optional [Der α] [Stable α] (accept : Tag → Bool) :
    Rereads (optional accept : Fields (Option α)) toElement (fun t => ∃ a : α, (toElement a).tag = t)
      fun t => accept t = false := by
  refine (rereads_of_accepts accept (fun _ => false) ofElement? ?_ ?_ ?_ ?_).mono (fun a _ => ⟨a, rfl⟩)
    fun _ h => ⟨h, rfl⟩
  · intro e r h _
    have hnext : (nextIf accept).run (e :: r) = some (some e, r) := by rw [nextIf_cons, if_pos h]
    refine (run_bind_of_run hnext).trans ?_
    dsimp only
    cases (ofElement? e : Option α) <;> rfl
  · intro e r h
    cases h
  · intro r h
    exact run_bind_of_run (nextIf_absent fun e he => (h e he).1)
  · intro e a he _ _ ha
    have hrestores : Restores e a := Stable.restores he ha
    exact ⟨hrestores.tag_eq, hrestores.length_encode_le, hrestores.read_again⟩

theorem numbered_skip {n : Nat} {e : Element} (h : isBelow n e.tag = true) (r : List Element) :
    (numbered n).run (e :: r) = (numbered n).run r := by
  change (nextIf (isNumber n)).run ((e :: r).dropWhile fun e => isBelow n e.tag) =
    (nextIf (isNumber n)).run (r.dropWhile fun e => isBelow n e.tag)
  rw [List.dropWhile_cons, if_pos h]

theorem numbered_accept {n : Nat} {e : Element} (h : isNumber n e.tag = true) (hb : isBelow n e.tag = false)
    (r : List Element) : (numbered n).run (e :: r) = some (some e, r) := by
  change (nextIf (isNumber n)).run ((e :: r).dropWhile fun e => isBelow n e.tag) = _
  rw [List.dropWhile_cons, hb, if_neg Bool.false_ne_true, nextIf_cons, if_pos h]

/-- A tag with a context-specific number is made of the number. -/
theorem tag_eq_contextOf {n : Nat} {t : Tag} (h : isNumber n t = true) :
    t = Tag.contextOf t.isConstructed n := by
  have hnumber : t.contextNumber? = some n := by simpa [isNumber] using h
  cases t with
  | context c k =>
    cases hnumber
    simp [Tag.contextOf, Tag.isConstructed, Nat.mod_eq_of_lt k.isLt]
  | _ => cases hnumber

theorem run_bind_congr {f : Fields α} {g : α → Fields β} {es fs : List Element} (h : f.run es = f.run fs) :
    (f >>= g).run es = (f >>= g).run fs := by
  rw [StateT.run_bind, StateT.run_bind, h]

theorem rereads_explicit? [Der α] [Stable α] (n : Nat) :
    Rereads (explicit? n : Fields (Option α)) (fun a => (toElement a).wrap n)
      (fun t => ∃ c, Tag.contextOf c n = t) fun t => isNumber n t = false ∧ isBelow n t = false := by
  refine (rereads_of_accepts (isNumber n) (isBelow n)
    (fun e => if e.tag.isConstructed = true then decode? e.content else none) ?_ ?_ ?_ ?_).mono
    (fun _ h => ⟨_, (tag_eq_contextOf h).symm⟩) fun _ h => h
  · intro e r ha hs
    refine (run_bind_of_run (numbered_accept ha hs r)).trans ?_
    dsimp only
    split
    · cases (decode? e.content : Option α) <;> rfl
    · rfl
  · intro e r h
    exact run_bind_congr (numbered_skip h r)
  · intro r h
    exact explicit?_beyond fun e he => (h e he).symm
  · intro e a he ha _ h
    split at h
    case isFalse => cases h
    case isTrue hc =>
      obtain ⟨inner, hinner, hfits, hrestores⟩ := exists_restores_of_decode? h
      have hle := hrestores.length_encode_le
      have htag : e.tag = Tag.contextOf true n := by
        rw [tag_eq_contextOf ha, hc]
      refine ⟨htag.symm, ?_, ?_⟩
      · refine Element.length_encode_mono ?_
        rw [hinner]
        exact hle
      · exact hrestores.readable.decode? (hrestores.fits hfits)

theorem rereads_implicit? [Der α] [Stable α] (n : Nat) (tag : Tag) :
    Rereads (implicit? n tag : Fields (Option α)) (fun a => (toElement a).retag n)
      (fun t => ∃ c, Tag.contextOf c n = t) fun t => isNumber n t = false ∧ isBelow n t = false := by
  refine (rereads_of_accepts (isNumber n) (isBelow n) (fun e =>
    if e.tag.isConstructed = tag.isConstructed then ofElement? ({ e with tag := tag } : Element) else none)
    ?_ ?_ ?_ ?_).mono (fun _ h => ⟨_, (tag_eq_contextOf h).symm⟩) fun _ h => h
  · intro e r ha hs
    refine (run_bind_of_run (numbered_accept ha hs r)).trans ?_
    dsimp only
    split
    · cases (ofElement? ({ e with tag := tag } : Element) : Option α) <;> rfl
    · rfl
  · intro e r h
    exact run_bind_congr (numbered_skip h r)
  · intro r h
    exact implicit?_beyond fun e he => (h e he).symm
  · intro e a he ha _ h
    split at h
    case isFalse => cases h
    case isTrue hc =>
      have hrestores : Restores ({ e with tag := tag } : Element) a := Stable.restores he h
      have htag : (toElement a).tag = tag := hrestores.tag_eq
      have hretag : ((toElement a).retag n).tag = e.tag := by
        rw [tag_eq_contextOf ha, hc, ← htag]
        rfl
      refine ⟨hretag, Element.length_encode_mono hrestores.length_le, ?_⟩
      rw [hretag, if_pos hc, Element.retag_with n htag, hrestores.read_again]

/-! ### Sequences -/

theorem Rewrites.restores {f : Fields α} {Writes : α → List Element → Prop} {Starts : Tag → Prop}
    (h : f.Rewrites [] Writes Starts) {e : Element} {a : α} (he : e.Fits) (ha : f.ofSequence? e = some a) :
    ∃ ws, Writes a ws ∧ e.tag = .sequence ∧ (sequence ws).content.length ≤ e.content.length ∧
      f.ofSequence? (sequence ws) = some a := by
  obtain ⟨es, rfl, hfits, hrun⟩ := exists_of_ofSequence? ha
  obtain ⟨ws, hwrite, hagain, hlength, -⟩ := h.exists_again hfits hrun
  have hfit : (sequence ws).Fits := Nat.le_trans hlength he
  refine ⟨ws, hwrite, rfl, hlength, ?_⟩
  rw [ofSequence?_sequence hfit]
  exact readAll_eq_some.mpr hagain

end Fields

/-- A type whose values are sequences of fields is stable if the reader of the fields is. -/
theorem stable_sequence [Der α] {f : Fields α} {Starts : Tag → Prop}
    (hread : ∀ e, ofElement? e = f.ofSequence? e)
    (h : f.Rewrites [] (fun a ws => toElement a = sequence ws) Starts) : Stable α where
  restores {e a} he ha := by
    rw [hread] at ha
    obtain ⟨ws, hwrite, htag, hlength, hagain⟩ := h.restores he ha
    refine ⟨?_, ?_, ?_⟩
    · rw [hwrite, htag]
      rfl
    · rw [hwrite]
      exact hlength
    · rw [hwrite, hread, hagain]

/-- A sequence of fields under a replaced tag. -/
theorem Fields.Rewrites.restores_retag [Der α] {f : Fields α} {Starts : Tag → Prop} {n : Nat} {content : Bytes}
    {a : α} (he : content.length ≤ maxLength) (ha : f.ofSequence? ⟨.sequence, content⟩ = some a)
    (h : f.Rewrites [] (fun a ws => toElement a = (sequence ws).retag n) Starts)
    (hread : ∀ ws, ofElement? ((sequence ws).retag n) = f.ofSequence? (sequence ws)) :
    Restores ⟨.contextOf true n, content⟩ a := by
  have hfits : (⟨.sequence, content⟩ : Element).Fits := he
  obtain ⟨ws, hwrite, -, hlength, hagain⟩ := h.restores hfits ha
  refine ⟨?_, ?_, ?_⟩
  · rw [hwrite]
    rfl
  · rw [hwrite]
    exact hlength
  · rw [hwrite, hread, hagain]

/-- A sequence of fields under an outer tag. -/
theorem Fields.Rewrites.restores_wrap [Der α] {f : Fields α} {Starts : Tag → Prop} {n : Nat} {e : Element}
    {a : α} (he : e.Fits) (ha : f.ofSequence? e = some a)
    (h : f.Rewrites [] (fun a ws => toElement a = (sequence ws).wrap n) Starts)
    (hread : ∀ e : Element, e.Fits → ofElement? (e.wrap n) = f.ofSequence? e) :
    Restores (e.wrap n) a := by
  obtain ⟨ws, hwrite, -, hlength, hagain⟩ := h.restores he ha
  have hfits : (sequence ws).Fits := Nat.le_trans hlength he
  refine ⟨?_, ?_, ?_⟩
  · rw [hwrite]
    rfl
  · rw [hwrite]
    exact Element.length_encode_mono hlength
  · rw [hwrite, hread _ hfits, hagain]

/-! ### Single values -/

/-- A type whose values are written as the elements that they are read from. -/
theorem stable_of_eq [Der α] (h : ∀ (e : Element) (a : α), ofElement? e = some a → toElement a = e) :
    Stable α where
  restores {e a} _ ha := by
    obtain rfl := h e a ha
    exact ⟨rfl, Nat.le_refl _, ha⟩

end CertEnroll.Der
