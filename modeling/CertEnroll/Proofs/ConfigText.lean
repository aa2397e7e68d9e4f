import CertEnroll.Config.Text
import CertEnroll.Proofs.Json.Reading

/-!
# Proofs.ConfigText — which texts give which choices for a transaction

A text of an object gives the usual choices with those replaced that its known fields make; where a known
field comes twice or has no valid value, the text gives nothing.  The order of the fields, the form of the
text and the fields that are not known do not matter, except that every name has to be a string: half a
surrogate pair may stand in a value that is passed over, but not in its name.
-/

namespace CertEnroll

/-! ### Names -/

namespace Json

/-- The value stands for a name: it is a string, or an object with that one field, which is null. -/
inductive Named : Json → String → Prop
  | string {s : String} : Named (.string (some s)) s
  | object {s : String} : Named (.object [(some s, .null)]) s

theorem name?_eq_some {v : Json} {s : String} : v.name? = some s ↔ Named v s := by
  constructor
  · intro h
    unfold name? at h
    split at h
    case h_1 t =>
      cases h
      exact .string
    case h_2 t =>
      cases h
      exact .object
    case h_3 => cases h
  · rintro (_ | _) <;> rfl

/-- A member of a list that has all members with different names is read from what stands for its name. -/
theorem member?_eq_some {α : Type} {all : List α} {name : α → String} (hall : ∀ a, a ∈ all)
    (hname : Function.Injective name) {v : Json} {a : α} : member? all name v = some a ↔ Named v (name a) := by
  have hfind (s : String) : all.find? (fun b => name b = s) = some a ↔ name a = s := by
    constructor
    · intro h
      simpa using List.find?_some h
    · rintro rfl
      have hsome : (all.find? fun b => name b = name a).isSome := List.find?_isSome.mpr ⟨a, hall a, by simp⟩
      obtain ⟨b, hb⟩ := Option.isSome_iff_exists.mp hsome
      have hsame : name b = name a := by simpa using List.find?_some hb
      rw [hb, hname hsame]
  unfold member?
  rw [← name?_eq_some]
  constructor
  · intro h
    obtain ⟨s, hs, h⟩ := Option.bind_eq_some_iff.mp h
    rw [hs, (hfind s).mp h]
  · intro h
    exact Option.bind_eq_some_iff.mpr ⟨name a, h, (hfind _).mpr rfl⟩

/-- A name without quotes, backslashes and controls stands for itself between quotes. -/
theorem spellsString_ofName {s : String} (hs : ∀ c ∈ s.toList, 32 ≤ c.toNat ∧ c ≠ '"' ∧ c ≠ '\\') :
    SpellsString (some s) (ofName s).toList := by
  have hpieces (l : List Char) (hl : ∀ c ∈ l, 32 ≤ c.toNat ∧ c ≠ '"' ∧ c ≠ '\\') :
      SpellsPieces (l.map .char) l ∧ joinPieces? (l.map .char) = some l := by
    induction l with
    | nil => exact ⟨.nil, rfl⟩
    | cons c l ih =>
      obtain ⟨⟨hcontrol, hquote, hescape⟩, hl⟩ := List.forall_mem_cons.mp hl
      obtain ⟨hspells, hjoin⟩ := ih hl
      refine ⟨.cons (.plain hcontrol hquote hescape) hspells, ?_⟩
      rw [List.map_cons, joinPieces?, hjoin, Option.map_some]
  obtain ⟨hspells, hjoin⟩ := hpieces s.toList hs
  have hstring := SpellsString.pieces hspells
  rw [hjoin, Option.map_some, String.ofList_toList] at hstring
  simpa [ofName] using hstring

/-- The plain numeral of a number spells it. -/
theorem spellsNumber_ofNat (n : Nat) : SpellsNumber (some n) (Numeral.ofNat n).toList := by
  obtain ⟨hne, hdigits, hvalue⟩ := Numeral.spells_ofNat n
  have hwhole : Whole (Numeral.ofNat n).toList := ⟨⟨hdigits, by simpa using hne⟩, Numeral.isPlain_ofNat n⟩
  have hnumber := SpellsNumber.parts .none hwhole .none .none
  simpa [hvalue] using hnumber

end Json

theorem Digest.ofJson?_eq_some {v : Json} {d : Digest} : Digest.ofJson? v = some d ↔ Json.Named v d.jsonName := by
  refine Json.member?_eq_some (fun d => ?_) (fun d e h => ?_)
  · cases d <;> decide
  · revert h
    cases d <;> cases e <;> decide

theorem Cipher.ofJson?_eq_some {v : Json} {k : Cipher} : Cipher.ofJson? v = some k ↔ Json.Named v k.jsonName := by
  refine Json.member?_eq_some (fun k => ?_) (fun k l h => ?_)
  · cases k <;> decide
  · revert h
    cases k <;> cases l <;> decide

namespace Config

/-! ### Choices field by field -/

/-- The choice of one field. -/
inductive Setting
  | digest (d : Digest)
  | cipher (k : Cipher)
  | nonceSize (n : Nat)
  | verifies (b : Bool)

/-- The field of a choice. -/
def Setting.field : Setting → Field
  | digest _ => .digest
  | cipher _ => .cipher
  | nonceSize _ => .nonceSize
  | verifies _ => .verifies

/-- The choice that is made for a field. -/
def get (c : Config) : Field → Setting
  | .digest => .digest c.digest
  | .cipher => .cipher c.cipher
  | .nonceSize => .nonceSize c.nonceSize
  | .verifies => .verifies c.verifies

/-- The choices with one replaced. -/
def put (c : Config) : Setting → Config
  | .digest d => { c with digest := d }
  | .cipher k => { c with cipher := k }
  | .nonceSize n => { c with nonceSize := n }
  | .verifies b => { c with verifies := b }

variable {c c' base : Config} {f g : Field} {x : Setting} {v w : Json}

@[simp] theorem get_put_self (c : Config) (x : Setting) : (c.put x).get x.field = x := by
  cases x <;> rfl

theorem get_put_of_ne (h : g ≠ x.field) : (c.put x).get g = c.get g := by
  cases x with
  | digest _ | cipher _ | nonceSize _ | verifies _ =>
    cases g with
    | digest | cipher | nonceSize | verifies => first | rfl | exact absurd rfl h

theorem ext_get (h : ∀ f, c.get f = c'.get f) : c = c' := by
  have hdigest := Setting.digest.inj (h .digest)
  have hcipher := Setting.cipher.inj (h .cipher)
  have hsize := Setting.nonceSize.inj (h .nonceSize)
  have hverifies := Setting.verifies.inj (h .verifies)
  cases c
  cases c'
  cases hdigest
  cases hcipher
  cases hsize
  cases hverifies
  rfl

theorem name_inj (h : f.name = g.name) : f = g := by
  revert h
  cases f <;> cases g <;> decide

/-! ### Values of fields -/

/-- The value is valid for the field and makes a choice: the name of an algorithm, a number without sign,
fraction and exponent that fits sixty-four bits, or a truth value. -/
inductive Gives : Field → Json → Setting → Prop
  | digest {v : Json} {d : Digest} (h : Json.Named v d.jsonName) : Gives .digest v (.digest d)
  | cipher {v : Json} {k : Cipher} (h : Json.Named v k.jsonName) : Gives .cipher v (.cipher k)
  | nonceSize {n : Nat} (h : n < 0x10000000000000000) : Gives .nonceSize (.number (some n)) (.nonceSize n)
  | verifies {b : Bool} : Gives .verifies (.bool b) (.verifies b)

theorem Gives.field_eq (h : Gives f v x) : x.field = f := by
  cases h <;> rfl

theorem set?_eq_some : c.set? f v = some c' ↔ ∃ x, Gives f v x ∧ c' = c.put x := by
  cases f with
  | digest =>
    refine Option.map_eq_some_iff.trans ⟨?_, ?_⟩
    · rintro ⟨d, hd, rfl⟩
      exact ⟨_, .digest (Digest.ofJson?_eq_some.mp hd), rfl⟩
    · rintro ⟨x, hx, rfl⟩
      cases hx with
      | digest h => exact ⟨_, Digest.ofJson?_eq_some.mpr h, rfl⟩
  | cipher =>
    refine Option.map_eq_some_iff.trans ⟨?_, ?_⟩
    · rintro ⟨k, hk, rfl⟩
      exact ⟨_, .cipher (Cipher.ofJson?_eq_some.mp hk), rfl⟩
    · rintro ⟨x, hx, rfl⟩
      cases hx with
      | cipher h => exact ⟨_, Cipher.ofJson?_eq_some.mpr h, rfl⟩
  | nonceSize =>
    refine Option.map_eq_some_iff.trans ⟨?_, ?_⟩
    · rintro ⟨n, hn, rfl⟩
      unfold nonceSize? at hn
      split at hn
      case h_1 m =>
        split at hn <;> cases hn
        exact ⟨_, .nonceSize ‹_›, rfl⟩
      case h_2 => cases hn
    · rintro ⟨x, hx, rfl⟩
      cases hx with
      | nonceSize h => exact ⟨_, if_pos h, rfl⟩
  | verifies =>
    refine Option.map_eq_some_iff.trans ⟨?_, ?_⟩
    · rintro ⟨b, hb, rfl⟩
      unfold flag? at hb
      split at hb <;> cases hb
      exact ⟨_, .verifies, rfl⟩
    · rintro ⟨x, hx, rfl⟩
      cases hx with
      | verifies => exact ⟨_, rfl, rfl⟩

/-! ### Fields of an object -/

/-- The fields of an object, in their order. -/
abbrev Fields := List (Option String × Json)

variable {fields r : Fields} {seen : List Field} {s : String}

theorem Field.ofName?_eq_some : Field.ofName? s = some f ↔ s = f.name := by
  constructor
  · intro h
    have hname := List.find?_some h
    exact (of_decide_eq_true hname).symm
  · rintro rfl
    cases f <;> decide

theorem Field.ofName?_eq_none : Field.ofName? s = none ↔ ∀ f : Field, s ≠ f.name := by
  constructor
  · intro h f hf
    rw [Field.ofName?_eq_some.mpr hf] at h
    cases h
  · intro h
    by_contra hne
    obtain ⟨f, hf⟩ := Option.ne_none_iff_exists'.mp hne
    exact h f (Field.ofName?_eq_some.mp hf)

/-- A value is listed for the field. -/
def Listed (f : Field) (fields : Fields) : Prop := some f.name ∈ fields.map Prod.fst

/-- The name of every field is a string without half a surrogate pair, no known field comes twice, and the values
of the known fields are valid. -/
structure Proper (fields : Fields) : Prop where
  named : ∀ e ∈ fields, e.1 ≠ none
  once : ∀ f : Field, (fields.map Prod.fst).count (some f.name) ≤ 1
  valid : ∀ (f : Field) (v : Json), (some f.name, v) ∈ fields → ∃ x, Gives f v x

/-- Of the choices exactly those of the listed fields are replaced, by what their values give. -/
structure Replaces (fields : Fields) (base c : Config) : Prop where
  listed : ∀ (f : Field) (v : Json), (some f.name, v) ∈ fields → Gives f v (c.get f)
  unlisted : ∀ f : Field, ¬ Listed f fields → c.get f = base.get f

/-! A field that is not known changes nothing. -/

theorem mem_unknown (hs : ∀ f : Field, s ≠ f.name) :
    (some f.name, v) ∈ (some s, w) :: r ↔ (some f.name, v) ∈ r := by
  refine List.mem_cons.trans (or_iff_right fun h => ?_)
  exact hs f (Option.some.inj (congrArg Prod.fst h)).symm

theorem listed_unknown (hs : ∀ f : Field, s ≠ f.name) : Listed f ((some s, w) :: r) ↔ Listed f r := by
  refine List.mem_cons.trans (or_iff_right fun h => ?_)
  exact hs f (Option.some.inj h).symm

theorem proper_unknown (hs : ∀ f : Field, s ≠ f.name) : Proper ((some s, w) :: r) ↔ Proper r := by
  have hcount (f : Field) : (((some s, w) :: r).map Prod.fst).count (some f.name) =
      (r.map Prod.fst).count (some f.name) := List.count_cons_of_ne (by simpa using hs f)
  constructor
  · rintro ⟨hnamed, honce, hvalid⟩
    exact ⟨fun e he => hnamed e (List.mem_cons_of_mem _ he), fun f => hcount f ▸ honce f,
      fun f v hv => hvalid f v ((mem_unknown hs).mpr hv)⟩
  · rintro ⟨hnamed, honce, hvalid⟩
    exact ⟨List.forall_mem_cons.mpr ⟨by simp, hnamed⟩, fun f => (hcount f).symm ▸ honce f,
      fun f v hv => hvalid f v ((mem_unknown hs).mp hv)⟩

theorem replaces_unknown (hs : ∀ f : Field, s ≠ f.name) :
    Replaces ((some s, w) :: r) base c ↔ Replaces r base c := by
  constructor
  · rintro ⟨hlisted, hunlisted⟩
    exact ⟨fun f v hv => hlisted f v ((mem_unknown hs).mpr hv),
      fun f hf => hunlisted f (mt (listed_unknown hs).mp hf)⟩
  · rintro ⟨hlisted, hunlisted⟩
    exact ⟨fun f v hv => hlisted f v ((mem_unknown hs).mp hv),
      fun f hf => hunlisted f (mt (listed_unknown hs).mpr hf)⟩

/-! A known field is listed nowhere else, and what its value gives is put in place. -/

theorem mem_known : (some g.name, v) ∈ (some f.name, w) :: r ↔ (g = f ∧ v = w) ∨ (some g.name, v) ∈ r := by
  rw [List.mem_cons, Prod.mk.injEq, Option.some.injEq]
  exact or_congr_left (and_congr_left fun _ => ⟨name_inj, congrArg Field.name⟩)

theorem listed_known : Listed g ((some f.name, w) :: r) ↔ g = f ∨ Listed g r := by
  rw [Listed, List.map_cons, List.mem_cons, Option.some.injEq]
  exact or_congr_left ⟨name_inj, congrArg Field.name⟩

theorem proper_known : Proper ((some f.name, w) :: r) ↔ (∃ x, Gives f w x) ∧ ¬ Listed f r ∧ Proper r := by
  constructor
  · rintro ⟨hnamed, honce, hvalid⟩
    refine ⟨hvalid f w List.mem_cons_self, fun hf => ?_, fun e he => hnamed e (List.mem_cons_of_mem _ he),
      fun g => List.count_le_count_cons.trans (honce g), fun g v hv => hvalid g v (List.mem_cons_of_mem _ hv)⟩
    have htwice := honce f
    have hpos := List.count_pos_iff.mpr hf
    rw [List.map_cons, List.count_cons_self] at htwice
    omega
  · rintro ⟨hx, hf, hnamed, honce, hvalid⟩
    refine ⟨List.forall_mem_cons.mpr ⟨by simp, hnamed⟩, fun g => ?_, fun g v hv => ?_⟩
    · by_cases hg : g = f
      · subst hg
        rw [List.map_cons, List.count_cons_self, List.count_eq_zero_of_not_mem hf]
      · rw [List.map_cons, List.count_cons_of_ne fun h => hg (name_inj (Option.some.inj h).symm)]
        exact honce g
    · rcases mem_known.mp hv with ⟨rfl, rfl⟩ | hv
      · exact hx
      · exact hvalid g v hv

theorem replaces_known (hf : ¬ Listed f r) :
    Replaces ((some f.name, w) :: r) base c ↔ ∃ x, Gives f w x ∧ Replaces r (base.put x) c := by
  constructor
  · rintro ⟨hlisted, hunlisted⟩
    have hx := hlisted f w (mem_known.mpr (.inl ⟨rfl, rfl⟩))
    refine ⟨c.get f, hx, fun g v hv => hlisted g v (mem_known.mpr (.inr hv)), fun g hg => ?_⟩
    by_cases hgf : g = f
    · subst hgf
      have hput := get_put_self base (c.get g)
      rw [hx.field_eq] at hput
      exact hput.symm
    · rw [get_put_of_ne (hx.field_eq.symm ▸ hgf)]
      exact hunlisted g fun h => (listed_known.mp h).elim hgf hg
  · rintro ⟨x, hx, hlisted, hunlisted⟩
    obtain rfl := hx.field_eq
    refine ⟨fun g v hv => ?_, fun g hg => ?_⟩
    · rcases mem_known.mp hv with ⟨rfl, rfl⟩ | hv
      · rwa [hunlisted _ hf, get_put_self]
      · exact hlisted g v hv
    · rw [listed_known, not_or] at hg
      rw [hunlisted g hg.2, get_put_of_ne hg.1]

/-! The fields are taken one after another. -/

theorem setFields?_unknown (hs : ∀ f : Field, s ≠ f.name) :
    setFields? seen base ((some s, w) :: r) = setFields? seen base r := by
  rw [setFields?.eq_def]
  dsimp only [Option.bind_eq_bind, Option.bind_some]
  rw [Field.ofName?_eq_none.mpr hs]

theorem setFields?_known : setFields? seen base ((some f.name, w) :: r) =
    if f ∈ seen then none else (base.set? f w).bind fun c => setFields? (f :: seen) c r := by
  rw [setFields?.eq_def]
  dsimp only [Option.bind_eq_bind, Option.bind_some]
  rw [Field.ofName?_eq_some.mpr rfl]

/-- A name has no content, is not known, or is that of a field. -/
theorem name_cases (name : Option String) :
    name = none ∨ (∃ s, name = some s ∧ ∀ f : Field, s ≠ f.name) ∨ ∃ f : Field, name = some f.name := by
  cases name with
  | none => exact .inl rfl
  | some s =>
    by_cases hs : ∃ f : Field, s = f.name
    · obtain ⟨f, rfl⟩ := hs
      exact .inr (.inr ⟨f, rfl⟩)
    · exact .inr (.inl ⟨s, rfl, not_exists.mp hs⟩)

theorem fresh_known (hseen : f ∉ seen) :
    (∀ g ∈ f :: seen, ¬ Listed g r) ↔ ¬ Listed f r ∧ ∀ g ∈ seen, ¬ Listed g ((some f.name, w) :: r) := by
  refine List.forall_mem_cons.trans (and_congr_right fun _ => forall₂_congr fun g hg => ?_)
  have hne : g ≠ f := fun h => hseen (h ▸ hg)
  rw [listed_known, or_iff_right hne]

theorem setFields?_eq_some : setFields? seen base fields = some c ↔
    (∀ f ∈ seen, ¬ Listed f fields) ∧ Proper fields ∧ Replaces fields base c := by
  induction fields generalizing seen base with
  | nil =>
    have hproper : Proper [] := ⟨by simp, by simp, by simp⟩
    have hfresh : ∀ f ∈ seen, ¬ Listed f [] := by simp [Listed]
    constructor
    · rintro ⟨⟩
      exact ⟨hfresh, hproper, by simp, fun _ _ => rfl⟩
    · rintro ⟨-, -, hc⟩
      exact congrArg some (ext_get fun f => (hc.unlisted f (by simp [Listed])).symm)
  | cons e r ih =>
    obtain ⟨name, w⟩ := e
    rcases name_cases name with rfl | ⟨s, rfl, hs⟩ | ⟨f, rfl⟩
    · refine iff_of_false nofun ?_
      rintro ⟨-, hproper, -⟩
      exact hproper.named _ List.mem_cons_self rfl
    · rw [setFields?_unknown hs, ih, proper_unknown hs, replaces_unknown hs]
      simp only [listed_unknown hs]
    · rw [setFields?_known]
      by_cases hseen : f ∈ seen
      · rw [if_pos hseen]
        refine iff_of_false nofun ?_
        rintro ⟨hfresh, -, -⟩
        exact hfresh f hseen (listed_known.mpr (.inl rfl))
      · simp only [if_neg hseen, Option.bind_eq_some_iff, set?_eq_some, ih, fresh_known (w := w) hseen]
        constructor
        · rintro ⟨c', ⟨x, hx, rfl⟩, ⟨hf, hfresh⟩, hproper, hc⟩
          exact ⟨hfresh, proper_known.mpr ⟨⟨x, hx⟩, hf, hproper⟩, (replaces_known hf).mpr ⟨x, hx, hc⟩⟩
        · rintro ⟨hfresh, hproper, hc⟩
          obtain ⟨-, hf, hproper⟩ := proper_known.mp hproper
          obtain ⟨x, hx, hc⟩ := (replaces_known hf).mp hc
          exact ⟨_, ⟨x, hx, rfl⟩, ⟨hf, hfresh⟩, hproper, hc⟩

/-- Choices can be replaced by what proper fields give. -/
theorem exists_replaces (h : Proper fields) (base : Config) : ∃ c, Replaces fields base c := by
  induction fields generalizing base with
  | nil => exact ⟨base, by simp, fun _ _ => rfl⟩
  | cons e r ih =>
    obtain ⟨name, w⟩ := e
    rcases name_cases name with rfl | ⟨s, rfl, hs⟩ | ⟨f, rfl⟩
    · exact absurd rfl (h.named _ List.mem_cons_self)
    · simpa only [replaces_unknown hs] using ih ((proper_unknown hs).mp h) base
    · obtain ⟨⟨x, hx⟩, hf, hproper⟩ := proper_known.mp h
      obtain ⟨c, hc⟩ := ih hproper (base.put x)
      exact ⟨c, (replaces_known hf).mpr ⟨x, hx, hc⟩⟩

/-! ### Values and texts -/

/-- The fields that a value lists: those of an object, or the known ones in their order with the items of an
array. -/
inductive Lists : Json → Fields → Prop
  | object {fields : Fields} : Lists (.object fields) fields
  | array {items : List Json} (h : items.length ≤ Field.all.length) :
    Lists (.array items) ((Field.all.map fun f => some f.name).zip items)

theorem setInOrder?_eq_none {fs : List Field} {items : List Json} (h : fs.length < items.length) :
    setInOrder? base fs items = none := by
  induction fs generalizing base items with
  | nil =>
    cases items with
    | nil => cases h
    | cons v vs => rfl
  | cons f fs ih =>
    cases items with
    | nil => cases h
    | cons v vs =>
      refine Option.bind_eq_none_iff.mpr fun c _ => ih ?_
      simpa using h

/-- Items by their place are fields under the names of the places. -/
theorem setInOrder?_eq_setFields? {fs : List Field} {items : List Json} (hnodup : fs.Nodup)
    (hseen : ∀ f ∈ seen, f ∉ fs) (h : items.length ≤ fs.length) :
    setInOrder? base fs items = setFields? seen base ((fs.map fun f => some f.name).zip items) := by
  induction fs generalizing base seen items with
  | nil =>
    obtain rfl := List.eq_nil_of_length_eq_zero (Nat.le_zero.mp h)
    rfl
  | cons f fs ih =>
    cases items with
    | nil => rfl
    | cons v vs =>
      obtain ⟨hf, hnodup⟩ := List.nodup_cons.mp hnodup
      have hfresh : f ∉ seen := fun hmem => hseen f hmem List.mem_cons_self
      have hseen' : ∀ g ∈ f :: seen, g ∉ fs :=
        List.forall_mem_cons.mpr ⟨hf, fun g hg hmem => hseen g hg (List.mem_cons_of_mem _ hmem)⟩
      have hrest (c : Config) : setInOrder? c fs vs =
          setFields? (f :: seen) c ((fs.map fun f => some f.name).zip vs) := ih hnodup hseen' (by simpa using h)
      rw [List.map_cons, List.zip_cons_cons, setFields?_known, if_neg hfresh]
      simp only [setInOrder?, hrest, Option.bind_eq_bind]

theorem ofJson?_object : ofJson? (.object fields) = some c ↔ Proper fields ∧ Replaces fields standard c :=
  setFields?_eq_some.trans (and_iff_right (by simp))

theorem ofJson?_eq_some :
    ofJson? v = some c ↔ ∃ fields, Lists v fields ∧ Proper fields ∧ Replaces fields standard c := by
  cases v with
  | object l =>
    refine ofJson?_object.trans ⟨fun h => ⟨l, .object, h⟩, ?_⟩
    rintro ⟨_, ⟨⟩, h⟩
    exact h
  | array items =>
    by_cases hlength : items.length ≤ Field.all.length
    · have horder : ofJson? (.array items) = ofJson? (.object ((Field.all.map fun f => some f.name).zip items)) :=
        setInOrder?_eq_setFields? (by decide) (by simp) hlength
      rw [horder, ofJson?_object]
      refine ⟨fun h => ⟨_, .array hlength, h⟩, ?_⟩
      rintro ⟨_, ⟨⟩, h⟩
      exact h
    · have hnone : ofJson? (.array items) = none := setInOrder?_eq_none (not_le.mp hlength)
      rw [hnone]
      refine iff_of_false nofun ?_
      rintro ⟨_, hlists, -⟩
      cases hlists with
      | array h => exact hlength h
  | null | bool _ | number _ | string _ =>
    refine iff_of_false nofun ?_
    rintro ⟨_, ⟨⟩, -⟩

theorem ofText?_eq_some : ofText? s = some c ↔
    ∃ v fields, Json.IsText v s.toList ∧ Lists v fields ∧ Proper fields ∧ Replaces fields standard c := by
  refine Option.bind_eq_some_iff.trans ⟨?_, ?_⟩
  · rintro ⟨v, hv, hc⟩
    obtain ⟨fields, h⟩ := ofJson?_eq_some.mp hc
    exact ⟨v, fields, Json.read?_eq_some.mp hv, h⟩
  · rintro ⟨v, fields, hv, h⟩
    exact ⟨v, Json.read?_eq_some.mpr hv, ofJson?_eq_some.mpr ⟨fields, h⟩⟩

theorem ofText?_object (hs : Json.IsText (.object fields) s.toList) :
    ofText? s = some c ↔ Proper fields ∧ Replaces fields standard c := by
  rw [ofText?, Json.read?_eq_some.mpr hs]
  exact ofJson?_object

/-! ### The text of choices -/

/-- The value of a field in the text of the choices. -/
def value (c : Config) : Field → Json
  | .digest => .string (some c.digest.jsonName)
  | .cipher => .string (some c.cipher.jsonName)
  | .nonceSize => .number (some c.nonceSize)
  | .verifies => .bool c.verifies

theorem spells_value (c : Config) (f : Field) : Json.Spells (.value (c.value f)) (c.valueText f).toList := by
  cases f with
  | digest => exact .string (Json.spellsString_ofName (by cases c.digest <;> simp [Digest.jsonName]))
  | cipher => exact .string (Json.spellsString_ofName (by cases c.cipher <;> simp [Cipher.jsonName]))
  | nonceSize => exact .number (Json.spellsNumber_ofNat c.nonceSize)
  | verifies =>
    cases hb : c.verifies with
    | true => simpa [value, valueText, hb] using Json.Spells.true
    | false => simpa [value, valueText, hb] using Json.Spells.false

theorem spellsString_name (f : Field) : Json.SpellsString (some f.name) (Json.ofName f.name).toList :=
  Json.spellsString_ofName (by cases f <;> simp [Field.name])

theorem spells_fields (c : Config) (f : Field) (fs : List Field) :
    Json.Spells (.fields ((f :: fs).map fun g => (some g.name, c.value g)))
      (String.intercalate "," ((f :: fs).map fun g => Json.ofName g.name ++ ":" ++ c.valueText g)).toList := by
  have hblanks : Json.Blanks [] := by simp [Json.Blanks]
  induction fs generalizing f with
  | nil =>
    simpa using Json.Spells.field hblanks (spellsString_name f) hblanks hblanks (spells_value c f) hblanks
  | cons g fs ih =>
    have hnext := Json.Spells.fields hblanks (spellsString_name f) hblanks hblanks (spells_value c f) hblanks (ih g)
    simpa using hnext

theorem isText_text (c : Config) :
    Json.IsText (.object (Field.all.map fun f => (some f.name, c.value f))) c.text.toList := by
  have hblanks : Json.Blanks [] := by simp [Json.Blanks]
  have hfields := spells_fields c .digest [.cipher, .nonceSize, .verifies]
  have hobject := Json.IsText.padded hblanks (.object hfields) hblanks
  simpa [text, Field.all] using hobject

theorem gives_value (hsize : c.nonceSize < 0x10000000000000000) (f : Field) : Gives f (c.value f) (c.get f) := by
  cases f with
  | digest => exact .digest .string
  | cipher => exact .cipher .string
  | nonceSize => exact .nonceSize hsize
  | verifies => exact .verifies

/-- The text of choices gives these choices. -/
theorem ofText?_text (hsize : c.nonceSize < 0x10000000000000000) : ofText? c.text = some c := by
  have hmem (f : Field) : some f.name ∈ (Field.all.map fun g => (some g.name, c.value g)).map Prod.fst := by
    cases f <;> simp [Field.all]
  have hgives (f : Field) (v : Json) (hv : (some f.name, v) ∈ Field.all.map fun g => (some g.name, c.value g)) :
      Gives f v (c.get f) := by
    obtain ⟨g, -, hg⟩ := List.mem_map.mp hv
    obtain ⟨hname, rfl⟩ := Prod.mk.inj hg
    obtain rfl := name_inj (Option.some.inj hname)
    exact gives_value hsize g
  have hproper : Proper (Field.all.map fun f => (some f.name, c.value f)) :=
    ⟨by simp, fun f => by cases f <;> exact Nat.le_refl 1, fun f v hv => ⟨_, hgives f v hv⟩⟩
  exact ofText?_eq_some.mpr ⟨_, _, isText_text c, .object, hproper, hgives, fun f hf => absurd (hmem f) hf⟩

/-! ### Which texts are accepted -/

/-- The text of choices gives these choices.  The text of an object whose fields are proper gives the usual
choices with exactly those of the listed fields replaced; if they are not proper, or if anything but blanks
follows the object, the text gives nothing.  No text gives choices in another way than by listing fields. -/
theorem text_gives_listed_choices :
    (∀ c : Config, c.nonceSize < 0x10000000000000000 → ofText? c.text = some c) ∧
    (∀ (s : String) (fields : Fields), Json.IsText (.object fields) s.toList →
      (Proper fields → ∃ c, ofText? s = some c ∧ Replaces fields standard c) ∧
      (¬ Proper fields → ofText? s = none) ∧
      ∀ u : String, ¬ Json.Blanks u.toList → ofText? (s ++ u) = none) ∧
    ∀ (s : String) (c : Config), ofText? s = some c →
      ∃ v fields, Json.IsText v s.toList ∧ Lists v fields ∧ Proper fields ∧ Replaces fields standard c := by
  refine ⟨fun c hsize => ofText?_text hsize,
    fun s fields hs => ⟨fun hproper => ?_, fun hproper => ?_, fun u hu => ?_⟩,
    fun s c hc => ofText?_eq_some.mp hc⟩
  · obtain ⟨c, hc⟩ := exists_replaces hproper standard
    exact ⟨c, (ofText?_object hs).mpr ⟨hproper, hc⟩, hc⟩
  · refine Option.eq_none_iff_forall_ne_some.mpr fun c hc => ?_
    exact hproper ((ofText?_object hs).mp hc).1
  · rw [ofText?, Json.read?_append_object hs hu]
    rfl

/-- The text lists a field that is not known and the size of the nonce; that size twice, or more text, is
refused. -/
theorem text_gives_listed_choices_sample :
    ofText? standard.text = some standard ∧
    ofText? "\x7b\"x\":[],\"nonce_len\":7\x7d" = some { standard with nonceSize := 7 } ∧
    ofText? ("\x7b\"x\":[],\"nonce_len\":7\x7d" ++ "\x7d") = none ∧
    ofText? "\x7b\"nonce_len\":7,\"nonce_len\":7\x7d" = none := by
  have hblanks : Json.Blanks [] := by simp [Json.Blanks]
  have hx := Json.spellsString_ofName (s := "x") (by simp)
  have hsize := spellsString_name .nonceSize
  have hseven := Json.Spells.number (Json.spellsNumber_ofNat 7)
  obtain ⟨htext, hobject, -⟩ := text_gives_listed_choices
  have hlast := Json.Spells.field hblanks hsize hblanks hblanks hseven hblanks
  have hsample := Json.IsText.padded hblanks
    (.object (.fields hblanks hx hblanks hblanks (.emptyArray hblanks) hblanks hlast)) hblanks
  have htwice := Json.IsText.padded hblanks
    (.object (.fields hblanks hsize hblanks hblanks hseven hblanks hlast)) hblanks
  obtain ⟨hgives, -, hmore⟩ := hobject "\x7b\"x\":[],\"nonce_len\":7\x7d" _ hsample
  obtain ⟨-, hnone, -⟩ := hobject "\x7b\"nonce_len\":7,\"nonce_len\":7\x7d" _ htwice
  have hproper : Proper [(some "x", .array []), (some "nonce_len", .number (some 7))] := by
    refine ⟨by simp, fun f => by cases f <;> decide, fun f v hv => ?_⟩
    cases f with
    | nonceSize =>
      obtain rfl : v = .number (some 7) := by simpa [Field.name] using hv
      exact ⟨_, .nonceSize (by decide)⟩
    | digest | cipher | verifies => simp [Field.name] at hv
  refine ⟨htext standard (by decide), ?_, hmore "\x7d" (by simp [Json.Blanks, Json.isBlank]), hnone fun h => ?_⟩
  · obtain ⟨c, hc, hreplaces⟩ := hgives hproper
    have hsame : c = { standard with nonceSize := 7 } := by
      refine ext_get fun f => ?_
      cases f with
      | nonceSize =>
        have hgiven := hreplaces.listed .nonceSize (.number (some 7)) (by simp [Field.name])
        generalize c.get .nonceSize = x at hgiven ⊢
        cases hgiven
        rfl
      | digest | cipher | verifies => exact hreplaces.unlisted _ (by simp [Listed, Field.name])
    rw [hc, hsame]
  · exact absurd (h.once .nonceSize) (by decide)

/-- A field is not passed over if half a surrogate pair stands alone in its name: an object with only this field
lists no known field, but its text gives nothing. -/
theorem unknown_field_not_always_passed_over :
    ¬ ∀ (s : String) (fields : Fields), Json.IsText (.object fields) s.toList →
      (∀ f : Field, (fields.map Prod.fst).count (some f.name) ≤ 1) →
      (∀ (f : Field) (v : Json), (some f.name, v) ∈ fields → ∃ x, Gives f v x) →
      ∃ c, ofText? s = some c ∧ Replaces fields standard c := by
  intro h
  have hblanks : Json.Blanks [] := by simp [Json.Blanks]
  have hhalf : Json.SpellsPiece (.ofNat 0xdead) ['\\', 'u', 'd', 'e', 'a', 'd'] :=
    .unicode (w := 13) (x := 14) (y := 10) (z := 13) rfl rfl rfl rfl
  have hname : Json.SpellsString none ['"', '\\', 'u', 'd', 'e', 'a', 'd', '"'] := .pieces (.cons hhalf .nil)
  have hobject := Json.IsText.padded hblanks (.object (.field hblanks hname hblanks hblanks
    (.number (Json.spellsNumber_ofNat 0)) hblanks)) hblanks
  obtain ⟨c, hc, -⟩ := h "\x7b\"\\udead\":0\x7d" _ hobject (by simp) (by simp)
  exact ((ofText?_object hobject).mp hc).1.named _ List.mem_cons_self rfl

end Config

end CertEnroll
