import CertEnroll.Proofs.Faults
import CertEnroll.Proofs.Numerals
import CertEnroll.Proofs.SignedAttributes

/-!
# Proofs.AttributeGrammar — which sets of attributes say what a message is, and what the others lack

The grammar has one rule for each attribute of the protocol: whether the attribute has to be there, and
which values it may have.  A set is decoded if it meets all rules, and otherwise the first rule that it
breaks decides the error.  Nothing else is looked at.
-/

namespace CertEnroll

open Der (Element Oid toElement)
open X509 (Attribute Attributes)

/-! ### Texts in attributes -/

theorem Bytes.ofAscii_of_ascii? {b : Bytes} {s : String} (h : b.ascii? = some s) : Bytes.ofAscii s = b := by
  unfold Bytes.ascii? at h
  split at h
  case isFalse => cases h
  case isTrue hall =>
    cases h
    rw [Bytes.ofAscii, String.toList_ofList, List.map_map]
    conv_rhs => rw [← List.map_id b]
    refine List.map_congr_left fun x hx => ?_
    have hlt : x.toNat < 128 := by
      simpa [UInt8.lt_iff_toNat_lt] using List.all_eq_true.mp hall x hx
    have hvalid : x.toNat.isValidChar := .inl (by omega)
    have hchar : (Char.ofNat x.toNat).toNat = x.toNat := by
      rw [Char.ofNat, dif_pos hvalid]
      rfl
    rw [Function.comp_apply, hchar, UInt8.ofNat_toNat, id]

namespace SignedAttributes

open MessageAttributes (text)

variable {α : Type} {as : Attributes} {o : Oid} {read : Element → Option α}
  {Accepts : Element → Prop} {err : Error}

theorem printable?_eq_some {e : Element} {s : String} (h : printable? e = some s) : e = text s := by
  obtain ⟨tag, content⟩ := e
  unfold printable? at h
  split at h
  case isFalse => cases h
  case isTrue ht =>
    dsimp only at ht h
    rw [text, Bytes.ofAscii_of_ascii? h, ht]

theorem printable?_text {s : String} (h : ∀ c ∈ s.toList, c.toNat < 128) : printable? (text s) = some s := by
  simp [printable?, text, Bytes.ascii?_ofAscii h]

/-- The value is a printable string of decimal digits that spells the number of a code. -/
def SpellsCode (code : α → Nat) (a : α) (e : Element) : Prop :=
  ∃ s : String, e = text s ∧ Numeral.Spells s (code a)

theorem code?_eq_some {parse : String → Result α} {code : α → Nat}
    (hparse : ∀ s a, parse s = .ok a ↔ Numeral.Spells s (code a)) (e : Element) (a : α) :
    code? parse e = some a ↔ SpellsCode code a e := by
  unfold code? SpellsCode
  rw [Option.bind_eq_some_iff]
  have hok (s : String) : (parse s).toOption = some a ↔ Numeral.Spells s (code a) := by
    rw [← hparse]
    cases parse s <;> simp [Except.toOption]
  constructor
  · rintro ⟨s, hs, ha⟩
    exact ⟨s, printable?_eq_some hs, (hok s).mp ha⟩
  · rintro ⟨s, rfl, hs⟩
    exact ⟨s, printable?_text hs.toNat_lt, (hok s).mpr hs⟩

/-! ### Attributes that are not as they should be -/

/-- The attribute of a type is there, but not once with one value that is accepted. -/
inductive Malformed (as : Attributes) (o : Oid) (Accepts : Element → Prop) : Prop
  | repeated {a b : Attribute} (ha : a ∈ as.toList) (hb : b ∈ as.toList) (hne : a ≠ b)
      (hao : a.type = o) (hbo : b.type = o)
  | valued {a : Attribute} (ha : a ∈ as.toList) (hao : a.type = o) (hv : a.values.toList.length ≠ 1)
  | refused {e : Element} (ha : .single o e ∈ as.toList) (he : ¬ Accepts e)

theorem Holds.eq_of_mem {e : Element} (h : Holds as o e) {a : Attribute} (ha : a ∈ as.toList)
    (hao : a.type = o) : a = .single o e :=
  holds_or_lacks_iff.mp (.inr h) a ha hao

theorem Holds.mem {e : Element} (h : Holds as o e) : .single o e ∈ as.toList := by
  have hmem : .single o e ∈ as.toList.filter (fun a => a.type = o) := by
    rw [h]
    exact List.mem_singleton_self _
  exact (List.mem_filter.mp hmem).1

theorem single_inj {e f : Element} (h : Attribute.single o e = .single o f) : e = f :=
  List.singleton_inj.mp (congrArg (fun a : Attribute => a.values.toList) h)

theorem Holds.unique {e f : Element} (he : Holds as o e) (hf : Holds as o f) : e = f :=
  single_inj (hf.eq_of_mem he.mem rfl)

theorem malformed_iff :
    Malformed as o Accepts ↔ ¬ Lacks as o ∧ ¬ ∃ e, Holds as o e ∧ Accepts e := by
  constructor
  · intro h
    cases h with
    | repeated ha hb hne hao hbo =>
      refine ⟨fun hl => hl _ ha hao, ?_⟩
      rintro ⟨e, he, -⟩
      exact hne ((he.eq_of_mem ha hao).trans (he.eq_of_mem hb hbo).symm)
    | valued ha hao hv =>
      refine ⟨fun hl => hl _ ha hao, ?_⟩
      rintro ⟨e, he, -⟩
      rw [he.eq_of_mem ha hao] at hv
      exact hv rfl
    | @refused e ha he =>
      refine ⟨fun hl => hl _ ha rfl, ?_⟩
      rintro ⟨f, hf, haccepts⟩
      exact he (single_inj (hf.eq_of_mem ha rfl) ▸ haccepts)
  · rintro ⟨hlacks, hrefused⟩
    rw [lacks_iff] at hlacks
    have hmem {a : Attribute} (ha : a ∈ as.toList.filter fun a => a.type = o) :
        a ∈ as.toList ∧ a.type = o := by simpa using List.mem_filter.mp ha
    have hnodup : (as.toList.filter fun a => a.type = o).Nodup :=
      (Der.SetOf.nodup_toList Attribute.repeats_eq as).filter _
    cases hf : as.toList.filter fun a => a.type = o with
    | nil => exact absurd hf hlacks
    | cons a rest =>
      rw [hf] at hmem hnodup
      obtain ⟨ha, hao⟩ := hmem (List.mem_cons_self)
      cases rest with
      | cons b rest =>
        obtain ⟨hb, hbo⟩ := hmem (List.mem_cons_of_mem a (List.mem_cons_self (a := b) (l := rest)))
        have hne : a ≠ b := by
          rintro rfl
          exact (List.nodup_cons.mp hnodup).1 (List.mem_cons_self)
        exact .repeated ha hb hne hao hbo
      | nil =>
        by_cases hv : a.values.toList.length = 1
        · obtain ⟨e, he⟩ := List.length_eq_one_iff.mp hv
          obtain rfl := Attribute.eq_single_iff.mpr ⟨hao, he⟩
          exact .refused ha fun haccepts => hrefused ⟨e, hf, haccepts⟩
        · exact .valued ha hao hv

theorem findAs_eq_error_iff (hread : ∀ e, (∃ a, read e = some a) ↔ Accepts e) :
    findAs read as o = .error err ↔ Malformed as o Accepts ∧ err = .invalidAttribute o := by
  have hok : (∃ x, findAs read as o = .ok x) ↔ ¬ Malformed as o Accepts := by
    rw [malformed_iff]
    constructor
    · rintro ⟨x, hx⟩ ⟨hlacks, hrefused⟩
      cases x with
      | none => exact hlacks (findAs_eq_none.mp hx)
      | some a =>
        obtain ⟨e, he, ha⟩ := findAs_eq_some.mp hx
        exact hrefused ⟨e, he, (hread e).mp ⟨a, ha⟩⟩
    · intro h
      by_cases hlacks : Lacks as o
      · exact ⟨none, findAs_eq_none.mpr hlacks⟩
      · obtain ⟨e, he, haccepts⟩ := not_not.mp fun hrefused => h ⟨hlacks, hrefused⟩
        obtain ⟨a, ha⟩ := (hread e).mpr haccepts
        exact ⟨some a, findAs_eq_some.mpr ⟨e, he, ha⟩⟩
  constructor
  · intro h
    refine ⟨not_not.mp fun hno => ?_, findAs_failsOnly_invalid read as o err h⟩
    obtain ⟨x, hx⟩ := hok.mpr hno
    rw [h] at hx
    cases hx
  · rintro ⟨hmalformed, rfl⟩
    cases h : findAs read as o with
    | ok x => exact absurd hmalformed (hok.mp ⟨x, h⟩)
    | error err' => rw [findAs_failsOnly_invalid read as o err' h]

/-! ### What a type shows -/

/-- The values in question stand under the type: none if there is no such attribute, else the one that its
value stands for. -/
def Shows (StandsFor : α → Element → Prop) (as : Attributes) (o : Oid) : Option α → Prop
  | none => Lacks as o
  | some a => ∃ e, Holds as o e ∧ StandsFor a e

theorem findAs_eq_ok_iff {StandsFor : α → Element → Prop}
    (hread : ∀ e a, read e = some a ↔ StandsFor a e) {x : Option α} :
    findAs read as o = .ok x ↔ Shows StandsFor as o x := by
  cases x with
  | none => exact findAs_eq_none
  | some a =>
    rw [findAs_eq_some]
    exact exists_congr fun e => and_congr_right fun _ => hread e a

theorem Shows.find_iff {StandsFor : α → Element → Prop} {v : α → Element} {IsPlain : Element → Prop}
    {x : Option α} (h : Shows StandsFor as o x)
    (hv : ∀ a e, StandsFor a e → (e = v a ↔ IsPlain e)) :
    find as o = .ok (x.map v) ↔ ∀ e, Holds as o e → IsPlain e := by
  cases x with
  | none =>
    refine ⟨fun _ e he => ?_, fun _ => find_eq_none.mpr h⟩
    exact absurd rfl (h _ he.mem)
  | some a =>
    obtain ⟨e, he, ha⟩ := h
    have hplain : e = v a ↔ IsPlain e := hv a e ha
    constructor
    · intro hfound f hf
      rw [hf.unique he, ← hplain]
      exact he.unique (find_eq_some.mp hfound)
    · intro hall
      rw [hplain.mpr (hall e he)] at he
      exact find_eq_some.mpr he

/-! ### The attributes of some types -/

theorem find_eq_ok_iff {x : Option Element} :
    find as o = .ok x ↔ as.toList.filter (fun a => a.type = o) = (x.map (.single o)).toList := by
  cases x with
  | none => exact find_eq_none.trans lacks_iff
  | some e => exact find_eq_some

theorem count_filter_type (l : List Attribute) (a : Attribute) :
    (l.filter fun b => b.type = a.type).count a = l.count a :=
  List.count_filter (by simp)

/-- The attributes of some types are those of the fields if those of each type are those of its field. -/
theorem filter_perm_ofFields_iff {fields : List (Oid × Option Element)} {l : List Attribute}
    (hn : (fields.map Prod.fst).Nodup) :
    (l.filter fun a => a.type ∈ fields.map Prod.fst).Perm (ofFields fields) ↔
      ∀ f ∈ fields, l.filter (fun a => a.type = f.1) = (f.2.map (.single f.1)).toList := by
  constructor
  · intro h f hf
    have hp := h.filter (fun a => decide (a.type = f.1))
    have htype : (l.filter fun a => a.type ∈ fields.map Prod.fst).filter (fun a => a.type = f.1) =
        l.filter (fun a => a.type = f.1) := by
      rw [List.filter_filter]
      refine List.filter_congr fun a _ => ?_
      by_cases hao : a.type = f.1
      · simp [hao, List.mem_map_of_mem (f := Prod.fst) hf]
      · simp [hao]
    rw [htype, filter_ofFields hn hf] at hp
    cases hx : f.2 with
    | none =>
      rw [hx] at hp
      exact List.perm_nil.mp hp
    | some e =>
      rw [hx] at hp
      exact List.perm_singleton.mp hp
  · intro h
    refine List.perm_iff_count.mpr fun a => ?_
    by_cases hmem : a.type ∈ fields.map Prod.fst
    · obtain ⟨f, hf, hao⟩ := List.mem_map.mp hmem
      have hfield := filter_ofFields hn hf
      rw [← h f hf, hao] at hfield
      rw [List.count_filter (by simpa using hmem), ← count_filter_type l, ← hfield, count_filter_type]
    · have hleft : a ∉ l.filter fun a => a.type ∈ fields.map Prod.fst := by
        intro ha
        exact hmem (by simpa using (List.mem_filter.mp ha).2)
      have hright : a ∉ ofFields fields := fun ha =>
        hmem ((types_ofFields fields).subset (List.mem_map_of_mem ha))
      rw [List.count_eq_zero_of_not_mem hleft, List.count_eq_zero_of_not_mem hright]

/-! ### Rules -/

/-- What a set of attributes has to say under one type. -/
structure Rule where
  /-- The type. -/
  id : Oid
  /-- Whether the attribute has to be there, which other attributes may decide. -/
  Needed : Attributes → Prop
  /-- The values that it may have. -/
  Accepts : Element → Prop

namespace Rule

variable {r : Rule}

/-- The attribute is left out where it may be, or is there once with one value that is accepted. -/
def Met (r : Rule) (as : Attributes) : Prop :=
  Lacks as r.id ∧ ¬ r.Needed as ∨ ∃ e, Holds as r.id e ∧ r.Accepts e

/-- How a rule is broken, and the error that says so. -/
inductive Breaks (r : Rule) (as : Attributes) : Error → Prop
  | missing (h : Lacks as r.id) (hn : r.Needed as) : Breaks r as (.missingAttribute r.id)
  | invalid (h : Malformed as r.id r.Accepts) : Breaks r as (.invalidAttribute r.id)

theorem met_or_breaks (r : Rule) (as : Attributes) : r.Met as ∨ ∃ err, r.Breaks as err := by
  by_cases hlacks : Lacks as r.id
  · by_cases hneeded : r.Needed as
    · exact .inr ⟨_, .missing hlacks hneeded⟩
    · exact .inl (.inl ⟨hlacks, hneeded⟩)
  · by_cases hheld : ∃ e, Holds as r.id e ∧ r.Accepts e
    · exact .inl (.inr hheld)
    · exact .inr ⟨_, .invalid (malformed_iff.mpr ⟨hlacks, hheld⟩)⟩

theorem Breaks.not_met (h : r.Breaks as err) : ¬ r.Met as := by
  rintro (⟨hlacks, hneeded⟩ | hheld)
  · cases h with
    | missing _ hn => exact hneeded hn
    | invalid hm => exact (malformed_iff.mp hm).1 hlacks
  · cases h with
    | missing hlacks _ =>
      obtain ⟨e, he, -⟩ := hheld
      exact hlacks _ he.mem rfl
    | invalid hm => exact (malformed_iff.mp hm).2 hheld

end Rule

variable {r : Rule} {rs : List Rule} {β : Type}

/-- The error of the first rule that is broken; those before it are met. -/
inductive FirstBroken (as : Attributes) : List Rule → Error → Prop
  | here {r : Rule} {rs : List Rule} {err : Error} (h : r.Breaks as err) : FirstBroken as (r :: rs) err
  | later {r : Rule} {rs : List Rule} {err : Error} (h : r.Met as) (hrest : FirstBroken as rs err) :
      FirstBroken as (r :: rs) err

theorem met_or_firstBroken (as : Attributes) (rs : List Rule) :
    (∀ r ∈ rs, r.Met as) ∨ ∃ err, FirstBroken as rs err := by
  induction rs with
  | nil => exact .inl (by simp)
  | cons r rs ih =>
    rcases r.met_or_breaks as with hmet | ⟨err, hbreaks⟩
    · rcases ih with hall | ⟨err, hbroken⟩
      · exact .inl (List.forall_mem_cons.mpr ⟨hmet, hall⟩)
      · exact .inr ⟨err, .later hmet hbroken⟩
    · exact .inr ⟨err, .here hbreaks⟩

theorem FirstBroken.exists_breaks (h : FirstBroken as rs err) : ∃ r ∈ rs, r.Breaks as err := by
  induction h with
  | here h => exact ⟨_, List.mem_cons_self, h⟩
  | later _ _ ih =>
    obtain ⟨r, hr, hbreaks⟩ := ih
    exact ⟨r, List.mem_cons_of_mem _ hr, hbreaks⟩

/-- The reader looks at the rules in turn, and at nothing else. -/
structure Obeys (as : Attributes) (rs : List Rule) (d : Result β) : Prop where
  ok : (∀ r ∈ rs, r.Met as) → ∃ b, d = .ok b
  error : ∀ err, FirstBroken as rs err → d = .error err

namespace Obeys

variable {d : Result β}

theorem exists_ok_iff (h : Obeys as rs d) : (∃ b, d = .ok b) ↔ ∀ r ∈ rs, r.Met as := by
  refine ⟨?_, h.ok⟩
  rintro ⟨b, hb⟩
  refine (met_or_firstBroken as rs).resolve_right ?_
  rintro ⟨err, herr⟩
  have herror := h.error err herr
  rw [hb] at herror
  cases herror

theorem error_iff (h : Obeys as rs d) : d = .error err ↔ FirstBroken as rs err := by
  refine ⟨fun herror => ?_, h.error err⟩
  rcases met_or_firstBroken as rs with hall | ⟨err', hbroken⟩
  · obtain ⟨b, hb⟩ := h.ok hall
    rw [hb] at herror
    cases herror
  · have herror' := h.error err' hbroken
    rw [herror] at herror'
    cases herror'
    exact hbroken

theorem bind {γ : Type} {f : β → Result γ} (hd : Obeys as [r] d)
    (hf : ∀ b, d = .ok b → Obeys as rs (f b)) : Obeys as (r :: rs) (d >>= f) where
  ok hall := by
    obtain ⟨hmet, hrest⟩ := List.forall_mem_cons.mp hall
    obtain ⟨b, hb⟩ := hd.ok (List.forall_mem_singleton.mpr hmet)
    obtain ⟨c, hc⟩ := (hf b hb).ok hrest
    exact ⟨c, Result.bind_eq_ok.mpr ⟨b, hb, hc⟩⟩
  error err hbroken := by
    rw [Result.bind_eq_error]
    cases hbroken with
    | here h => exact .inl (hd.error err (.here h))
    | later hmet hrest =>
      obtain ⟨b, hb⟩ := hd.ok (List.forall_mem_singleton.mpr hmet)
      exact .inr ⟨b, hb, (hf b hb).error err hrest⟩

/-- A step that looks up the attribute of a rule and fails if the attribute is needed but not there. -/
theorem of_findAs (hread : ∀ e, (∃ a, read e = some a) ↔ r.Accepts e)
    (herror : ∀ err, findAs read as r.id = .error err → d = .error err)
    (hneeded : findAs read as r.id = .ok none → r.Needed as → d = .error (.missingAttribute r.id))
    (hnone : findAs read as r.id = .ok none → ¬ r.Needed as → ∃ b, d = .ok b)
    (hsome : ∀ a, findAs read as r.id = .ok (some a) → ∃ b, d = .ok b) : Obeys as [r] d where
  ok hall := by
    rcases List.forall_mem_singleton.mp hall with ⟨hlacks, hn⟩ | ⟨e, he, haccepts⟩
    · exact hnone (findAs_eq_none.mpr hlacks) hn
    · obtain ⟨a, ha⟩ := (hread e).mpr haccepts
      exact hsome a (findAs_eq_some.mpr ⟨e, he, ha⟩)
  error err hbroken := by
    cases hbroken with
    | later h hrest => cases hrest
    | here h =>
      cases h with
      | missing hlacks hn => exact hneeded (findAs_eq_none.mpr hlacks) hn
      | invalid hmalformed => exact herror _ ((findAs_eq_error_iff hread).mpr ⟨hmalformed, rfl⟩)

theorem findAs (hread : ∀ e, (∃ a, read e = some a) ↔ r.Accepts e) (hneed : ¬ r.Needed as) :
    Obeys as [r] (findAs read as r.id) :=
  of_findAs hread (fun _ h => h) (fun _ h => absurd h hneed) (fun h _ => ⟨none, h⟩) fun a h => ⟨some a, h⟩

theorem require (hread : ∀ e, (∃ a, read e = some a) ↔ r.Accepts e) (hneed : r.Needed as) :
    Obeys as [r] (require r.id (SignedAttributes.findAs read as r.id)) := by
  refine of_findAs hread ?_ ?_ (fun _ h => absurd hneed h) ?_
  · intro err h
    rw [h]
    rfl
  · intro h _
    rw [h]
    rfl
  · intro a h
    exact ⟨a, require_eq_ok.mpr h⟩

end Obeys

end SignedAttributes

/-! ### The grammar of a message's attributes -/

namespace MessageAttributes

open SignedAttributes

variable {as : Attributes} {m : MessageAttributes}

/-- The value is a printable string that names a transaction. -/
def IsName (e : Element) : Prop :=
  ∃ s : String, e = text s ∧ Text.IsName s

/-- The value is a printable string that spells a code of a set. -/
def IsCode {α : Type} (code : α → Nat) (e : Element) : Prop := ∃ a, SpellsCode code a e

/-- The value is an octet string. -/
def IsOctets (e : Element) : Prop := ∃ b, e = ⟨.octetString, b⟩

/-- The set says that the request failed. -/
def IsFailure (as : Attributes) : Prop :=
  ∃ e, Holds as AttributeId.pkiStatus e ∧ SpellsCode PkiStatus.code .failure e

/-- The rules, in the order in which they are looked at. -/
def grammar : List Rule :=
  [⟨AttributeId.transactionId, fun _ => True, IsName⟩,
    ⟨AttributeId.messageType, fun _ => True, IsCode MessageType.code⟩,
    ⟨AttributeId.senderNonce, fun _ => True, IsOctets⟩,
    ⟨AttributeId.recipientNonce, fun _ => False, IsOctets⟩,
    ⟨AttributeId.pkiStatus, fun _ => False, IsCode PkiStatus.code⟩,
    ⟨AttributeId.failInfo, IsFailure, IsCode FailInfo.code⟩]

theorem readId_eq_some (e : Element) (i : TransactionId) :
    (printable? e).bind TransactionId.ofText? = some i ↔ e = text i.text := by
  constructor
  · intro h
    obtain ⟨s, hs, hi⟩ := Option.bind_eq_some_iff.mp h
    rw [TransactionId.ofText?_eq_some.mp hi]
    exact printable?_eq_some hs
  · rintro rfl
    exact printable?_id i

theorem exists_readId_iff (e : Element) :
    (∃ i, (printable? e).bind TransactionId.ofText? = some i) ↔ IsName e := by
  simp only [readId_eq_some]
  constructor
  · rintro ⟨i, rfl⟩
    exact ⟨i.text, rfl, i.valid⟩
  · rintro ⟨s, rfl, hs⟩
    exact ⟨⟨s, hs⟩, rfl⟩

theorem readNonce_eq_some (e : Element) (n : Nonce) :
    (octets? e).map Nonce.mk = some n ↔ e = ⟨.octetString, n.bytes⟩ := by
  rw [Option.map_eq_some_iff]
  constructor
  · rintro ⟨b, hb, rfl⟩
    exact octets?_eq_some.mp hb
  · intro h
    exact ⟨n.bytes, octets?_eq_some.mpr h, rfl⟩

theorem exists_readNonce_iff (e : Element) : (∃ n, (octets? e).map Nonce.mk = some n) ↔ IsOctets e := by
  simp only [readNonce_eq_some]
  constructor
  · rintro ⟨n, h⟩
    exact ⟨n.bytes, h⟩
  · rintro ⟨b, h⟩
    exact ⟨⟨b⟩, h⟩

theorem exists_code?_iff {α : Type} {parse : String → Result α} {code : α → Nat}
    (hparse : ∀ s a, parse s = .ok a ↔ Numeral.Spells s (code a)) (e : Element) :
    (∃ a, code? parse e = some a) ↔ IsCode code e :=
  exists_congr (code?_eq_some hparse e)

theorem isFailure_iff {status : Option PkiStatus}
    (h : findAs (code? PkiStatus.parse) as AttributeId.pkiStatus = .ok status) :
    IsFailure as ↔ status = some .failure := by
  have hfailure : IsFailure as ↔
      findAs (code? PkiStatus.parse) as AttributeId.pkiStatus = .ok (some .failure) := by
    rw [findAs_eq_some]
    exact exists_congr fun e => and_congr_right fun _ => (code?_eq_some PkiStatus.parse_eq_ok e _).symm
  rw [hfailure, h, Except.ok.injEq]

theorem decode_obeys (as : Attributes) : Obeys as grammar (decode as) := by
  unfold decode nonce?
  refine (Obeys.require exists_readId_iff trivial).bind fun id _ => ?_
  refine (Obeys.require (exists_code?_iff MessageType.parse_eq_ok) trivial).bind fun type _ => ?_
  refine (Obeys.require exists_readNonce_iff trivial).bind fun sender _ => ?_
  refine (Obeys.findAs exists_readNonce_iff not_false).bind fun recipient _ => ?_
  refine (Obeys.findAs (exists_code?_iff PkiStatus.parse_eq_ok) not_false).bind fun status hstatus => ?_
  have hfailure := isFailure_iff hstatus
  -- a reason that is found is enough; one that is not found is missed after a failure
  refine Obeys.of_findAs (exists_code?_iff FailInfo.parse_eq_ok) ?_ ?_ ?_ ?_
  · intro err h
    exact Result.bind_eq_error.mpr (.inl h)
  · intro h hneeded
    refine Result.bind_eq_error.mpr (.inr ⟨none, h, ?_⟩)
    dsimp only
    rw [if_pos ⟨hfailure.mp hneeded, rfl⟩]
    rfl
  · intro h hneeded
    refine ⟨⟨id, type, sender, recipient, status, none⟩, Result.bind_eq_ok.mpr ⟨none, h, ?_⟩⟩
    dsimp only
    rw [if_neg fun hmissing => hneeded (hfailure.mpr hmissing.1)]
    rfl
  · intro a h
    refine ⟨⟨id, type, sender, recipient, status, some a⟩, Result.bind_eq_ok.mpr ⟨some a, h, ?_⟩⟩
    dsimp only
    rw [if_neg fun hmissing => Option.some_ne_none a hmissing.2]
    rfl

/-! ### What is decoded -/

/-- The set says of a message what its attributes are. -/
structure Says (as : Attributes) (m : MessageAttributes) : Prop where
  transactionId : Shows (fun i e => e = text i.text) as AttributeId.transactionId (some m.transactionId)
  messageType : Shows (SpellsCode MessageType.code) as AttributeId.messageType (some m.messageType)
  senderNonce : Shows (fun n e => e = ⟨.octetString, n.bytes⟩) as AttributeId.senderNonce (some m.senderNonce)
  recipientNonce : Shows (fun n e => e = ⟨.octetString, n.bytes⟩) as AttributeId.recipientNonce m.recipientNonce
  pkiStatus : Shows (SpellsCode PkiStatus.code) as AttributeId.pkiStatus m.pkiStatus
  failInfo : Shows (SpellsCode FailInfo.code) as AttributeId.failInfo m.failInfo
  reason : ¬ (m.pkiStatus = some .failure ∧ m.failInfo = none)

theorem decode_eq_ok_iff : decode as = .ok m ↔ Says as m := by
  unfold decode nonce?
  simp only [Result.bind_eq_ok, require_eq_ok, findAs_eq_ok_iff readId_eq_some,
    findAs_eq_ok_iff readNonce_eq_some, findAs_eq_ok_iff (code?_eq_some MessageType.parse_eq_ok),
    findAs_eq_ok_iff (code?_eq_some PkiStatus.parse_eq_ok),
    findAs_eq_ok_iff (code?_eq_some FailInfo.parse_eq_ok)]
  constructor
  · rintro ⟨id, hid, type, htype, sender, hsender, recipient, hrecipient, status, hstatus, reason, hreason, h⟩
    split at h
    case isTrue => cases h
    case isFalse hgiven =>
      cases h
      exact ⟨hid, htype, hsender, hrecipient, hstatus, hreason, hgiven⟩
  · intro h
    refine ⟨_, h.transactionId, _, h.messageType, _, h.senderNonce, _, h.recipientNonce, _, h.pkiStatus, _,
      h.failInfo, ?_⟩
    rw [if_neg h.reason]
    rfl

/-! ### Codes without zeros in front -/

/-- The value does not begin with a zero, unless it is a zero. -/
def Plain (e : Element) : Prop := e.content.head? = some 48 → e.content.length = 1

theorem plain_text {s : String} (h : ∀ c ∈ s.toList, c.toNat < 128) :
    Plain (text s) ↔ Text.IsPlain s.toList := by
  have hhead : (Bytes.ofAscii s).head? = some 48 ↔ s.toList.head? = some '0' := by
    rw [Bytes.ofAscii, List.head?_map, Option.map_eq_some_iff]
    constructor
    · rintro ⟨c, hc, hcode⟩
      have hlt := h c (List.mem_of_head? hc)
      have hnat : (UInt8.ofNat c.toNat).toNat = 48 := congrArg UInt8.toNat hcode
      rw [UInt8.toNat_ofNat', Nat.mod_eq_of_lt (by omega)] at hnat
      rw [hc, Char.toNat_inj.mp (show c.toNat = '0'.toNat from hnat)]
    · intro hc
      exact ⟨'0', hc, rfl⟩
  have hlength : (Bytes.ofAscii s).length = s.toList.length := List.length_map _
  unfold Plain Text.IsPlain text
  rw [hhead, hlength]

/-- Of the values that spell a code, the one that is written is the one without zeros in front. -/
theorem eq_text_iff_plain {α : Type} {code : α → Nat} (a : α) (e : Element) (h : SpellsCode code a e) :
    e = text (Numeral.ofNat (code a)) ↔ Plain e := by
  obtain ⟨s, rfl, hs⟩ := h
  rw [plain_text hs.toNat_lt, ← hs.eq_ofNat_iff]
  constructor
  · intro heq
    have hread := printable?_text hs.toNat_lt
    rw [heq, printable?_text (Numeral.spells_ofNat (code a)).toNat_lt] at hread
    exact (Option.some.inj hread).symm
  · rintro heq
    rw [← heq]

/-- The values of the codes have no zeros in front. -/
def PlainCodes (as : Attributes) : Prop :=
  ∀ o ∈ [AttributeId.messageType, AttributeId.pkiStatus, AttributeId.failInfo], ∀ e, Holds as o e → Plain e

theorem Says.find_fields_iff (h : Says as m) :
    (∀ f ∈ m.fields, find as f.1 = .ok f.2) ↔ PlainCodes as := by
  have hsame {e f : Element} (h : e = f) : e = f ↔ True := iff_of_true h trivial
  have hid := h.transactionId.find_iff (v := fun i => text i.text) fun _ _ => hsame
  have htype := h.messageType.find_iff eq_text_iff_plain
  have hsender := h.senderNonce.find_iff (v := fun n => ⟨.octetString, n.bytes⟩) fun _ _ => hsame
  have hrecipient := h.recipientNonce.find_iff (v := fun n => ⟨.octetString, n.bytes⟩) fun _ _ => hsame
  have hstatus := h.pkiStatus.find_iff eq_text_iff_plain
  have hreason := h.failInfo.find_iff eq_text_iff_plain
  simp only [Option.map_some, implies_true, iff_true] at hid htype hsender hrecipient
  simp only [fields, PlainCodes, List.forall_mem_cons, List.not_mem_nil, hid, htype, hsender, hrecipient,
    hstatus, hreason]
  simp

/-- A set that is decoded has more than one member, so that none of them is too long. -/
theorem Says.fits (h : Says as m) {o : Oid} {e : Element} (he : Holds as o e) : e.Fits := by
  obtain ⟨id, hid, -⟩ := h.transactionId
  obtain ⟨type, htype, -⟩ := h.messageType
  have hne : Attribute.single AttributeId.transactionId id ≠ .single AttributeId.messageType type := by
    intro hsame
    exact absurd (congrArg Attribute.type hsame) (by decide : AttributeId.transactionId ≠ AttributeId.messageType)
  have hsize : 1 < as.size := Der.SetOf.one_lt_size hid.mem htype.mem hne
  have hattribute : (toElement (Attribute.single o e)).Fits := Der.SetOf.fits_of_size hsize he.mem
  have hvalues : (toElement (Attribute.single o e).values).Fits :=
    Element.fits_of_mem_join hattribute (by simp)
  exact Element.fits_of_mem_join hvalues (List.mem_map.mpr ⟨e, List.mem_singleton_self e, rfl⟩)

theorem Says.noncesFit (h : Says as m) : m.NoncesFit where
  sender := by
    obtain ⟨e, he, rfl⟩ := h.senderNonce
    exact h.fits he
  recipient := by
    intro n hn
    have hshows := h.recipientNonce
    rw [hn] at hshows
    obtain ⟨e, he, rfl⟩ := hshows
    exact h.fits he

/-- The message's attributes are written again as they stand in the set exactly if the codes in the set have
no zeros in front. -/
theorem Says.perm_encode_iff (h : Says as m) :
    (∃ own, m.encode = .ok own ∧ (as.toList.filter fun a => a.type ∈ ids).Perm own) ↔ PlainCodes as := by
  have hn : (m.fields.map Prod.fst).Nodup := (List.nodup_append.mp ids_nodup).1
  have hfields := filter_perm_ofFields_iff (l := as.toList) hn
  rw [← h.find_fields_iff]
  simp only [encode_eq_ok, h.noncesFit, and_true, exists_eq_left, find_eq_ok_iff]
  exact hfields

/-- A set of attributes is decoded exactly if it meets every rule of the grammar, and otherwise the error is
that of the first rule that it breaks.  What is decoded is what the set says; it is written again as it
stands in the set exactly if the codes have no zeros in front. -/
theorem decode_follows_grammar (as : Attributes) :
    ((∃ m, decode as = .ok m) ↔ ∀ r ∈ grammar, r.Met as) ∧
      (∀ err, decode as = .error err ↔ FirstBroken as grammar err) ∧
      ∀ m, decode as = .ok m →
        Says as m ∧
          ((∃ own, m.encode = .ok own ∧ (as.toList.filter fun a => a.type ∈ ids).Perm own) ↔
            PlainCodes as) := by
  have hobeys := decode_obeys as
  refine ⟨hobeys.exists_ok_iff, fun err => hobeys.error_iff, fun m hm => ?_⟩
  have hmeaning := decode_eq_ok_iff.mp hm
  exact ⟨hmeaning, hmeaning.perm_encode_iff⟩

end MessageAttributes

end CertEnroll
