import CertEnroll.Der.Document
import CertEnroll.Proofs.Der.Sets
import CertEnroll.Proofs.Result

/-!
# Proofs.Der.Readable — values that are read back from what they are written as

Not every value is: an object identifier or a serial number may have octets that no reader accepts.
`Readable` says it of one value.  The rules follow the ways in which encodings are put together: a
sequence is readable if its fields are, a set if its members are, and an optional field if the tag of
what follows tells that it is absent.
-/

namespace CertEnroll.Der

variable {α β γ : Type}

/-- The value is read back from what it is written as, unless that is too long for a reader. -/
def Readable [Der α] (a : α) : Prop := (toElement a).Fits → ofElement? (toElement a) = some a

/-! ### Documents -/

theorem Readable.decode? [Der α] {a : α} (h : Readable a) (hf : (toElement a).Fits) :
    decode? (encode a) = some a := by
  simp [Der.decode?, encode, Element.ofBytes?_encode hf, h hf]

/-- Nothing else is read from the octets of a readable value. -/
theorem Readable.eq_of_decode? [Der α] {a b : α} (h : Readable a) (hb : Der.decode? (encode a) = some b) :
    b = a := by
  obtain ⟨e, he, hread⟩ := Option.bind_eq_some_iff.mp hb
  obtain ⟨hsame, hfits⟩ := Element.ofBytes?_eq_some.mp he
  have hlength := Element.length_content_of_encode (congrArg List.length hsame)
  have hf : (toElement a).Fits := by
    unfold Element.Fits
    rw [hlength]
    exact hfits
  rw [← Element.encode_inj hf hfits hsame, h hf] at hread
  exact (Option.some.inj hread).symm

theorem fits_of_length_encode {e : Element} (h : e.encode.length ≤ maxLength) : e.Fits :=
  Nat.le_trans (Nat.le_of_lt e.length_content_lt_encode) h

theorem bounded_eq_ok {b b' : Bytes} : bounded b = .ok b' ↔ b' = b ∧ b.length ≤ maxLength := by
  unfold bounded
  split
  case isTrue h => simp [h, eq_comm]
  case isFalse h => simp [h]

theorem bounded_bind_eq_ok {β : Type} {b : Bytes} {f : Bytes → Result β} {x : β} :
    (bounded b >>= f) = .ok x ↔ f b = .ok x ∧ b.length ≤ maxLength := by
  simp only [Result.bind_eq_ok, bounded_eq_ok]
  constructor
  · rintro ⟨_, ⟨rfl, h⟩, hf⟩
    exact ⟨hf, h⟩
  · rintro ⟨hf, h⟩
    exact ⟨b, ⟨rfl, h⟩, hf⟩

theorem ofBytes_eq_ok {b : Bytes} {s : OctetString} :
    OctetString.ofBytes b = .ok s ↔ s = ⟨b⟩ ∧ b.length ≤ maxLength := by
  rw [OctetString.ofBytes, bounded_bind_eq_ok, Result.pure_eq_ok, @eq_comm _ s]

theorem write_eq_ok [Der α] {a : α} {b : Bytes} :
    write a = .ok b ↔ b = encode a ∧ (encode a).length ≤ maxLength := bounded_eq_ok

theorem read_eq_ok [Der α] {a : α} {b : Bytes} :
    (read b : Result α) = .ok a ↔
      b.length ≤ maxLength ∧ ∃ e : Element, b = e.encode ∧ e.Fits ∧ ofElement? e = some a := by
  simp only [read, Result.bind_eq_ok, bounded_eq_ok, and_assoc, exists_eq_left, Result.ofDecoded,
    Result.ofOption_eq_ok, Der.decode?, Option.bind_eq_bind, Option.bind_eq_some_iff,
    Element.ofBytes?_eq_some]

/-- A readable value is read back from its document. -/
theorem Readable.read [Der α] {a : α} {b : Bytes} (h : Readable a) (hb : write a = .ok b) :
    read b = .ok a := by
  obtain ⟨rfl, hl⟩ := write_eq_ok.mp hb
  have hf := fits_of_length_encode hl
  exact read_eq_ok.mpr ⟨hl, _, rfl, hf, h hf⟩

/-- Readable values are told apart by their octets. -/
theorem Readable.encode_inj [Der α] {a b : α} (ha : Readable a) (hb : Readable b)
    (hfa : (toElement a).Fits) (hfb : (toElement b).Fits) (h : encode a = encode b) : a = b := by
  have he := Element.encode_inj hfa hfb h
  have hr := ha hfa
  rw [he, hb hfb] at hr
  exact (Option.some.inj hr).symm

/-- A value of one of several kinds is readable if it is written as what makes it, and its element tells
the kind. -/
theorem Readable.choice [Der α] [Der β] {a : α} (h : Readable a) {f : α → β}
    (hwrite : toElement (f a) = toElement a)
    (hread : ofElement? (toElement a) = (ofElement? (toElement a) : Option α).map f) :
    Readable (f a) := by
  intro hf
  rw [hwrite] at hf ⊢
  rw [hread, h hf]
  rfl

/-! ### Values in a row -/

theorem mapM_toElement [Der α] {l : List α} (h : ∀ a ∈ l, Readable a)
    (hf : ∀ e ∈ l.map toElement, e.Fits) :
    (l.map toElement).mapM (ofElement? : Element → Option α) = some l := by
  induction l with
  | nil => rfl
  | cons a l ih =>
    have ha := h a (by simp) (hf _ (by simp))
    have hl := ih (fun b hb => h b (by simp [hb])) (fun e he => hf e (by simp [he]))
    rw [List.map_cons, List.mapM_cons, ha, hl]
    rfl

theorem readable_setOf [Member α] {s : SetOf α} (h : ∀ a ∈ s.toList, Readable a) : Readable s := by
  intro hf
  have hfits : ∀ e ∈ s.toList.map (toElement : α → Element), e.Fits :=
    fun _ => Element.fits_of_mem_join hf
  change (Element.elements? .set (.ofElements .set (s.toList.map toElement))).bind _ = some s
  rw [Element.elements?_ofElements hf]
  simp only [Option.bind_some, mapM_toElement h hfits]
  exact SetOf.ofList?_toList s

theorem readable_list [Der α] {l : List α} (h : ∀ a ∈ l, Readable a) : Readable l := by
  intro hf
  have hfits : ∀ e ∈ l.map (toElement : α → Element), e.Fits := fun _ => Element.fits_of_mem_join hf
  change (Element.elements? .sequence (sequence (l.map toElement))).bind _ = some l
  rw [sequence, Element.elements?_ofElements hf]
  exact mapM_toElement h hfits

/-! ### Fields -/

namespace Fields

theorem run_value [Der α] (e : Element) (r : List Element) :
    (value : Fields α).run (e :: r) = (ofElement? e).map fun a => (a, r) := by
  change (ofElement? e : Option α).bind (fun a => some (a, r)) = _
  cases (ofElement? e : Option α) <;> rfl

/-- What follows a field is read from the elements after it. -/
theorem run_value_bind [Der α] {f : α → Fields β} {e : Element} {r : List Element}
    {x : β × List Element} :
    (value >>= f).run (e :: r) = some x ↔ ∃ a, ofElement? e = some a ∧ (f a).run r = some x := by
  rw [StateT.run_bind, run_value]
  cases (ofElement? e : Option α) <;> simp

theorem run_bind_of_run {g : Fields α} {f : α → Fields β} {es r : List Element} {a : α}
    (h : g.run es = some (a, r)) : (g >>= f).run es = (f a).run r := by
  rw [StateT.run_bind, h]
  rfl

theorem value_toElement [Der α] {a : α} (h : Readable a) (hf : (toElement a).Fits) (r : List Element) :
    value.run (toElement a :: r) = some (a, r) := by
  rw [run_value, h hf]
  rfl

/-- A readable field is read, and what follows it is read from the elements after it. -/
theorem run_value_toElement [Der α] {a : α} (h : Readable a) (hf : (toElement a).Fits)
    {f : α → Fields β} {r : List Element} : (value >>= f).run (toElement a :: r) = (f a).run r :=
  run_bind_of_run (value_toElement h hf r)

theorem nextIf_cons (accept : Tag → Bool) (e : Element) (r : List Element) :
    (nextIf accept).run (e :: r) = if accept e.tag then some (some e, r) else some (none, e :: r) := rfl

theorem nextIf_nil (accept : Tag → Bool) : (nextIf accept).run [] = some (none, []) := rfl

/-- The first element, if any, does not have a context-specific tag with a number up to `n`. -/
def Beyond (n : Nat) (es : List Element) : Prop :=
  ∀ e ∈ es.head?, isBelow n e.tag = false ∧ isNumber n e.tag = false

@[simp] theorem beyond_nil (n : Nat) : Beyond n [] := by
  intro e he
  cases he

theorem beyond_cons {n : Nat} {e : Element} {r : List Element} :
    Beyond n (e :: r) ↔ isBelow n e.tag = false ∧ isNumber n e.tag = false := by
  simp [Beyond]

theorem numbered_beyond {n : Nat} {es : List Element} (h : Beyond n es) :
    (numbered n).run es = some (none, es) := by
  cases es with
  | nil => rfl
  | cons e r =>
    obtain ⟨hb, hn⟩ := beyond_cons.mp h
    change (nextIf (isNumber n)).run ((e :: r).dropWhile fun e => isBelow n e.tag) = _
    simp [hb, nextIf_cons, hn]

theorem contextNumber?_contextOf (c : Bool) {n : Nat} (hn : n < 31) :
    (Tag.contextOf c n).contextNumber? = some n := by
  simp [Tag.contextOf, Tag.contextNumber?, Nat.mod_eq_of_lt hn]

theorem numbered_contextOf {n : Nat} (hn : n < 31) {e : Element} {c : Bool}
    (he : e.tag = Tag.contextOf c n) (r : List Element) :
    (numbered n).run (e :: r) = some (some e, r) := by
  have hb : isBelow n e.tag = false := by simp [isBelow, he, contextNumber?_contextOf c hn]
  have hi : isNumber n e.tag = true := by simp [isNumber, he, contextNumber?_contextOf c hn]
  change (nextIf (isNumber n)).run ((e :: r).dropWhile fun e => isBelow n e.tag) = _
  simp [hb, nextIf_cons, hi]

theorem explicit?_beyond [Der α] {n : Nat} {es : List Element} (h : Beyond n es) :
    (explicit? n : Fields (Option α)).run es = some (none, es) := by
  unfold explicit?
  rw [StateT.run_bind, numbered_beyond h]
  rfl

theorem implicit?_beyond [Der α] {n : Nat} {t : Tag} {es : List Element} (h : Beyond n es) :
    (implicit? n t : Fields (Option α)).run es = some (none, es) := by
  unfold implicit?
  rw [StateT.run_bind, numbered_beyond h]
  rfl

theorem explicit?_wrap [Der α] {n : Nat} (hn : n < 31) {a : α} (h : Readable a)
    (hf : ((toElement a).wrap n).Fits) (r : List Element) :
    (explicit? n).run ((toElement a).wrap n :: r) = some (some a, r) := by
  have hc : (decode? ((toElement a).wrap n).content : Option α) = some a :=
    h.decode? (fits_of_length_encode hf)
  unfold explicit?
  rw [StateT.run_bind, numbered_contextOf hn rfl]
  have hk : ((toElement a).wrap n).tag.isConstructed = true := rfl
  simp [hk, hc]

theorem implicit?_retag [Der α] {n : Nat} (hn : n < 31) {a : α} {t : Tag} (ht : (toElement a).tag = t)
    (h : Readable a) (hf : (toElement a).Fits) (r : List Element) :
    (implicit? n t).run ((toElement a).retag n :: r) = some (some a, r) := by
  have he : ({ (toElement a).retag n with tag := t } : Element) = toElement a := by
    cases ha : toElement a
    rw [ha] at ht
    cases ht
    rfl
  have hk : ((toElement a).retag n).tag.isConstructed = t.isConstructed := by
    rw [← ht]
    rfl
  unfold implicit?
  rw [StateT.run_bind, numbered_contextOf hn rfl]
  simp [hk, he, h hf]

/-- A field under an outer tag is read, present or not, if nothing after it can be taken for it. -/
theorem explicit?_optionalField [Der α] {n : Nat} (hn : n < 31) {o : Option α} {r : List Element}
    (h : ∀ a ∈ o, Readable a) (hf : ∀ e ∈ optionalField (o.map fun a => (toElement a).wrap n), e.Fits)
    (hr : Beyond n r) :
    (explicit? n).run (optionalField (o.map fun a => (toElement a).wrap n) ++ r) = some (o, r) := by
  cases o with
  | none => exact explicit?_beyond hr
  | some a => exact explicit?_wrap hn (h a rfl) (hf _ (by simp [optionalField])) r

/-- A field with a replaced tag is read, present or not, if nothing after it can be taken for it. -/
theorem implicit?_optionalField [Der α] {n : Nat} (hn : n < 31) {t : Tag} {o : Option α}
    {r : List Element} (ht : ∀ a : α, (toElement a).tag = t) (h : ∀ a ∈ o, Readable a)
    (hf : ∀ e ∈ optionalField (o.map fun a => (toElement a).retag n), e.Fits) (hr : Beyond n r) :
    (implicit? n t).run (optionalField (o.map fun a => (toElement a).retag n) ++ r) = some (o, r) := by
  cases o with
  | none => exact implicit?_beyond hr
  | some a =>
    have hfits : ((toElement a).retag n).Fits := hf _ (by simp [optionalField])
    exact implicit?_retag hn (ht a) (h a rfl) hfits r

theorem ofSequence?_sequence {f : Fields α} {es : List Element} (h : (sequence es).Fits) :
    f.ofSequence? (sequence es) = f.readAll es := by
  unfold ofSequence? sequence
  rw [Element.elements?_ofElements h]
  rfl

theorem readAll_eq_some {f : Fields α} {es : List Element} {a : α} :
    f.readAll es = some a ↔ f.run es = some (a, []) := by
  unfold readAll
  split
  case h_1 b h => simp [h]
  case h_2 h =>
    constructor
    · intro h'
      cases h'
    · intro h'
      exact absurd h' (h a)

end Fields

/-- A value that is written as a sequence is readable if the reader of its fields reads it from them. -/
theorem readable_sequence [Der α] {a : α} (es : List Element) {f : Fields α}
    (he : toElement a = sequence es) (hread : ∀ e, ofElement? e = f.ofSequence? e)
    (h : (∀ e ∈ es, e.Fits) → f.run es = some (a, [])) : Readable a := by
  intro hf
  rw [he] at hf ⊢
  rw [hread, Fields.ofSequence?_sequence hf]
  exact Fields.readAll_eq_some.mpr (h fun _ => Element.fits_of_mem_join hf)

/-- A value that is written as a sequence of two readable fields. -/
theorem readable_pair [Der α] [Der β] [Der γ] {f : α → β → γ} {a : α} {b : β}
    (he : toElement (f a b) = sequence [toElement a, toElement b])
    (hread : ∀ e, ofElement? e = Fields.ofSequence? (do return f (← Fields.value) (← Fields.value)) e)
    (ha : Readable a) (hb : Readable b) : Readable (f a b) := by
  refine readable_sequence _ he hread fun hs => ?_
  have hfirst := Fields.value_toElement ha (hs _ (by simp))
  have hsecond := Fields.value_toElement hb (hs _ (by simp))
  simp [hfirst, hsecond]

/-! ### Single values -/

@[simp] theorem readable_element (e : Element) : Readable e := fun _ => rfl

@[simp] theorem readable_octetString (s : OctetString) : Readable s := fun _ => rfl

@[simp] theorem readable_bitString (s : BitString) : Readable s := by
  intro _
  obtain ⟨unused, bytes, valid⟩ := s
  have hunused : (UInt8.ofNat unused).toNat = unused := by
    rw [UInt8.toNat_ofNat']
    exact Nat.mod_eq_of_lt (by omega)
  simpa [toElement, ofElement?, hunused, valid.1] using valid.2

theorem readable_oid {o : Oid} (h : Oid.read? o.content = some o) : Readable o := fun _ => h

theorem Oid.fits (o : Oid) : (toElement o).Fits := by
  have hvalid := o.valid
  simp only [isOidContent, Bool.and_eq_true, decide_eq_true_eq] at hvalid
  have hlength : o.content.length ≤ 39 := hvalid.1.1.2
  exact Nat.le_trans hlength (by decide)

@[simp] theorem readable_smallNumber {bound : Nat} (n : SmallNumber bound) : Readable n := by
  intro _
  obtain ⟨v, hv⟩ := n
  have hval : (UInt8.ofNat v).toNat = v := by
    rw [UInt8.toNat_ofNat']
    exact Nat.mod_eq_of_lt (by omega)
  simp [toElement, ofElement?, hval, hv]

theorem SmallNumber.length_encode {bound : Nat} (n : SmallNumber bound) :
    (toElement n).encode.length = 3 := rfl

end CertEnroll.Der
