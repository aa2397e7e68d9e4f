import CertEnroll.Proofs.Der.Structures
import Mathlib.Data.List.Forall2

/-!
# Proofs.Der.Origins — the parts of what was read were read themselves

Readers pass elements on to readers of parts, so whatever stands inside a value that was read was read
from an element of its own.  An identifier that was read is readable; and so is a set of attributes,
although it may have been read in another order than it is written in: the number of octets stays the same.
A certificate that was read, or that is readable, names its issuer and its number readably.
-/

namespace CertEnroll.Der

open X509 (Attribute Attributes)

variable {α β : Type}

/-- The value was read from an element that fits. -/
def Stems [Der α] (a : α) : Prop := ∃ e : Element, e.Fits ∧ ofElement? e = some a

/-! ### Sets -/

theorem forall₂_of_mapM {f : α → Option β} {l : List α} {l' : List β} (h : l.mapM f = some l') :
    List.Forall₂ (fun a b => f a = some b) l l' := by
  induction l generalizing l' with
  | nil =>
    cases h
    exact .nil
  | cons a l ih =>
    simp only [List.mapM_cons, Option.bind_eq_bind, Option.bind_eq_some_iff] at h
    obtain ⟨b, hb, bs, hbs, h⟩ := h
    cases h
    exact .cons hb (ih hbs)

theorem exists_mem_of_forall₂ {R : α → β → Prop} {l : List α} {l' : List β} (h : List.Forall₂ R l l')
    {b : β} (hb : b ∈ l') : ∃ a ∈ l, R a b := by
  induction h with
  | nil => cases hb
  | cons hab _ ih =>
    cases hb with
    | head => exact ⟨_, List.mem_cons_self, hab⟩
    | tail _ hb =>
      obtain ⟨a, ha, hr⟩ := ih hb
      exact ⟨a, List.mem_cons_of_mem _ ha, hr⟩

/-- A set is read from the elements of its members, in some order. -/
theorem SetOf.ofElement?_eq_some [Member α] {e : Element} {s : SetOf α} (h : ofElement? e = some s) :
    ∃ es l, e = .ofElements .set es ∧ (∀ f ∈ es, f.Fits) ∧
      List.Forall₂ (fun f a => ofElement? f = some a) es l ∧ s.toList.Perm l := by
  change (Element.elements? .set e).bind _ = some s at h
  obtain ⟨es, hes, h⟩ := Option.bind_eq_some_iff.mp h
  obtain ⟨l, hl, h⟩ := Option.bind_eq_some_iff.mp h
  obtain ⟨he, hfits⟩ := Element.elements?_eq_some.mp hes
  exact ⟨es, l, he, hfits, forall₂_of_mapM hl, perm_of_ofList? h⟩

theorem Stems.mem [Member α] {s : SetOf α} (h : Stems s) {a : α} (ha : a ∈ s.toList) : Stems a := by
  obtain ⟨e, -, he⟩ := h
  obtain ⟨es, l, -, hfits, hl, hp⟩ := SetOf.ofElement?_eq_some he
  obtain ⟨f, hf, hfa⟩ := exists_mem_of_forall₂ hl (hp.mem_iff.mp ha)
  exact ⟨f, hfits f hf, hfa⟩

/-- If members are written with as many octets as they were read from, so are sets of them. -/
theorem SetOf.length_toElement [Member α] {e : Element} {s : SetOf α}
    (hα : ∀ (f : Element) (a : α), ofElement? f = some a →
      (toElement a).encode.length = f.encode.length) (h : ofElement? e = some s) :
    (toElement s).content.length = e.content.length := by
  obtain ⟨es, l, rfl, -, hl, hp⟩ := SetOf.ofElement?_eq_some h
  have hsum (fs : List Element) : (Element.join fs).length = (fs.map fun f => f.encode.length).sum := by
    induction fs with
    | nil => rfl
    | cons f fs ih => simp [ih]
  have hsame : (l.map toElement).map (fun f => f.encode.length) = es.map fun f => f.encode.length := by
    clear h hp
    induction hl with
    | nil => rfl
    | cons hfa _ ih => rw [List.map_cons, List.map_cons, List.map_cons, ih, hα _ _ hfa]
  have hperm := (hp.map toElement).map fun f : Element => f.encode.length
  change (Element.join (s.toList.map toElement)).length = (Element.join es).length
  rw [hsum, hsum, hperm.sum_nat, hsame]

/-! ### Identifiers and attributes -/

theorem ofElement?_oid {e : Element} {o : Oid} (h : ofElement? e = some o) :
    e = toElement o ∧ Readable o := by
  have hread : e.tag = .objectIdentifier ∧ Oid.read? e.content = some o := by
    change (if e.tag = .objectIdentifier then Oid.read? e.content else none) = some o at h
    split at h
    case isTrue ht => exact ⟨ht, h⟩
    case isFalse => cases h
  obtain ⟨ht, hr⟩ := hread
  have hcontent : e.content = o.content := by
    unfold Oid.read? Oid.ofContent? at hr
    split at hr
    · split at hr
      · cases hr
        rfl
      · cases hr
    · cases hr
  refine ⟨?_, fun _ => ?_⟩
  · obtain ⟨tag, content⟩ := e
    cases ht
    cases hcontent
    rfl
  · rw [hcontent] at hr
    exact hr

/-! ### Fields -/

theorem Fields.exists_of_ofSequence? {f : Fields α} {e : Element} {a : α}
    (h : f.ofSequence? e = some a) :
    ∃ es, e = sequence es ∧ (∀ x ∈ es, x.Fits) ∧ f.run es = some (a, []) := by
  obtain ⟨es, hes, h⟩ := Option.bind_eq_some_iff.mp h
  obtain ⟨he, hfits⟩ := Element.elements?_eq_some.mp hes
  exact ⟨es, he, hfits, Fields.readAll_eq_some.mp h⟩

/-- A field that was read is the first element left, and what follows was read from the rest. -/
theorem Fields.exists_of_run_value [Der α] {f : α → Fields β} {es : List Element} {x : β × List Element}
    (h : (value >>= f).run es = some x) :
    ∃ e r a, es = e :: r ∧ ofElement? e = some a ∧ (f a).run r = some x := by
  cases es with
  | nil => cases h
  | cons e r =>
    obtain ⟨a, ha, h⟩ := run_value_bind.mp h
    exact ⟨e, r, a, rfl, ha, h⟩

/-- What is read under a number, if anything, is one of the elements left. -/
theorem Fields.exists_of_run_numbered {n : Nat} {f : Option Element → Fields β} {es : List Element}
    {x : β × List Element} (h : (numbered n >>= f).run es = some x) :
    ∃ o r, (∀ e ∈ o, e ∈ es) ∧ r ⊆ es ∧ (f o).run r = some x := by
  change ((nextIf (isNumber n)).run (es.dropWhile fun e => isBelow n e.tag)).bind _ = some x at h
  have hsub : (es.dropWhile fun e => isBelow n e.tag) ⊆ es := List.dropWhile_subset _
  cases hes : es.dropWhile fun e => isBelow n e.tag with
  | nil =>
    rw [hes] at h
    exact ⟨none, [], by simp, by simp, h⟩
  | cons e r =>
    rw [hes] at h hsub
    rw [nextIf_cons] at h
    split at h
    · exact ⟨some e, r, by simp [hsub (List.mem_cons_self)], fun y hy => hsub (List.mem_cons_of_mem _ hy), h⟩
    · exact ⟨none, e :: r, by simp, hsub, h⟩

/-- A value that is read under a replaced tag was read from an element with as many octets of content. -/
theorem Fields.exists_of_run_implicit? [Der α] {n : Nat} {t : Tag} {f : Option α → Fields β}
    {es : List Element} {x : β × List Element} (hfits : ∀ e ∈ es, e.Fits)
    (h : (implicit? n t >>= f).run es = some x) :
    ∃ o r, (∀ a ∈ o, Stems a) ∧ r ⊆ es ∧ (f o).run r = some x := by
  unfold implicit? at h
  rw [bind_assoc] at h
  obtain ⟨o, r, hmem, hsub, h⟩ := exists_of_run_numbered h
  cases o with
  | none => exact ⟨none, r, by simp, hsub, h⟩
  | some e =>
    dsimp only at h
    split at h
    case isFalse => cases h
    case isTrue =>
      cases ha : (ofElement? ({ e with tag := t } : Element) : Option α) with
      | none =>
        rw [ha] at h
        cases h
      | some a =>
        rw [ha] at h
        have hfit : ({ e with tag := t } : Element).Fits := hfits e (hmem e rfl)
        have hstems : Stems a := ⟨_, hfit, ha⟩
        exact ⟨some a, r, by simpa using hstems, hsub, h⟩

/-- A value that is read under an outer tag was read from the element inside. -/
theorem Fields.exists_of_run_explicit? [Der α] {n : Nat} {f : Option α → Fields β} {es : List Element}
    {x : β × List Element} (h : (explicit? n >>= f).run es = some x) :
    ∃ o r, (∀ a ∈ o, Stems a) ∧ r ⊆ es ∧ (f o).run r = some x := by
  unfold explicit? at h
  rw [bind_assoc] at h
  obtain ⟨o, r, -, hsub, h⟩ := exists_of_run_numbered h
  cases o with
  | none => exact ⟨none, r, by simp, hsub, h⟩
  | some e =>
    dsimp only at h
    split at h
    case isFalse => cases h
    case isTrue =>
      cases ha : (Der.decode? e.content : Option α) with
      | none =>
        rw [ha] at h
        cases h
      | some a =>
        rw [ha] at h
        obtain ⟨inner, hinner, hread⟩ := Option.bind_eq_some_iff.mp ha
        have hstems : Stems a := ⟨inner, (Element.ofBytes?_eq_some.mp hinner).2, hread⟩
        exact ⟨some a, r, by simpa using hstems, hsub, h⟩

/-! ### Attributes -/

theorem ofElement?_attribute {e : Element} {a : Attribute} (h : ofElement? e = some a) :
    Readable a.type ∧ (toElement a).encode.length = e.encode.length := by
  obtain ⟨es, rfl, hfits, h⟩ := Fields.exists_of_ofSequence? h
  obtain ⟨e₁, r₁, type, rfl, htype, h⟩ := Fields.exists_of_run_value h
  obtain ⟨e₂, r₂, values, rfl, hvalues, h⟩ := Fields.exists_of_run_value h
  cases h
  obtain ⟨rfl, hreadable⟩ := ofElement?_oid htype
  have hlength := SetOf.length_toElement (fun f g hg => by cases hg; rfl) hvalues
  refine ⟨hreadable, ?_⟩
  have hcontent : (toElement values).encode.length = e₂.encode.length := Element.length_encode_congr hlength
  have hjoin : (toElement (⟨type, values⟩ : Attribute)).content.length =
      (sequence [toElement type, e₂]).content.length := by
    change (Element.join [toElement type, toElement values]).length =
      (Element.join [toElement type, e₂]).length
    simp [hcontent]
  exact Element.length_encode_congr hjoin

/-- Attributes that were read are readable, and not too long. -/
theorem Stems.attributes {as : Attributes} (h : Stems as) : Readable as ∧ (toElement as).Fits := by
  refine ⟨Attributes.readable fun a ha => ?_, ?_⟩
  · obtain ⟨f, -, hf⟩ := h.mem ha
    exact (ofElement?_attribute hf).1
  · obtain ⟨e, hfits, he⟩ := h
    have hlength := SetOf.length_toElement (fun f a hf => (ofElement?_attribute hf).2) he
    unfold Element.Fits at hfits ⊢
    rwa [hlength]

/-- Attributes that were read are told apart by their octets. -/
theorem attributes_encode_inj {as bs : Attributes} (ha : Stems as) (hb : Stems bs)
    (h : encode as = encode bs) : as = bs :=
  ha.attributes.1.encode_inj hb.attributes.1 ha.attributes.2 hb.attributes.2 h

/-! ### Signed data -/

open Cms (ContentInfo SignedContent SignedData SignerInfo)

theorem Stems.fits {e : Element} (h : Stems e) : e.Fits := by
  obtain ⟨f, hfits, hf⟩ := h
  cases hf
  exact hfits

theorem Stems.content {c : ContentInfo} (h : Stems c) : c.content.Fits := by
  obtain ⟨e, -, he⟩ := h
  obtain ⟨es, -, -, h⟩ := Fields.exists_of_ofSequence? he
  obtain ⟨_, r, type, -, -, h⟩ := Fields.exists_of_run_value h
  simp only [Fields.required, bind_assoc] at h
  obtain ⟨o, r, hstems, -, h⟩ := Fields.exists_of_run_explicit? h
  cases o with
  | none => cases h
  | some content =>
    cases h
    exact (hstems content rfl).fits

theorem Stems.contentType {c : SignedContent} (h : Stems c) : Readable c.contentType := by
  obtain ⟨e, -, he⟩ := h
  obtain ⟨es, -, -, h⟩ := Fields.exists_of_ofSequence? he
  obtain ⟨e, r, type, -, htype, h⟩ := Fields.exists_of_run_value h
  obtain ⟨content, -, h⟩ := Option.bind_eq_some_iff.mp h
  have hc := congrArg Prod.fst (Option.some.inj h)
  cases hc
  exact (ofElement?_oid htype).2

theorem Stems.signedAttributes {s : SignerInfo} (h : Stems s) : ∀ as ∈ s.signedAttributes, Stems as := by
  obtain ⟨e, -, he⟩ := h
  obtain ⟨es, -, hfits, h⟩ := Fields.exists_of_ofSequence? he
  obtain ⟨_, _, version, rfl, -, h⟩ := Fields.exists_of_run_value h
  obtain ⟨_, _, signer, rfl, -, h⟩ := Fields.exists_of_run_value h
  obtain ⟨_, r, digest, rfl, -, h⟩ := Fields.exists_of_run_value h
  obtain ⟨o, r, hstems, -, h⟩ := Fields.exists_of_run_implicit? (fun e he => hfits e (by simp [he])) h
  simp only [StateT.run_bind, Option.bind_eq_bind, Option.bind_eq_some_iff] at h
  obtain ⟨_, -, _, -, _, -, h⟩ := h
  have hs := congrArg Prod.fst (Option.some.inj h)
  cases hs
  exact hstems

theorem Stems.signedData {d : SignedData} (h : Stems d) :
    Stems d.content ∧ (∀ s ∈ d.certificates, Stems s) ∧ (∀ s ∈ d.revocations, Stems s) ∧
      Stems d.signers := by
  obtain ⟨e, -, he⟩ := h
  obtain ⟨es, -, hfits, h⟩ := Fields.exists_of_ofSequence? he
  obtain ⟨_, _, version, rfl, -, h⟩ := Fields.exists_of_run_value h
  obtain ⟨_, _, digests, rfl, -, h⟩ := Fields.exists_of_run_value h
  obtain ⟨e, r, content, rfl, hcontent, h⟩ := Fields.exists_of_run_value h
  have hr : ∀ e ∈ r, e.Fits := fun e he => hfits e (by simp [he])
  obtain ⟨certificates, r', hcertificates, hsub, h⟩ := Fields.exists_of_run_implicit? hr h
  have hr' : ∀ e ∈ r', e.Fits := fun e he => hr e (hsub he)
  obtain ⟨revocations, r'', hrevocations, hsub', h⟩ := Fields.exists_of_run_implicit? hr' h
  obtain ⟨e', _, signers, rfl, hsigners, h⟩ := Fields.exists_of_run_value h
  cases h
  exact ⟨⟨e, hfits e (by simp), hcontent⟩, hcertificates, hrevocations,
    ⟨e', hr' e' (hsub' (by simp)), hsigners⟩⟩

theorem Stems.content_and_signers {d : SignedData} (h : Stems d) : Stems d.content ∧ Stems d.signers :=
  ⟨h.signedData.1, h.signedData.2.2.2⟩

/-! ### Names of certificates -/

open Cms (CertificateChoice RevocationChoice)
open X509 (Certificate CertificateBody IssuerAndSerial Name NameAttribute RevocationList SerialNumber)

theorem type_of_ofElement?_nameAttribute {e : Element} {a : NameAttribute} (h : ofElement? e = some a) :
    Readable a.type := by
  obtain ⟨es, -, -, h⟩ := Fields.exists_of_ofSequence? h
  obtain ⟨_, _, type, -, htype, h⟩ := Fields.exists_of_run_value h
  obtain ⟨_, _, value, -, -, h⟩ := Fields.exists_of_run_value h
  cases h
  exact (ofElement?_oid htype).2

theorem ofElement?_name {e : Element} {n : Name} (h : ofElement? e = some n) : Readable n := by
  change (ofElement? e).map Name.mk = some n at h
  obtain ⟨parts, hparts, rfl⟩ := Option.map_eq_some_iff.mp h
  obtain ⟨es, hes, hparts⟩ := Option.bind_eq_some_iff.mp hparts
  obtain ⟨-, hfits⟩ := Element.elements?_eq_some.mp hes
  refine Name.readable fun s hs a ha => ?_
  obtain ⟨f, hf, hfs⟩ := exists_mem_of_forall₂ (forall₂_of_mapM hparts) hs
  have hstems : Stems s := ⟨f, hfits f hf, hfs⟩
  obtain ⟨g, -, hg⟩ := hstems.mem ha
  exact type_of_ofElement?_nameAttribute hg

theorem ofElement?_serialNumber {e : Element} {n : SerialNumber} (h : ofElement? e = some n) :
    Readable n := by
  change (if e.tag = .integer ∧ SerialNumber.isCanonical e.content = true ∧
    e.content.length ≤ SerialNumber.maxRead then some (⟨e.content⟩ : SerialNumber) else none) = some n at h
  split at h
  case isFalse => cases h
  case isTrue hread =>
    cases h
    exact fun _ => if_pos ⟨rfl, hread.2⟩

/-- A certificate that was read is named readably. -/
theorem Stems.certificate_id {c : Certificate} (h : Stems c) : Readable c.id := by
  obtain ⟨e, -, he⟩ := h
  obtain ⟨es, -, -, h⟩ := Fields.exists_of_ofSequence? he
  obtain ⟨_, _, body, -, hbody, h⟩ := Fields.exists_of_run_value h
  obtain ⟨_, _, algorithm, -, -, h⟩ := Fields.exists_of_run_value h
  obtain ⟨_, _, signature, -, -, h⟩ := Fields.exists_of_run_value h
  cases h
  obtain ⟨es, -, -, h⟩ := Fields.exists_of_ofSequence? hbody
  obtain ⟨version, _, -, -, h⟩ := Fields.exists_of_run_explicit? h
  obtain ⟨_, _, serial, -, hserial, h⟩ := Fields.exists_of_run_value h
  obtain ⟨_, _, signature, -, -, h⟩ := Fields.exists_of_run_value h
  obtain ⟨_, _, issuer, -, hissuer, h⟩ := Fields.exists_of_run_value h
  have hsame : issuer = body.issuer ∧ serial = body.serial := by
    simp only [StateT.run_bind, Option.bind_eq_bind, Option.bind_eq_some_iff] at h
    obtain ⟨_, -, _, -, _, -, _, -, _, -, _, -, h⟩ := h
    have hbody := congrArg Prod.fst (Option.some.inj h)
    exact ⟨congrArg CertificateBody.issuer hbody, congrArg CertificateBody.serial hbody⟩
  obtain ⟨rfl, rfl⟩ := hsame
  exact IssuerAndSerial.readable (ofElement?_name hissuer) (ofElement?_serialNumber hserial)

theorem Stems.certificate {c : Certificate} (h : Stems (CertificateChoice.certificate c)) : Stems c := by
  obtain ⟨e, hfits, he⟩ := h
  refine ⟨e, hfits, ?_⟩
  unfold ofElement? Member.toDer Cms.instMemberCertificateChoice at he
  dsimp only at he
  split at he
  · obtain ⟨c', hc', hsame⟩ := Option.map_eq_some_iff.mp he
    cases hsame
    exact hc'
  · obtain ⟨inner, -, he⟩ := Option.bind_eq_some_iff.mp he
    obtain ⟨es, -, -, he⟩ := Fields.exists_of_ofSequence? he
    obtain ⟨_, r, format, -, -, he⟩ := Fields.exists_of_run_value he
    cases r with
    | nil => cases he
    | cons e r => cases he
  · cases he

theorem Stems.revocationList {l : RevocationList} (h : Stems (RevocationChoice.list l)) : Stems l := by
  obtain ⟨e, hfits, he⟩ := h
  refine ⟨e, hfits, ?_⟩
  unfold ofElement? Member.toDer Cms.instMemberRevocationChoice at he
  dsimp only at he
  split at he
  · obtain ⟨l', hl', hsame⟩ := Option.map_eq_some_iff.mp he
    cases hsame
    exact hl'
  · obtain ⟨es, -, -, he⟩ := Fields.exists_of_ofSequence? he
    obtain ⟨_, r, format, -, -, he⟩ := Fields.exists_of_run_value he
    cases r with
    | nil => cases he
    | cons e r => cases he
  · cases he

end CertEnroll.Der

namespace CertEnroll.X509

/-- A readable certificate names itself readably. -/
theorem Certificate.readable_id {c : Certificate} (h : Der.Readable c) (hf : (Der.toElement c).Fits) :
    Der.Readable c.id := Der.Stems.certificate_id ⟨_, hf, h hf⟩

end CertEnroll.X509
