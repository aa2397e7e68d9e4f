import CertEnroll.Proofs.Der.StableValues
import CertEnroll.Proofs.Payloads
import CertEnroll.Proofs.RoundTrip

/-!
# Proofs.StoreRoundTrip — stores travel without loss and without repetition

A store has a document exactly if nothing in it occurs twice and the document is not too long, which does
not depend on the order of the lists.  From the document the store comes back with its lists in ascending
order.  A store that was read is in this order already, whatever else its document held, so that it comes
back as it is, if there is room for a document of its own.
-/

namespace CertEnroll

open Cms (CertificateChoice ContentInfo RevocationChoice SignedContent SignedData Version)
open Der (Element Member Readable SetOf Stable Stems ofElement? optionalField orderKey precedes sequence
  toElement)
open X509 (Certificate RevocationList)

/-! ### Lists as sets -/

namespace CertStore

/-- What is found in a list and put back is part of the list, in its order. -/
theorem map_filterMap_sublist {α β : Type} {f : α → β} {g : β → Option α} (hg : ∀ b, ∀ a ∈ g b, f a = b)
    (m : List β) : ((m.filterMap g).map f).Sublist m := by
  induction m with
  | nil => exact .slnil
  | cons b m ih =>
    cases hb : g b with
    | none =>
      rw [List.filterMap_cons_none hb]
      exact ih.cons b
    | some a =>
      rw [List.filterMap_cons_some hb, List.map_cons, hg b a hb]
      exact ih.cons_cons b

section Lists

variable {α β : Type} [Der α] [Member β] {f : α → β} {g : β → Option α} {l : List α} {o : Option (SetOf β)}

/-- The members of a list, if there are any, in the order of the list and under a number. -/
def membersField (number : Nat) (l : List α) : Option Element :=
  if l.isEmpty then none else some ((Element.ofElements .set (l.map toElement)).retag number)

theorem exists_setOf_iff {m : List β} : (∃ o, setOf m = .ok o) ↔ ∃ s, SetOf.ofList? m = some s := by
  cases m with
  | nil => exact ⟨fun _ => ⟨.empty, SetOf.ofList?_toList .empty⟩, fun _ => ⟨none, rfl⟩⟩
  | cons x m =>
    constructor
    · rintro ⟨o, h⟩
      obtain ⟨s, hs, -⟩ := Result.bind_eq_ok.mp h
      exact ⟨s, Result.ofOption_eq_ok.mp hs⟩
    · rintro ⟨s, hs⟩
      exact ⟨some s, Result.bind_eq_ok.mpr ⟨s, Result.ofOption_eq_ok.mpr hs, rfl⟩⟩

/-- Values that are read back from what they are written as make up a set exactly if they are different. -/
theorem exists_setOf_map_iff (hrepeats : ∀ b : β, Member.repeats b = false)
    (hwrite : ∀ a, toElement (f a) = toElement a) (hread : ∀ a ∈ l, Readable a)
    (hfits : ∀ a ∈ l, (toElement a).Fits) : (∃ o, setOf (l.map f) = .ok o) ↔ l.Nodup := by
  have hmembers : ∀ b ∈ l.map f, (toElement b).Fits := by
    rintro b hb
    obtain ⟨a, ha, rfl⟩ := List.mem_map.mp hb
    rw [hwrite]
    exact hfits a ha
  rw [exists_setOf_iff, SetOf.exists_ofList?_iff hrepeats, List.map_map]
  refine ⟨fun h => h.1.of_map _, fun h => ⟨h.map_on fun a ha b hb hkey => ?_, fun _ => hmembers⟩⟩
  have helement : toElement a = toElement b := by
    rw [← hwrite a, ← hwrite b]
    exact SetOf.toElement_eq_of_orderKey hkey
  exact (hread a ha).encode_inj (hread b hb) (hfits a ha) (hfits b hb) (congrArg Element.encode helement)

/-! ### Lengths of lists -/

theorem map_toElement_map (hwrite : ∀ a, toElement (f a) = toElement a) (l : List α) :
    (l.map f).map toElement = l.map toElement := by
  rw [List.map_map]
  exact List.map_congr_left fun a _ => hwrite a

theorem length_join_optionalField_some (e : Element) :
    (Element.join (optionalField (some e))).length = e.encode.length :=
  congrArg List.length (Element.join_singleton e)

theorem length_membersField_cons (number : Nat) (a : α) (l : List α) :
    (Element.join (optionalField (membersField number (a :: l)))).length =
      ((Element.ofElements .set ((a :: l).map toElement)).retag number).encode.length :=
  length_join_optionalField_some _

/-- Putting a list in order does not change the length of what is written. -/
theorem length_membersField (number : Nat) (hwrite : ∀ a, toElement (f a) = toElement a)
    (h : setOf (l.map f) = .ok o) :
    (Element.join (optionalField (o.map fun s => (toElement s).retag number))).length =
      (Element.join (optionalField (membersField number l))).length := by
  cases l with
  | nil =>
    cases h
    rfl
  | cons a l =>
    obtain ⟨s, hs, h⟩ := Result.bind_eq_ok.mp h
    cases h
    have hperm := SetOf.perm_of_ofList? (Result.ofOption_eq_ok.mp hs)
    have hlength : (Element.join (s.toList.map toElement)).length =
        (Element.join ((a :: l).map toElement)).length := by
      rw [← map_toElement_map hwrite]
      exact ((hperm.map toElement).flatMap_right _).length_eq
    rw [length_membersField_cons, Option.map_some, length_join_optionalField_some]
    exact Element.length_encode_congr hlength

/-- What is found in a set takes no more octets than the set. -/
theorem length_membersField_le (number : Nat) (hwrite : ∀ a, toElement (f a) = toElement a)
    (hg : ∀ b, ∀ a ∈ g b, f a = b) :
    (Element.join (optionalField (membersField number (((o.map SetOf.toList).getD []).filterMap g)))).length ≤
      (Element.join (optionalField (o.map fun s => (toElement s).retag number))).length := by
  have hsublist := map_filterMap_sublist hg ((o.map SetOf.toList).getD [])
  cases hfound : ((o.map SetOf.toList).getD []).filterMap g with
  | nil => exact Nat.zero_le _
  | cons a l =>
    rw [hfound] at hsublist
    cases o with
    | none => cases hfound
    | some s =>
      have hmembers : ((a :: l).map toElement).Sublist (s.toList.map toElement) := by
        have himages := hsublist.map (toElement : β → Element)
        rwa [map_toElement_map hwrite] at himages
      have hlength := (hmembers.flatMap Element.encode).length_le
      rw [length_membersField_cons, Option.map_some, length_join_optionalField_some]
      exact Element.length_encode_mono hlength

theorem length_encode_le_membersField (number : Nat) {a : α} (ha : a ∈ l) :
    (toElement a).encode.length ≤ (Element.join (optionalField (membersField number l))).length := by
  cases l with
  | nil => cases ha
  | cons a' l =>
    have hmember : (toElement a).encode.length ≤ (Element.join ((a' :: l).map toElement)).length :=
      Element.length_encode_le_join (List.mem_map_of_mem ha)
    have hfield := ((Element.ofElements .set ((a' :: l).map toElement)).retag number).length_content_lt_encode
    rw [length_membersField_cons]
    exact Nat.le_trans hmember (Nat.le_of_lt hfield)

end Lists

end CertStore

/-! ### Lengths of documents -/

/-- Some octets more in the content of a document make three headers longer. -/
theorem Cms.ContentInfo.length_encode_le_add {t : Der.Oid} {e f : Element} {k : Nat}
    (hf : (toElement (⟨t, f⟩ : ContentInfo)).Fits) (hk : k ≤ 56) (h : e.content.length ≤ f.content.length + k) :
    (Der.encode (⟨t, e⟩ : ContentInfo)).length ≤ (Der.encode (⟨t, f⟩ : ContentInfo)).length + (k + 12) := by
  have hinner := Element.length_encode_le_add (ContentInfo.fits_content hf) (by omega) h
  have hjoin : (Element.join [toElement t, f.wrap 0]).length ≤ Der.maxLength := hf
  have hwrap : (f.wrap 0).Fits := Element.fits_of_mem_join hjoin (by simp)
  have hwrapped : (e.wrap 0).encode.length ≤ (f.wrap 0).encode.length + (k + 4 + 4) :=
    Element.length_encode_le_add hwrap (by omega) hinner
  refine Element.length_encode_le_add hf (k := k + 8) (by omega) ?_
  change (Element.join [toElement t, e.wrap 0]).length ≤ (Element.join [toElement t, f.wrap 0]).length + (k + 8)
  simp only [Element.join_cons, Element.join_nil, List.length_append]
  omega

namespace CertStore

variable {s s' : CertStore} {b : Bytes} {d : SignedData}

/-- What the document of a store holds, except that the lists are in the order that they have in the store. -/
def draft (s : CertStore) : Element :=
  sequence ([toElement Version.v1, .ofElements .set [], toElement (⟨Cms.dataType, none⟩ : SignedContent)] ++
    optionalField (membersField 0 s.certificates) ++ optionalField (membersField 1 s.revocations) ++
    [.ofElements .set []])

/-- The number of octets of the document of a store. -/
def documentLength (s : CertStore) : Nat :=
  (Der.encode (⟨Cms.signedDataType, s.draft⟩ : ContentInfo)).length

theorem toElement_certificate (c : Certificate) : toElement (CertificateChoice.certificate c) = toElement c := rfl

theorem toElement_list (l : RevocationList) : toElement (RevocationChoice.list l) = toElement l := rfl

theorem length_draft (s : CertStore) : s.draft.content.length =
    20 + (Element.join (optionalField (membersField 0 s.certificates))).length +
      (Element.join (optionalField (membersField 1 s.revocations))).length := by
  change (Element.join (_ ++ optionalField _ ++ optionalField _ ++ [_])).length = _
  have hfirst : (Element.join [toElement Version.v1, .ofElements .set [],
      toElement (⟨Cms.dataType, none⟩ : SignedContent)]).length = 18 := by decide
  have hlast : (Element.join [.ofElements .set []]).length = 2 := by decide
  simp only [Element.length_join_append, hfirst, hlast]
  omega

theorem length_content_signedData (d : SignedData) : (toElement d).content.length =
    (Element.join [toElement d.version, toElement d.digests, toElement d.content]).length +
      (Element.join (optionalField (d.certificates.map fun c => (toElement c).retag 0))).length +
      (Element.join (optionalField (d.revocations.map fun c => (toElement c).retag 1))).length +
      (toElement d.signers).encode.length := by
  change (Element.join (_ ++ optionalField _ ++ optionalField _ ++ [_])).length = _
  simp only [Element.length_join_append, Element.join_cons, Element.join_nil, List.append_nil]

theorem length_document (h : s.toSignedData = .ok d) :
    (Der.encode (⟨Cms.signedDataType, toElement d⟩ : ContentInfo)).length = s.documentLength := by
  obtain ⟨certificates, revocations, hc, hr, rfl⟩ := toSignedData_eq_ok h
  have hlength : (toElement (⟨.v1, .empty, ⟨Cms.dataType, none⟩, certificates, revocations, .empty⟩ :
      SignedData)).content.length = s.draft.content.length := by
    have hcertificates := length_membersField 0 toElement_certificate hc
    have hrevocations := length_membersField 1 toElement_list hr
    rw [length_content_signedData, length_draft, hcertificates, hrevocations]
    have hfirst : (Element.join [toElement Version.v1, toElement (SetOf.empty : SetOf X509.AlgorithmId),
        toElement (⟨Cms.dataType, none⟩ : SignedContent)]).length = 18 := by decide
    have hlast : (toElement (SetOf.empty : SetOf Cms.SignerInfo)).encode.length = 2 := by decide
    rw [hfirst, hlast]
    omega
  exact Nat.le_antisymm (ContentInfo.length_encode_mono _ (Nat.le_of_eq hlength))
    (ContentInfo.length_encode_mono _ (Nat.le_of_eq hlength.symm))

theorem write_eq_ok : s.write = .ok b ↔ ∃ d, s.toSignedData = .ok d ∧
    b = Der.encode (⟨Cms.signedDataType, toElement d⟩ : ContentInfo) ∧ s.documentLength ≤ Der.maxLength := by
  rw [write, Result.bind_eq_ok]
  refine exists_congr fun d => and_congr_right fun hd => ?_
  rw [Der.write_eq_ok, length_document hd]

theorem length_eq_of_write (h : s.write = .ok b) : b.length = s.documentLength := by
  obtain ⟨d, hd, rfl, -⟩ := write_eq_ok.mp h
  exact length_document hd

theorem length_content_draft_le (s : CertStore) : s.draft.content.length ≤ s.documentLength := by
  have hdraft := s.draft.length_content_lt_encode
  have hwrapped := (s.draft.wrap 0).length_content_lt_encode
  have hmember : (s.draft.wrap 0).encode.length ≤
      (Element.join [toElement Cms.signedDataType, s.draft.wrap 0]).length :=
    Element.length_encode_le_join (by simp)
  have hdocument := (toElement (⟨Cms.signedDataType, s.draft⟩ : ContentInfo)).length_content_lt_encode
  exact Nat.le_of_lt (hdraft.trans (hwrapped.trans (Nat.lt_of_le_of_lt hmember hdocument)))

/-- What is in a store is shorter than its document. -/
theorem fits_of_documentLength (h : s.documentLength ≤ Der.maxLength) :
    (∀ c ∈ s.certificates, (toElement c).Fits) ∧ ∀ l ∈ s.revocations, (toElement l).Fits := by
  have hdraft := s.length_content_draft_le
  rw [length_draft] at hdraft
  constructor
  · intro c hc
    have hmember := length_encode_le_membersField 0 hc
    exact Der.fits_of_length_encode (by omega)
  · intro l hl
    have hmember := length_encode_le_membersField 1 hl
    exact Der.fits_of_length_encode (by omega)

/-! ### Writing -/

/-- A store has a document exactly if nothing in it is repeated and its document is not too long. -/
theorem exists_write_iff (hs : s.Legible) : (∃ b, s.write = .ok b) ↔
    s.certificates.Nodup ∧ s.revocations.Nodup ∧ s.documentLength ≤ Der.maxLength := by
  by_cases hlength : s.documentLength ≤ Der.maxLength
  case neg =>
    constructor
    · rintro ⟨b, h⟩
      obtain ⟨-, -, -, hle⟩ := write_eq_ok.mp h
      exact absurd hle hlength
    · rintro ⟨-, -, hle⟩
      exact absurd hle hlength
  case pos =>
    obtain ⟨hcertificates, hrevocations⟩ := fits_of_documentLength hlength
    have hc := exists_setOf_map_iff (f := CertificateChoice.certificate) (fun _ => rfl) toElement_certificate
      hs.certificates hcertificates
    have hr := exists_setOf_map_iff (f := RevocationChoice.list) (fun _ => rfl) toElement_list
      hs.revocations hrevocations
    rw [← hc, ← hr]
    constructor
    · rintro ⟨b, h⟩
      obtain ⟨d, hd, -⟩ := write_eq_ok.mp h
      obtain ⟨certificates, revocations, hc, hr, -⟩ := toSignedData_eq_ok hd
      exact ⟨⟨_, hc⟩, ⟨_, hr⟩, hlength⟩
    · rintro ⟨⟨certificates, hc⟩, ⟨revocations, hr⟩, -⟩
      have hd : s.toSignedData = .ok ⟨.v1, .empty, ⟨Cms.dataType, none⟩, certificates, revocations, .empty⟩ :=
        Result.bind_eq_ok.mpr ⟨_, hc, Result.bind_eq_ok.mpr ⟨_, hr, rfl⟩⟩
      exact ⟨_, write_eq_ok.mpr ⟨_, hd, rfl, hlength⟩⟩

/-! ### Order -/

/-- The lists are in strictly ascending order of what is written for their members. -/
structure Ascending (s : CertStore) : Prop where
  certificates : s.certificates.Pairwise fun a b =>
    orderKey (CertificateChoice.certificate a) < orderKey (CertificateChoice.certificate b)
  revocations : s.revocations.Pairwise fun a b =>
    orderKey (RevocationChoice.list a) < orderKey (RevocationChoice.list b)

theorem pairwise_lt_of_precedes {α β : Type} [Member β] {f : α → β} {l : List α}
    (hrepeats : ∀ b : β, Member.repeats b = false) (h : (l.map f).Pairwise precedes) :
    l.Pairwise fun a b => orderKey (f a) < orderKey (f b) := by
  refine (List.pairwise_map.mp h).imp fun {a b} hab => hab.2.resolve_right fun hsame => ?_
  rw [hrepeats] at hsame
  cases hsame.1

theorem ascending_of_precedes (hc : (s.certificates.map CertificateChoice.certificate).Pairwise precedes)
    (hr : (s.revocations.map RevocationChoice.list).Pairwise precedes) : s.Ascending :=
  ⟨pairwise_lt_of_precedes (fun _ => rfl) hc, pairwise_lt_of_precedes (fun _ => rfl) hr⟩

theorem Ascending.nodup (h : s.Ascending) : s.certificates.Nodup ∧ s.revocations.Nodup := by
  refine ⟨h.certificates.imp ?_, h.revocations.imp ?_⟩ <;>
  · rintro a _ hlt rfl
    exact List.lt_irrefl _ hlt

/-- There is one way to put the lists of a store in order. -/
theorem Ascending.eq_of_perm (h : s.Ascending) (h' : s'.Ascending)
    (hc : s'.certificates.Perm s.certificates) (hr : s'.revocations.Perm s.revocations) : s' = s := by
  have hcertificates := hc.eq_of_pairwise (fun _ _ _ _ hab hba => absurd hba (List.lt_asymm hab))
    h'.certificates h.certificates
  have hrevocations := hr.eq_of_pairwise (fun _ _ _ _ hab hba => absurd hba (List.lt_asymm hab))
    h'.revocations h.revocations
  cases s
  cases s'
  cases hcertificates
  cases hrevocations
  rfl

theorem isEmpty_eq_of_perm (hc : s'.certificates.Perm s.certificates)
    (hr : s'.revocations.Perm s.revocations) : s'.isEmpty = s.isEmpty := by
  rw [isEmpty, isEmpty, hc.isEmpty_eq, hr.isEmpty_eq]

/-! ### Reading -/

theorem certificate_of_certificate? (x : CertificateChoice) :
    ∀ c ∈ certificate? x, CertificateChoice.certificate c = x := by
  cases x with
  | certificate _ => rintro _ ⟨⟩; rfl
  | other _ _ => rintro _ ⟨⟩

theorem list_of_revocation? (x : RevocationChoice) : ∀ l ∈ revocation? x, RevocationChoice.list l = x := by
  cases x with
  | list _ => rintro _ ⟨⟩; rfl
  | other _ _ => rintro _ ⟨⟩

section Sets

variable {α β : Type} [Member β] {f : α → β} {g : β → Option α} {o : Option (SetOf β)}

/-- What is found in a set is in its order. -/
theorem precedes_of_filterMap (hg : ∀ b, ∀ a ∈ g b, f a = b) :
    ((((o.map SetOf.toList).getD []).filterMap g).map f).Pairwise precedes := by
  refine List.Pairwise.sublist (map_filterMap_sublist hg _) ?_
  cases o with
  | none => exact .nil
  | some s => exact s.ascending

/-- What is found in a set that was read was read itself. -/
theorem stems_of_filterMap (hg : ∀ b, ∀ a ∈ g b, f a = b) (ho : ∀ s ∈ o, Stems s) {a : α}
    (ha : a ∈ ((o.map SetOf.toList).getD []).filterMap g) : Stems (f a) := by
  obtain ⟨x, hx, hxa⟩ := List.mem_filterMap.mp ha
  rw [hg x a hxa]
  cases o with
  | none => cases hx
  | some s => exact (ho s rfl).mem hx

end Sets

theorem ascending_ofSignedData (d : SignedData) : (ofSignedData d).Ascending :=
  ascending_of_precedes (precedes_of_filterMap certificate_of_certificate?)
    (precedes_of_filterMap list_of_revocation?)

theorem legible_ofSignedData (h : Stems d) : (ofSignedData d).Legible where
  certificates _ hc := (stems_of_filterMap certificate_of_certificate? h.signedData.2.1 hc).certificate.readable
  revocations _ hl :=
    (stems_of_filterMap list_of_revocation? h.signedData.2.2.1 hl).revocationList.readable

theorem length_draft_ofSignedData_le (d : SignedData) :
    (ofSignedData d).draft.content.length ≤ (toElement d).content.length + 14 := by
  have hcertificates := length_membersField_le (o := d.certificates) 0 toElement_certificate
    certificate_of_certificate?
  have hrevocations := length_membersField_le (o := d.revocations) 1 toElement_list list_of_revocation?
  have hdigests := (toElement d.digests).length_content_lt_encode
  have hcontent := (toElement d.content).length_content_lt_encode
  have hsigners := (toElement d.signers).length_content_lt_encode
  rw [length_draft, length_content_signedData]
  simp only [Element.join_cons, Element.join_nil, List.length_append, Der.SmallNumber.length_encode]
  change 20 + _ + _ ≤ _
  simp only [ofSignedData]
  omega

/-- A store that was read can be written and read, is in ascending order, and its document is hardly longer
than the one that it was read from. -/
theorem legible_and_ascending_of_read (h : CertStore.read b = .ok s) :
    s.Legible ∧ s.Ascending ∧ s.documentLength ≤ b.length + 26 := by
  obtain ⟨info, d, hinfo, htype, hd, rfl⟩ := read_eq_ok.mp h
  refine ⟨legible_ofSignedData (SignedMessage.stems_data hinfo hd), ascending_ofSignedData d, ?_⟩
  obtain ⟨-, b', hb', hle⟩ := ContentInfo.exists_write_of_read hinfo hd
  obtain ⟨rfl, hmax⟩ := Der.write_eq_ok.mp hb'
  have hlength := ContentInfo.length_encode_le_add (Der.fits_of_length_encode hmax) (by decide)
    (length_draft_ofSignedData_le d)
  rw [htype] at hlength hle
  exact Nat.le_trans hlength (Nat.add_le_add_right hle _)

/-- The document of a store is read as the store in ascending order. -/
theorem exists_read_of_write (hs : s.Legible) (h : s.write = .ok b) : ∃ s', CertStore.read b = .ok s' ∧
    s'.certificates.Perm s.certificates ∧ s'.revocations.Perm s.revocations ∧ s'.Ascending := by
  obtain ⟨s', hread, harranges⟩ := read_of_write hs h
  exact ⟨s', hread, harranges.certificates.1, harranges.revocations.1,
    (legible_and_ascending_of_read hread).2.1⟩

/-- A store whose contents can be read back has a document exactly if neither list repeats a member and the
document is not too long.  The document is read as the store with the same certificates and revocation lists,
both in strictly ascending order.  A store that was read from any document has a document of its own exactly if
there is room for it, which takes no more than 26 octets more than the one that the store was read from; and from
its own document it is read as it is. -/
theorem round_trips_without_loss :
    (∀ s : CertStore, s.Legible →
      ((∃ b, s.write = .ok b) ↔
        s.certificates.Nodup ∧ s.revocations.Nodup ∧ s.documentLength ≤ Der.maxLength) ∧
      ∀ b, s.write = .ok b → b.length = s.documentLength ∧ ∃ s', CertStore.read b = .ok s' ∧
        s'.certificates.Perm s.certificates ∧ s'.revocations.Perm s.revocations ∧ s'.Ascending ∧
        s'.isEmpty = s.isEmpty) ∧
    ∀ b s, CertStore.read b = .ok s → s.documentLength ≤ b.length + 26 ∧
      ((∃ b', s.write = .ok b') ↔ s.documentLength ≤ Der.maxLength) ∧
      ∀ b', s.write = .ok b' → CertStore.read b' = .ok s := by
  refine ⟨fun s hs => ⟨exists_write_iff hs, fun b hb => ?_⟩, fun b s h => ?_⟩
  · obtain ⟨s', hread, hc, hr, hascending⟩ := exists_read_of_write hs hb
    exact ⟨length_eq_of_write hb, s', hread, hc, hr, hascending, isEmpty_eq_of_perm hc hr⟩
  · obtain ⟨hs, hascending, hlength⟩ := legible_and_ascending_of_read h
    obtain ⟨hcertificates, hrevocations⟩ := hascending.nodup
    refine ⟨hlength, ?_, fun b' hb' => ?_⟩
    · rw [exists_write_iff hs]
      exact ⟨fun hwritten => hwritten.2.2, fun hroom => ⟨hcertificates, hrevocations, hroom⟩⟩
    · obtain ⟨s', hread, hc, hr, hascending'⟩ := exists_read_of_write hs hb'
      rwa [hascending.eq_of_perm hascending' hc hr] at hread

/-- Two certificates with descending serial numbers. -/
def samplePair : CertStore where
  certificates :=
    [{ Identity.sample.certificate with body := { Identity.sample.certificate.body with serial := ⟨[2]⟩ } },
      Identity.sample.certificate]
  revocations := []

theorem legible_samplePair : samplePair.Legible where
  certificates := by
    refine List.forall_mem_cons.mpr ⟨fun _ => by decide +kernel, List.forall_mem_singleton.mpr ?_⟩
    exact Identity.sound_sample.readable
  revocations _ hl := by cases hl

theorem not_ascending_samplePair : ¬ samplePair.Ascending := by
  intro h
  have hfirst := List.rel_of_pairwise_cons h.certificates (List.mem_singleton.mpr rfl)
  revert hfirst
  decide +kernel

/-- The certificates come back in the other order, in which they stay. -/
theorem round_trips_without_loss_samplePair : ∃ b s' b', samplePair.write = .ok b ∧
    CertStore.read b = .ok s' ∧ s'.certificates.Perm samplePair.certificates ∧ s' ≠ samplePair ∧
    s'.write = .ok b' ∧ CertStore.read b' = .ok s' := by
  obtain ⟨hwrite, hread⟩ := round_trips_without_loss.1 samplePair legible_samplePair
  have hlength : samplePair.documentLength ≤ 1000 := by decide +kernel
  have hroom : 1000 + 26 ≤ Der.maxLength := by decide
  obtain ⟨b, hb⟩ := hwrite.mpr ⟨by decide +kernel, .nil, by omega⟩
  obtain ⟨hdocument, s', hs', hperm, -, hascending, -⟩ := hread b hb
  obtain ⟨hle, hwritten, hagain⟩ := round_trips_without_loss.2 b s' hs'
  obtain ⟨b', hb'⟩ := hwritten.mpr (by omega)
  exact ⟨b, s', b', hb, hs', hperm, fun hsame => not_ascending_samplePair (hsame ▸ hascending), hb',
    hagain b' hb'⟩

/-! ### Stores that do not travel -/

/-- A certificate without a serial number. -/
def unnumbered : Certificate :=
  { Identity.sample.certificate with body := { Identity.sample.certificate.body with serial := ⟨[]⟩ } }

/-- A certificate with a signature of `n` zeros. -/
def longCertificate (n : Nat) : Certificate :=
  { Identity.sample.certificate with signature := .ofBytes (List.replicate n 0) }

/-- The certificate in signed data whose content has a type that is shorter than the one in stores. -/
def longData (n : Nat) : SignedData :=
  ⟨.v1, .empty, ⟨.ofArcs [1, 2, 3, 4], none⟩, some (.singleton (.certificate (longCertificate n))), none, .empty⟩

/-- The store that is found in it. -/
def longStore (n : Nat) : CertStore := ⟨[longCertificate n], []⟩

/-- The document that it travels in. -/
def longDocument (n : Nat) : Bytes := Der.encode (⟨Cms.signedDataType, toElement (longData n)⟩ : ContentInfo)

theorem readable_longData (n : Nat) : Readable (longData n) := by
  have hbody : Readable Identity.sample.certificate.body := fun _ => by decide +kernel
  have halgorithm : Readable Identity.sample.certificate.algorithm :=
    X509.AlgorithmId.readable readable_rsaEncryption
  have htype : Readable (.ofArcs [1, 2, 3, 4] : Der.Oid) := Der.readable_oid (by decide)
  refine Cms.SignedData.readable (Der.readable_setOf fun _ h => by cases h) (SignedContent.readable htype) ?_
    (fun _ h => by cases h) (Der.readable_setOf fun _ h => by cases h)
  intro certificates hc
  cases hc
  refine Der.readable_setOf fun c hc => ?_
  obtain rfl := List.mem_singleton.mp hc
  exact CertificateChoice.readable_certificate (Certificate.readable hbody halgorithm)

section Lengths

variable {n : Nat}

theorem length_encode_of_long {e : Element} (hlong : 256 ^ 3 ≤ e.content.length)
    (h : e.content.length + 29 < 256 ^ 4) :
    (Der.encode (⟨Cms.signedDataType, e⟩ : ContentInfo)).length = e.content.length + 29 := by
  have hinner := Element.length_encode_of_long hlong (by omega)
  have hwrap : (e.wrap 0).content.length = e.encode.length := rfl
  have hwrapped := Element.length_encode_of_long (e := e.wrap 0) (by omega) (by omega)
  have htype : (toElement Cms.signedDataType).encode.length = 11 := by decide
  have hcontent : (toElement (⟨Cms.signedDataType, e⟩ : ContentInfo)).content.length = e.content.length + 23 := by
    change (Element.join [toElement Cms.signedDataType, e.wrap 0]).length = _
    simp only [Element.join_cons, Element.join_nil, List.length_append, List.length_nil]
    omega
  change (toElement (⟨Cms.signedDataType, e⟩ : ContentInfo)).encode.length = _
  rw [Element.length_encode_of_long (by omega) (by omega), hcontent]

theorem length_longCertificate (hlong : 256 ^ 3 ≤ n) (hn : n + 160 < 256 ^ 4) :
    (toElement (longCertificate n)).encode.length = n + 160 := by
  have hfirst : (Element.join [toElement Identity.sample.certificate.body,
      toElement Identity.sample.certificate.algorithm]).length = 147 := by decide +kernel
  have hbits : (toElement (longCertificate n).signature).content.length = n + 1 :=
    congrArg Nat.succ List.length_replicate
  have hsignature := Element.length_encode_of_long (e := toElement (longCertificate n).signature)
    (by omega) (by omega)
  have hcontent : (toElement (longCertificate n)).content.length = n + 154 := by
    change (Element.join ([toElement Identity.sample.certificate.body,
      toElement Identity.sample.certificate.algorithm] ++ [toElement (longCertificate n).signature])).length = _
    rw [Element.length_join_append, hfirst, Element.join_singleton, hsignature, hbits]
    omega
  rw [Element.length_encode_of_long (by omega) (by omega), hcontent]

theorem length_longField (hlong : 256 ^ 3 ≤ n) (hn : n + 166 < 256 ^ 4) :
    ((Element.ofElements .set [toElement (longCertificate n)]).retag 0).encode.length = n + 166 := by
  have hcertificate := length_longCertificate hlong (show n + 160 < 256 ^ 4 by omega)
  have hcontent : ((Element.ofElements .set [toElement (longCertificate n)]).retag 0).content.length = n + 160 := by
    change (Element.join [toElement (longCertificate n)]).length = _
    rw [Element.join_singleton, hcertificate]
  rw [Element.length_encode_of_long (by omega) (by omega), hcontent]

theorem length_longDocument (hlong : 256 ^ 3 ≤ n) (hn : n + 209 < 256 ^ 4) :
    (longDocument n).length = n + 209 := by
  have hfirst : (Element.join [toElement Version.v1, toElement (SetOf.empty : SetOf X509.AlgorithmId),
      toElement (⟨.ofArcs [1, 2, 3, 4], none⟩ : SignedContent)]).length = 12 := by decide
  have hlast : (toElement (SetOf.empty : SetOf Cms.SignerInfo)).encode.length = 2 := by decide
  have hcertificates : (Element.join (optionalField
      ((longData n).certificates.map fun c => (toElement c).retag 0))).length = n + 166 := by
    rw [← length_longField hlong (by omega)]
    exact length_join_optionalField_some _
  have hcontent : (toElement (longData n)).content.length = 12 + (n + 166) + 0 + 2 := by
    rw [length_content_signedData, hcertificates]
    exact congrArg₂ (fun k l => k + (n + 166) + 0 + l) hfirst hlast
  rw [longDocument, length_encode_of_long (by omega) (by omega), hcontent]
  omega

theorem documentLength_longStore (hlong : 256 ^ 3 ≤ n) (hn : n + 215 < 256 ^ 4) :
    (longStore n).documentLength = n + 215 := by
  have hcertificates : (Element.join (optionalField (membersField 0 (longStore n).certificates))).length =
      n + 166 := by
    rw [← length_longField hlong (by omega)]
    exact length_join_optionalField_some _
  have hcontent : (longStore n).draft.content.length = 20 + (n + 166) + 0 := by
    rw [length_draft, hcertificates]
    rfl
  rw [documentLength, length_encode_of_long (by omega) (by omega), hcontent]
  omega

end Lengths

theorem read_longDocument {n : Nat} (hlong : 256 ^ 3 ≤ n) (hn : n + 209 ≤ Der.maxLength) :
    CertStore.read (longDocument n) = .ok (longStore n) := by
  have hmax : Der.maxLength < 256 ^ 4 := by decide
  have hlength := length_longDocument hlong (show n + 209 < 256 ^ 4 by omega)
  have hwrite : Der.write (⟨Cms.signedDataType, toElement (longData n)⟩ : ContentInfo) = .ok (longDocument n) :=
    Der.write_eq_ok.mpr ⟨rfl, hlength.trans_le hn⟩
  obtain ⟨hinfo, hdata⟩ := ContentInfo.read_of_write Cms.readable_signedDataType (readable_longData n) hwrite
  exact read_eq_ok.mpr ⟨_, _, hinfo, rfl, hdata, rfl⟩

/-- A document may be read although the store in it has no document of its own, which would be six octets too
long.  And a store may have a document that is not read: a serial number without octets is written but not
read. -/
theorem not_every_store_travels :
    (CertStore.read (longDocument (Der.maxLength - 209)) = .ok (longStore (Der.maxLength - 209)) ∧
      ¬ ∃ b, (longStore (Der.maxLength - 209)).write = .ok b) ∧
    ∃ b, CertStore.write ⟨[unnumbered], []⟩ = .ok b ∧ CertStore.read b = .error .asn1 := by
  constructor
  · have hlong : 256 ^ 3 ≤ Der.maxLength - 209 := by decide
    have hn : Der.maxLength - 209 + 209 = Der.maxLength := by decide
    generalize Der.maxLength - 209 = n at hlong hn
    have hmax : Der.maxLength + 6 < 256 ^ 4 := by decide
    refine ⟨read_longDocument hlong hn.le, ?_⟩
    rintro ⟨b, hb⟩
    obtain ⟨-, -, -, hroom⟩ := write_eq_ok.mp hb
    have hlength := documentLength_longStore hlong (show n + 215 < 256 ^ 4 by omega)
    omega
  · have hread : (CertStore.write ⟨[unnumbered], []⟩ >>= fun b => pure (CertStore.read b)) =
      .ok (.error .asn1) := by decide +kernel
    obtain ⟨b, hb, h⟩ := Result.bind_eq_ok.mp hread
    exact ⟨b, hb, Result.pure_eq_ok.mp h⟩

end CertStore

end CertEnroll
