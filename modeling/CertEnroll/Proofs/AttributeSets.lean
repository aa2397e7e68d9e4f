import CertEnroll.Proofs.SignedAttributes
import Mathlib.Data.List.Nodup

/-!
# Proofs.AttributeSets — the attributes of a message in a larger set

Attributes are told apart by what they are written as, so those of a message make up a set with any
others that are different from each other and of other types, if none of all these is too long.  The
message is decoded from such a set, in whatever order its members were given.
-/

namespace CertEnroll

open Der (Element Oid SetOf orderKey toElement)
open SignedAttributes
open X509 (Attribute Attributes)

/-! ### Attributes and what they are written as -/

namespace X509.Attribute

theorem type_eq_of_toElement {a b : Attribute} (h : toElement a = toElement b) : a.type = b.type := by
  have hjoin : Element.join [toElement a.type, toElement a.values] =
      Element.join [toElement b.type, toElement b.values] := congrArg Element.content h
  have hread := Element.read_encode a.type.fits (Element.join [toElement a.values])
  rw [← Element.join_cons, hjoin, Element.join_cons, Element.read_encode b.type.fits] at hread
  have htype : b.type.content = a.type.content :=
    congrArg Element.content (Prod.ext_iff.mp (Option.some.inj hread)).1
  cases ha : a.type
  cases hb : b.type
  rw [ha, hb] at htype
  cases htype
  rfl

theorem values_eq_of_toElement {s t : SetOf Element} (hs : (toElement s).Fits)
    (h : toElement s = toElement t) : s = t := by
  have hmembers (u : SetOf Element) : (u.toList.map toElement : List Element) = u.toList := List.map_id _
  have hjoin : Element.join s.toList = Element.join t.toList := by
    rw [← hmembers s, ← hmembers t]
    exact congrArg Element.content h
  have hfits : (Element.join s.toList).length ≤ Der.maxLength := by
    rw [← hmembers s]
    exact hs
  have hsplit := Element.split?_join hfits
  rw [hjoin, Element.split?_join (hjoin ▸ hfits)] at hsplit
  exact SetOf.ext (Option.some.inj hsplit).symm

/-- An attribute that is not too long is told by what it is written as. -/
theorem eq_of_toElement {a b : Attribute} (ha : (toElement a).Fits) (h : toElement a = toElement b) :
    a = b := by
  have hjoin : Element.join [toElement a.type, toElement a.values] =
      Element.join [toElement b.type, toElement b.values] := congrArg Element.content h
  have hfits : (Element.join [toElement a.type, toElement a.values]).length ≤ Der.maxLength := ha
  have hvalues : (toElement a.values).Fits := Element.fits_of_mem_join hfits (by simp)
  have hsplit := Element.split?_join hfits
  rw [hjoin, Element.split?_join (hjoin ▸ hfits)] at hsplit
  have helements := List.cons.inj (Option.some.inj hsplit)
  have htype := type_eq_of_toElement h
  have hsame := values_eq_of_toElement hvalues (List.cons.inj helements.2).1.symm
  cases a
  cases b
  cases htype
  cases hsame
  rfl

end X509.Attribute

/-! ### The attributes of a message among others -/

namespace MessageAttributes

variable {m : MessageAttributes} {own others l : List Attribute}

theorem nodup_types_encode (hown : m.encode = .ok own) : (own.map Attribute.type).Nodup :=
  (List.nodup_append.mp ids_nodup).1.sublist (types_encode hown)

theorem type_mem_ids (hown : m.encode = .ok own) {a : Attribute} (ha : a ∈ own) : a.type ∈ ids :=
  (types_encode hown).subset (List.mem_map_of_mem ha)

theorem length_encode (hown : m.encode = .ok own) : 1 < own.length := by
  obtain ⟨rfl, -⟩ := encode_eq_ok.mp hown
  rw [ofFields_fields]
  simp only [List.length_append, List.length_cons]
  omega

theorem nodup_encode_append (hown : m.encode = .ok own) (ho : ∀ a ∈ others, a.type ∉ ids)
    (hn : others.Nodup) : (own ++ others).Nodup := by
  refine List.nodup_append.mpr ⟨(nodup_types_encode hown).of_map _, hn, fun a ha b hb => ?_⟩
  rintro rfl
  exact ho a hb (type_mem_ids hown ha)

/-- No two of the attributes are written alike: those of a message differ in their types, from each other
and from the others. -/
theorem nodup_orderKey (hown : m.encode = .ok own) (ho : ∀ a ∈ others, a.type ∉ ids) (hn : others.Nodup)
    (hf : ∀ a ∈ others, (toElement a).Fits) : ((own ++ others).map orderKey).Nodup := by
  refine (nodup_encode_append hown ho hn).map_on fun a ha b hb h => ?_
  have helement := SetOf.toElement_eq_of_orderKey h
  have htype := Attribute.type_eq_of_toElement helement
  rcases List.mem_append.mp ha with ha | ha
  · rcases List.mem_append.mp hb with hb | hb
    · exact List.inj_on_of_nodup_map (nodup_types_encode hown) ha hb htype
    · exact absurd (htype ▸ type_mem_ids hown ha) (ho b hb)
  · exact Attribute.eq_of_toElement (hf a ha) helement

/-- The attributes of a message and others that are different and of other types make up a set, in
whatever order they are given, if none of them is too long. -/
theorem exists_ofList?_iff_fits (hown : m.encode = .ok own) (ho : ∀ a ∈ others, a.type ∉ ids)
    (hn : others.Nodup) (hl : l.Perm (own ++ others)) :
    (∃ as, SetOf.ofList? l = some as) ↔ ∀ a ∈ l, (toElement a).Fits := by
  have hlength : 1 < l.length := by
    have := length_encode hown
    rw [hl.length_eq, List.length_append]
    omega
  rw [SetOf.exists_ofList?_iff Attribute.repeats_eq]
  constructor
  · rintro ⟨-, hf⟩
    exact hf hlength
  · intro hf
    have hothers : ∀ a ∈ others, (toElement a).Fits := fun a ha =>
      hf a (hl.mem_iff.mpr (List.mem_append_right own ha))
    exact ⟨((hl.map orderKey).nodup_iff).mpr (nodup_orderKey hown ho hn hothers), fun _ => hf⟩

/-- The attributes of a message can be written if its nonces are not too long.  With others of other types,
which are different, they make up a set in whatever order they are given, if none of all these is too
long.  The message is decoded from the set, unless it is a failure without a reason; neither the others
nor the order matter. -/
theorem decode_encode_among (ho : ∀ a ∈ others, a.type ∉ ids) (hn : others.Nodup) :
    ((∃ own, m.encode = .ok own) ↔ m.NoncesFit) ∧
      ∀ own l, m.encode = .ok own → l.Perm (own ++ others) →
        ((∃ as, SetOf.ofList? l = some as) ↔ ∀ a ∈ l, (toElement a).Fits) ∧
        ∀ as, SetOf.ofList? l = some as →
          decode as = if m.pkiStatus = some .failure ∧ m.failInfo = none
            then .error (.missingAttribute AttributeId.failInfo) else .ok m := by
  constructor
  · simp [encode_eq_ok]
  · intro own l hown hl
    refine ⟨exists_ofList?_iff_fits hown ho hn hl, fun as has => ?_⟩
    exact decode_of_perm hown ((SetOf.perm_of_ofList? has).trans hl) ho

/-- A rejection with its reason. -/
def sampleRejection : MessageAttributes where
  transactionId := ⟨"0123abcd", by decide⟩
  messageType := .certRep
  senderNonce := ⟨List.replicate 16 1⟩
  recipientNonce := some ⟨[]⟩
  pkiStatus := some .failure
  failInfo := some .badCertId

theorem noncesFit_sampleRejection : sampleRejection.NoncesFit := ⟨by decide, by decide⟩

/-- What stands beside it, with two attributes of one type among them. -/
def sampleOthers : List Attribute :=
  [ofContentType Cms.dataType, .single AttributeId.messageDigest ⟨.octetString, [0, 255]⟩,
    .single AttributeId.signingTime (text "1"), .single AttributeId.signingTime (text "2")]

theorem decode_encode_among_sampleOthers :
    ((∀ a ∈ sampleOthers, a.type ∉ ids) ∧ sampleOthers.Nodup) ∧
      ∃ own as, sampleRejection.encode = .ok own ∧
        SetOf.ofList? (sampleOthers ++ own) = some as ∧ decode as = .ok sampleRejection := by
  have hsample : (∀ a ∈ sampleOthers, a.type ∉ ids) ∧ sampleOthers.Nodup := by decide
  obtain ⟨hencode, hset⟩ := decode_encode_among (m := sampleRejection) hsample.1 hsample.2
  obtain ⟨own, hown⟩ := hencode.mpr noncesFit_sampleRejection
  obtain ⟨hexists, hdecode⟩ := hset own (sampleOthers ++ own) hown List.perm_append_comm
  have hfits : (sampleOthers ++ ofFields sampleRejection.fields).all
      fun a => decide ((toElement a).content.length ≤ Der.maxLength) := by decide
  have hshort : ∀ a ∈ sampleOthers ++ own, (toElement a).Fits := by
    rw [(encode_eq_ok.mp hown).1]
    exact fun a ha => of_decide_eq_true (List.all_eq_true.mp hfits a ha)
  obtain ⟨as, has⟩ := hexists.mpr hshort
  exact ⟨hsample, own, as, hown, has, hdecode as has⟩

/-- A nonce that is one octet too long. -/
def longNonce : Nonce := ⟨List.replicate (Der.maxLength + 1) 0⟩

theorem not_exists_encode_of_longNonce (h : m.senderNonce = longNonce) : ¬ ∃ own, m.encode = .ok own := by
  rintro ⟨own, hown⟩
  have hsender := (encode_eq_ok.mp hown).2.sender
  have hlength : longNonce.bytes.length = Der.maxLength + 1 := List.length_replicate
  rw [h] at hsender
  omega

/-- The longest value, in an attribute. -/
def longAttribute : Attribute :=
  .single AttributeId.signingTime ⟨.octetString, List.replicate Der.maxLength 0⟩

theorem not_fits_longAttribute : ¬ (toElement longAttribute).Fits := by
  intro hf
  let value : Element := ⟨.octetString, List.replicate Der.maxLength 0⟩
  have hvalues : (Element.join [value]).length ≤ Der.maxLength :=
    Element.fits_of_mem_join (e := toElement longAttribute.values) hf (by simp)
  have hlong : value.content.length < (Element.join [value]).length :=
    Element.length_content_lt_join (List.mem_singleton_self value)
  have hlength : value.content.length = Der.maxLength := List.length_replicate
  omega

/-- A nonce that is too long cannot be written, and an attribute that is too long cannot be put into a set
with those of a message. -/
theorem no_set_of_long_values :
    (¬ ∃ own, encode { sampleRejection with senderNonce := longNonce } = .ok own) ∧
    (longAttribute.type ∉ ids ∧
      ∃ own, sampleRejection.encode = .ok own ∧ SetOf.ofList? (own ++ [longAttribute]) = none) := by
  constructor
  · exact not_exists_encode_of_longNonce rfl
  · have htype : longAttribute.type ∉ ids := by decide
    have hown := encode_eq_ok.mpr ⟨rfl, noncesFit_sampleRejection⟩
    refine ⟨htype, _, hown, ?_⟩
    rw [← Option.not_isSome_iff_eq_none, Option.isSome_iff_exists,
      exists_ofList?_iff_fits hown (by simpa using htype) (List.nodup_singleton _) (.refl _)]
    intro hf
    exact not_fits_longAttribute (hf longAttribute (by simp))

end MessageAttributes

end CertEnroll
