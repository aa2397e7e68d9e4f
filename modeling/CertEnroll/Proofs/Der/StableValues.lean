import CertEnroll.Proofs.Der.Stability

/-!
# Proofs.Der.StableValues — the values of documents, once read, are read again

Single values are written as the elements that they were read from.  Each structure is stable since its
parts are, and since the tag of what follows an optional field tells whether the field is there.
-/

namespace CertEnroll

open Calendar (DateTime)
open Der (BitString Element Fields OctetString Oid)

/-! ### Single values -/

namespace Der

instance : Stable Element := stable_of_eq fun e f h => by
  cases h
  rfl

instance : Stable Oid := stable_of_eq fun _ _ h => (ofElement?_oid h).1.symm

instance : Stable OctetString := stable_of_eq fun e s h => by
  obtain ⟨tag, content⟩ := e
  change (if tag = .octetString then some (⟨content⟩ : OctetString) else none) = some s at h
  split at h
  case isFalse => cases h
  case isTrue ht =>
    subst ht
    cases h
    rfl

instance : Stable Bool := stable_of_eq fun e a h => by
  obtain ⟨tag, content⟩ := e
  change (if tag = .boolean then
    (match content with | [0] => some false | [0xff] => some true | _ => none) else none) = some a at h
  split at h
  case isFalse => cases h
  case isTrue ht =>
    subst ht
    split at h <;> cases h <;> rfl

instance : Stable BitString := stable_of_eq fun e s h => by
  obtain ⟨tag, content⟩ := e
  unfold ofElement? instBitString at h
  dsimp only at h
  split at h
  case isFalse => cases h
  case isTrue ht =>
    subst ht
    split at h
    · cases h
    · split at h <;> cases h
      simp [toElement]

instance {bound : Nat} : Stable (SmallNumber bound) := stable_of_eq fun e n h => by
  obtain ⟨tag, content⟩ := e
  unfold ofElement? instSmallNumber at h
  dsimp only at h
  split at h
  case isFalse => cases h
  case isTrue ht =>
    subst ht
    split at h
    · split at h <;> cases h
      simp [toElement]
    · cases h

/-! ### Times -/

namespace Time

theorem twoDigits_of_digits {a b : UInt8} (h : 48 ≤ a ∧ a ≤ 57 ∧ 48 ≤ b ∧ b ≤ 57) :
    twoDigits (10 * (a.toNat - 48) + (b.toNat - 48)) = [a, b] ∧ 10 * (a.toNat - 48) + (b.toNat - 48) < 100 := by
  obtain ⟨ha, ha', hb, hb'⟩ := h
  simp only [UInt8.le_iff_toNat_le, UInt8.reduceToNat] at ha ha' hb hb'
  have htens : 48 + (10 * (a.toNat - 48) + (b.toNat - 48)) / 10 % 10 = a.toNat := by omega
  have hones : 48 + (10 * (a.toNat - 48) + (b.toNat - 48)) % 10 = b.toNat := by omega
  refine ⟨?_, by omega⟩
  rw [twoDigits, htens, hones, UInt8.ofNat_toNat, UInt8.ofNat_toNat]

theorem pairs?_eq_some {b : Bytes} {l : List Nat} (h : pairs? b = some l) :
    l.flatMap twoDigits = b ∧ ∀ n ∈ l, n < 100 := by
  fun_induction pairs? b generalizing l with
  | case1 =>
    cases h
    simp
  | case2 => cases h
  | case3 a b r hdigits ih =>
    obtain ⟨l, hl, rfl⟩ := Option.map_eq_some_iff.mp h
    obtain ⟨hr, hsmall⟩ := ih hl
    obtain ⟨hpair, hlt⟩ := twoDigits_of_digits hdigits
    refine ⟨by rw [List.flatMap_cons, hpair, hr]; rfl, ?_⟩
    exact List.forall_mem_cons.mpr ⟨hlt, hsmall⟩
  | case4 => cases h

theorem markedPairs?_eq_some {b : Bytes} {l : List Nat} (h : markedPairs? b = some l) :
    l.flatMap twoDigits ++ [90] = b ∧ ∀ n ∈ l, n < 100 := by
  unfold markedPairs? at h
  split at h
  case isFalse => cases h
  case isTrue hlast =>
    obtain ⟨hpairs, hsmall⟩ := pairs?_eq_some h
    refine ⟨?_, hsmall⟩
    rw [hpairs]
    exact List.dropLast_append_getLast? 90 hlast

theorem ofParts?_eq_some {year month day hour minute second : Nat} {t : DateTime}
    (h : DateTime.ofParts? year month day hour minute second = some t) :
    t.year = year ∧ tailDigits t = [month, day, hour, minute, second].flatMap twoDigits ++ [90] := by
  unfold DateTime.ofParts? at h
  split at h <;> cases h
  exact ⟨rfl, rfl⟩

theorem fullYear_mod {n : Nat} (h : n < 100) : fullYear n % 100 = n := by
  unfold fullYear
  split <;> omega

theorem toElement_of_ofShort? {b : Bytes} {t : Time} (h : ofShort? b = some t) :
    toElement t = ⟨.utcTime, b⟩ := by
  obtain ⟨l, hl, hparts⟩ := Option.bind_eq_some_iff.mp h
  obtain ⟨rfl, hsmall⟩ := markedPairs?_eq_some hl
  split at hparts
  case h_2 => cases hparts
  case h_1 y mo d hh mi s =>
    obtain ⟨time, htime, hform⟩ := Option.bind_eq_some_iff.mp hparts
    obtain ⟨hyear, htail⟩ := ofParts?_eq_some htime
    split at hform <;> cases hform
    change (⟨.utcTime, twoDigits (time.year % 100) ++ tailDigits time⟩ : Element) = _
    rw [hyear, fullYear_mod (hsmall y (by simp)), htail]
    rfl

theorem toElement_of_ofLong? {b : Bytes} {t : Time} (h : ofLong? b = some t) :
    toElement t = ⟨.generalizedTime, b⟩ := by
  obtain ⟨l, hl, hparts⟩ := Option.bind_eq_some_iff.mp h
  obtain ⟨rfl, hsmall⟩ := markedPairs?_eq_some hl
  split at hparts
  case h_2 => cases hparts
  case h_1 c y mo d hh mi s =>
    obtain ⟨time, htime, hform⟩ := Option.bind_eq_some_iff.mp hparts
    obtain ⟨hyear, htail⟩ := ofParts?_eq_some htime
    cases hform
    have hy := hsmall y (by simp)
    have hcentury : (100 * c + y) / 100 = c := by omega
    have hrest : (100 * c + y) % 100 = y := by omega
    change (⟨.generalizedTime, twoDigits (time.year / 100) ++ twoDigits (time.year % 100) ++
      tailDigits time⟩ : Element) = _
    rw [hyear, hcentury, hrest, htail]
    rfl

end Time

instance : Stable Time := stable_of_eq fun e t h => by
  obtain ⟨tag, content⟩ := e
  unfold ofElement? Time.inst at h
  dsimp only at h
  split at h
  · exact Time.toElement_of_ofShort? h
  · exact Time.toElement_of_ofLong? h
  · cases h

end Der

/-! ### Names, algorithms and attributes -/

open Der (Member SetOf Stable Time restores_of_map restores_of_map_retag stable_sequence toElement)
open Der.Fields (Rewrites rereads_explicit? rereads_implicit? rereads_nextIf rereads_optional)

namespace X509

instance : Stable SerialNumber := Der.stable_of_eq fun e n h => by
  obtain ⟨tag, content⟩ := e
  unfold Der.ofElement? instDerSerialNumber at h
  dsimp only at h
  split at h
  case isFalse => cases h
  case isTrue hread =>
    cases h
    rw [hread.1]
    rfl

instance : Stable NameAttribute :=
  stable_sequence (fun _ => rfl) <| .value fun _ => .value fun _ => .pure rfl

instance : Stable Name where
  restores he h := restores_of_map he h (fun _ => rfl) fun _ => rfl

instance : Stable AlgorithmId :=
  stable_sequence (fun _ => rfl) <|
    .value fun _ => .last (rereads_nextIf _) fun parameters => by cases parameters <;> rfl

instance : Stable Attribute :=
  stable_sequence (fun _ => rfl) <| .value fun _ => .value fun _ => .pure rfl

instance : Stable IssuerAndSerial :=
  stable_sequence (fun _ => rfl) <| .value fun _ => .value fun _ => .pure rfl

instance : Stable KeyInfo :=
  stable_sequence (fun _ => rfl) <| .value fun _ => .value fun _ => .pure rfl

instance : Stable Extension :=
  stable_sequence (fun _ => rfl) <|
    .value fun _ => .default (d := false) (rereads_optional _) (by simp) rfl fun critical =>
      .value fun _ => .pure (by cases critical <;> rfl)

instance : Stable Validity :=
  stable_sequence (fun _ => rfl) <| .value fun _ => .value fun _ => .pure rfl

/-! ### Certificates and revocation lists -/

instance : Stable CertificateBody := by
  refine stable_sequence (fun _ => rfl) <|
    .default (d := Version.v1) (rereads_explicit? 0) ?_ rfl fun version => .value fun serial =>
    .value fun signature => .value fun issuer => .value fun validity => .value fun subject =>
    .value fun keyInfo => .field (rereads_implicit? 1 .bitString) ?_ fun issuerId =>
    .field (rereads_implicit? 2 .bitString) ?_ fun subjectId =>
    .last (rereads_explicit? 3) fun extensions => congrArg Der.sequence (by simp)
  · rintro _ ⟨_, rfl⟩
    exact ⟨rfl, rfl⟩
  · rintro _ (⟨_, rfl⟩ | ⟨_, rfl⟩) <;> exact ⟨rfl, rfl⟩
  · rintro _ ⟨_, rfl⟩
    exact ⟨rfl, rfl⟩

instance : Stable Certificate :=
  stable_sequence (fun _ => rfl) <| .value fun _ => .value fun _ => .value fun _ => .pure rfl

instance : Stable Revoked :=
  stable_sequence (fun _ => rfl) <|
    .value fun _ => .value fun _ => .last (rereads_optional _) fun _ => rfl

instance : Stable RevocationBody := by
  refine stable_sequence (fun _ => rfl) <|
    .value fun version => .value fun signature => .value fun issuer => .value fun thisUpdate =>
    .field (rereads_optional _) ?_ fun nextUpdate => .field (rereads_optional _) ?_ fun revoked =>
    .last (rereads_explicit? 0) fun extensions => rfl
  · rintro _ (⟨_, rfl⟩ | ⟨_, rfl⟩) <;> rfl
  · rintro _ ⟨_, rfl⟩
    rfl

instance : Stable RevocationList :=
  stable_sequence (fun _ => rfl) <| .value fun _ => .value fun _ => .value fun _ => .pure rfl

end X509

/-! ### Parts of messages -/

namespace Cms

instance : Stable ContentInfo :=
  stable_sequence (fun _ => rfl) <| .value fun _ => .required (rereads_explicit? 0) fun _ => .pure rfl

/-- A value in a document that was read has a document of its own, which is no longer. -/
theorem ContentInfo.exists_write_of_read {α : Type} [Der α] [Stable α] {b : Bytes} {info : ContentInfo}
    {a : α} (hinfo : Der.read b = .ok info) (ha : Der.ofElement? info.content = some a) :
    Der.Readable a ∧ ∃ b', Der.write (⟨info.contentType, toElement a⟩ : ContentInfo) = .ok b' ∧
      b'.length ≤ b.length := by
  obtain ⟨hlength, e, rfl, hfits, he⟩ := Der.read_eq_ok.mp hinfo
  have hrestores : Der.Restores e info := Stable.restores hfits he
  have hcontent : info.content.Fits := ContentInfo.fits_content (hrestores.fits hfits)
  have hvalue : Der.Restores info.content a := Stable.restores hcontent ha
  have hle : (Der.encode (⟨info.contentType, toElement a⟩ : ContentInfo)).length ≤ (Der.encode info).length :=
    ContentInfo.length_encode_mono info.contentType hvalue.length_le
  have hshort := Nat.le_trans hle hrestores.length_encode_le
  exact ⟨hvalue.readable, _, Der.write_eq_ok.mpr ⟨rfl, Nat.le_trans hshort hlength⟩, hshort⟩

instance : Stable CertificateChoice where
  restores {e c} he h := by
    obtain ⟨tag, content⟩ := e
    unfold Der.ofElement? Member.toDer instMemberCertificateChoice at h
    dsimp only at h
    split at h
    · exact restores_of_map he h (fun _ => rfl) fun _ => rfl
    · obtain ⟨inner, hinner, hc⟩ := Option.bind_eq_some_iff.mp h
      obtain ⟨rfl, hfits⟩ := Element.ofBytes?_eq_some.mp hinner
      refine Rewrites.restores_wrap hfits hc (.value fun _ => .next fun _ => .pure rfl) fun inner hinner => ?_
      change (Element.ofBytes? inner.encode).bind _ = _
      rw [Element.ofBytes?_encode hinner]
      rfl
    · cases h

instance : Stable RevocationChoice where
  restores {e c} he h := by
    obtain ⟨tag, content⟩ := e
    unfold Der.ofElement? Member.toDer instMemberRevocationChoice at h
    dsimp only at h
    split at h
    · exact restores_of_map he h (fun _ => rfl) fun _ => rfl
    · exact Rewrites.restores_retag he h (.value fun _ => .next fun _ => .pure rfl) fun _ => rfl
    · cases h

instance : Stable KeyHolder where
  restores {e k} he h := by
    obtain ⟨tag, content⟩ := e
    unfold Der.ofElement? instDerKeyHolder at h
    dsimp only at h
    split at h
    · exact restores_of_map he h (fun _ => rfl) fun _ => rfl
    · cases h
      exact ⟨rfl, Nat.le_refl _, rfl⟩
    · cases h

/-! ### Signed data -/

instance : Stable SignedContent :=
  stable_sequence (fun _ => rfl) <| .value fun _ => .last (rereads_explicit? 0) fun _ => rfl

instance : Stable SignerInfo := by
  refine stable_sequence (fun _ => rfl) <| .value fun version => .value fun signer => .value fun digest =>
    .field (rereads_implicit? 0 .set) ?_ fun signedAttributes => .value fun signatureAlgorithm =>
    .value fun signature => .last (rereads_implicit? 1 .set) fun unsignedAttributes =>
    congrArg Der.sequence (by simp)
  rintro _ ⟨_, rfl⟩
  exact ⟨rfl, rfl⟩

instance : Stable SignedData := by
  refine stable_sequence (fun _ => rfl) <| .value fun version => .value fun digests => .value fun content =>
    .field (rereads_implicit? 0 .set) ?_ fun certificates =>
    .field (rereads_implicit? 1 .set) ?_ fun revocations => .value fun signers =>
    .pure (congrArg Der.sequence (by simp))
  · rintro _ (⟨_, rfl⟩ | ⟨_, rfl⟩) <;> exact ⟨rfl, rfl⟩
  · rintro _ ⟨_, rfl⟩
    exact ⟨rfl, rfl⟩

/-! ### Recipients -/

instance : Stable KeyTransport :=
  stable_sequence (fun _ => rfl) <|
    .value fun _ => .value fun _ => .value fun _ => .value fun _ => .pure rfl

instance : Stable Originator where
  restores {e o} he h := by
    obtain ⟨tag, content⟩ := e
    unfold Der.ofElement? instDerOriginator at h
    dsimp only at h
    split at h
    · exact Rewrites.restores_retag he h (.value fun _ => .value fun _ => .pure rfl) fun _ => rfl
    · exact restores_of_map he h (fun _ => rfl) fun k => by cases k <;> rfl

instance : Stable AgreedKey :=
  stable_sequence (fun _ => rfl) <| .value fun _ => .value fun _ => .pure rfl

instance : Stable KeyAgreement := by
  refine stable_sequence (fun _ => rfl) <| .value fun version =>
    .required (rereads_explicit? 0) fun originator => .field (rereads_explicit? 1) ?_ fun keyMaterial =>
    .value fun algorithm => .value fun keys => .pure (congrArg Der.sequence (by simp))
  rintro _ ⟨_, rfl⟩
  exact ⟨rfl, rfl⟩

instance : Stable SharedKeyId := by
  refine stable_sequence (fun _ => rfl) <| .value fun id =>
    .field (rereads_optional _) ?_ fun date => .last (rereads_optional _) fun keyAttribute => rfl
  rintro _ ⟨_, rfl⟩
  rfl

instance : Stable SharedKey :=
  stable_sequence (fun _ => rfl) <|
    .value fun _ => .value fun _ => .value fun _ => .value fun _ => .pure rfl

instance : Stable PasswordKey := by
  refine stable_sequence (fun _ => rfl) <| .value fun version =>
    .field (rereads_implicit? 0 .sequence) ?_ fun derivation => .value fun algorithm =>
    .value fun encryptedKey => .pure (congrArg Der.sequence (by simp))
  rintro _ ⟨_, rfl⟩
  exact ⟨rfl, rfl⟩

instance : Stable OtherKey :=
  stable_sequence (fun _ => rfl) <| .value fun _ => .next fun _ => .pure rfl

instance : Stable RecipientInfo where
  restores {e i} he h := by
    obtain ⟨tag, content⟩ := e
    unfold Der.ofElement? Member.toDer instMemberRecipientInfo at h
    dsimp only at h
    split at h
    · exact restores_of_map he h (fun _ => rfl) fun _ => rfl
    · exact restores_of_map_retag he h rfl (fun _ => rfl) fun _ => rfl
    · exact restores_of_map_retag he h rfl (fun _ => rfl) fun _ => rfl
    · exact restores_of_map_retag he h rfl (fun _ => rfl) fun _ => rfl
    · exact restores_of_map_retag he h rfl (fun _ => rfl) fun _ => rfl
    · cases h

/-! ### Enveloped data -/

instance : Stable OriginatorInfo := by
  refine stable_sequence (fun _ => rfl) <|
    .field (rereads_implicit? 0 .set) ?_ fun certificates =>
    .last (rereads_implicit? 1 .set) fun revocations => rfl
  rintro _ ⟨_, rfl⟩
  exact ⟨rfl, rfl⟩

instance : Stable EncryptedContent :=
  stable_sequence (fun _ => rfl) <|
    .value fun _ => .value fun _ => .last (rereads_implicit? 0 .octetString) fun _ => rfl

instance : Stable EnvelopedData := by
  refine stable_sequence (fun _ => rfl) <| .value fun version =>
    .field (rereads_implicit? 0 .sequence) ?_ fun originator => .value fun recipients =>
    .value fun content => .last (rereads_implicit? 1 .set) fun unprotectedAttributes =>
    congrArg Der.sequence (by simp)
  rintro _ ⟨_, rfl⟩
  exact ⟨rfl, rfl⟩

end Cms

end CertEnroll
