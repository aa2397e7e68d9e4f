import CertEnroll.Message.Encoding
import CertEnroll.Proofs.Envelope
import CertEnroll.Proofs.WellSigned

/-!
# Proofs.RoundTrip — a message that was sealed is decoded to itself

The signer and the reader go through three layers: the envelope, the signed attributes and the signed
data.  Each layer is read back as it was written, so a message comes back with its attributes, the
certificate of its signer and, if its status calls for an envelope, its data.
-/

namespace CertEnroll

open Calendar (Instant)
open Cms (CertificateChoice ContentInfo KeyHolder SignedContent SignedData SignerInfo)
open Der (Element OctetString Oid Readable SetOf ofElement? readable_oid toElement)
open SignedAttributes (Holds)
open X509 (AlgorithmId Attribute Attributes Certificate)

/-- An identity in order: the key passes its checks, and the certificate has its public half and can be
read back. -/
structure Identity.Sound (i : Identity) : Prop where
  paired : i.certificate.publicKey = .ok i.key.publicKey
  checked : i.key.check = .ok ()
  readable : Readable i.certificate

/-- The certificate is named readably, and its key is undone by the private one. -/
structure X509.Certificate.HeldBy (c : Certificate) (k : Rsa.PrivateKey) : Prop where
  paired : c.publicKey = .ok k.publicKey
  undoes : k.Undoes
  readable : Readable c.id

/-- What is to be found in the document of a message.  Data travels in requests and successes, which
cannot do without it; a failure has to give its reason. -/
def Message.received (m : Message) : Result Message :=
  match m.attributes.pkiStatus with
  | none | some .success => if m.data.isSome then .ok m else .error .missingEnvelope
  | some .pending => .ok ⟨m.attributes, none⟩
  | some .failure =>
    if m.attributes.failInfo.isSome then .ok ⟨m.attributes, none⟩
    else .error (.missingAttribute AttributeId.failInfo)

theorem Message.received_of_hasEnvelope {m : Message} (h : m.attributes.hasEnvelope = true) :
    m.received = if m.data.isSome then .ok m else .error .missingEnvelope := by
  rcases MessageAttributes.hasEnvelope_eq_true_iff.mp h with hs | hs <;> simp only [received, hs]

theorem Message.received_of_not_hasEnvelope {m : Message} (h : m.attributes.hasEnvelope = false)
    (hreason : ¬ (m.attributes.pkiStatus = some .failure ∧ m.attributes.failInfo = none)) :
    m.received = .ok ⟨m.attributes, none⟩ := by
  rcases MessageAttributes.hasEnvelope_eq_false_iff.mp h with hs | hs
  · simp only [received, hs]
  · have hsome : m.attributes.failInfo ≠ none := fun hnone => hreason ⟨hs, hnone⟩
    simp only [received, hs, Option.isSome_iff_ne_none.mpr hsome, if_true]

theorem Digest.readable_algorithmId (d : Digest) : Readable d.algorithmId := by
  have hoid : Readable d.oid := readable_oid (by cases d <;> decide)
  exact AlgorithmId.readable hoid

theorem Digest.sign_eq_ok {d : Digest} {k : Rsa.PrivateKey} {m signature : Bytes} :
    d.sign k m = .ok signature ↔ Rsa.sign d k m = .ok signature := by
  unfold Digest.sign
  cases Rsa.sign d k m <;> simp [Except.mapError]

namespace Sealing

variable {s : Sealing} {now : Instant} {m : Message} {b : Bytes} {random rest : Random}
  {content : Option Bytes} {as : Attributes} {info : SignerInfo} {unsigned : Option Attributes}

/-! ### Writing -/

/-- The document of some content and its signer, with attributes beside those that are signed. -/
def document (s : Sealing) (content : Option Bytes) (info : SignerInfo) (unsigned : Option Attributes) :
    Result Bytes :=
  Der.write (⟨Cms.signedDataType,
    toElement (s.signedData content { info with unsignedAttributes := unsigned })⟩ : ContentInfo)

theorem content_eq_ok (h : (s.content m).run.run random = (.ok content, rest)) :
    (m.data = none ∧ content = none) ∨ ∃ data e octets r, m.data = some data ∧
      (Envelope.encrypt data s.recipient s.cipher).run.run random = (.ok e, r) ∧
      e.write = .ok octets ∧ content = some octets := by
  unfold Sealing.content at h
  cases hd : m.data with
  | none =>
    rw [hd] at h
    obtain ⟨rfl, -⟩ := Drawing.pure_eq_ok.mp h
    exact .inl ⟨rfl, rfl⟩
  | some data =>
    rw [hd] at h
    obtain ⟨e, r₁, he, h⟩ := Drawing.bind_eq_ok.mp h
    obtain ⟨octets, r₂, hoctets, h⟩ := Drawing.bind_eq_ok.mp h
    obtain ⟨rfl, -⟩ := Drawing.pure_eq_ok.mp h
    exact .inr ⟨data, e, octets, r₁, rfl, he, (Drawing.lift_eq_ok.mp hoctets).1, rfl⟩

/-- What stands beside the protocol's attributes. -/
def companions (digest : Bytes) (time : Attribute) : List Attribute :=
  [SignedAttributes.ofContentType Cms.dataType, .single AttributeId.messageDigest ⟨.octetString, digest⟩, time]

/-- The signed attributes are built from those of the message and three others. -/
theorem signedAttributes_eq_ok {c : Bytes} (h : s.signedAttributes now m c = .ok as) :
    ∃ own time, m.attributes.encode = .ok own ∧ time.type = AttributeId.signingTime ∧
      SetOf.ofList? (own ++ companions (s.digest.hash c) time) = some as := by
  obtain ⟨own, hown, h⟩ := Result.bind_eq_ok.mp h
  obtain ⟨digest, hdigest, h⟩ := Result.bind_eq_ok.mp h
  obtain ⟨time, htime, h⟩ := Result.bind_eq_ok.mp h
  obtain ⟨rfl, -⟩ := MessageAttributes.ofOctets_eq_ok.mp hdigest
  obtain ⟨t, -, htime⟩ := Result.bind_eq_ok.mp htime
  cases htime
  exact ⟨own, _, hown, rfl, Result.ofOption_eq_ok.mp h⟩

/-- The signer of some attributes, with a signature over them. -/
def signedBy (s : Sealing) (as : Attributes) (signature : OctetString) : SignerInfo :=
  ⟨.v1, .certificate s.signer.id, s.digest.algorithmId, some as, .plain rsaEncryption, signature, none⟩

theorem signerInfo_eq_ok (h : s.signerInfo as = .ok info) :
    ∃ signature, Rsa.sign s.digest s.signer.key (Der.encode as) = .ok signature ∧
      info = s.signedBy as ⟨signature⟩ := by
  obtain ⟨b, hb, h⟩ := Result.bind_eq_ok.mp h
  obtain ⟨signature, hsignature, h⟩ := Result.bind_eq_ok.mp h
  obtain ⟨octets, hoctets, h⟩ := Result.bind_eq_ok.mp h
  obtain ⟨rfl, -⟩ := Der.write_eq_ok.mp hb
  obtain ⟨rfl, -⟩ := Der.ofBytes_eq_ok.mp hoctets
  cases h
  exact ⟨signature, Digest.sign_eq_ok.mp hsignature, rfl⟩

/-- How a message is written. -/
theorem encode_eq_ok (h : (s.encode now m).run.run random = (.ok b, rest)) :
    ∃ content as info, (s.content m).run.run random = (.ok content, rest) ∧
      s.signedAttributes now m (content.getD []) = .ok as ∧ s.signerInfo as = .ok info ∧
      s.document content info none = .ok b := by
  obtain ⟨content, r₁, hcontent, h⟩ := Drawing.bind_eq_ok.mp h
  obtain ⟨as, r₂, h₂, h⟩ := Drawing.bind_eq_ok.mp h
  obtain ⟨info, r₃, h₃, h⟩ := Drawing.bind_eq_ok.mp h
  obtain ⟨has, rfl⟩ := Drawing.lift_eq_ok.mp h₂
  obtain ⟨hinfo, rfl⟩ := Drawing.lift_eq_ok.mp h₃
  obtain ⟨hb, rfl⟩ := Drawing.lift_eq_ok.mp h
  refine ⟨content, as, info, hcontent, has, hinfo, ?_⟩
  obtain ⟨signature, -, rfl⟩ := signerInfo_eq_ok hinfo
  exact hb

/-- The signer of some attributes, with a signature that is computed but not checked. -/
def computedInfo (s : Sealing) (as : Attributes) : Result SignerInfo := do
  let b ← Der.write as
  return s.signedBy as (← OctetString.ofBytes (s.signer.key.signature s.digest b))

theorem signerInfo_of_undoes (hk : s.signer.key.Undoes)
    (hroom : (Rsa.digestInfo s.digest []).length + 11 ≤ s.signer.key.publicKey.size) (as : Attributes) :
    s.signerInfo as = s.computedInfo as := by
  refine bind_congr fun b => ?_
  rw [Rsa.length_digestInfo _ _ b] at hroom
  rw [Digest.sign_eq_ok.mpr (hk.sign hroom)]
  rfl

/-- How a message is written by a signer whose key undoes its public exponent: no signature needs to be
checked. -/
theorem encode_of_undoes (hk : s.signer.key.Undoes)
    (hroom : (Rsa.digestInfo s.digest []).length + 11 ≤ s.signer.key.publicKey.size) (now : Instant)
    (m : Message) :
    s.encode now m = (do
      let content ← s.content m
      let as ← s.signedAttributes now m (content.getD [])
      let info ← s.computedInfo as
      Der.write (⟨Cms.signedDataType, toElement (s.signedData content info)⟩ : ContentInfo)) := by
  simp only [encode, signerInfo_of_undoes hk hroom]

/-! ### The signed attributes -/

section Attributes

variable {c : Bytes} {time : Attribute}

theorem otherIds_eq (ht : time.type = AttributeId.signingTime) :
    (companions c time).map Attribute.type = MessageAttributes.otherIds := by
  simp only [companions, List.map_cons, List.map_nil, ht]
  rfl

theorem readable_signedAttributes (h : s.signedAttributes now m c = .ok as) : Readable as := by
  obtain ⟨own, time, hown, ht, h⟩ := signedAttributes_eq_ok h
  have hids : ∀ o ∈ MessageAttributes.ids ++ MessageAttributes.otherIds, Oid.read? o.content = some o := by
    decide
  refine Attributes.readable fun a ha => readable_oid (hids _ ?_)
  have hmem := List.mem_map_of_mem (f := Attribute.type) ((SetOf.perm_of_ofList? h).mem_iff.mp ha)
  rw [List.map_append, otherIds_eq ht, List.mem_append] at hmem
  rcases hmem with hmem | hmem
  · exact List.mem_append_left _ ((MessageAttributes.types_encode hown).subset hmem)
  · exact List.mem_append_right _ hmem

theorem decode_signedAttributes (h : s.signedAttributes now m c = .ok as) :
    MessageAttributes.decode as =
      if m.attributes.pkiStatus = some .failure ∧ m.attributes.failInfo = none
      then .error (.missingAttribute AttributeId.failInfo) else .ok m.attributes := by
  obtain ⟨own, time, hown, ht, h⟩ := signedAttributes_eq_ok h
  have hdisjoint := (List.nodup_append.mp MessageAttributes.ids_nodup).2.2
  refine MessageAttributes.decode_of_perm hown (SetOf.perm_of_ofList? h) fun a ha hmem => ?_
  exact hdisjoint _ hmem _ (otherIds_eq ht ▸ List.mem_map_of_mem ha) rfl

theorem holds_contentType (h : s.signedAttributes now m c = .ok as) :
    Holds as AttributeId.contentType (toElement Cms.dataType) := by
  obtain ⟨own, time, hown, ht, h⟩ := signedAttributes_eq_ok h
  refine SignedAttributes.holds_of_ofList? h (MessageAttributes.types_nodup hown (otherIds_eq ht)) ?_
  exact List.mem_append_right _ List.mem_cons_self

theorem holds_messageDigest (h : s.signedAttributes now m c = .ok as) :
    Holds as AttributeId.messageDigest ⟨.octetString, s.digest.hash c⟩ := by
  obtain ⟨own, time, hown, ht, h⟩ := signedAttributes_eq_ok h
  refine SignedAttributes.holds_of_ofList? h (MessageAttributes.types_nodup hown (otherIds_eq ht)) ?_
  exact List.mem_append_right _ (List.mem_cons_of_mem _ List.mem_cons_self)

end Attributes

/-! ### The signed data -/

theorem fits_certificate (h : (toElement (s.signedData content info)).Fits) :
    (toElement s.signer.certificate).Fits := by
  have hset := Element.fits_of_mem_join (e := (toElement (SetOf.singleton
    (CertificateChoice.certificate s.signer.certificate))).retag 0) h
    (by simp [signedData, Der.optionalField])
  exact Element.fits_of_mem_join (e := toElement s.signer.certificate) hset List.mem_cons_self

theorem readable_signerInfo (hid : Readable s.signer.id) (has : Readable as)
    (h : s.signerInfo as = .ok info) (hunsigned : ∀ as' ∈ unsigned, Readable as') :
    Readable { info with unsignedAttributes := unsigned } := by
  obtain ⟨signature, -, rfl⟩ := signerInfo_eq_ok h
  refine SignerInfo.readable (KeyHolder.readable_certificate hid) s.digest.readable_algorithmId ?_ ?_
    hunsigned
  · intro as' h'
    cases h'
    exact has
  · exact AlgorithmId.readable readable_rsaEncryption

theorem readable_signedData (hs : Readable s.signer.certificate) (hinfo : Readable info) :
    Readable (s.signedData content info) := by
  refine SignedData.readable ?_ (SignedContent.readable Cms.readable_dataType) ?_ ?_ ?_
  · refine Der.readable_setOf fun d hd => ?_
    obtain rfl := List.mem_singleton.mp hd
    exact s.digest.readable_algorithmId
  · intro certificates hc
    cases hc
    refine Der.readable_setOf fun c hc => ?_
    obtain rfl := List.mem_singleton.mp hc
    exact CertificateChoice.readable_certificate hs
  · intro revocations hr
    cases hr
  · refine Der.readable_setOf fun i hi => ?_
    obtain rfl := List.mem_singleton.mp hi
    exact hinfo

/-! ### Reading -/

/-- The signed data of a message is taken apart into what it was made of.  Nothing looks at attributes that
are not signed. -/
theorem ofSignedData_signedData (has : s.signedAttributes now m (content.getD []) = .ok as)
    (hinfo : s.signerInfo as = .ok info)
    (hreason : ¬ (m.attributes.pkiStatus = some .failure ∧ m.attributes.failInfo = none)) :
    SignedMessage.ofSignedData (s.signedData content { info with unsignedAttributes := unsigned }) =
      .ok ⟨m.attributes, content, { info with unsignedAttributes := unsigned }, as,
        s.signer.certificate⟩ := by
  have hdecode := decode_signedAttributes has
  rw [if_neg hreason] at hdecode
  have hcontentType (i : SignerInfo) :
      SignedMessage.checkContentType (s.signedData content i) as = .ok () :=
    (SignedMessage.checkContentType_eq_ok Cms.readable_dataType).mpr
      (SignedAttributes.holds_or_lacks_iff.mp (.inr (holds_contentType has)))
  have hsigner (i : SignerInfo) :
      SignedMessage.findSigner (s.signedData content i) (.certificate s.signer.id) =
        .ok s.signer.certificate :=
    SignedMessage.findSigner_eq_ok.mpr ⟨rfl, _, [], [], rfl, rfl, by simp⟩
  obtain ⟨signature, -, rfl⟩ := signerInfo_eq_ok hinfo
  simp only [SignedMessage.ofSignedData, Result.bind_eq_ok, Result.unless_eq_ok]
  exact ⟨rfl, _, rfl, as, rfl, _, hdecode, (), hcontentType _, _,
    SignedMessage.signedContent_eq_ok.mpr rfl, _, hsigner _, rfl⟩

/-- The document of readable signed data is taken apart as the data is. -/
theorem read_of_write {d : SignedData} (hd : Readable d)
    (hb : Der.write (⟨Cms.signedDataType, toElement d⟩ : ContentInfo) = .ok b) :
    SignedMessage.read b = SignedMessage.ofSignedData d := by
  obtain ⟨hread, hdata⟩ := ContentInfo.read_of_write Cms.readable_signedDataType hd hb
  rw [SignedMessage.read, hread]
  change (Result.ofDecoded (ofElement? (toElement d) : Option SignedData) >>= _) = _
  rw [hdata]
  rfl

/-- What a document is read as, if its signer's certificate is readable. -/
theorem read_of_document (hs : Readable s.signer.certificate)
    (has : s.signedAttributes now m (content.getD []) = .ok as) (hinfo : s.signerInfo as = .ok info)
    (hunsigned : ∀ as' ∈ unsigned, Readable as') (hb : s.document content info unsigned = .ok b) :
    SignedMessage.read b =
      SignedMessage.ofSignedData (s.signedData content { info with unsignedAttributes := unsigned }) := by
  obtain ⟨-, hlength⟩ := Der.write_eq_ok.mp hb
  have hfits := ContentInfo.fits_content (Der.fits_of_length_encode hlength)
  have hid : Readable s.signer.id := Certificate.readable_id hs (fits_certificate hfits)
  exact read_of_write (readable_signedData hs
    (readable_signerInfo hid (readable_signedAttributes has) hinfo hunsigned)) hb

/-! ### Verifying and opening -/

/-- What a sound signer signs is genuine. -/
theorem genuine_of_signerInfo (hs : s.signer.Sound)
    (has : s.signedAttributes now m (content.getD []) = .ok as) (hinfo : s.signerInfo as = .ok info) :
    (⟨m.attributes, content, { info with unsignedAttributes := unsigned }, as,
      s.signer.certificate⟩ : SignedMessage).Genuine := by
  obtain ⟨signature, hsign, rfl⟩ := signerInfo_eq_ok hinfo
  have hsignature := Rsa.isSignature_of_sign (Rsa.PrivateKey.checked_of_check hs.checked) hsign
  exact ⟨s.digest, s.signer.key.publicKey, Digest.ofOid_eq_ok.mpr rfl, .inl rfl,
    SignedAttributes.messageDigest_eq_ok.mpr (holds_messageDigest has), hs.paired,
    (Rsa.verifies_iff _ _ _ _).mpr hsignature⟩

section Opening

variable {c : Certificate} {r : Random} {k : Rsa.PrivateKey}

/-- The envelope is opened with the recipient's key, and a message that carries none with any. -/
theorem openWith_of_content (hcontent : (s.content m).run.run random = (.ok content, r))
    (hk : m.attributes.hasEnvelope = true → s.recipient.HeldBy k)
    (hreason : ¬ (m.attributes.pkiStatus = some .failure ∧ m.attributes.failInfo = none)) :
    (⟨m.attributes, content, info, as, c⟩ : SignedMessage).openWith k = m.received := by
  cases henvelope : m.attributes.hasEnvelope with
  | false =>
    rw [m.received_of_not_hasEnvelope henvelope hreason]
    exact SignedMessage.openWith_eq_ok.mpr
      ⟨rfl, (SignedMessage.carries_of_not_hasEnvelope (m := ⟨m.attributes, none⟩) henvelope k _).mpr rfl⟩
  | true =>
    rw [m.received_of_hasEnvelope henvelope]
    rcases content_eq_ok hcontent with ⟨hdata, rfl⟩ | ⟨data, e, octets, r', hdata, he, hoctets, rfl⟩
    · simp only [hdata, SignedMessage.openWith, SignedMessage.envelope, henvelope]
      rfl
    · obtain ⟨hpaired, hundoes, hreadable⟩ := hk henvelope
      obtain ⟨hread, hopened⟩ := Envelope.opens hpaired hundoes hreadable he hoctets
      rw [hdata]
      exact SignedMessage.openWith_eq_ok.mpr ⟨rfl, (SignedMessage.carries_of_hasEnvelope henvelope k _).mpr
        ⟨octets, e, data, rfl, hread, hopened, hdata⟩⟩

/-- A document that a sound signer makes of a message is read, is genuine, and is opened to what is to be
found in it. -/
theorem opens_of_document (hs : s.signer.Sound) (hcontent : (s.content m).run.run random = (.ok content, r))
    (has : s.signedAttributes now m (content.getD []) = .ok as) (hinfo : s.signerInfo as = .ok info)
    (hunsigned : ∀ as' ∈ unsigned, Readable as') (hb : s.document content info unsigned = .ok b)
    (hk : m.attributes.hasEnvelope = true → s.recipient.HeldBy k)
    (hreason : ¬ (m.attributes.pkiStatus = some .failure ∧ m.attributes.failInfo = none)) :
    ∃ signed, SignedMessage.read b = .ok signed ∧ signed.Genuine ∧ signed.openWith k = m.received ∧
      signed.signer = s.signer.certificate ∧ signed.info = { info with unsignedAttributes := unsigned } := by
  have hread := read_of_document hs.readable has hinfo hunsigned hb
  rw [ofSignedData_signedData has hinfo hreason] at hread
  exact ⟨_, hread, genuine_of_signerInfo hs has hinfo, openWith_of_content hcontent hk hreason, rfl, rfl⟩

theorem opens_of_encode (hs : s.signer.Sound) (h : (s.encode now m).run.run random = (.ok b, rest))
    (hk : m.attributes.hasEnvelope = true → s.recipient.HeldBy k)
    (hreason : ¬ (m.attributes.pkiStatus = some .failure ∧ m.attributes.failInfo = none)) :
    ∃ signed, SignedMessage.read b = .ok signed ∧ signed.Genuine ∧ signed.openWith k = m.received ∧
      signed.signer = s.signer.certificate := by
  obtain ⟨content, as, info, hcontent, has, hinfo, hb⟩ := encode_eq_ok h
  obtain ⟨signed, hread, hgenuine, hopened, hsigner, -⟩ :=
    opens_of_document hs hcontent has hinfo (fun _ h => by cases h) hb hk hreason
  exact ⟨signed, hread, hgenuine, hopened, hsigner⟩

end Opening

end Sealing

/-! ### A sample -/

theorem valid_1970 : Calendar.isValid 1970 1 1 0 0 0 = true := by decide

theorem short_1970 : 1970 ≤ Der.lastShortYear := by decide

/-- The start of 1970, at which the sample certificate holds. -/
def Identity.sampleTime : Der.Time := .short ⟨1970, 1, 1, 0, 0, 0, valid_1970⟩ short_1970

/-- A certificate of a small key and the key. -/
def Identity.sample : Identity where
  certificate :=
    { body :=
        { version := .v1
          serial := ⟨[1]⟩
          signature := .plain rsaEncryption
          issuer := ⟨[]⟩
          validity := ⟨sampleTime, sampleTime⟩
          subject := ⟨[]⟩
          keyInfo := .ofKey Rsa.sampleKey.publicKey
          issuerId := none
          subjectId := none
          extensions := none }
      algorithm := .plain rsaEncryption
      signature := .ofBytes [] }
  key := Rsa.sampleKey

theorem Identity.sound_sample : sample.Sound where
  paired := by decide +kernel
  checked := Rsa.check_sampleKey
  readable := fun _ => by decide +kernel

theorem Identity.heldBy_sample : sample.certificate.HeldBy sample.key where
  paired := sound_sample.paired
  undoes := Rsa.undoes_sampleKey
  readable := Certificate.readable_id sound_sample.readable (by unfold Element.Fits; decide +kernel)

namespace Sealing

/-- A sealing from the sample identity to itself. -/
def sample : Sealing := ⟨.sample, Identity.sample.certificate, .md5, .aes128⟩

theorem isName_sampleId : Text.IsName "0123abcd" := by decide

/-- The id of the sample messages. -/
def sampleId : TransactionId := ⟨"0123abcd", isName_sampleId⟩

/-- The question for the revocation list for the sample certificate. -/
def sampleQuestion : Message := ⟨.request sampleId .getCrl ⟨[1]⟩, some [48, 5, 48, 0, 2, 1, 1]⟩

/-- The rejection of the question. -/
def sampleRejection : Message := .failure sampleId ⟨List.replicate 16 1⟩ ⟨[1]⟩ .badRequest

/-- A stream of ones from which some have been drawn. -/
def ones (drawn : Nat) : Random := ⟨fun _ => 1, drawn⟩

theorem room_sample :
    (Rsa.digestInfo sample.digest []).length + 11 ≤ sample.signer.key.publicKey.size := by
  decide +kernel

theorem exists_encode_sampleQuestion :
    ∃ b rest, (sample.encode ⟨0, 0⟩ sampleQuestion).run.run (ones 1) = (.ok b, rest) := by
  rw [encode_of_undoes Rsa.undoes_sampleKey room_sample]
  exact Drawing.exists_of_isOk (by decide +kernel)

theorem exists_encode_sampleRejection :
    ∃ b rest, (sample.encode ⟨0, 0⟩ sampleRejection).run.run (ones 16) = (.ok b, rest) := by
  rw [encode_of_undoes Rsa.undoes_sampleKey room_sample]
  exact Drawing.exists_of_isOk (by decide +kernel)

end Sealing

end CertEnroll
