import CertEnroll.Proofs.Acceptance
import CertEnroll.Proofs.Der.Origins
import CertEnroll.Proofs.Rsa.Signatures
import CertEnroll.Proofs.SignedAttributes

/-!
# Proofs.WellSigned — which documents are accepted as signed messages

`WellSigned` lists what a document has to be, and names the parts in which it shows.  The reader and the
verifier check exactly this, in an order of their own: a document is accepted if and only if it is well
signed, and what is returned is the message and the certificate that it is well signed for.
-/

namespace CertEnroll

open Cms (CertificateChoice ContentInfo KeyHolder SignedData SignerInfo)
open Der (Element OctetString Oid Readable SetOf Stems ofElement? toElement)
open SignedAttributes (Holds Lacks)
open X509 (Attribute Attributes Certificate)

theorem Digest.ofOid_eq_ok {o : Oid} {d : Digest} : Digest.ofOid o = .ok d ↔ o = d.oid := by
  have hself (d : Digest) : all.find? (fun d' => d'.oid = d.oid) = some d := by
    cases d <;> decide
  rw [Digest.ofOid, Result.ofOption_eq_ok]
  constructor
  · intro h
    have hoid : d.oid = o := by simpa using List.find?_some h
    exact hoid.symm
  · rintro rfl
    exact hself d

theorem MessageAttributes.hasEnvelope_eq_true_iff {a : MessageAttributes} :
    a.hasEnvelope = true ↔ a.pkiStatus = none ∨ a.pkiStatus = some .success := by
  simp [hasEnvelope, isRequest]

theorem MessageAttributes.hasEnvelope_eq_false_iff {a : MessageAttributes} :
    a.hasEnvelope = false ↔ a.pkiStatus = some .pending ∨ a.pkiStatus = some .failure := by
  rw [← Bool.not_eq_true, hasEnvelope_eq_true_iff]
  rcases a.pkiStatus with _ | _ | _ | _ <;> simp

/-! ### Well-signed documents -/

/-- A certificate is the first one in a set, in the order of the set, that a signer names. -/
def X509.Certificate.FirstNamed (c : Certificate) (certificates : Option (SetOf CertificateChoice))
    (holder : KeyHolder) : Prop :=
  holder = .certificate c.id ∧ ∃ s before after, certificates = some s ∧
    s.toList = before ++ .certificate c :: after ∧ ∀ c', .certificate c' ∈ before → c'.id ≠ c.id

/-- A message has no data if it says that the request waits or is rejected; otherwise its data is what
the holder of the key finds in the envelope that the content is. -/
def Message.Carries (m : Message) (k : Rsa.PrivateKey) (content : Option Bytes) : Prop :=
  match m.attributes.pkiStatus with
  | some .pending | some .failure => m.data = none
  | none | some .success => ∃ octets envelope data, content = some octets ∧
      Envelope.read octets = .ok envelope ∧ envelope.decrypt k = .ok data ∧ m.data = some data

/-- The parts of a signed document. -/
structure SignedParts where
  document : ContentInfo
  data : SignedData
  info : SignerInfo
  attributes : Attributes
  content : Option Bytes
  digest : Digest
  key : Rsa.PublicKey

/-- A document is the message `m` for the holder of the key `k`, well signed by the holder of the
certificate `c`. -/
structure WellSigned (k : Rsa.PrivateKey) (b : Bytes) (m : Message) (c : Certificate)
    (p : SignedParts) : Prop where
  document : Der.read b = .ok p.document
  documentType : p.document.contentType = Cms.signedDataType
  data : ofElement? p.document.content = some p.data
  version : p.data.version = .v1
  onlySigner : p.data.signers.toList = [p.info]
  signedAttributes : p.info.signedAttributes = some p.attributes
  attributes : MessageAttributes.decode p.attributes = .ok m.attributes
  contentType : ∀ a ∈ p.attributes.toList, a.type = AttributeId.contentType →
    a = .single AttributeId.contentType (toElement p.data.content.contentType)
  content : p.data.content.content = p.content.map fun octets => toElement (⟨octets⟩ : OctetString)
  signer : c.FirstNamed p.data.certificates p.info.signer
  digest : p.info.digest.algorithm = p.digest.oid
  algorithm : p.info.signatureAlgorithm.algorithm = rsaEncryption ∨
    p.info.signatureAlgorithm.algorithm = p.digest.signatureOid
  messageDigest : Holds p.attributes AttributeId.messageDigest
    ⟨.octetString, p.digest.hash (p.content.getD [])⟩
  key : c.publicKey = .ok p.key
  signature : Rsa.IsSignature p.digest p.key (Der.encode p.attributes) p.info.signature.bytes
  carries : m.Carries k p.content

/-! ### Taking apart -/

namespace SignedMessage

theorem onlySigner_eq_ok {d : SignedData} {s : SignerInfo} :
    onlySigner d = .ok s ↔ d.signers.toList = [s] := by
  unfold onlySigner
  split
  case h_1 s' h => simp [h]
  case h_2 h =>
    constructor
    · intro h'
      cases h'
    · intro h'
      exact absurd h' (h s)

theorem checkContentType_eq_ok {d : SignedData} {as : Attributes} {u : Unit}
    (hr : Readable d.content.contentType) :
    checkContentType d as = .ok u ↔ ∀ a ∈ as.toList, a.type = AttributeId.contentType →
      a = .single AttributeId.contentType (toElement d.content.contentType) := by
  rw [← SignedAttributes.holds_or_lacks_iff, checkContentType, Result.bind_eq_ok]
  constructor
  · rintro ⟨found, hfound, h⟩
    cases found with
    | none => exact .inl (SignedAttributes.findAs_eq_none.mp hfound)
    | some o =>
      obtain ⟨e, he, hread⟩ := SignedAttributes.findAs_eq_some.mp hfound
      obtain ⟨rfl, -⟩ := Result.check_eq_ok.mp h
      rw [(Der.ofElement?_oid hread).1] at he
      exact .inr he
  · rintro (h | h)
    · exact ⟨none, SignedAttributes.findAs_eq_none.mpr h, rfl⟩
    · refine ⟨some d.content.contentType, ?_, Result.check_eq_ok.mpr ⟨rfl, rfl⟩⟩
      exact SignedAttributes.findAs_eq_some.mpr ⟨_, h, hr d.content.contentType.fits⟩

theorem ofElement?_octetString {e : Element} {s : OctetString} :
    ofElement? e = some s ↔ e = toElement s := by
  obtain ⟨tag, content⟩ := e
  obtain ⟨bytes⟩ := s
  change (if tag = .octetString then some (⟨content⟩ : OctetString) else none) = _ ↔ _ = Element.mk _ _
  split <;> simp_all

theorem signedContent_eq_ok {d : SignedData} {content : Option Bytes} :
    signedContent d = .ok content ↔
      d.content.content = content.map fun octets => toElement (⟨octets⟩ : OctetString) := by
  unfold signedContent
  cases d.content.content with
  | none => cases content <;> simp
  | some e =>
    simp only [Result.bind_eq_ok, Result.ofDecoded, Result.ofOption_eq_ok, ofElement?_octetString]
    constructor
    · rintro ⟨s, rfl, h⟩
      cases h
      rfl
    · intro h
      cases content with
      | none => cases h
      | some octets => exact ⟨⟨octets⟩, Option.some.inj h, rfl⟩

theorem find?_certificate {l : List CertificateChoice} {id : X509.IssuerAndSerial} {c : Certificate} :
    (l.filterMap CertStore.certificate?).find? (fun c => c.id = id) = some c ↔
      id = c.id ∧ ∃ before after, l = before ++ .certificate c :: after ∧
        ∀ c', .certificate c' ∈ before → c'.id ≠ c.id := by
  have hnamed (x : CertificateChoice) : (CertStore.certificate? x).any (fun c => decide (c.id = id)) = true ↔
      ∃ c, x = .certificate c ∧ c.id = id := by
    cases x <;> simp [CertStore.certificate?]
  rw [List.find?_filterMap, Option.bind_eq_some_iff]
  constructor
  · rintro ⟨x, hx, hc⟩
    obtain ⟨hp, before, after, rfl, hbefore⟩ := List.find?_eq_some_iff_append.mp hx
    obtain ⟨c', rfl, rfl⟩ := (hnamed x).mp hp
    cases hc
    refine ⟨rfl, before, after, rfl, fun c' hc' hid => ?_⟩
    have hnot := hbefore _ hc'
    rw [(hnamed (.certificate c')).mpr ⟨c', rfl, hid⟩] at hnot
    cases hnot
  · rintro ⟨rfl, before, after, rfl, hbefore⟩
    refine ⟨.certificate c, List.find?_eq_some_iff_append.mpr ⟨?_, before, after, rfl, ?_⟩, rfl⟩
    · exact (hnamed _).mpr ⟨c, rfl, rfl⟩
    · intro x hx
      have hnot : ¬ ∃ c', x = .certificate c' ∧ c'.id = c.id := by
        rintro ⟨c', rfl, hid⟩
        exact hbefore c' hx hid
      simpa using fun h => hnot ((hnamed x).mp h)

theorem findSigner_eq_ok {d : SignedData} {holder : KeyHolder} {c : Certificate} :
    findSigner d holder = .ok c ↔ c.FirstNamed d.certificates holder := by
  unfold Certificate.FirstNamed
  cases holder with
  | keyId id => simp [findSigner]
  | certificate id =>
    rw [findSigner, Result.ofOption_eq_ok, certificates, find?_certificate]
    cases d.certificates with
    | none => simp
    | some s => simp

/-- The signed data of a document was read from an element of its own. -/
theorem stems_data {b : Bytes} {info : ContentInfo} {d : SignedData} (hinfo : Der.read b = .ok info)
    (hd : ofElement? info.content = some d) : Stems d := by
  obtain ⟨-, e, -, hfits, he⟩ := Der.read_eq_ok.mp hinfo
  have hstems : Stems info := ⟨e, hfits, he⟩
  exact ⟨info.content, hstems.content, hd⟩

/-- What a document is taken apart into. -/
theorem read_eq_ok {b : Bytes} {s : SignedMessage} :
    read b = .ok s ↔ ∃ (info : ContentInfo) (d : SignedData), Der.read b = .ok info ∧
      info.contentType = Cms.signedDataType ∧ ofElement? info.content = some d ∧
      d.version = .v1 ∧ d.signers.toList = [s.info] ∧
      s.info.signedAttributes = some s.signedAttributes ∧
      MessageAttributes.decode s.signedAttributes = .ok s.attributes ∧
      checkContentType d s.signedAttributes = .ok () ∧
      signedContent d = .ok s.content ∧ s.signer.FirstNamed d.certificates s.info.signer := by
  simp only [read, ofSignedData, Result.bind_eq_ok, Result.unless_eq_ok, Result.ofDecoded,
    Result.ofOption_eq_ok, onlySigner_eq_ok, findSigner_eq_ok, Result.pure_eq_ok]
  constructor
  · rintro ⟨info, hinfo, htype, d, hd, hversion, si, hsi, as, has, attributes, hattributes, _, hcontentType,
      content, hcontent, signer, hsigner, rfl⟩
    exact ⟨info, d, hinfo, htype, hd, hversion, hsi, has, hattributes, hcontentType, hcontent, hsigner⟩
  · rintro ⟨info, d, hinfo, htype, hd, hversion, hsi, has, hattributes, hcontentType, hcontent, hsigner⟩
    exact ⟨info, hinfo, htype, d, hd, hversion, s.info, hsi, s.signedAttributes, has, s.attributes,
      hattributes, (), hcontentType, s.content, hcontent, s.signer, hsigner, rfl⟩

/-! ### Opening -/

theorem envelope_eq_none {s : SignedMessage} :
    s.envelope = .ok none ↔ s.attributes.hasEnvelope = false := by
  unfold envelope
  cases s.attributes.hasEnvelope with
  | false => simp
  | true => simp [Result.bind_eq_ok, Result.map_eq_ok]

theorem envelope_eq_some {s : SignedMessage} {e : Envelope} :
    s.envelope = .ok (some e) ↔ s.attributes.hasEnvelope = true ∧
      ∃ octets, s.content = some octets ∧ Envelope.read octets = .ok e := by
  unfold envelope
  cases s.attributes.hasEnvelope with
  | false => simp
  | true => simp [Result.bind_eq_ok, Result.map_eq_ok, Result.ofOption_eq_ok]

theorem carries_of_hasEnvelope {m : Message} (h : m.attributes.hasEnvelope = true) (k : Rsa.PrivateKey)
    (content : Option Bytes) : m.Carries k content ↔ ∃ octets envelope data, content = some octets ∧
      Envelope.read octets = .ok envelope ∧ envelope.decrypt k = .ok data ∧ m.data = some data := by
  rcases MessageAttributes.hasEnvelope_eq_true_iff.mp h with hs | hs <;> simp only [Message.Carries, hs]

theorem carries_of_not_hasEnvelope {m : Message} (h : m.attributes.hasEnvelope = false)
    (k : Rsa.PrivateKey) (content : Option Bytes) : m.Carries k content ↔ m.data = none := by
  rcases MessageAttributes.hasEnvelope_eq_false_iff.mp h with hs | hs <;> simp only [Message.Carries, hs]

theorem openWith_eq_ok {s : SignedMessage} {k : Rsa.PrivateKey} {m : Message} :
    s.openWith k = .ok m ↔ m.attributes = s.attributes ∧ m.Carries k s.content := by
  rw [openWith, Result.bind_eq_ok]
  constructor
  · rintro ⟨found, hfound, h⟩
    cases found with
    | none =>
      cases h
      exact ⟨rfl, (carries_of_not_hasEnvelope (envelope_eq_none.mp hfound) k _).mpr rfl⟩
    | some e =>
      obtain ⟨data, hdata, h⟩ := Result.bind_eq_ok.mp h
      cases h
      obtain ⟨hhas, octets, hoctets, hread⟩ := envelope_eq_some.mp hfound
      exact ⟨rfl, (carries_of_hasEnvelope hhas k _).mpr ⟨octets, e, data, hoctets, hread, hdata, rfl⟩⟩
  · obtain ⟨attributes, data⟩ := m
    rintro ⟨hattributes, h⟩
    cases hattributes
    cases hhas : s.attributes.hasEnvelope with
    | false =>
      obtain rfl : data = none := (carries_of_not_hasEnvelope hhas k _).mp h
      exact ⟨none, envelope_eq_none.mpr hhas, rfl⟩
    | true =>
      obtain ⟨octets, e, d, hoctets, hread, hdata, hd⟩ := (carries_of_hasEnvelope hhas k _).mp h
      cases hd
      exact ⟨some e, envelope_eq_some.mpr ⟨hhas, octets, hoctets, hread⟩,
        Result.bind_eq_ok.mpr ⟨d, hdata, rfl⟩⟩

end SignedMessage

/-! ### Acceptance -/

/-- Messages are accepted with verification exactly from the documents that are well signed. -/
theorem Unsealing.decode_eq_ok_iff_wellSigned (k : Rsa.PrivateKey) (b : Bytes) (m : Message)
    (c : Certificate) :
    (Unsealing.standard k).decode b = .ok (m, c) ↔ ∃ p, WellSigned k b m c p := by
  rw [decode_eq_ok]
  constructor
  · rintro ⟨s, hread, hgenuine, hopened, rfl⟩
    obtain ⟨info, d, hinfo, htype, hd, hversion, hsi, has, hattributes, hcontentType, hcontent, hsigner⟩ :=
      SignedMessage.read_eq_ok.mp hread
    obtain ⟨digest, key, hdigest, halgorithm, hmessage, hkey, hsignature⟩ := hgenuine rfl
    obtain ⟨hm, hcarries⟩ := SignedMessage.openWith_eq_ok.mp hopened
    have hstems := SignedMessage.stems_data hinfo hd
    refine ⟨⟨info, d, s.info, s.signedAttributes, s.content, digest, key⟩, ?_⟩
    exact {
      document := hinfo
      documentType := htype
      data := hd
      version := hversion
      onlySigner := hsi
      signedAttributes := has
      attributes := hm ▸ hattributes
      contentType := (SignedMessage.checkContentType_eq_ok hstems.content_and_signers.1.contentType).mp
        hcontentType
      content := SignedMessage.signedContent_eq_ok.mp hcontent
      signer := hsigner
      digest := Digest.ofOid_eq_ok.mp hdigest
      algorithm := halgorithm
      messageDigest := SignedAttributes.messageDigest_eq_ok.mp hmessage
      key := hkey
      signature := (Rsa.verifies_iff _ _ _ _).mp hsignature
      carries := hcarries }
  · rintro ⟨p, h⟩
    have hstems := SignedMessage.stems_data h.document h.data
    refine ⟨⟨m.attributes, p.content, p.info, p.attributes, c⟩, ?_, fun _ => ?_, ?_, rfl⟩
    · exact SignedMessage.read_eq_ok.mpr ⟨p.document, p.data, h.document, h.documentType, h.data, h.version,
        h.onlySigner, h.signedAttributes, h.attributes,
        (SignedMessage.checkContentType_eq_ok hstems.content_and_signers.1.contentType).mpr h.contentType,
        SignedMessage.signedContent_eq_ok.mpr h.content, h.signer⟩
    · exact ⟨p.digest, p.key, Digest.ofOid_eq_ok.mpr h.digest, h.algorithm,
        SignedAttributes.messageDigest_eq_ok.mpr h.messageDigest, h.key,
        (Rsa.verifies_iff _ _ _ _).mpr h.signature⟩
    · exact SignedMessage.openWith_eq_ok.mpr ⟨rfl, h.carries⟩

end CertEnroll
