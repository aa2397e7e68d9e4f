import CertEnroll.Proofs.RoundTrip

/-!
# Proofs.Binding — what a signature is bound to

A signature is over one digest of the signed attributes, the attributes hold one digest of the content,
and the content is the envelope that holds the data.  So two accepted messages under one signature are
the same message, unless two of the strings that were digested collide.
-/

namespace CertEnroll

open Der (Readable SetOf Stems ofElement?)
open SignedAttributes (Holds)
open X509 (Attributes Certificate)

/-- Two different strings among some have the same digest. -/
def Collision (strings : List Bytes) : Prop :=
  ∃ x ∈ strings, ∃ y ∈ strings, x ≠ y ∧ ∃ d : Digest, d.hash x = d.hash y

namespace SignedMessage

variable {s s₁ s₂ : SignedMessage} {k : Rsa.PrivateKey} {m₁ m₂ : Message}

/-- The strings that the digests of two messages are over. -/
def digested (s₁ s₂ : SignedMessage) : List Bytes :=
  [Der.encode s₁.signedAttributes, Der.encode s₂.signedAttributes, s₁.content.getD [],
    s₂.content.getD []]

theorem stems_signedAttributes {b : Bytes} (h : read b = .ok s) : Stems s.signedAttributes := by
  obtain ⟨info, d, hinfo, -, hd, -, hsi, has, -⟩ := read_eq_ok.mp h
  have hsigners := (stems_data hinfo hd).content_and_signers.2
  have hinfo : Stems s.info := hsigners.mem (by simp [hsi])
  exact hinfo.signedAttributes _ has

/-- One private key finds one data in the content. -/
theorem data_eq_of_carries {c₁ c₂ : Option Bytes} (h₁ : m₁.Carries k c₁) (h₂ : m₂.Carries k c₂)
    (hattributes : m₁.attributes = m₂.attributes) (hcontent : c₁.getD [] = c₂.getD []) :
    m₁.data = m₂.data := by
  cases hhas : m₁.attributes.hasEnvelope with
  | false =>
    rw [(carries_of_not_hasEnvelope hhas k _).mp h₁,
      (carries_of_not_hasEnvelope (hattributes ▸ hhas) k _).mp h₂]
  | true =>
    obtain ⟨octets₁, e₁, d₁, ho₁, he₁, hd₁, hm₁⟩ := (carries_of_hasEnvelope hhas k _).mp h₁
    obtain ⟨octets₂, e₂, d₂, ho₂, he₂, hd₂, hm₂⟩ :=
      (carries_of_hasEnvelope (hattributes ▸ hhas) k _).mp h₂
    rw [ho₁, ho₂] at hcontent
    obtain rfl : octets₁ = octets₂ := hcontent
    rw [he₁] at he₂
    cases he₂
    rw [hd₁] at hd₂
    cases hd₂
    rw [hm₁, hm₂]

/-- The attributes and the content make the message. -/
theorem message_eq (h₁ : s₁.openWith k = .ok m₁) (h₂ : s₂.openWith k = .ok m₂)
    (hattributes : s₁.attributes = s₂.attributes)
    (hcontent : s₁.content.getD [] = s₂.content.getD []) : m₁ = m₂ := by
  obtain ⟨ha₁, hc₁⟩ := openWith_eq_ok.mp h₁
  obtain ⟨ha₂, hc₂⟩ := openWith_eq_ok.mp h₂
  have hsame : m₁.attributes = m₂.attributes := by rw [ha₁, ha₂, hattributes]
  have hdata := data_eq_of_carries hc₁ hc₂ hsame hcontent
  cases m₁
  cases m₂
  cases hsame
  cases hdata
  rfl

/-- Two genuine messages of one signer under one signature have digests of one kind, which are the same
for their attributes and, where the attributes are the same, for their contents. -/
theorem Genuine.digests_eq (h₁ : s₁.Genuine) (h₂ : s₂.Genuine) (hsigner : s₁.signer = s₂.signer)
    (hsignature : s₁.info.signature = s₂.info.signature) :
    ∃ d : Digest, d.hash (Der.encode s₁.signedAttributes) = d.hash (Der.encode s₂.signedAttributes) ∧
      (s₁.signedAttributes = s₂.signedAttributes →
        d.hash (s₁.content.getD []) = d.hash (s₂.content.getD [])) := by
  obtain ⟨d₁, key₁, -, -, hmessage₁, hkey₁, hverifies₁⟩ := h₁
  obtain ⟨d₂, key₂, -, -, hmessage₂, hkey₂, hverifies₂⟩ := h₂
  rw [hsigner, hkey₂] at hkey₁
  cases hkey₁
  rw [hsignature] at hverifies₁
  obtain ⟨rfl, hhash⟩ := ((Rsa.verifies_iff _ _ _ _).mp hverifies₁).unique
    ((Rsa.verifies_iff _ _ _ _).mp hverifies₂)
  refine ⟨d₁, hhash, fun hsame => ?_⟩
  rw [hsame] at hmessage₁
  rw [hmessage₁] at hmessage₂
  exact Except.ok.inj hmessage₂

end SignedMessage

/-- Two messages that are accepted under one private key, from the same signer and under the same
signature, are the same message, unless two of the strings that are digested collide: the two sets of
signed attributes and the two contents. -/
theorem Unsealing.signature_binds (k : Rsa.PrivateKey) (b₁ b₂ : Bytes) (s₁ s₂ : SignedMessage)
    (m₁ m₂ : Message) (c : Certificate) (hread₁ : SignedMessage.read b₁ = .ok s₁)
    (hread₂ : SignedMessage.read b₂ = .ok s₂) (h₁ : (standard k).decode b₁ = .ok (m₁, c))
    (h₂ : (standard k).decode b₂ = .ok (m₂, c)) (hsignature : s₁.info.signature = s₂.info.signature) :
    m₁ = m₂ ∨ Collision (s₁.digested s₂) := by
  obtain ⟨s, hs, hgenuine₁, hopened₁, hsigner₁⟩ := decode_eq_ok.mp h₁
  rw [hread₁] at hs
  cases hs
  obtain ⟨s, hs, hgenuine₂, hopened₂, hsigner₂⟩ := decode_eq_ok.mp h₂
  rw [hread₂] at hs
  cases hs
  obtain ⟨d, hattributes, hcontent⟩ := (hgenuine₁ rfl).digests_eq (hgenuine₂ rfl)
    (hsigner₁.trans hsigner₂.symm) hsignature
  by_cases hencoded : Der.encode s₁.signedAttributes = Der.encode s₂.signedAttributes
  case neg => exact .inr ⟨_, by simp [SignedMessage.digested], _, by simp [SignedMessage.digested],
    hencoded, d, hattributes⟩
  case pos =>
    have hsame := Der.attributes_encode_inj (SignedMessage.stems_signedAttributes hread₁)
      (SignedMessage.stems_signedAttributes hread₂) hencoded
    by_cases hoctets : s₁.content.getD [] = s₂.content.getD []
    case neg => exact .inr ⟨_, by simp [SignedMessage.digested], _, by simp [SignedMessage.digested],
      hoctets, d, hcontent hsame⟩
    case pos =>
      refine .inl (SignedMessage.message_eq hopened₁ hopened₂ ?_ hoctets)
      obtain ⟨-, -, -, -, -, -, -, -, hdecode₁, -⟩ := SignedMessage.read_eq_ok.mp hread₁
      obtain ⟨-, -, -, -, -, -, -, -, hdecode₂, -⟩ := SignedMessage.read_eq_ok.mp hread₂
      rw [hsame, hdecode₂] at hdecode₁
      exact (Except.ok.inj hdecode₁).symm

/-! ### Two documents under one signature -/

/-- The sample rejection with an empty set of attributes beside those that are signed. -/
def Sealing.sampleVariant : Result Bytes := do
  let as ← sample.signedAttributes ⟨0, 0⟩ sampleRejection []
  let info ← sample.signerInfo as
  sample.document none info (some .empty)

theorem Sealing.isOk_sampleVariant : sampleVariant.isOk = true := by
  simp only [sampleVariant, signerInfo_of_undoes Rsa.undoes_sampleKey room_sample]
  decide +kernel

/-- What a document of the sample rejection is decoded to. -/
theorem Sealing.decode_sampleRejection {as : Attributes} {info : Cms.SignerInfo}
    {unsigned : Option Attributes} {b : Bytes} (has : sample.signedAttributes ⟨0, 0⟩ sampleRejection [] = .ok as)
    (hinfo : sample.signerInfo as = .ok info) (hunsigned : ∀ as' ∈ unsigned, Readable as')
    (hb : sample.document none info unsigned = .ok b) :
    ∃ s, SignedMessage.read b = .ok s ∧ s.info = { info with unsignedAttributes := unsigned } ∧
      (Unsealing.standard sample.signer.key).decode b =
        .ok (sampleRejection, sample.signer.certificate) := by
  have hcontent : (sample.content sampleRejection).run.run (ones 16) = (.ok none, ones 16) := rfl
  obtain ⟨s, hread, hgenuine, hopened, hsigner, hinfo'⟩ := opens_of_document (k := sample.signer.key)
    Identity.sound_sample hcontent has hinfo hunsigned hb (fun h => by cases h) (by rintro ⟨-, h⟩; cases h)
  exact ⟨s, hread, hinfo', Unsealing.decode_eq_ok.mpr ⟨s, hread, fun _ => hgenuine, hopened, hsigner⟩⟩

theorem Unsealing.signature_binds_sampleVariant : ∃ b₁ b₂ s₁ s₂ m₁ m₂ c, b₁ ≠ b₂ ∧
    SignedMessage.read b₁ = .ok s₁ ∧ SignedMessage.read b₂ = .ok s₂ ∧
    (standard Sealing.sample.signer.key).decode b₁ = .ok (m₁, c) ∧
    (standard Sealing.sample.signer.key).decode b₂ = .ok (m₂, c) ∧
    s₁.info.signature = s₂.info.signature ∧ (m₁ = m₂ ∨ Collision (s₁.digested s₂)) := by
  obtain ⟨b₂, hvariant⟩ := Result.isOk_iff.mp Sealing.isOk_sampleVariant
  obtain ⟨as, has, hvariant⟩ := Result.bind_eq_ok.mp hvariant
  obtain ⟨info, hinfo, hb₂⟩ := Result.bind_eq_ok.mp hvariant
  -- the sealed rejection has the same signed attributes and the same signer
  obtain ⟨b₁, rest, hencode⟩ := Sealing.exists_encode_sampleRejection
  obtain ⟨content, as', info', hcontent, has', hinfo', hb₁⟩ := Sealing.encode_eq_ok hencode
  cases hcontent
  rw [show Sealing.sample.signedAttributes ⟨0, 0⟩ Sealing.sampleRejection [] = .ok as' from has'] at has
  cases has
  rw [hinfo'] at hinfo
  cases hinfo
  obtain ⟨s₁, hread₁, hinfo₁, h₁⟩ := Sealing.decode_sampleRejection has' hinfo' (fun _ h => by cases h) hb₁
  obtain ⟨s₂, hread₂, hinfo₂, h₂⟩ := Sealing.decode_sampleRejection has' hinfo'
    (fun as' h => by cases h; exact Der.readable_setOf fun a ha => by cases ha) hb₂
  have hsignature : s₁.info.signature = s₂.info.signature := by rw [hinfo₁, hinfo₂]
  refine ⟨b₁, b₂, s₁, s₂, _, _, _, ?_, hread₁, hread₂, h₁, h₂, hsignature,
    signature_binds _ _ _ _ _ _ _ _ hread₁ hread₂ h₁ h₂ hsignature⟩
  rintro rfl
  rw [hread₁] at hread₂
  cases hread₂
  rw [hinfo₁] at hinfo₂
  cases congrArg Cms.SignerInfo.unsignedAttributes hinfo₂

end CertEnroll
