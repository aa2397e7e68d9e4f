import CertEnroll.CertStore
import CertEnroll.Cms.EnvelopedData
import CertEnroll.Proofs.Der.Readable

/-!
# Proofs.Der.Structures — the structures of messages are read back

Each structure is readable if the names, numbers and identifiers in it are.
-/

namespace CertEnroll

open Der (Element Fields OctetString Oid Readable SetOf SmallNumber readable_list readable_pair readable_sequence
  readable_setOf sequence optionalField toElement ofElement?)
open Der.Fields (run_value_toElement run_bind_of_run value_toElement explicit?_wrap beyond_cons)

/-! ### Algorithms, attributes and names -/

namespace X509

theorem AlgorithmId.readable {a : AlgorithmId} (h : Readable a.algorithm) : Readable a := by
  refine readable_sequence (toElement a.algorithm :: optionalField a.parameters) rfl
    (fun _ => rfl) fun hs => ?_
  have halgorithm := value_toElement h (hs _ (by simp))
  obtain ⟨o, parameters⟩ := a
  cases parameters with
  | none => simp [halgorithm, optionalField, Fields.nextIf_nil]
  | some e => simp [halgorithm, optionalField, Fields.nextIf_cons]

theorem Attribute.readable {a : Attribute} (h : Readable a.type) : Readable a :=
  readable_pair (f := Attribute.mk) rfl (fun _ => rfl) h (readable_setOf fun e _ => Der.readable_element e)

theorem Attributes.readable {as : Attributes} (h : ∀ a ∈ as.toList, Readable a.type) : Readable as :=
  readable_setOf fun a ha => Attribute.readable (h a ha)

theorem NameAttribute.readable {a : NameAttribute} (h : Readable a.type) : Readable a :=
  readable_pair (f := NameAttribute.mk) rfl (fun _ => rfl) h (Der.readable_element a.value)

theorem Name.readable {n : Name} (h : ∀ s ∈ n.parts, ∀ a ∈ s.toList, Readable a.type) : Readable n := by
  have hparts : Readable n.parts :=
    readable_list fun s hs => readable_setOf fun a ha => NameAttribute.readable (h s hs a ha)
  intro hf
  change (ofElement? (toElement n.parts)).map Name.mk = some n
  rw [hparts hf]
  rfl

theorem IssuerAndSerial.readable {i : IssuerAndSerial} (hi : Readable i.issuer)
    (hs : Readable i.serial) : Readable i :=
  readable_pair (f := IssuerAndSerial.mk) rfl (fun _ => rfl) hi hs

theorem Certificate.readable {c : Certificate} (hbody : Readable c.body) (halgorithm : Readable c.algorithm) :
    Readable c := by
  refine readable_sequence [toElement c.body, toElement c.algorithm, toElement c.signature] rfl
    (fun _ => rfl) fun hs => ?_
  rw [run_value_toElement hbody (hs _ (by simp)), run_value_toElement halgorithm (hs _ (by simp)),
    run_value_toElement (Der.readable_bitString c.signature) (hs _ (by simp))]
  rfl

end X509

namespace Cms

open X509 (Attributes)

/-! ### Typed content and what comes with it -/

theorem ContentInfo.readable {c : ContentInfo} (h : Readable c.contentType) : Readable c := by
  refine readable_sequence [toElement c.contentType, c.content.wrap 0] rfl (fun _ => rfl) fun hs => ?_
  have hcontent : (Fields.explicit? 0).run [c.content.wrap 0] = some (some c.content, []) :=
    explicit?_wrap (by decide) (Der.readable_element c.content) (hs (c.content.wrap 0) (by simp)) []
  rw [run_value_toElement h (hs _ (by simp))]
  simp only [Fields.required, bind_assoc]
  rw [run_bind_of_run hcontent]
  rfl

/-- The content of a document that fits does so itself. -/
theorem ContentInfo.fits_content {c : ContentInfo} (h : (toElement c).Fits) : c.content.Fits :=
  Der.fits_of_length_encode (Element.fits_of_mem_join (e := c.content.wrap 0) h (by simp))

/-- The length of a document grows with that of its content. -/
theorem ContentInfo.length_encode_mono (t : Oid) {e f : Element}
    (h : e.content.length ≤ f.content.length) :
    (Der.encode (⟨t, e⟩ : ContentInfo)).length ≤ (Der.encode (⟨t, f⟩ : ContentInfo)).length := by
  have hwrapped : (e.wrap 0).encode.length ≤ (f.wrap 0).encode.length :=
    Element.length_encode_mono (Element.length_encode_mono h)
  refine Element.length_encode_mono ?_
  change (Element.join [toElement t, e.wrap 0]).length ≤ (Element.join [toElement t, f.wrap 0]).length
  simp only [Element.join_cons, Element.join_nil, List.length_append]
  omega

/-- The document of a readable value, and the value in it, are read back. -/
theorem ContentInfo.read_of_write {α : Type} [Der α] {type : Oid} {a : α} {b : Bytes} (ht : Readable type)
    (ha : Readable a) (h : Der.write (⟨type, toElement a⟩ : ContentInfo) = .ok b) :
    Der.read b = .ok (⟨type, toElement a⟩ : ContentInfo) ∧ ofElement? (toElement a) = some a := by
  have hinfo : Readable (⟨type, toElement a⟩ : ContentInfo) := ContentInfo.readable ht
  refine ⟨hinfo.read h, ?_⟩
  obtain ⟨-, hlength⟩ := Der.write_eq_ok.mp h
  exact ha (ContentInfo.fits_content (Der.fits_of_length_encode hlength))

theorem KeyHolder.readable_certificate {i : X509.IssuerAndSerial} (h : Readable i) :
    Readable (KeyHolder.certificate i) :=
  h.choice rfl rfl

theorem CertificateChoice.readable_certificate {c : X509.Certificate} (h : Readable c) :
    Readable (CertificateChoice.certificate c) :=
  h.choice rfl rfl

theorem RevocationChoice.readable_list {l : X509.RevocationList} (h : Readable l) :
    Readable (RevocationChoice.list l) :=
  h.choice rfl rfl

/-! ### Signed data -/

theorem SignedContent.readable {c : SignedContent} (h : Readable c.contentType) : Readable c := by
  refine readable_sequence (toElement c.contentType ::
    optionalField (c.content.map fun e => e.wrap 0)) rfl (fun _ => rfl) fun hs => ?_
  have hcontent : (Fields.explicit? 0).run (optionalField (c.content.map fun e => e.wrap 0) ++ []) =
      some (c.content, []) :=
    Fields.explicit?_optionalField (by decide) (fun e _ => Der.readable_element e)
      (fun e he => hs e (List.mem_cons_of_mem _ he)) (by simp)
  rw [List.append_nil] at hcontent
  rw [run_value_toElement h (hs _ (by simp)), run_bind_of_run hcontent]
  rfl

theorem SignerInfo.readable {s : SignerInfo} (hsigner : Readable s.signer) (hdigest : Readable s.digest)
    (hsigned : ∀ as ∈ s.signedAttributes, Readable as) (halgorithm : Readable s.signatureAlgorithm)
    (hunsigned : ∀ as ∈ s.unsignedAttributes, Readable as) : Readable s := by
  refine readable_sequence _ rfl (fun _ => rfl) fun hs => ?_
  have hsigned' := Fields.implicit?_optionalField (n := 0) (by decide) (o := s.signedAttributes)
    (r := toElement s.signatureAlgorithm :: toElement s.signature ::
      optionalField (s.unsignedAttributes.map fun a => (toElement a).retag 1))
    (fun _ => rfl) hsigned (fun e he => hs e (by simp [he])) (beyond_cons.mpr ⟨rfl, rfl⟩)
  have hunsigned' := Fields.implicit?_optionalField (n := 1) (by decide) (o := s.unsignedAttributes)
    (r := []) (fun _ => rfl) hunsigned (fun e he => hs e (by simp [he])) (by simp)
  rw [List.append_nil] at hunsigned'
  simp only [List.append_assoc, List.cons_append, List.nil_append]
  rw [run_value_toElement (Der.readable_smallNumber s.version) (hs _ (by simp)),
    run_value_toElement hsigner (hs _ (by simp)),
    run_value_toElement hdigest (hs _ (by simp)), run_bind_of_run hsigned',
    run_value_toElement halgorithm (hs _ (by simp)),
    run_value_toElement (Der.readable_octetString s.signature) (hs _ (by simp)),
    run_bind_of_run hunsigned']
  rfl

theorem SignedData.readable {d : SignedData} (hdigests : Readable d.digests)
    (hcontent : Readable d.content) (hcertificates : ∀ s ∈ d.certificates, Readable s)
    (hrevocations : ∀ s ∈ d.revocations, Readable s) (hsigners : Readable d.signers) : Readable d := by
  refine readable_sequence _ rfl (fun _ => rfl) fun hs => ?_
  -- the revocation lists, or the signers where there are none, are not taken for the certificates
  have hbeyond : Fields.Beyond 0 (optionalField (d.revocations.map fun c => (toElement c).retag 1) ++
      [toElement d.signers]) := by
    cases d.revocations <;> exact beyond_cons.mpr ⟨rfl, rfl⟩
  have hcertificates' := Fields.implicit?_optionalField (n := 0) (by decide) (o := d.certificates)
    (fun _ => rfl) hcertificates (fun e he => hs e (by simp [he])) hbeyond
  have hrevocations' := Fields.implicit?_optionalField (n := 1) (by decide) (o := d.revocations)
    (r := [toElement d.signers]) (fun _ => rfl) hrevocations (fun e he => hs e (by simp [he]))
    (beyond_cons.mpr ⟨rfl, rfl⟩)
  simp only [List.append_assoc, List.cons_append, List.nil_append]
  rw [run_value_toElement (Der.readable_smallNumber d.version) (hs _ (by simp)),
    run_value_toElement hdigests (hs _ (by simp)), run_value_toElement hcontent (hs _ (by simp)),
    run_bind_of_run hcertificates', run_bind_of_run hrevocations',
    run_value_toElement hsigners (hs _ (by simp))]
  rfl

/-! ### Enveloped data -/

theorem KeyTransport.readable {k : KeyTransport} (hrecipient : Readable k.recipient)
    (halgorithm : Readable k.algorithm) : Readable k := by
  refine readable_sequence _ rfl (fun _ => rfl) fun hs => ?_
  rw [run_value_toElement (Der.readable_smallNumber k.version) (hs _ (by simp)),
    run_value_toElement hrecipient (hs _ (by simp)), run_value_toElement halgorithm (hs _ (by simp)),
    run_value_toElement (Der.readable_octetString k.encryptedKey) (hs _ (by simp))]
  rfl

theorem RecipientInfo.readable_transport {k : KeyTransport} (h : Readable k) :
    Readable (RecipientInfo.transport k) :=
  h.choice rfl rfl

theorem EncryptedContent.readable {c : EncryptedContent} (htype : Readable c.contentType)
    (halgorithm : Readable c.algorithm) : Readable c := by
  refine readable_sequence _ rfl (fun _ => rfl) fun hs => ?_
  have hcontent := Fields.implicit?_optionalField (n := 0) (by decide) (o := c.content) (r := [])
    (fun _ => rfl) (fun b _ => Der.readable_octetString b) (fun e he => hs e (by simp [he])) (by simp)
  rw [List.append_nil] at hcontent
  simp only [List.cons_append, List.nil_append]
  rw [run_value_toElement htype (hs _ (by simp)), run_value_toElement halgorithm (hs _ (by simp)),
    run_bind_of_run hcontent]
  rfl

theorem EnvelopedData.readable {d : EnvelopedData} (horiginator : ∀ o ∈ d.originator, Readable o)
    (hrecipients : Readable d.recipients) (hcontent : Readable d.content)
    (hattributes : ∀ as ∈ d.unprotectedAttributes, Readable as) : Readable d := by
  refine readable_sequence _ rfl (fun _ => rfl) fun hs => ?_
  have horiginator' := Fields.implicit?_optionalField (n := 0) (by decide) (o := d.originator)
    (r := toElement d.recipients :: toElement d.content ::
      optionalField (d.unprotectedAttributes.map fun a => (toElement a).retag 1))
    (fun _ => rfl) horiginator (fun e he => hs e (by simp [he])) (beyond_cons.mpr ⟨rfl, rfl⟩)
  have hattributes' := Fields.implicit?_optionalField (n := 1) (by decide) (o := d.unprotectedAttributes)
    (r := []) (fun _ => rfl) hattributes (fun e he => hs e (by simp [he])) (by simp)
  rw [List.append_nil] at hattributes'
  simp only [List.append_assoc, List.cons_append, List.nil_append]
  rw [run_value_toElement (Der.readable_smallNumber d.version) (hs _ (by simp)),
    run_bind_of_run horiginator', run_value_toElement hrecipients (hs _ (by simp)),
    run_value_toElement hcontent (hs _ (by simp)), run_bind_of_run hattributes']
  rfl

end Cms

end CertEnroll
