import CertEnroll.Proofs.AttributeSets
import CertEnroll.Proofs.Issuance
import CertEnroll.Proofs.OperationRoundTrip

/-!
# Proofs.Passwords — the password of a request comes back as it was given

A password travels in one of two forms, which its characters decide, as the value of one attribute of a
set.  Its way back starts from the set, whose order is not that in which the attributes were given.  The
subject is the only part of a request that may not be read again; where it is, the request comes back whole.
-/

namespace CertEnroll

open Der (BitString Element Fields Readable SetOf ofElement? readable_oid readable_pair readable_sequence
  sequence toElement)
open Der.Fields (implicit?_retag run_bind_of_run run_value_bind run_value_toElement)
open X509 (Attribute CertificationRequest KeyInfo Name RequestBody)

/-! ### Texts -/

theorem Bytes.utf8?_ofUtf8 (s : String) : (Bytes.ofUtf8 s).utf8? = some s := by
  have harray : (⟨s.toUTF8.data.toList.toArray⟩ : ByteArray) = s.toUTF8 := by simp
  unfold utf8? ofUtf8 String.fromUTF8?
  rw [harray]
  exact dif_pos s.isValidUTF8

/-- A text is read back from either form. -/
theorem X509.directoryText?_directoryString (s : String) : directoryText? (directoryString s) = some s := by
  by_cases hs : Text.allPrintable s = true
  · have hascii : ∀ c ∈ s.toList, c.toNat < 128 := fun c hc =>
      Text.toNat_lt_of_isPrintable (List.all_eq_true.mp hs c hc)
    rw [directoryString, if_pos hs]
    show ((Bytes.ofAscii s).ascii?.filter Text.allPrintable) = some s
    rw [Bytes.ascii?_ofAscii hascii]
    exact if_pos hs
  · rw [directoryString, if_neg hs]
    exact Bytes.utf8?_ofUtf8 s

/-! ### Documents -/

/-- What is read from the document of a value is read from its element. -/
theorem Der.read_iff_of_write {α : Type} [Der α] {a a' : α} {b : Bytes} (h : Der.write a = .ok b) :
    Der.read b = .ok a' ↔ ofElement? (toElement a) = some a' := by
  obtain ⟨rfl, hlength⟩ := Der.write_eq_ok.mp h
  have hfits := Der.fits_of_length_encode hlength
  rw [Der.read_eq_ok]
  constructor
  · rintro ⟨-, e, he, hfits', ha⟩
    rwa [Element.encode_inj hfits hfits' he]
  · intro ha
    exact ⟨hlength, _, rfl, hfits, ha⟩

/-! ### Requests -/

namespace X509

theorem KeyInfo.readable {k : KeyInfo} (h : Readable k.algorithm.algorithm) : Readable k :=
  readable_pair (f := KeyInfo.mk) rfl (fun _ => rfl) (AlgorithmId.readable h) (Der.readable_bitString k.key)

/-- The key and the attributes of a request can be read back. -/
structure RequestBody.Plain (r : RequestBody) : Prop where
  keyInfo : Readable r.keyInfo
  attributes : Readable r.attributes

/-- The subject is read from its own element, and the attributes come back. -/
theorem RequestBody.read_iff {r r' : RequestBody} (h : r.Plain) (hf : (toElement r).Fits) :
    ofElement? (toElement r) = some r' ↔ ∃ subject, ofElement? (toElement r.subject) = some subject ∧
      r' = { r with subject } := by
  have hs : ∀ e ∈ [toElement r.version, toElement r.subject, toElement r.keyInfo,
      (toElement r.attributes).retag 0], e.Fits := fun _ => Element.fits_of_mem_join hf
  have hattributes := implicit?_retag (n := 0) (by decide) (t := .set) rfl h.attributes
    (hs ((toElement r.attributes).retag 0) (by simp)) []
  change Fields.ofSequence? _ (sequence _) = _ ↔ _
  rw [Fields.ofSequence?_sequence hf, Fields.readAll_eq_some,
    run_value_toElement (Der.readable_smallNumber r.version) (hs _ (by simp)), run_value_bind]
  refine exists_congr fun subject => and_congr_right fun _ => ?_
  simp only [Fields.required, bind_assoc]
  rw [run_value_toElement h.keyInfo (hs _ (by simp)), run_bind_of_run hattributes]
  constructor
  · intro hr
    cases hr
    rfl
  · rintro rfl
    rfl

/-- A request is read back with the subject that is read from its own element. -/
theorem CertificationRequest.read_iff {r r' : CertificationRequest} (hbody : r.body.Plain)
    (halgorithm : Readable r.algorithm) (hf : (toElement r).Fits) :
    ofElement? (toElement r) = some r' ↔ ∃ subject, ofElement? (toElement r.body.subject) = some subject ∧
      r' = { r with body.subject := subject } := by
  have hs : ∀ e ∈ [toElement r.body, toElement r.algorithm, toElement r.signature], e.Fits :=
    fun _ => Element.fits_of_mem_join hf
  have hfields (body : RequestBody) (x : CertificationRequest) :
      (do return ⟨body, ← Fields.value, ← Fields.value⟩ : Fields CertificationRequest).run
        [toElement r.algorithm, toElement r.signature] = some (x, []) ↔ x = { r with body } := by
    rw [run_value_toElement halgorithm (hs _ (by simp)),
      run_value_toElement (Der.readable_bitString r.signature) (hs _ (by simp))]
    constructor
    · intro h
      cases h
      rfl
    · rintro rfl
      rfl
  change Fields.ofSequence? _ (sequence _) = _ ↔ _
  rw [Fields.ofSequence?_sequence hf, Fields.readAll_eq_some, run_value_bind]
  constructor
  · rintro ⟨body, hread, hr⟩
    obtain ⟨subject, hsubject, rfl⟩ := (RequestBody.read_iff hbody (hs _ (by simp))).mp hread
    exact ⟨subject, hsubject, (hfields _ _).mp hr⟩
  · rintro ⟨subject, hsubject, hr⟩
    exact ⟨_, (RequestBody.read_iff hbody (hs _ (by simp))).mpr ⟨subject, hsubject, rfl⟩,
      (hfields _ _).mpr hr⟩

/-! ### Requests that are made -/

variable {key : Rsa.PrivateKey} {subject : Name} {password : Option String} {r : CertificationRequest}

/-- What a request that is made holds: the attributes are in the order of their set. -/
structure CertificationRequest.Holds (r : CertificationRequest) (key : Rsa.PublicKey) (subject : Name)
    (password : Option String) : Prop where
  keyInfo : r.body.keyInfo = .ofKey key
  subject : r.body.subject = subject
  attributes : r.body.attributes.toList.Perm (requestAttributes password)
  algorithm : r.algorithm = issueAlgorithm

theorem issueRequest_eq_ok : issueRequest key subject password = .ok r ↔
    ∃ attributes signature, SetOf.ofList? (requestAttributes password) = some attributes ∧
      signBody key (⟨⟨0, by decide⟩, subject, .ofKey key.publicKey, attributes⟩ : RequestBody) =
        .ok signature ∧
      r = ⟨⟨⟨0, by decide⟩, subject, .ofKey key.publicKey, attributes⟩, issueAlgorithm, signature⟩ := by
  simp only [issueRequest, Result.bind_eq_ok, Result.ofOption_eq_ok, Result.pure_eq_ok]
  constructor
  · rintro ⟨attributes, hattributes, signature, hsignature, rfl⟩
    exact ⟨attributes, signature, hattributes, hsignature, rfl⟩
  · rintro ⟨attributes, signature, hattributes, hsignature, rfl⟩
    exact ⟨attributes, hattributes, signature, hsignature, rfl⟩

theorem holds_of_issueRequest (h : issueRequest key subject password = .ok r) :
    r.Holds key.publicKey subject password := by
  obtain ⟨attributes, signature, hattributes, -, rfl⟩ := issueRequest_eq_ok.mp h
  exact ⟨rfl, rfl, SetOf.perm_of_ofList? hattributes, rfl⟩

namespace CertificationRequest.Holds

variable {key : Rsa.PublicKey}

/-- The password is found in the set, wherever it stands. -/
theorem password? (h : r.Holds key subject password) : r.password? = password := by
  have hfilter := h.attributes.filter fun a => decide (a.type = challengePassword)
  cases password with
  | none =>
    have hnone : r.body.attributes.toList.filter (fun a => decide (a.type = challengePassword)) = [] :=
      List.perm_nil.mp hfilter
    rw [CertificationRequest.password?, ← List.head?_filter, hnone]
    rfl
  | some p =>
    have hsome : r.body.attributes.toList.filter (fun a => decide (a.type = challengePassword)) =
        [.single challengePassword (directoryString p)] := List.perm_singleton.mp hfilter
    rw [CertificationRequest.password?, ← List.head?_filter, hsome]
    exact directoryText?_directoryString p

theorem plain (h : r.Holds key subject password) : r.body.Plain where
  keyInfo := by
    rw [h.keyInfo]
    exact KeyInfo.readable readable_rsaEncryption
  attributes := by
    have htypes : ∀ a ∈ requestAttributes password, Readable a.type := by
      have hextension : Readable extensionRequest := readable_oid (by decide)
      have hpassword : Readable challengePassword := readable_oid (by decide)
      cases password <;> simp [requestAttributes, Attribute.single, hextension, hpassword]
    exact Attributes.readable fun a ha => htypes a (h.attributes.subset ha)

theorem readable_algorithm (h : r.Holds key subject password) : Readable r.algorithm := by
  rw [h.algorithm]
  exact AlgorithmId.readable (readable_oid (by decide))

theorem fits_subject {b : Bytes} (h : r.Holds key subject password) (hb : Der.write r = .ok b) :
    (toElement subject).Fits := by
  obtain ⟨-, hlength⟩ := Der.write_eq_ok.mp hb
  have hrequest : (sequence [toElement r.body, toElement r.algorithm, toElement r.signature]).Fits :=
    Der.fits_of_length_encode hlength
  have hbody : (sequence [toElement r.body.version, toElement r.body.subject, toElement r.body.keyInfo,
      (toElement r.body.attributes).retag 0]).Fits := Element.fits_of_mem_join hrequest List.mem_cons_self
  rw [← h.subject]
  exact Element.fits_of_mem_join hbody (List.mem_cons_of_mem _ List.mem_cons_self)

end CertificationRequest.Holds

end X509

/-! ### Operations -/

namespace Operation

variable {key : Rsa.PublicKey} {subject : Name} {password : Option String} {r : CertificationRequest} {b : Bytes}
  {op : Operation}

/-- A request that was made is read with the subject that is read from its own element. -/
theorem read_of_holds (h : r.Holds key subject password) (hb : Der.write r = .ok b) :
    Operation.read .pkcsReq b = .ok op ↔ ∃ s, ofElement? (toElement subject) = some s ∧
      op = pkcsReq { r with body.subject := s } := by
  obtain ⟨-, hlength⟩ := Der.write_eq_ok.mp hb
  have hread (r' : CertificationRequest) :=
    (Der.read_iff_of_write hb : Der.read b = .ok r' ↔ _).trans
      (CertificationRequest.read_iff h.plain h.readable_algorithm (Der.fits_of_length_encode hlength))
  rw [h.subject] at hread
  refine Result.map_eq_ok.trans ?_
  constructor
  · rintro ⟨r', hr', rfl⟩
    obtain ⟨s, hs, rfl⟩ := (hread r').mp hr'
    exact ⟨s, hs, rfl⟩
  · rintro ⟨s, hs, rfl⟩
    exact ⟨_, (hread _).mpr ⟨s, hs, rfl⟩, rfl⟩

/-- The password of a request is the one that was given, before it is written and after it is read.  What
is written is read as it was exactly if the subject can be read back, as every subject can that was read
itself.  No other operation has a password. -/
theorem passwords_survive :
    (∀ (key : Rsa.PrivateKey) (subject : Name) (password : Option String) (op : Operation),
      enrollment key subject password = .ok op →
      op.messageType = .pkcsReq ∧ op.challengePassword? = password ∧
      ((∃ b, op.write = .ok b) ↔ op.partsLength ≤ Der.maxLength) ∧
      ∀ b, op.write = .ok b →
        (Operation.read .pkcsReq b = .ok op ↔ Readable subject) ∧
        ∀ op', Operation.read .pkcsReq b = .ok op' → op'.challengePassword? = password) ∧
    (∀ (b : Bytes) (subject : Name), Der.read b = .ok subject → Readable subject) ∧
    ∀ op : Operation, op.messageType ≠ .pkcsReq → op.challengePassword? = none := by
  refine ⟨fun key subject password op hop => ?_, fun b subject hread => ?_, fun op htype => ?_⟩
  · obtain ⟨r, hr, rfl⟩ := Result.map_eq_ok.mp hop
    have hholds := X509.holds_of_issueRequest hr
    refine ⟨rfl, hholds.password?, ?_, fun b hb => ⟨?_, fun op' hop' => ?_⟩⟩
    · show (∃ b, Der.write r = .ok b) ↔ (Der.encode r).length ≤ Der.maxLength
      simp only [Der.write_eq_ok, exists_eq_left]
    · rw [read_of_holds hholds hb]
      constructor
      · rintro ⟨s, hs, hsame⟩ _
        have hsubject : r.body.subject = s := congrArg (fun r => r.body.subject) (pkcsReq.inj hsame)
        rw [← hholds.subject, hsubject] at hs ⊢
        exact hs
      · intro hsubject
        refine ⟨subject, hsubject (hholds.fits_subject hb), ?_⟩
        rw [← hholds.subject]
    · obtain ⟨s, -, rfl⟩ := (read_of_holds hholds hb).mp hop'
      exact hholds.password?
  · obtain ⟨-, e, -, hfits, he⟩ := Der.read_eq_ok.mp hread
    have hrestores : Der.Restores e subject := Der.Stable.restores hfits he
    exact hrestores.readable
  · cases op with
    | pkcsReq _ => exact absurd rfl htype
    | getCertInitial _ | getCert _ | getCrl _ => rfl

/-- A password that is not ASCII. -/
def samplePassword : String := "gr\u00fc\u00df dich \u2116 1"

theorem length_encode_sample {attributes : X509.Attributes} {s : Bytes}
    (hattributes : SetOf.ofList? (X509.requestAttributes (some samplePassword)) = some attributes)
    (hs : s.length = Identity.smallKey.publicKey.size) :
    (Der.encode (⟨⟨⟨0, by decide⟩, Identity.authorityName, .ofKey Identity.smallKey.publicKey, attributes⟩,
      X509.issueAlgorithm, .ofBytes s⟩ : CertificationRequest)).length ≤ Der.maxLength := by
  have hall : (SetOf.ofList? (X509.requestAttributes (some samplePassword))).all (fun attributes =>
      (Der.encode (⟨⟨0, by decide⟩, Identity.authorityName, .ofKey Identity.smallKey.publicKey, attributes⟩ :
        RequestBody)).length ≤ 400) = true := by decide +kernel
  rw [hattributes, Option.all_some, decide_eq_true_eq] at hall
  have hsize : Identity.smallKey.publicKey.size ≤ 200 := by decide +kernel
  have halgorithm : (Der.encode X509.issueAlgorithm).length ≤ 20 := by decide +kernel
  have hsignature : (Der.encode (BitString.ofBytes s)).length ≤ 201 + 6 :=
    Element.length_encode_le (by show (s.length + 1) ≤ 201; omega) (by decide)
  refine (Element.length_encode_le (n := 627) ?_ (by decide)).trans (by decide)
  show (Element.join [_, _, _]).length ≤ 627
  simp only [Element.join_cons, Element.join_nil, List.length_append, List.length_nil]
  unfold Der.encode at hall halgorithm hsignature
  omega

theorem exists_sampleAttributes :
    ∃ attributes, SetOf.ofList? (X509.requestAttributes (some samplePassword)) = some attributes :=
  Option.isSome_iff_exists.mp (by decide +kernel)

theorem passwords_survive_sample : ∃ op b,
    enrollment Identity.smallKey Identity.authorityName (some samplePassword) = .ok op ∧ op.write = .ok b ∧
    Operation.read .pkcsReq b = .ok op ∧ op.challengePassword? = some samplePassword ∧
    (getCert Identity.sample.certificate.id).challengePassword? = none := by
  obtain ⟨henrollment, -, hother⟩ := passwords_survive
  obtain ⟨attributes, hattributes⟩ := exists_sampleAttributes
  obtain ⟨s, hs, hsize⟩ := X509.exists_signBody Identity.undoes_smallKey Identity.room_smallKey
    (⟨⟨0, by decide⟩, Identity.authorityName, .ofKey Identity.smallKey.publicKey, attributes⟩ : RequestBody)
  have hop : enrollment Identity.smallKey Identity.authorityName (some samplePassword) = .ok (pkcsReq _) :=
    Result.map_eq_ok.mpr ⟨_, X509.issueRequest_eq_ok.mpr ⟨_, _, hattributes, hs, rfl⟩, rfl⟩
  obtain ⟨-, hpassword, hwrite, hwire⟩ := henrollment _ _ _ _ hop
  obtain ⟨b, hb⟩ := hwrite.mpr (length_encode_sample hattributes hsize)
  have hname : Readable Identity.authorityName := by
    refine X509.Name.readable fun part hpart a ha => ?_
    obtain rfl := List.mem_singleton.mp hpart
    obtain rfl := List.mem_singleton.mp ha
    exact readable_oid (by decide)
  exact ⟨_, b, hop, hb, (hwire b hb).1.mpr hname, hpassword, hother _ (by decide)⟩

end Operation

end CertEnroll
