import CertEnroll.Proofs.Acceptance
import CertEnroll.Proofs.PublicKeys
import CertEnroll.Proofs.RoundTrip
import Mathlib.NumberTheory.LucasLehmer

/-!
# Proofs.Issuance — certificates that are issued pass the checks made on certificates

Issuing and checking meet in the issuer's name, in the signed octets and in the key.  The key is the one
place where they part: a key of any size signs, but a certificate's key is read only up to a greatest size.
-/

namespace CertEnroll

open Calendar (Instant)
open X509 (Certificate CertificateBody CertificationRequest KeyInfo Name SerialNumber Validity)

/-! ### Signing and checking -/

namespace X509

variable {signer : Rsa.PrivateKey} {issuer subject : Name} {key : KeyInfo} {serial : SerialNumber}
  {validity : Validity} {c i : Certificate}

/-- What a certificate that is issued says. -/
structure Certificate.Says (c : Certificate) (issuer subject : Name) (key : KeyInfo) (serial : SerialNumber) :
    Prop where
  issuer : c.body.issuer = issuer
  subject : c.body.subject = subject
  keyInfo : c.body.keyInfo = key
  serial : c.body.serial = serial

theorem verifies_of_signBody {α : Type} [Der α] {body : α} {s : Der.BitString} (hk : signer.check = .ok ())
    (h : signBody signer body = .ok s) :
    Rsa.verifies issueDigest signer.publicKey (Der.encode body) s.bytes = true := by
  unfold signBody at h
  split at h
  case h_1 octets hoctets =>
    cases h
    exact (Rsa.verifies_iff _ _ _ _).mpr
      (Rsa.isSignature_of_sign (Rsa.PrivateKey.checked_of_check hk) (Digest.sign_eq_ok.mp hoctets))
  case h_2 => cases h

theorem says_of_issueCertificate (h : issueCertificate signer issuer subject key serial validity = .ok c) :
    c.Says issuer subject key serial := by
  obtain ⟨signature, -, h⟩ := Result.bind_eq_ok.mp h
  cases h
  exact ⟨rfl, rfl, rfl, rfl⟩

/-- What is signed with the key of a certificate, in the name of its subject, is issued by it. -/
theorem issuedBy_of_issueCertificate (hk : signer.check = .ok ()) (hi : i.publicKey = .ok signer.publicKey)
    (h : issueCertificate signer i.body.subject subject key serial validity = .ok c) : c.IssuedBy i := by
  obtain ⟨signature, hsignature, h⟩ := Result.bind_eq_ok.mp h
  cases h
  exact ⟨rfl, issueDigest, rfl, _, hi, verifies_of_signBody hk hsignature⟩

theorem Certificate.verifyIssuedBy_eq_ok : c.verifyIssuedBy i = .ok () ↔ c.IssuedBy i := by
  rw [← verifyIssuedBy_isOk, Result.isOk_iff]
  constructor
  · intro h
    exact ⟨(), h⟩
  · rintro ⟨_, h⟩
    exact h

theorem Certificate.verifyIssuedBy_of_ne (h : c.body.issuer ≠ i.body.subject) :
    c.verifyIssuedBy i = .error .verification := by
  simp only [verifyIssuedBy, if_neg h]
  rfl

/-- A key with room for the digest signs everything, with as many octets as it has itself. -/
theorem exists_signBody {α : Type} [Der α] (hk : signer.Undoes)
    (hroom : (Rsa.digestInfo issueDigest []).length + 11 ≤ signer.publicKey.size) (body : α) :
    ∃ s, signBody signer body = .ok (.ofBytes s) ∧ s.length = signer.publicKey.size := by
  rw [Rsa.length_digestInfo _ _ (Der.encode body)] at hroom
  have hsign : issueDigest.sign signer (Der.encode body) =
      .ok (signer.signature issueDigest (Der.encode body)) := Digest.sign_eq_ok.mpr (hk.sign hroom)
  refine ⟨signer.signature issueDigest (Der.encode body), ?_, Bytes.length_ofNat _ _⟩
  simp only [signBody, hsign]

theorem exists_issueCertificate (hk : signer.Undoes)
    (hroom : (Rsa.digestInfo issueDigest []).length + 11 ≤ signer.publicKey.size) (issuer subject : Name)
    (key : KeyInfo) (serial : SerialNumber) (validity : Validity) :
    ∃ c, issueCertificate signer issuer subject key serial validity = .ok c := by
  obtain ⟨s, hs, -⟩ := exists_signBody hk hroom (⟨.v3, serial, issueAlgorithm, issuer, validity, subject, key, none,
    none, some (issuedExtensions key signer.publicKey)⟩ : CertificateBody)
  exact ⟨_, Result.bind_eq_ok.mpr ⟨_, hs, rfl⟩⟩

end X509

/-! ### Serial numbers -/

/-- The integer that the content octets of a serial number stand for, in two's complement. -/
def X509.SerialNumber.value (n : SerialNumber) : Int :=
  if 128 ≤ n.content.headD 0 then (Bytes.toNat n.content : Int) - 256 ^ n.content.length
  else Bytes.toNat n.content

/-- A positive number of eight octets, the first of which is from 64 to 127. -/
structure X509.SerialNumber.IsKeyed (n : SerialNumber) : Prop where
  length : n.content.length = 8
  first : ∃ b r, n.content = b :: r ∧ 0x40 ≤ b ∧ b ≤ 0x7f
  pos : 0 < n.value

/-- A number whose first octet is neither zero nor above 127 is written as it is. -/
theorem X509.SerialNumber.ofUnsigned?_cons {b : UInt8} {r : Bytes} (h0 : b ≠ 0) (h : b < 128)
    (hlength : r.length < maxMade) : ofUnsigned? (b :: r) = some ⟨b :: r⟩ := by
  have hstrip : strip (b :: r) = b :: r := by
    unfold strip
    split
    case h_1 heq => exact absurd (List.cons.inj heq).1 h0
    case h_2 => rfl
  have hlow : ¬ 128 ≤ b := UInt8.not_le.mpr h
  simp only [ofUnsigned?, hstrip, List.headD_cons, if_neg hlow]
  exact if_pos hlength

theorem X509.SerialNumber.isKeyed_of_cons {b : UInt8} {r : Bytes} (hlow : 0x40 ≤ b) (hhigh : b ≤ 0x7f)
    (hlength : r.length = 7) : (⟨b :: r⟩ : SerialNumber).IsKeyed where
  length := by rw [List.length_cons, hlength]
  first := ⟨b, r, rfl, hlow, hhigh⟩
  pos := by
    rw [UInt8.le_iff_toNat_le] at hlow hhigh
    have hsign : ¬ (128 : UInt8) ≤ b := by
      rw [UInt8.le_iff_toNat_le]
      exact Nat.not_le.mpr (Nat.lt_of_le_of_lt hhigh (by decide))
    have hne : Bytes.toNat (b :: r) ≠ 0 := by
      intro hzero
      have hall : b :: r = List.replicate 8 0 := Bytes.toNat_inj (by simp [hlength]) (by rw [hzero]; rfl)
      have hb : b = 0 := (List.cons.inj hall).1
      rw [hb] at hlow
      exact absurd hlow (by decide)
    rw [value, List.headD_cons, if_neg hsign]
    exact Int.natCast_pos.mpr (Nat.pos_of_ne_zero hne)

namespace Identity

theorem first_octet (b : UInt8) : 0x40 ≤ (b &&& 0x7f) ||| 0x40 ∧ (b &&& 0x7f) ||| 0x40 ≤ 0x7f := by
  have h : ∀ n : Fin 256, 0x40 ≤ (UInt8.ofFin n &&& 0x7f) ||| 0x40 ∧ (UInt8.ofFin n &&& 0x7f) ||| 0x40 ≤ 0x7f := by
    decide +kernel
  exact h b.toFin

/-- Every key has a serial number. -/
theorem exists_serialOfKey (k : KeyInfo) : ∃ n, serialOfKey k = .ok n ∧ n.IsKeyed := by
  have hlength : ((Digest.sha1.hash (Der.encode k)).take 8).length = 8 := by
    rw [List.length_take, Digest.length_hash]
    rfl
  unfold serialOfKey
  split
  case h_1 hnil =>
    rw [hnil] at hlength
    cases hlength
  case h_2 b r hcons =>
    rw [hcons, List.length_cons] at hlength
    obtain ⟨hlow, hhigh⟩ := first_octet b
    have hne : (b &&& 0x7f) ||| 0x40 ≠ 0 := by
      intro hzero
      rw [hzero] at hlow
      exact absurd hlow (by decide)
    have hlt : (b &&& 0x7f) ||| 0x40 < 128 := by
      rw [UInt8.le_iff_toNat_le] at hhigh
      rw [UInt8.lt_iff_toNat_lt]
      exact Nat.lt_of_le_of_lt hhigh (by decide)
    have hroom : r.length < SerialNumber.maxMade := by
      have : SerialNumber.maxMade = 20 := rfl
      omega
    rw [SerialNumber.ofUnsigned?_cons hne hlt hroom]
    exact ⟨_, rfl, SerialNumber.isKeyed_of_cons hlow hhigh (by omega)⟩

/-! ### Identities -/

variable {certificate : Certificate} {key : Rsa.PrivateKey} {subject : Name} {now : Instant} {i : Identity}

theorem pair_of_publicKey {k : Rsa.PublicKey} (h : certificate.publicKey = .ok k) :
    pair certificate key = if k = key.publicKey then .ok ⟨certificate, key⟩ else .error .keyMismatch := by
  unfold pair
  rw [h]
  rfl

theorem pair_eq_ok : pair certificate key = .ok i ↔
    certificate.publicKey = .ok key.publicKey ∧ i = ⟨certificate, key⟩ := by
  unfold pair
  rw [Result.bind_eq_ok]
  constructor
  · rintro ⟨k, hk, h⟩
    obtain ⟨rfl, hi⟩ := Result.check_eq_ok.mp h
    exact ⟨hk, (Result.pure_eq_ok.mp hi).symm⟩
  · rintro ⟨hk, rfl⟩
    exact ⟨_, hk, if_pos rfl⟩

theorem pair_of_publicKey_error {e : Error} (h : certificate.publicKey = .error e) :
    pair certificate key = .error e := by
  unfold pair
  rw [h]
  rfl

theorem selfSigned_eq_ok : selfSigned key subject now = .ok i ↔
    ∃ serial validity, serialOfKey (.ofKey key.publicKey) = .ok serial ∧
      Validity.from now selfSignedSeconds = .ok validity ∧
      X509.issueCertificate key subject subject (.ofKey key.publicKey) serial validity = .ok i.certificate ∧
      i.key = key := by
  simp only [selfSigned, Result.bind_eq_ok, Result.pure_eq_ok]
  constructor
  · rintro ⟨serial, hserial, validity, hvalidity, c, hc, rfl⟩
    exact ⟨serial, validity, hserial, hvalidity, hc, rfl⟩
  · rintro ⟨serial, validity, hserial, hvalidity, hc, rfl⟩
    exact ⟨serial, hserial, validity, hvalidity, _, hc, rfl⟩

/-- The identities that there are: a certificate paired with its key, and a key that signed its own
certificate and is not too large for it. -/
inductive Made : Identity → Prop
  | paired {certificate : Certificate} {key : Rsa.PrivateKey} {i : Identity} (checked : key.check = .ok ())
    (h : pair certificate key = .ok i) : Made i
  | selfSigned {key : Rsa.PrivateKey} {subject : Name} {now : Instant} {i : Identity}
    (checked : key.check = .ok ()) (admissible : key.publicKey.Admissible)
    (h : Identity.selfSigned key subject now = .ok i) : Made i

/-- The key of a self-signed certificate is read back exactly if it is not too large. -/
theorem publicKey_of_selfSigned (hk : key.check = .ok ()) (h : selfSigned key subject now = .ok i) :
    i.certificate.publicKey =
      if key.publicKey.Admissible then .ok key.publicKey else .error .publicKey := by
  obtain ⟨serial, validity, -, -, hc, -⟩ := selfSigned_eq_ok.mp h
  exact Certificate.publicKey_ofKey (X509.says_of_issueCertificate hc).keyInfo
    (Rsa.PrivateKey.check_publicKey hk)

theorem Made.check (h : i.Made) : i.key.check = .ok () := by
  cases h with
  | paired checked h =>
    obtain ⟨-, rfl⟩ := pair_eq_ok.mp h
    exact checked
  | selfSigned checked _ h =>
    obtain ⟨_, _, -, -, -, rfl⟩ := selfSigned_eq_ok.mp h
    exact checked

theorem Made.publicKey (h : i.Made) : i.certificate.publicKey = .ok i.key.publicKey := by
  cases h with
  | paired _ h =>
    obtain ⟨hkey, rfl⟩ := pair_eq_ok.mp h
    exact hkey
  | selfSigned checked admissible h =>
    have hkey := publicKey_of_selfSigned checked h
    obtain ⟨_, _, -, -, -, rfl⟩ := selfSigned_eq_ok.mp h
    rw [hkey, if_pos admissible]

/-! ### Certificates that are issued -/

section Issued

variable {ca : Identity} {request : CertificationRequest} {serial : SerialNumber} {seconds : Nat}
  {c : Certificate}

theorem issue_eq_ok : ca.issue request serial seconds now = .ok c ↔
    ∃ validity, Validity.from now seconds = .ok validity ∧
      X509.issueCertificate ca.key ca.certificate.body.subject request.body.subject request.body.keyInfo serial
        validity = .ok c := Result.bind_eq_ok

theorem says_of_issue (h : ca.issue request serial seconds now = .ok c) :
    c.Says ca.certificate.body.subject request.body.subject request.body.keyInfo serial := by
  obtain ⟨validity, -, h⟩ := issue_eq_ok.mp h
  exact X509.says_of_issueCertificate h

/-- What an authority issues names it as the issuer and has its signature. -/
theorem issuedBy_of_issue (hk : ca.key.check = .ok ()) (hca : ca.certificate.publicKey = .ok ca.key.publicKey)
    (h : ca.issue request serial seconds now = .ok c) : c.IssuedBy ca.certificate := by
  obtain ⟨validity, -, h⟩ := issue_eq_ok.mp h
  exact X509.issuedBy_of_issueCertificate hk hca h

end Issued

/-! ### Self-signed certificates -/

theorem says_of_selfSigned (h : selfSigned key subject now = .ok i) :
    ∃ serial, serialOfKey (.ofKey key.publicKey) = .ok serial ∧
      i.certificate.Says subject subject (.ofKey key.publicKey) serial := by
  obtain ⟨serial, validity, hserial, -, hc, -⟩ := selfSigned_eq_ok.mp h
  exact ⟨serial, hserial, X509.says_of_issueCertificate hc⟩

/-- The serial number depends on the public key alone. -/
theorem serial_of_selfSigned {key' : Rsa.PrivateKey} {subject' : Name} {now' : Instant} {i' : Identity}
    (hkey : key'.publicKey = key.publicKey) (h : selfSigned key subject now = .ok i)
    (h' : selfSigned key' subject' now' = .ok i') :
    i'.certificate.body.serial = i.certificate.body.serial := by
  obtain ⟨serial, hserial, hsaid⟩ := says_of_selfSigned h
  obtain ⟨serial', hserial', hsaid'⟩ := says_of_selfSigned h'
  rw [hkey, hserial] at hserial'
  rw [hsaid.serial, hsaid'.serial, Except.ok.inj hserial']

theorem isKeyed_of_selfSigned (h : selfSigned key subject now = .ok i) : i.certificate.body.serial.IsKeyed := by
  obtain ⟨serial, hserial, hsaid⟩ := says_of_selfSigned h
  obtain ⟨n, hn, hkeyed⟩ := exists_serialOfKey (.ofKey key.publicKey)
  rw [hserial] at hn
  rw [hsaid.serial, Except.ok.inj hn]
  exact hkeyed

theorem verifyIssuedBy_of_selfSigned (hk : key.check = .ok ()) (h : selfSigned key subject now = .ok i)
    (hkey : i.certificate.publicKey = .ok key.publicKey) :
    i.certificate.verifyIssuedBy i.certificate = .ok () := by
  obtain ⟨_, _, -, -, hc, -⟩ := selfSigned_eq_ok.mp h
  have hname := (X509.says_of_issueCertificate hc).subject
  rw [← hname] at hc
  exact Certificate.verifyIssuedBy_eq_ok.mpr (X509.issuedBy_of_issueCertificate hk hkey hc)

/-- What is issued says what was asked for and passes the check against its issuer's certificate, and no
check against a certificate with another subject.  What signs itself is named by its subject alone and
numbered by its key alone.  It is an identity with its own key and with no other, and passes the check
against itself, if its key is not larger than keys of certificates may be; else its key is refused. -/
theorem certificates_pass_checks :
    (∀ (ca : Identity) (request : CertificationRequest) (serial : SerialNumber) (seconds : Nat)
      (now : Instant) (c : Certificate), ca.Made → ca.issue request serial seconds now = .ok c →
      c.Says ca.certificate.body.subject request.body.subject request.body.keyInfo serial ∧
      c.verifyIssuedBy ca.certificate = .ok () ∧
      ∀ other : Certificate, other.body.subject ≠ ca.certificate.body.subject →
        c.verifyIssuedBy other = .error .verification) ∧
    ∀ (key : Rsa.PrivateKey) (subject : Name) (now : Instant) (i : Identity), key.check = .ok () →
      selfSigned key subject now = .ok i →
      i.certificate.Says subject subject (.ofKey key.publicKey) i.certificate.body.serial ∧
      i.certificate.body.serial.IsKeyed ∧
      (∀ (key' : Rsa.PrivateKey) (subject' : Name) (now' : Instant) (i' : Identity),
        key'.publicKey = key.publicKey → selfSigned key' subject' now' = .ok i' →
        i'.certificate.body.serial = i.certificate.body.serial) ∧
      (key.publicKey.Admissible →
        pair i.certificate key = .ok i ∧
        (∀ other : Rsa.PrivateKey, other.publicKey ≠ key.publicKey →
          pair i.certificate other = .error .keyMismatch) ∧
        i.certificate.verifyIssuedBy i.certificate = .ok ()) ∧
      (¬ key.publicKey.Admissible →
        ∀ other : Rsa.PrivateKey, pair i.certificate other = .error .publicKey) := by
  refine ⟨fun ca request serial seconds now c hca h => ?_, fun key subject now i hk h => ?_⟩
  · have hsaid := says_of_issue h
    refine ⟨hsaid, ?_, fun other hother => ?_⟩
    · exact Certificate.verifyIssuedBy_eq_ok.mpr (issuedBy_of_issue hca.check hca.publicKey h)
    · refine Certificate.verifyIssuedBy_of_ne ?_
      rw [hsaid.issuer]
      exact hother.symm
  · obtain ⟨serial, -, hsaid⟩ := says_of_selfSigned h
    have hpublic := publicKey_of_selfSigned hk h
    have hkey : i.key = key := by
      obtain ⟨_, _, -, -, -, hkey⟩ := selfSigned_eq_ok.mp h
      exact hkey
    refine ⟨hsaid.serial ▸ hsaid, isKeyed_of_selfSigned h, fun key' subject' now' i' hsame h' => ?_,
      fun hsize => ?_, fun hsize other => ?_⟩
    · exact serial_of_selfSigned hsame h h'
    · rw [if_pos hsize] at hpublic
      refine ⟨pair_eq_ok.mpr ⟨hpublic, by rw [← hkey]⟩, fun other hother => ?_, ?_⟩
      · rw [pair_of_publicKey hpublic, if_neg hother.symm]
      · exact verifyIssuedBy_of_selfSigned hk h hpublic
    · rw [if_neg hsize] at hpublic
      exact pair_of_publicKey_error hpublic

theorem exists_selfSigned {validity : Validity} (hk : key.Undoes)
    (hroom : (Rsa.digestInfo X509.issueDigest []).length + 11 ≤ key.publicKey.size)
    (hv : Validity.from now selfSignedSeconds = .ok validity) (subject : Name) :
    ∃ i, selfSigned key subject now = .ok i := by
  obtain ⟨serial, hserial, -⟩ := exists_serialOfKey (.ofKey key.publicKey)
  obtain ⟨c, hc⟩ := X509.exists_issueCertificate hk hroom subject subject (.ofKey key.publicKey) serial validity
  exact ⟨⟨c, key⟩, selfSigned_eq_ok.mpr ⟨serial, validity, hserial, hv, hc, rfl⟩⟩

/-! ### Samples -/

/-- The key of two Mersenne numbers with the usual public exponent; `k` is chosen so that the private
exponent is its inverse. -/
def mersenneKey (m n k : Nat) : Rsa.PrivateKey where
  publicKey := ⟨mersenne m * mersenne n, 65537⟩
  secret := (k * ((mersenne m - 1) * (mersenne n - 1)) + 1) / 65537
  prime1 := mersenne m
  prime2 := mersenne n

theorem undoes_mersenneKey {m n k : Nat} (hk : (mersenneKey m n k).check = .ok ()) (hm : (mersenne m).Prime)
    (hn : (mersenne n).Prime) (hne : mersenne m ≠ mersenne n) : (mersenneKey m n k).Undoes :=
  Rsa.PrivateKey.undoes_of_prime (Rsa.PrivateKey.checked_of_check hk) hm hn hne

/-- A key that certificates may hold. -/
def smallKey : Rsa.PrivateKey := mersenneKey 521 607 10880

theorem check_smallKey : smallKey.check = .ok () := by decide +kernel

theorem undoes_smallKey : smallKey.Undoes :=
  undoes_mersenneKey check_smallKey (lucas_lehmer_sufficiency 521 (by norm_num) (by norm_num))
    (lucas_lehmer_sufficiency 607 (by norm_num) (by norm_num)) (by decide +kernel)

/-- A key that is too large for certificates. -/
def largeKey : Rsa.PrivateKey := mersenneKey 2203 2281 33256

theorem check_largeKey : largeKey.check = .ok () := by decide +kernel

theorem undoes_largeKey : largeKey.Undoes :=
  undoes_mersenneKey check_largeKey (lucas_lehmer_sufficiency 2203 (by norm_num) (by norm_num))
    (lucas_lehmer_sufficiency 2281 (by norm_num) (by norm_num)) (by decide +kernel)

/-- The name of an authority. -/
def authorityName : Name :=
  ⟨[.singleton ⟨.ofArcs [2, 5, 4, 3], ⟨.utf8String, [99, 97]⟩⟩]⟩

theorem exists_selfSignedValidity : ∃ v, Validity.from ⟨0, 0⟩ selfSignedSeconds = .ok v :=
  Result.isOk_iff.mp (by decide +kernel)

theorem room_smallKey : (Rsa.digestInfo X509.issueDigest []).length + 11 ≤ smallKey.publicKey.size := by
  decide +kernel

theorem room_largeKey : (Rsa.digestInfo X509.issueDigest []).length + 11 ≤ largeKey.publicKey.size := by
  decide +kernel

theorem certificates_pass_checks_smallKey : ∃ ca, selfSigned smallKey authorityName ⟨0, 0⟩ = .ok ca ∧
    pair ca.certificate smallKey = .ok ca ∧ pair ca.certificate Rsa.sampleKey = .error .keyMismatch ∧
    ∀ r : CertificationRequest, ∃ c, ca.issue r ⟨[7]⟩ 60 ⟨0, 0⟩ = .ok c ∧ c.verifyIssuedBy ca.certificate = .ok () ∧
      c.verifyIssuedBy Identity.sample.certificate = .error .verification := by
  obtain ⟨hissued, hselfSigned⟩ := certificates_pass_checks
  have hsize : smallKey.publicKey.Admissible := by decide +kernel
  obtain ⟨v, hv⟩ := exists_selfSignedValidity
  obtain ⟨v', hv'⟩ : ∃ v, Validity.from ⟨0, 0⟩ 60 = .ok v := Result.isOk_iff.mp (by decide +kernel)
  obtain ⟨ca, hca⟩ := exists_selfSigned undoes_smallKey room_smallKey hv authorityName
  obtain ⟨hsaid, -, -, hadmitted, -⟩ := hselfSigned _ _ _ _ check_smallKey hca
  obtain ⟨hpair, hmismatch, -⟩ := hadmitted hsize
  obtain ⟨_, _, -, -, -, hkey⟩ := selfSigned_eq_ok.mp hca
  refine ⟨ca, hca, hpair, hmismatch _ (by decide +kernel), fun r => ?_⟩
  obtain ⟨c, hc⟩ := X509.exists_issueCertificate undoes_smallKey room_smallKey ca.certificate.body.subject
    r.body.subject r.body.keyInfo ⟨[7]⟩ v'
  have hissue : ca.issue r ⟨[7]⟩ 60 ⟨0, 0⟩ = .ok c := issue_eq_ok.mpr ⟨v', hv', by rw [hkey]; exact hc⟩
  obtain ⟨-, hverify, hother⟩ := hissued _ _ _ _ _ _ (.selfSigned check_smallKey hsize hca) hissue
  refine ⟨c, hissue, hverify, hother _ ?_⟩
  rw [hsaid.subject]
  decide

/-- Not every identity that signs its own certificate is accepted with it: its key may be too large. -/
theorem selfSigned_not_always_accepted :
    ¬ ∀ (key : Rsa.PrivateKey) (subject : Name) (now : Instant) (i : Identity), key.check = .ok () →
      selfSigned key subject now = .ok i → pair i.certificate key = .ok i := by
  intro h
  obtain ⟨v, hv⟩ := exists_selfSignedValidity
  obtain ⟨i, hi⟩ := exists_selfSigned undoes_largeKey room_largeKey hv authorityName
  have hpublic := publicKey_of_selfSigned check_largeKey hi
  rw [if_neg (by decide +kernel)] at hpublic
  have hpair := h _ _ _ _ check_largeKey hi
  rw [pair_of_publicKey_error hpublic] at hpair
  cases hpair

end Identity

end CertEnroll
