import CertEnroll.Envelope
import CertEnroll.Proofs.Cipher.Aes
import CertEnroll.Proofs.Cipher.Des
import CertEnroll.Proofs.Der.Structures
import CertEnroll.Proofs.Rsa.Encryption

/-!
# Proofs.Envelope — what is put into an envelope comes out

The content is encrypted under a fresh key of the right length and the key for the recipient.  The
document of the envelope is read back if the recipient's certificate is named readably, and the private
key that undoes the recipient's public key finds the content key and then the content.
-/

namespace CertEnroll

open Cms (ContentInfo EncryptedContent EnvelopedData KeyHolder KeyTransport RecipientInfo)
open Der (OctetString Oid Readable SetOf ofElement? readable_oid toElement)
open X509 (AlgorithmId Certificate)

/-! ### Content ciphers -/

namespace Cipher

theorem size_blockCipher (c : Cipher) (key : Bytes) : (c.blockCipher key).size = c.blockSize := by
  cases c <;> rfl

theorem blockCipher_lawful (c : Cipher) (key : Bytes) : (c.blockCipher key).Lawful := by
  cases c with
  | des => exact Des.cipher_lawful key
  | tripleDes => exact Des.tripleCipher_lawful key
  | aes128 => exact Aes.cipher_lawful key

/-- The ciphertext is as long as the padded message. -/
theorem length_ciphertext {c : Cipher} {iv : Bytes} (hiv : iv.length = c.blockSize) (key m : Bytes) :
    (c.ciphertext key iv m).length = c.blockSize * (m.length / c.blockSize + 1) := by
  have hiv' : iv.length = (c.blockCipher key).size := by rw [size_blockCipher, hiv]
  have hpadded : (pad c.blockSize m).length = (c.blockCipher key).size * (m.length / c.blockSize + 1) := by
    rw [size_blockCipher]
    exact length_pad (by cases c <;> decide) m
  rw [ciphertext, BlockCipher.length_encryptChained (c.blockCipher_lawful key) hiv' hpadded,
    size_blockCipher]

theorem plaintext?_ciphertext {c : Cipher} {iv : Bytes} (hiv : iv.length = c.blockSize) (key m : Bytes) :
    c.plaintext? key iv (c.ciphertext key iv m) = some m := by
  have hpos : 0 < c.blockSize := by cases c <;> decide
  have hsmall : c.blockSize < 256 := by cases c <;> decide
  have hiv' : iv.length = (c.blockCipher key).size := by rw [size_blockCipher, hiv]
  have hpadded : (pad c.blockSize m).length = (c.blockCipher key).size * (m.length / c.blockSize + 1) := by
    rw [size_blockCipher]
    exact length_pad hpos m
  have hwhole : (c.ciphertext key iv m).length % c.blockSize = 0 := by
    rw [length_ciphertext hiv, Nat.mul_mod_right]
  rw [plaintext?, if_pos hwhole, ciphertext,
    BlockCipher.decryptChained_encryptChained (c.blockCipher_lawful key) hiv' hpadded, unpad?_pad hpos hsmall]

theorem encrypt_eq_ok {c : Cipher} {key iv m encrypted : Bytes} :
    c.encrypt key iv m = .ok encrypted ↔
      (key.length = c.keySize ∧ iv.length = c.blockSize) ∧ c.ciphertext key iv m = encrypted := by
  unfold encrypt fits
  split <;> simp_all

/-- What is encrypted is decrypted. -/
theorem decrypt_of_encrypt {c : Cipher} {key iv m encrypted : Bytes}
    (h : c.encrypt key iv m = .ok encrypted) : c.decrypt key iv encrypted = .ok m := by
  obtain ⟨⟨hkey, hiv⟩, rfl⟩ := encrypt_eq_ok.mp h
  rw [decrypt, plaintext?_ciphertext hiv, fits, hkey, hiv]
  simp [Result.ofOption]

theorem ofOid_oid (c : Cipher) : ofOid c.oid = .ok c := by
  cases c <;> decide

theorem algorithmId_eq_ok {c : Cipher} {iv : Bytes} {a : AlgorithmId} :
    c.algorithmId iv = .ok a ↔ a = ⟨c.oid, some ⟨.octetString, iv⟩⟩ ∧ iv.length ≤ Der.maxLength := by
  rw [algorithmId, Der.bounded_bind_eq_ok, Result.pure_eq_ok, @eq_comm _ a]

theorem ofAlgorithmId_algorithmId {c : Cipher} {iv : Bytes} {a : AlgorithmId} (ha : c.algorithmId iv = .ok a)
    (h : iv.length = c.blockSize) : ofAlgorithmId a = .ok (c, iv) := by
  obtain ⟨rfl, -⟩ := algorithmId_eq_ok.mp ha
  rw [ofAlgorithmId, Result.bind_eq_ok]
  exact ⟨c, c.ofOid_oid, if_pos h⟩

theorem readable_algorithmId {c : Cipher} {iv : Bytes} {a : AlgorithmId} (h : c.algorithmId iv = .ok a) :
    Readable a := by
  have hoid : Readable c.oid := readable_oid (by cases c <;> decide)
  obtain ⟨rfl, -⟩ := algorithmId_eq_ok.mp h
  exact AlgorithmId.readable hoid

end Cipher

theorem X509.Certificate.algorithm_of_publicKey {c : Certificate} {k : Rsa.PublicKey}
    (h : c.publicKey = .ok k) : c.body.keyInfo.algorithm.algorithm = rsaEncryption := by
  unfold Certificate.publicKey at h
  dsimp only at h
  split at h
  case isTrue ha => exact ha
  case isFalse => cases h

theorem readable_rsaEncryption : Readable rsaEncryption := readable_oid (by decide)

theorem Cms.readable_dataType : Readable Cms.dataType := readable_oid (by decide)

theorem Cms.readable_signedDataType : Readable Cms.signedDataType := readable_oid (by decide)

theorem Cms.readable_envelopedDataType : Readable Cms.envelopedDataType := readable_oid (by decide)

/-! ### Envelopes -/

namespace Envelope

variable {content : Bytes} {recipient : Certificate} {cipher : Cipher} {e : Envelope} {r r' : Random}

/-- How an envelope is made: its key and its initial vector encrypt the content, and the key is
encrypted for the recipient. -/
theorem encrypt_eq_ok (h : (encrypt content recipient cipher).run.run r = (.ok e, r')) :
    ∃ publicKey key iv algorithm encrypted encryptedKey r₁ r₂,
      recipient.publicKey = .ok publicKey ∧ cipher.encrypt key iv content = .ok encrypted ∧
      (Rsa.encrypt publicKey key).run.run r₁ = (.ok encryptedKey, r₂) ∧
      cipher.algorithmId iv = .ok algorithm ∧ e = assemble recipient algorithm ⟨encrypted⟩ ⟨encryptedKey⟩ := by
  obtain ⟨publicKey, r₁, hpublicKey, h⟩ := Drawing.bind_eq_ok.mp h
  obtain ⟨key, r₂, -, h⟩ := Drawing.bind_eq_ok.mp h
  obtain ⟨iv, r₃, -, h⟩ := Drawing.bind_eq_ok.mp h
  obtain ⟨encrypted, r₄, hencrypted, h⟩ := Drawing.bind_eq_ok.mp h
  obtain ⟨encryptedKey, r₅, hkey, h⟩ := Drawing.bind_eq_ok.mp h
  obtain ⟨keyString, r₆, hkeyString, h⟩ := Drawing.bind_eq_ok.mp h
  obtain ⟨algorithm, r₇, halgorithm, h⟩ := Drawing.bind_eq_ok.mp h
  obtain ⟨string, r₈, hstring, h⟩ := Drawing.bind_eq_ok.mp h
  obtain ⟨rfl, -⟩ := Drawing.pure_eq_ok.mp h
  obtain ⟨rfl, -⟩ := Der.ofBytes_eq_ok.mp (Drawing.lift_eq_ok.mp hkeyString).1
  obtain ⟨rfl, -⟩ := Der.ofBytes_eq_ok.mp (Drawing.lift_eq_ok.mp hstring).1
  exact ⟨publicKey, key, iv, algorithm, encrypted, encryptedKey, r₄, r₅, (Drawing.lift_eq_ok.mp hpublicKey).1,
    (Drawing.lift_eq_ok.mp hencrypted).1, hkey, (Drawing.lift_eq_ok.mp halgorithm).1, rfl⟩

theorem readable_assemble {algorithm : AlgorithmId} (hid : Readable recipient.id)
    (ha : recipient.body.keyInfo.algorithm.algorithm = rsaEncryption) (hcipher : Readable algorithm)
    (encrypted key : OctetString) : Readable (assemble recipient algorithm encrypted key).data := by
  have hname : Readable (KeyHolder.certificate recipient.id) := KeyHolder.readable_certificate hid
  have halgorithm : Readable recipient.body.keyInfo.algorithm :=
    AlgorithmId.readable (by rw [ha]; exact readable_rsaEncryption)
  have hrecipients : Readable (assemble recipient algorithm encrypted key).data.recipients :=
    Der.readable_setOf fun i hi => by
      obtain rfl := List.mem_singleton.mp hi
      exact RecipientInfo.readable_transport (KeyTransport.readable hname halgorithm)
  have hcontent : Readable (assemble recipient algorithm encrypted key).data.content :=
    EncryptedContent.readable Cms.readable_dataType hcipher
  exact EnvelopedData.readable (fun o ho => by cases ho) hrecipients hcontent (fun o ho => by cases ho)

/-- The document of readable data is read back, if its version is a known one. -/
theorem read_of_write {b : Bytes} (h : e.write = .ok b) (he : Readable e.data)
    (hversion : e.data.version.value = 0 ∨ e.data.version.value = 2) : Envelope.read b = .ok e := by
  obtain ⟨hread, hdata⟩ := ContentInfo.read_of_write Cms.readable_envelopedDataType he h
  simp only [Envelope.read, Result.bind_eq_ok, Result.unless_eq_ok, Result.ofDecoded,
    Result.ofOption_eq_ok, Result.pure_eq_ok]
  exact ⟨_, hread, rfl, _, hdata, hversion, rfl⟩

theorem Lock.contentKey_eq_ok {l : Lock} {k : Rsa.PrivateKey} {key : Bytes} :
    l.contentKey k = .ok key ↔
      Rsa.decrypt? k l.encryptedKey = some key ∧ key.length = l.cipher.keySize := by
  simp only [contentKey, Result.bind_eq_ok, Result.ofOption_eq_ok, Result.check_eq_ok,
    Result.pure_eq_ok]
  constructor
  · rintro ⟨key', hkey, hlength, rfl⟩
    exact ⟨hkey, hlength⟩
  · rintro ⟨hkey, hlength⟩
    exact ⟨key, hkey, hlength, rfl⟩

theorem decrypt_of_encrypt {k : Rsa.PrivateKey} (hkey : recipient.publicKey = .ok k.publicKey)
    (hk : k.Undoes) (h : (encrypt content recipient cipher).run.run r = (.ok e, r')) :
    e.decrypt k = .ok content := by
  obtain ⟨publicKey, key, iv, algorithm, encrypted, encryptedKey, r₁, r₂, hpublicKey, hencrypted,
    hencryptedKey, halgorithm, rfl⟩ := encrypt_eq_ok h
  rw [hkey] at hpublicKey
  cases hpublicKey
  obtain ⟨⟨hkeySize, hivSize⟩, -⟩ := Cipher.encrypt_eq_ok.mp hencrypted
  have hlock : (assemble recipient algorithm ⟨encrypted⟩ ⟨encryptedKey⟩).lock =
      .ok ⟨cipher, iv, encryptedKey, some ⟨encrypted⟩⟩ := by
    rw [lock, Result.bind_eq_ok]
    refine ⟨_, rfl, Result.unless_eq_ok.mpr ⟨Certificate.algorithm_of_publicKey hkey, ?_⟩⟩
    exact Result.bind_eq_ok.mpr ⟨_, Cipher.ofAlgorithmId_algorithmId halgorithm hivSize, rfl⟩
  have hcontentKey : Lock.contentKey ⟨cipher, iv, encryptedKey, some ⟨encrypted⟩⟩ k = .ok key :=
    Lock.contentKey_eq_ok.mpr ⟨Rsa.decrypt?_of_encrypt hk hencryptedKey, hkeySize⟩
  rw [decrypt, Result.bind_eq_ok]
  refine ⟨_, hlock, ?_⟩
  rw [Lock.unlock, Result.bind_eq_ok]
  refine ⟨key, hcontentKey, Result.bind_eq_ok.mpr ⟨⟨encrypted⟩, rfl, ?_⟩⟩
  exact Cipher.decrypt_of_encrypt hencrypted

/-- The document of an envelope that was made is read back, if its recipient is named readably. -/
theorem read_of_encrypt {b : Bytes} (hid : Readable recipient.id)
    (h : (encrypt content recipient cipher).run.run r = (.ok e, r')) (hb : e.write = .ok b) :
    Envelope.read b = .ok e := by
  obtain ⟨publicKey, key, iv, algorithm, encrypted, encryptedKey, r₁, r₂, hkey, -, -, halgorithm, rfl⟩ :=
    encrypt_eq_ok h
  have hdata := readable_assemble hid (Certificate.algorithm_of_publicKey hkey)
    (Cipher.readable_algorithmId halgorithm) ⟨encrypted⟩ ⟨encryptedKey⟩
  exact read_of_write hb hdata (.inl rfl)

/-- The document of an envelope is read and opened to the content that was put into it. -/
theorem opens {k : Rsa.PrivateKey} {b : Bytes} (hkey : recipient.publicKey = .ok k.publicKey)
    (hk : k.Undoes) (hid : Readable recipient.id)
    (h : (encrypt content recipient cipher).run.run r = (.ok e, r')) (hb : e.write = .ok b) :
    Envelope.read b = .ok e ∧ e.decrypt k = .ok content :=
  ⟨read_of_encrypt hid h hb, decrypt_of_encrypt hkey hk h⟩

end Envelope

end CertEnroll
