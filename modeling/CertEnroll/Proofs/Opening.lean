import CertEnroll.Proofs.RoundTrip

/-!
# Proofs.Opening — how opening an envelope fails, and what its error tells about the key

What is read before the key is used fails in errors of its own.  Once the key is used, an envelope is
denied for three reasons: the key yields no content key, the content key has nothing to open, or it opens
something that is no padded content.  The first and the third end in one error and the second in another,
so that an envelope without content tells the keys that yield a content key from those that do not.
-/

namespace CertEnroll

namespace Cipher

theorem length_of_ofAlgorithmId {a : X509.AlgorithmId} {c : Cipher} {iv : Bytes}
    (h : ofAlgorithmId a = .ok (c, iv)) : iv.length = c.blockSize := by
  obtain ⟨c', -, h⟩ := Result.bind_eq_ok.mp h
  split at h
  · split at h
    case isTrue hlength =>
      cases h
      exact hlength
    case isFalse => cases h
  · cases h

/-- With a key and an initial vector of the right lengths, decryption fails only over the ciphertext. -/
theorem decrypt_of_lengths {c : Cipher} {key iv : Bytes} (hkey : key.length = c.keySize)
    (hiv : iv.length = c.blockSize) (m : Bytes) :
    c.decrypt key iv m = Result.ofOption .decryption (c.plaintext? key iv m) := by
  have hfits : c.fits key iv = true := by simp [fits, hkey, hiv]
  rw [decrypt, if_pos hfits]

end Cipher

/-- The error is about how an envelope is made up. -/
def Error.OfLock : Error → Prop
  | recipientCount _ | unsupportedAlgorithm _ | invalidKeyLength => True
  | _ => False

namespace Envelope

variable {e : Envelope} {l : Lock} {k : Rsa.PrivateKey} {err : Error}

/-! ### Locks -/

/-- The private key yields a content key of the right length. -/
def Lock.Yields (l : Lock) (k : Rsa.PrivateKey) : Prop :=
  ∃ key, Rsa.decrypt? k l.encryptedKey = some key ∧ key.length = l.cipher.keySize

/-- The private key yields the content key of an envelope. -/
def Unwraps (e : Envelope) (k : Rsa.PrivateKey) : Prop :=
  ∃ l, e.lock = .ok l ∧ l.Yields k

theorem not_unwraps (hl : e.lock = .error err) : ¬ e.Unwraps k := by
  rintro ⟨l, hl', -⟩
  rw [hl] at hl'
  cases hl'

/-- A lock has the content of its envelope and an initial vector that fits its cipher. -/
theorem lock_eq_ok (h : e.lock = .ok l) :
    l.content = e.data.content.content ∧ l.iv.length = l.cipher.blockSize := by
  obtain ⟨transport, -, h⟩ := Result.bind_eq_ok.mp h
  obtain ⟨-, h⟩ := Result.unless_eq_ok.mp h
  obtain ⟨⟨cipher, iv⟩, hcipher, h⟩ := Result.bind_eq_ok.mp h
  cases h
  exact ⟨rfl, Cipher.length_of_ofAlgorithmId hcipher⟩

theorem lock_failsOnly (e : Envelope) : Result.FailsOnly Error.OfLock e.lock := by
  have htransport : Result.FailsOnly Error.OfLock e.keyTransport := by
    unfold keyTransport
    split <;> simp [Error.OfLock]
  have hcipher : Result.FailsOnly Error.OfLock e.cipherAndIv := by
    simp only [cipherAndIv, Cipher.ofAlgorithmId, Result.failsOnly_bind]
    refine ⟨by simp [Cipher.ofOid, Error.OfLock], fun c _ => ?_⟩
    split <;> simp [Error.OfLock]
  simp [lock, htransport, hcipher, Error.OfLock]

/-! ### Keys in locks -/

theorem Lock.contentKey_eq_error : l.contentKey k = .error err ↔ ¬ l.Yields k ∧ err = .decryption := by
  have hfails : Result.FailsOnly (· = .decryption) (l.contentKey k) := by simp [contentKey]
  have hyields : l.Yields k ↔ ∃ key, l.contentKey k = .ok key :=
    exists_congr fun key => contentKey_eq_ok.symm
  rw [hyields]
  constructor
  · intro h
    refine ⟨?_, hfails err h⟩
    rw [h]
    rintro ⟨key, hkey⟩
    cases hkey
  · rintro ⟨hno, rfl⟩
    cases h : l.contentKey k with
    | error err' => rw [hfails err' h]
    | ok key => exact (hno ⟨key, h⟩).elim

/-- Why a private key does not open a lock, and in which error it ends. -/
inductive Lock.Denies (l : Lock) (k : Rsa.PrivateKey) : Error → Prop
  | locked (h : ¬ l.Yields k) : Denies l k .decryption
  | hollow (h : l.Yields k) (hcontent : l.content = none) : Denies l k .missingEnvelope
  | unreadable {key : Bytes} {content : Der.OctetString} (h : l.contentKey k = .ok key)
      (hcontent : l.content = some content)
      (hplain : l.cipher.plaintext? key l.iv content.bytes = none) : Denies l k .decryption

theorem Lock.unlock_eq_error_iff (hiv : l.iv.length = l.cipher.blockSize) :
    l.unlock k = .error err ↔ l.Denies k err := by
  simp only [unlock, Result.bind_eq_error, contentKey_eq_error, Result.ofOption_eq_error,
    Result.ofOption_eq_ok]
  constructor
  · rintro (⟨h, rfl⟩ | ⟨key, hkey, ⟨hcontent, rfl⟩ | ⟨content, hcontent, h⟩⟩)
    · exact .locked h
    · exact .hollow ⟨key, contentKey_eq_ok.mp hkey⟩ hcontent
    · rw [Cipher.decrypt_of_lengths (contentKey_eq_ok.mp hkey).2 hiv] at h
      obtain ⟨hplain, rfl⟩ := Result.ofOption_eq_error.mp h
      exact .unreadable hkey hcontent hplain
  · intro h
    cases h with
    | locked h => exact .inl ⟨h, rfl⟩
    | hollow h hcontent =>
      obtain ⟨key, hkey⟩ := h
      exact .inr ⟨key, contentKey_eq_ok.mpr hkey, .inl ⟨hcontent, rfl⟩⟩
    | unreadable hkey hcontent hplain =>
      refine .inr ⟨_, hkey, .inr ⟨_, hcontent, ?_⟩⟩
      rw [Cipher.decrypt_of_lengths (contentKey_eq_ok.mp hkey).2 hiv]
      exact Result.ofOption_eq_error.mpr ⟨hplain, rfl⟩

/-- Opening an envelope fails over how it is made up, whatever the key, or because its lock denies the
key. -/
theorem decrypt_eq_error_iff :
    e.decrypt k = .error err ↔ e.lock = .error err ∨ ∃ l, e.lock = .ok l ∧ l.Denies k err := by
  rw [decrypt, Result.bind_eq_error]
  refine or_congr Iff.rfl (exists_congr fun l => and_congr_right fun hl => ?_)
  exact Lock.unlock_eq_error_iff (lock_eq_ok hl).2

/-! ### What an error tells -/

/-- An error is about the content that is missing exactly if it is missing and the key is right. -/
theorem decrypt_eq_missingEnvelope_iff :
    e.decrypt k = .error .missingEnvelope ↔ e.data.content.content = none ∧ e.Unwraps k := by
  rw [decrypt_eq_error_iff]
  constructor
  · rintro (h | ⟨l, hl, h⟩)
    · exact (lock_failsOnly e _ h).elim
    · cases h with
      | hollow h hcontent => exact ⟨(lock_eq_ok hl).1 ▸ hcontent, l, hl, h⟩
  · rintro ⟨hcontent, l, hl, h⟩
    exact .inr ⟨l, hl, .hollow h ((lock_eq_ok hl).1.trans hcontent)⟩

/-- Once the key is used, one of two errors is left. -/
theorem decrypt_error_of_lock (hl : e.lock = .ok l) (h : e.decrypt k = .error err) :
    err = .decryption ∨ err = .missingEnvelope := by
  rcases decrypt_eq_error_iff.mp h with hfailed | ⟨l', -, hdenies⟩
  · rw [hl] at hfailed
    cases hfailed
  · cases hdenies with
    | locked => exact .inl rfl
    | hollow => exact .inr rfl
    | unreadable => exact .inl rfl

theorem decrypt_of_lock_eq_error (hl : e.lock = .error err) (k : Rsa.PrivateKey) :
    e.decrypt k = .error err := decrypt_eq_error_iff.mpr (.inl hl)

/-- An error about how an envelope is made up does not depend on the key. -/
theorem decrypt_eq_error_of_ne (h : e.decrypt k = .error err) (hdecryption : err ≠ .decryption)
    (hmissing : err ≠ .missingEnvelope) (k' : Rsa.PrivateKey) : e.decrypt k' = .error err := by
  cases hl : e.lock with
  | error err' =>
    rw [decrypt_of_lock_eq_error hl k] at h
    cases h
    exact decrypt_of_lock_eq_error hl k'
  | ok l => exact ((decrypt_error_of_lock hl h).elim hdecryption hmissing).elim

/-- Two keys that both fail to open an envelope do so in the same error, and an error other than
`decryption` depends on the envelope alone, exactly if the envelope has content or the keys agree on
whether they yield the content key. -/
theorem decrypt_errors_eq_iff (e : Envelope) (k₁ k₂ : Rsa.PrivateKey) :
    (∀ err₁ err₂, e.decrypt k₁ = .error err₁ → e.decrypt k₂ = .error err₂ →
      (err₁ = err₂ ↔ (e.data.content.content = none → (e.Unwraps k₁ ↔ e.Unwraps k₂)))) ∧
    ∀ err, e.decrypt k₁ = .error err → err ≠ .decryption →
      (e.decrypt k₂ = .error err ↔
        (e.data.content.content = none → (e.Unwraps k₁ ↔ e.Unwraps k₂))) := by
  cases hlock : e.lock with
  | error err =>
    have hagree : e.Unwraps k₁ ↔ e.Unwraps k₂ := iff_of_false (not_unwraps hlock) (not_unwraps hlock)
    rw [decrypt_of_lock_eq_error hlock k₁, decrypt_of_lock_eq_error hlock k₂]
    refine ⟨?_, ?_⟩
    · rintro _ _ ⟨⟩ ⟨⟩
      exact iff_of_true rfl fun _ => hagree
    · rintro _ ⟨⟩ -
      exact iff_of_true rfl fun _ => hagree
  | ok l =>
    -- which of the two errors is left says whether the key yields the content key
    have htells : ∀ {k err}, e.decrypt k = .error err →
        (err = .missingEnvelope ↔ e.data.content.content = none ∧ e.Unwraps k) := by
      intro k err h
      rw [← decrypt_eq_missingEnvelope_iff, h, Except.error.injEq]
    refine ⟨fun err₁ err₂ h₁ h₂ => ?_, fun err h₁ hne => ?_⟩
    · have hsame : err₁ = err₂ ↔ (err₁ = .missingEnvelope ↔ err₂ = .missingEnvelope) := by
        rcases decrypt_error_of_lock hlock h₁ with rfl | rfl <;>
          rcases decrypt_error_of_lock hlock h₂ with rfl | rfl <;> simp
      rw [hsame, htells h₁, htells h₂, and_congr_right_iff]
    · obtain rfl : err = .missingEnvelope := (decrypt_error_of_lock hlock h₁).resolve_left hne
      obtain ⟨hnone, hk₁⟩ := (htells h₁).mp rfl
      rw [decrypt_eq_missingEnvelope_iff]
      constructor
      · exact fun ⟨_, hk₂⟩ _ => iff_of_true hk₁ hk₂
      · exact fun hagree => ⟨hnone, (hagree hnone).mp hk₁⟩

/-! ### An envelope without content -/

/-- The envelope with its content taken out. -/
def emptied (e : Envelope) : Envelope :=
  ⟨{ e.data with content := { e.data.content with content := none } }⟩

/-- The content key of a sample, encrypted for the sample key. -/
def sampleEncryptedKey : Bytes :=
  Bytes.ofNat Rsa.sampleKey.publicKey.size
    (Rsa.power (Bytes.toNat (Rsa.encryptedBlock (List.replicate 28 1) (List.replicate 16 1)))
      Rsa.sampleKey.publicKey.exponent Rsa.sampleKey.publicKey.modulus)

/-- The cipher of the sample, with an initial vector of ones. -/
def sampleAlgorithm : X509.AlgorithmId := ⟨Cipher.aes128.oid, some ⟨.octetString, List.replicate 16 1⟩⟩

/-- An envelope for the sample identity, emptied. -/
def sampleEmptied : Envelope :=
  (assemble Identity.sample.certificate sampleAlgorithm ⟨[]⟩ ⟨sampleEncryptedKey⟩).emptied

/-- A key that passes its checks and is too small for the sample. -/
def smallKey : Rsa.PrivateKey := ⟨⟨15, 3⟩, 3, 3, 5⟩

theorem exists_read_sampleEmptied : ∃ b, Envelope.read b = .ok sampleEmptied := by
  have hback : (sampleEmptied.write >>= Envelope.read) = .ok sampleEmptied := by decide +kernel
  obtain ⟨b, -, hb⟩ := Result.bind_eq_ok.mp hback
  exact ⟨b, hb⟩

/-- Keys do not always fail in the same error: without content to open, the right key fails in another
error than a wrong one. -/
theorem decrypt_errors_not_always_eq :
    ¬ ∀ (b : Bytes) (e : Envelope) (k₁ k₂ : Rsa.PrivateKey) (err₁ err₂ : Error),
      Envelope.read b = .ok e → k₁.check = .ok () → k₂.check = .ok () →
      e.decrypt k₁ = .error err₁ → e.decrypt k₂ = .error err₂ → err₁ = err₂ := by
  intro h
  obtain ⟨b, hb⟩ := exists_read_sampleEmptied
  have hright : sampleEmptied.decrypt Rsa.sampleKey = .error .missingEnvelope := by decide +kernel
  have hwrong : sampleEmptied.decrypt smallKey = .error .decryption := by decide +kernel
  cases h b _ _ _ _ _ hb Rsa.check_sampleKey (by decide) hright hwrong

end Envelope

end CertEnroll
