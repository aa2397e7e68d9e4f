import CertEnroll.Proofs.Opening

/-!
# Proofs.KeyUse — what the private key has to do with decoding

Decoding comes in two parts.  `prepare` takes the message apart, verifies it and reads its envelope, all
without a key; only then is the envelope decrypted, if there is one.  To tell which envelopes are
decrypted, `decodeBy` is decoding with any way to decrypt, whatever else that does, and `watch` is decoding
with one that notes what it is given.
-/

namespace CertEnroll

open X509 (Certificate)

variable {M : Type → Type} [Monad M] [MonadLiftT (Except Error) M]

/-! ### Decoding with any way to decrypt -/

/-- Opening with any way to decrypt. -/
def SignedMessage.openBy (s : SignedMessage) (decrypt : Envelope → M Bytes) : M Message := do
  match ← s.envelope with
  | none => return ⟨s.attributes, none⟩
  | some e => return ⟨s.attributes, some (← decrypt e)⟩

namespace Unsealing

/-- Decoding with any way to decrypt. -/
def decodeBy (verifies : Bool) (decrypt : Envelope → M Bytes) (b : Bytes) : M (Message × Certificate) := do
  let s ← SignedMessage.read b
  if verifies then s.verify
  let m ← s.openBy decrypt
  return (m, s.signer)

/-- What decoding finds before a key is used. -/
def prepare (verifies : Bool) (b : Bytes) : Result (SignedMessage × Option Envelope) := do
  let s ← SignedMessage.read b
  if verifies then s.verify
  let found ← s.envelope
  return (s, found)

/-- The rest of decoding. -/
def finish (decrypt : Envelope → M Bytes) : SignedMessage × Option Envelope → M (Message × Certificate)
  | (s, none) => return (⟨s.attributes, none⟩, s.signer)
  | (s, some e) => do
    let data ← decrypt e
    return (⟨s.attributes, some data⟩, s.signer)

/-- However envelopes are decrypted, decoding does so only with what was prepared. -/
theorem decodeBy_eq [LawfulMonad M] [LawfulMonadLiftT (Except Error) M] (verifies : Bool)
    (decrypt : Envelope → M Bytes) (b : Bytes) :
    decodeBy verifies decrypt b = monadLift (prepare verifies b) >>= finish decrypt := by
  -- reading the envelope moves from the second part of decoding to the end of the first
  have hopen (s : SignedMessage) : (s.openBy decrypt >>= fun m => pure (m, s.signer)) =
      (monadLift (s.envelope >>= fun found => pure (s, found)) >>= finish decrypt) := by
    rw [monadLift_bind, SignedMessage.openBy, bind_assoc, bind_assoc]
    refine bind_congr fun found => ?_
    rw [monadLift_pure, pure_bind]
    cases found with
    | none => exact pure_bind _ _
    | some e => simp only [finish, bind_assoc, pure_bind]
  unfold decodeBy prepare
  rw [monadLift_bind, bind_assoc]
  refine bind_congr fun s => ?_
  cases verifies with
  | false => exact hopen s
  | true =>
    change (monadLift s.verify >>= fun _ => _) = _
    rw [if_pos rfl, monadLift_bind, bind_assoc]
    exact bind_congr fun _ => hopen s

/-! ### Which envelopes are decrypted -/

/-- Decryption that notes which envelope it is given. -/
def noting (k : Rsa.PrivateKey) (e : Envelope) : ExceptT Error (StateM (List Envelope)) Bytes :=
  fun noted => (e.decrypt k, noted ++ [e])

/-- The result of decoding and the envelopes that it decrypts. -/
def watch (u : Unsealing) (b : Bytes) : Result (Message × Certificate) × List Envelope :=
  (decodeBy u.verifies (noting u.key) b).run.run []

variable {u : Unsealing} {b : Bytes} {s : SignedMessage} {e : Envelope} {err : Error}

theorem prepare_eq_ok {verifies : Bool} {found : Option Envelope} :
    prepare verifies b = .ok (s, found) ↔
      SignedMessage.read b = .ok s ∧ (verifies = true → s.Genuine) ∧ s.envelope = .ok found := by
  unfold prepare
  cases verifies with
  | false => simp [Result.bind_eq_ok, Result.map_eq_ok]
  | true => simp [Result.bind_eq_ok, Result.map_eq_ok, SignedMessage.verify_eq_ok]

/-- Decoding decrypts with its key and does nothing else. -/
theorem decode_eq_decodeBy (u : Unsealing) (b : Bytes) :
    u.decode b = decodeBy u.verifies (fun e => e.decrypt u.key) b := rfl

theorem decode_eq (u : Unsealing) (b : Bytes) :
    u.decode b = prepare u.verifies b >>= finish fun e => e.decrypt u.key := by
  rw [decode_eq_decodeBy]
  exact decodeBy_eq u.verifies (fun e => e.decrypt u.key) b

/-- The envelope that is found before a key is used. -/
def envelope? (verifies : Bool) (b : Bytes) : Option Envelope :=
  (prepare verifies b).toOption.bind Prod.snd

theorem envelope?_eq_some {verifies : Bool} :
    envelope? verifies b = some e ↔ ∃ s, SignedMessage.read b = .ok s ∧ (verifies = true → s.Genuine) ∧
      s.envelope = .ok (some e) := by
  have hprepared : envelope? verifies b = some e ↔ ∃ s, prepare verifies b = .ok (s, some e) := by
    unfold envelope?
    rcases prepare verifies b with _ | ⟨s, found⟩ <;> simp [Except.toOption]
  simp only [hprepared, prepare_eq_ok]

/-- Decoding decrypts the envelope that was found, once, and nothing else. -/
theorem watch_eq (u : Unsealing) (b : Bytes) :
    u.watch b = (u.decode b, (envelope? u.verifies b).toList) := by
  rw [decode_eq, watch, decodeBy_eq, envelope?]
  rcases prepare u.verifies b with err | ⟨s, _ | e⟩
  · rfl
  · rfl
  · change (noting u.key e >>= fun data => pure (_, _)).run.run [] = (e.decrypt u.key >>= _, [e])
    unfold noting
    cases e.decrypt u.key <;> rfl

/-! ### Two keys -/

/-- An error about an envelope that does not depend on the key is the error under any other key. -/
theorem decode_eq_error_of_ne {k₁ k₂ : Rsa.PrivateKey} {verifies : Bool}
    (h : decode ⟨k₁, verifies⟩ b = .error err) (hdecryption : err ≠ .decryption)
    (hmissing : err ≠ .missingEnvelope) : decode ⟨k₂, verifies⟩ b = .error err := by
  rw [decode_eq, Result.bind_eq_error] at h ⊢
  -- what is prepared is the same for both keys, so only the error of a decryption is left to look at
  refine h.imp_right ?_
  rintro ⟨⟨s, found⟩, hprepared, h⟩
  refine ⟨⟨s, found⟩, hprepared, ?_⟩
  cases found with
  | none => cases h
  | some e =>
    rcases Result.bind_eq_error.mp h with hdenied | ⟨data, -, h⟩
    · exact Result.bind_eq_error.mpr (.inl (Envelope.decrypt_eq_error_of_ne hdenied hdecryption hmissing k₂))
    · cases h

/-- A message without an envelope is opened alike with every key. -/
theorem decode_eq_ok_of_not_hasEnvelope {k₁ k₂ : Rsa.PrivateKey} {verifies : Bool} {m : Message}
    {c : Certificate} (h : decode ⟨k₁, verifies⟩ b = .ok (m, c)) (hm : m.attributes.hasEnvelope = false) :
    decode ⟨k₂, verifies⟩ b = .ok (m, c) := by
  obtain ⟨s, hread, hgenuine, hopened, hsigner⟩ := decode_eq_ok.mp h
  obtain ⟨hattributes, hcarries⟩ := SignedMessage.openWith_eq_ok.mp hopened
  have hcarries' : m.Carries k₂ s.content := by
    rw [SignedMessage.carries_of_not_hasEnvelope hm] at hcarries ⊢
    exact hcarries
  exact decode_eq_ok.mpr
    ⟨s, hread, hgenuine, SignedMessage.openWith_eq_ok.mpr ⟨hattributes, hcarries'⟩, hsigner⟩

/-- Keys that decode a document find the same attributes and the same signer. -/
theorem decode_agree {k₁ k₂ : Rsa.PrivateKey} {verifies : Bool} {m₁ m₂ : Message} {c₁ c₂ : Certificate}
    (h₁ : decode ⟨k₁, verifies⟩ b = .ok (m₁, c₁)) (h₂ : decode ⟨k₂, verifies⟩ b = .ok (m₂, c₂)) :
    m₁.attributes = m₂.attributes ∧ c₁ = c₂ := by
  obtain ⟨s, hread, -, hopened₁, rfl⟩ := decode_eq_ok.mp h₁
  obtain ⟨s', hread', -, hopened₂, rfl⟩ := decode_eq_ok.mp h₂
  rw [hread] at hread'
  cases hread'
  have hattributes₁ := (SignedMessage.openWith_eq_ok.mp hopened₁).1
  have hattributes₂ := (SignedMessage.openWith_eq_ok.mp hopened₂).1
  exact ⟨hattributes₁.trans hattributes₂.symm, rfl⟩

/-- The private key matters to decoding only through the content of the envelope: an error that is about
neither decryption nor missing content is the error under any other key, a message that asks to wait or
rejects is decoded alike, and two keys that decode a document find the same attributes and signer.  No more
than one envelope is ever decrypted, and one is only if it is that of a message that was taken apart and,
where that is wanted, verified. -/
theorem decode_depends_on_key_through_content (b : Bytes) (verifies : Bool) (k₁ k₂ : Rsa.PrivateKey) :
    (∀ err, decode ⟨k₁, verifies⟩ b = .error err → err ≠ .decryption → err ≠ .missingEnvelope →
      decode ⟨k₂, verifies⟩ b = .error err) ∧
    (∀ m c, decode ⟨k₁, verifies⟩ b = .ok (m, c) →
      m.attributes.pkiStatus = some .pending ∨ m.attributes.pkiStatus = some .failure →
      decode ⟨k₂, verifies⟩ b = .ok (m, c)) ∧
    (∀ m₁ c₁ m₂ c₂, decode ⟨k₁, verifies⟩ b = .ok (m₁, c₁) → decode ⟨k₂, verifies⟩ b = .ok (m₂, c₂) →
      m₁.attributes = m₂.attributes ∧ c₁ = c₂) ∧
    (watch ⟨k₁, verifies⟩ b).1 = decode ⟨k₁, verifies⟩ b ∧
    (watch ⟨k₁, verifies⟩ b).2.length ≤ 1 ∧
    ∀ e, e ∈ (watch ⟨k₁, verifies⟩ b).2 ↔ ∃ s, SignedMessage.read b = .ok s ∧
      (verifies = true → s.Genuine) ∧ s.envelope = .ok (some e) := by
  rw [watch_eq]
  refine ⟨fun err h hdecryption hmissing => decode_eq_error_of_ne h hdecryption hmissing,
    fun m c h hstatus => ?_, fun m₁ c₁ m₂ c₂ h₁ h₂ => decode_agree h₁ h₂, rfl, ?_, fun e => ?_⟩
  · exact decode_eq_ok_of_not_hasEnvelope h (MessageAttributes.hasEnvelope_eq_false_iff.mpr hstatus)
  · dsimp only
    cases envelope? verifies b <;> simp
  · rw [Option.mem_toList]
    exact envelope?_eq_some

end Unsealing

end CertEnroll
