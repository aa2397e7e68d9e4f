import CertEnroll.Proofs.Traffic

/-!
# Proofs.Leniency — what is different when signatures are not verified

Without verification a document is decoded as with it, unless it fails to verify.  A transaction that does
not verify sends the same requests, and goes along with one that verifies for as long as that one accepts
what it gets.
-/

namespace CertEnroll

open Calendar (Instant)
open Result (FailsOnly)
open X509 (Attributes Certificate)

/-! ### Decoding -/

/-- The error comes of verifying a message. -/
def Error.OfVerification : Error → Prop
  | unsupportedAlgorithm _ | signatureAlgorithmMismatch _ | digestMismatch | publicKey | verification =>
    True
  | missingAttribute o | invalidAttribute o => o = AttributeId.messageDigest
  | _ => False

theorem SignedAttributes.messageDigest_failsOnly (as : Attributes) :
    FailsOnly Error.OfVerification (messageDigest as) := by
  unfold messageDigest require
  rw [Result.failsOnly_bind]
  refine ⟨fun err h => ?_, fun found _ => ?_⟩
  · obtain rfl := findAs_failsOnly_invalid _ _ _ err h
    rfl
  · rw [Result.failsOnly_ofOption]
    exact fun _ => rfl

theorem SignedMessage.verify_failsOnly_verification (s : SignedMessage) :
    FailsOnly Error.OfVerification s.verify := by
  simp [verify, SignedAttributes.messageDigest_failsOnly, Digest.ofOid, Digest.checkSignatureAlgorithm,
    Digest.ofSignatureOid, Certificate.publicKey, Digest.verify, Error.OfVerification]

namespace Unsealing

variable {k : Rsa.PrivateKey} {b : Bytes}

theorem decode_eq_verify_bind {s : SignedMessage} (h : SignedMessage.read b = .ok s) :
    decode ⟨k, true⟩ b = s.verify >>= fun _ => decode ⟨k, false⟩ b := by
  unfold decode
  rw [h]
  rfl

/-- Verification makes no difference to what is decoded, or it is what fails. -/
theorem decode_verifying_cases (k : Rsa.PrivateKey) (b : Bytes) :
    decode ⟨k, true⟩ b = decode ⟨k, false⟩ b ∨
      ∃ s err, SignedMessage.read b = .ok s ∧ s.verify = .error err ∧ err.OfVerification ∧
        decode ⟨k, true⟩ b = .error err := by
  cases hread : SignedMessage.read b with
  | error err =>
    refine .inl ?_
    unfold decode
    rw [hread]
    rfl
  | ok s =>
    have hdecode := decode_eq_verify_bind (k := k) hread
    cases hverify : s.verify with
    | error err =>
      rw [hverify] at hdecode
      exact .inr ⟨s, err, rfl, hverify, s.verify_failsOnly_verification err hverify, hdecode⟩
    | ok _ =>
      rw [hverify] at hdecode
      exact .inl hdecode

/-- What is decoded with verification is decoded without. -/
theorem decode_of_verifying {m : Message} {signer : Certificate} (h : decode ⟨k, true⟩ b = .ok (m, signer)) :
    decode ⟨k, false⟩ b = .ok (m, signer) := by
  obtain ⟨s, hread, -, hopened, hsigner⟩ := decode_eq_ok.mp h
  exact decode_eq_ok.mpr ⟨s, hread, fun h => absurd h Bool.false_ne_true, hopened, hsigner⟩

end Unsealing

/-! ### Transactions -/

namespace Transaction

variable {σ : Type}

/-- The transaction with verification off. -/
def unverified (t : Transaction) : Transaction := t.withConfig { t.config with verifies := false }

/-- The request is prepared alike. -/
theorem request_unverified (t : Transaction) (now : Instant) (op : Operation) (random : Random) :
    t.unverified.request now op random =
      ((t.request now op random).1, (t.request now op random).2.1.unverified,
        (t.request now op random).2.2) := by
  -- neither the guard nor the draft reads the choice
  have hp : t.unverified.permits op = t.permits op := rfl
  have hd : t.unverified.draft now op = t.draft now op := rfl
  simp only [request, hp, hd]
  cases t.permits op with
  | false => rfl
  | true =>
    generalize (t.draft now op).run.run random = x
    obtain ⟨drafted, rest⟩ := x
    simp only [if_true]
    cases drafted with
    | error e => rfl
    | ok d => cases hd : d.document <;> simp only [hd] <;> rfl

theorem vet_unverified {t : Transaction} {w : Awaited} {answer : Bytes} {m : Message}
    (h : t.vet w answer = .ok m) : t.unverified.vet w answer = .ok m := by
  obtain ⟨nonce, s, hnonce, htrusts⟩ := vet_eq_ok.mp h
  refine vet_eq_ok.mpr ⟨nonce, s, hnonce, ?_⟩
  exact {
    read := htrusts.read
    opened := htrusts.opened
    signed := fun hoff => absurd hoff Bool.false_ne_true
    sameId := htrusts.sameId
    echo := htrusts.echo }

theorem settle_unverified {t : Transaction} {w : Awaited} {answer : Except String Bytes}
    {cache : ReplayCache} {state : State} (h : (t.settle w answer cache).1 = .ok state) :
    t.unverified.settle w answer cache =
      (.ok state, (t.settle w answer cache).2.1.unverified, (t.settle w answer cache).2.2) := by
  have hs := t.settle_settled w answer cache
  generalize t.settle w answer cache = r at h hs ⊢
  -- of the ways in which a wait ends, only a conclusion is a success
  cases hs with
  | concluded answer m state' outcome hv hm hc =>
    have hc' : t.unverified.conclude w m = .ok (state', outcome) := hc
    cases h
    simp only [settle, judge_run, vet_unverified hv, hm, if_false, hc']
    rfl
  | _ => cases h

theorem perform_unverified (send : Transport σ) (now : Instant) (op : Operation) (t : Transaction)
    (s : Surroundings σ) :
    (perform send now op (t.unverified, s)).2.2.peer = (perform send now op (t, s)).2.2.peer ∧
      ∀ state, (perform send now op (t, s)).1 = .ok state →
        perform send now op (t.unverified, s) =
          (.ok state, (perform send now op (t, s)).2.1.unverified, (perform send now op (t, s)).2.2) := by
  simp only [perform, request_unverified]
  generalize t.request now op s.random = r
  obtain ⟨result, t', rest⟩ := r
  cases result with
  | error err => exact ⟨rfl, fun state h => by cases h⟩
  | ok x =>
    refine ⟨rfl, fun state h => ?_⟩
    obtain ⟨⟨answer, after⟩, hanswer⟩ : ∃ y, (send x.2).run (rest, s.peer) = y := ⟨_, rfl⟩
    simp only [hanswer] at h ⊢
    rw [settle_unverified h]

theorem Call.operation_unverified (c : Call) (t : Transaction) :
    c.operation t.unverified = c.operation t := by
  cases c <;> rfl

theorem Call.reply_unverified (c : Call) (t : Transaction) (state : State) :
    c.reply t.unverified state = c.reply t state := by
  cases c <;> rfl

/-- The other side is handed the same, whether or not the call verifies what comes back. -/
theorem Occasion.handed_unverified (o : Occasion σ) (t : Transaction) :
    o.handed t.unverified = o.handed t := by
  unfold handed left
  simp only [Call.make_apply, Call.operation_unverified]
  cases o.noted.call.operation t with
  | error err => rfl
  | ok op =>
    have hpeer := (perform_unverified o.noted.send o.noted.now op t o.noted.surroundings).1
    exact congrArg Prod.snd hpeer

/-- A call that accepts what comes back goes the same way without verification. -/
theorem Occasion.unverified_of_ok {o : Occasion σ} {t : Transaction} {reply : Reply}
    (h : o.result t = .ok reply) :
    o.result t.unverified = .ok reply ∧ o.after t.unverified = (o.after t).unverified ∧
      o.left t.unverified = o.left t := by
  unfold result after left at *
  simp only [Call.make_apply, Call.operation_unverified] at h ⊢
  cases hop : o.call.operation t with
  | error err =>
    rw [hop] at h
    cases h
  | ok op =>
    rw [hop] at h
    obtain ⟨state, hstate, hreply⟩ := Result.bind_eq_ok.mp h
    have hperform := (perform_unverified o.send o.now op t o.surroundings).2 state hstate
    dsimp only
    rw [hperform]
    refine ⟨?_, rfl, rfl⟩
    exact (o.call.reply_unverified _ state).trans hreply

/-! ### Runs -/

/-- Each of the calls accepts what comes back. -/
def AllAccepted (t : Transaction) : List (Occasion σ) → Prop
  | [] => True
  | o :: os => (∃ reply, o.result t = .ok reply) ∧ (o.after t).AllAccepted os

/-- A run of calls that all accept what comes back goes the same way without verification. -/
theorem run_unverified {t : Transaction} {os : List (Occasion σ)} (h : t.AllAccepted os) :
    t.unverified.run (os.map .call) = (t.run (os.map .call)).unverified := by
  induction os generalizing t with
  | nil => rfl
  | cons o os ih =>
    obtain ⟨⟨reply, hreply⟩, hrest⟩ := h
    have hafter := (o.unverified_of_ok hreply).2.1
    have hrun := ih hrest
    rw [← hafter] at hrun
    exact hrun

/-- Turning verification off removes checks and does nothing else.  A document is decoded with
verification as without, or is read and fails in an error of its verification.  A call hands over the same
whether or not it verifies; and one that verifies and succeeds returns the same without verification, and
leaves the same transaction, but for the choice, and the same surroundings, the cache among them. -/
theorem verification_off_removes_only_checks :
    (∀ (k : Rsa.PrivateKey) (b : Bytes),
      (Unsealing.decode ⟨k, true⟩ b = Unsealing.decode ⟨k, false⟩ b ∨
        ∃ s err, SignedMessage.read b = .ok s ∧ s.verify = .error err ∧ err.OfVerification ∧
          Unsealing.decode ⟨k, true⟩ b = .error err) ∧
      ∀ m signer, Unsealing.decode ⟨k, true⟩ b = .ok (m, signer) →
        Unsealing.decode ⟨k, false⟩ b = .ok (m, signer)) ∧
    ∀ (t : Transaction) (o : Occasion σ),
      o.handed t.unverified = o.handed t ∧
        ∀ reply, o.result t = .ok reply →
          o.result t.unverified = .ok reply ∧ o.after t.unverified = (o.after t).unverified ∧
            o.left t.unverified = o.left t :=
  ⟨fun k b => ⟨Unsealing.decode_verifying_cases k b, fun _ _ => Unsealing.decode_of_verifying⟩,
    fun t o => ⟨o.handed_unverified t, fun _ => o.unverified_of_ok⟩⟩

end Transaction

end CertEnroll
