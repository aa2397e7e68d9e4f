import CertEnroll.Proofs.Chain
import CertEnroll.Proofs.HonestExchange
import CertEnroll.Proofs.Refusal

/-!
# Proofs.Retrieval — fetching a certificate or a revocation list reports what happened

The reply of such a call is put together after its exchange, from the state that the exchange returned and
from what the transaction shows by then.  Every state but the one of success is taken for a failure; that this
is right rests on operations whose answer cannot ask to wait.
-/

namespace CertEnroll.Transaction

open X509 (Certificate SerialNumber)

variable {σ : Type}

/-! ### Calls that retrieve -/

/-- A call that retrieves something performs an operation, and replies with what the transaction shows
afterwards. -/
inductive Retrieves (recipient : Certificate) : Call → Operation → (Transaction → Result Reply) → Prop
  | certificate (n : SerialNumber) : Retrieves recipient (.getCertificate n)
      (.getCert ⟨recipient.body.issuer, n⟩) fun t => t.certificates.map .certificates
  | revocations : Retrieves recipient .getRevocations
      (.getCrl ⟨recipient.body.issuer, recipient.body.serial⟩) fun t => t.revocations.map .revocations

section

variable {recipient : Certificate} {c : Call} {op : Operation} {show? : Transaction → Result Reply}

theorem Retrieves.operation {t : Transaction} (h : Retrieves t.recipient c op show?) :
    c.operation t = .ok op := by
  cases h <;> rfl

theorem Retrieves.isDelayable (h : Retrieves recipient c op show?) : op.isDelayable = false := by
  cases h <;> rfl

theorem Retrieves.permits {t : Transaction} (h : Retrieves recipient c op show?) :
    t.permits op = true ↔ t.state = .new := by
  rw [permits_iff]
  cases h <;> simp

theorem map_collected {α β : Type} (f : α → β) (show? : Transaction → Result α) (t : Transaction)
    (state : State) : (collected show? t state).map f = collected (fun t => (show? t).map f) t state := by
  unfold collected
  split
  · rfl
  · cases t.failureReason <;> rfl

theorem Retrieves.reply (h : Retrieves recipient c op show?) (t : Transaction) (state : State) :
    c.reply t state = collected show? t state := by
  cases h with
  | certificate n => exact map_collected _ _ t state
  | revocations => exact map_collected _ _ t state

/-- What was issued is shown. -/
theorem Retrieves.exists_shown (h : Retrieves recipient c op show?) {t : Transaction} {store : CertStore}
    (houtcome : t.outcome? = some (.issued store)) : ∃ v, show? t = .ok v := by
  obtain ⟨hcertificates, hrevocations⟩ := shows_of_outcome houtcome
  cases h with
  | certificate n => exact ⟨_, congrArg _ hcertificates⟩
  | revocations => exact ⟨_, congrArg _ hrevocations⟩

end

/-! ### How they end -/

/-- Why a call that retrieves something returns neither it nor the reason of a failure, with what becomes of
the transaction. -/
inductive Withheld (t t' : Transaction) : Error → Prop
  | refused : t.state ≠ .new → t' = t → Withheld t t' (.illegalState t.state)
  | unsealed (e : Error) : t.state = .new → t'.state = .new → e.OfContent → Withheld t t' e
  | unanswered (text : String) : t.state = .new → t'.state = .new → Withheld t t' (.transport text)
  | aborted (e : Error) : t.state = .new → t'.state = .aborted → e.OfContent ∨ e.kind = .exchangeIntegrity →
      Withheld t t' e

/-- The ways in which a call that retrieves something ends. -/
inductive Retrieved (show? : Transaction → Result Reply) (t t' : Transaction) : Result Reply → Prop
  | granted (v : Reply) : t.state = .new → t'.state = .issued → show? t' = .ok v → Retrieved show? t t' (.ok v)
  | rejected (reason : FailInfo) : t.state = .new → t'.state = .failed → t'.failureReason = .ok reason →
      Retrieved show? t t' (.error (.operationFailed reason))
  | withheld (e : Error) : Withheld t t' e → Retrieved show? t t' (.error e)

section

variable {t t' : Transaction} {o : Occasion σ} {op : Operation} {show? : Transaction → Result Reply}

theorem Occasion.retrieved (h : Retrieves t.recipient o.call op show?) :
    Retrieved show? t (o.after t) (o.result t) := by
  have hc := o.course t
  generalize o.result t = result, o.after t = t', o.left t = s at hc
  cases hc with
  | refused hrefused =>
    have hnew : t.state ≠ .new := fun hnew => hrefused ⟨op, h.operation, h.permits.mpr hnew⟩
    exact .withheld _ (.refused hnew rfl)
  | unsealed op' e rest hop hp he =>
    obtain rfl : op = op' := Except.ok.inj (h.operation.symm.trans hop)
    have hnew := h.permits.mp hp
    exact .withheld _ (.unsealed e hnew hnew he)
  | exchanged op' q document rest answer after r hop hp hq ha hr =>
    obtain rfl : op = op' := Except.ok.inj (h.operation.symm.trans hop)
    have hnew := h.permits.mp hp
    cases hr with
    | unanswered text => exact .withheld _ (.unanswered text hnew hnew)
    | untrusted b e hv => exact .withheld _ (.aborted e hnew rfl (vet_failsOnly _ _ b e hv))
    | replayed b m hv hm => exact .withheld _ (.aborted _ hnew rfl (.inr rfl))
    | unread b m e hv hm hconclude =>
      exact .withheld _ (.aborted e hnew rfl (.inl (conclude_failsOnly _ _ m e hconclude)))
    | concluded b m state outcome hv hm hconclude =>
      obtain ⟨-, hbrings⟩ := conclude_eq_ok.mp hconclude
      change Retrieved show? t _ (o.call.reply _ state)
      rw [h.reply]
      -- the answer cannot ask to wait, so there are two states left
      cases hbrings with
      | success data store _ _ _ =>
        generalize hafter : { t.sent q with state := .issued, outcome? := some (.issued store) } = t'
        have houtcome : t'.outcome? = some (.issued store) := hafter ▸ rfl
        obtain ⟨v, hv⟩ := h.exists_shown houtcome
        rw [collected, if_pos rfl, hv]
        exact .granted v hnew (hafter ▸ rfl) hv
      | failure reason _ _ => exact .rejected reason hnew rfl rfl
      | pending _ hd =>
        rw [awaits, h.isDelayable] at hd
        cases hd

end

/-! ### What the ends say -/

section

variable {t t' : Transaction} {show? : Transaction → Result Reply} {result : Result Reply} {e : Error}

theorem Withheld.kind_cases (h : Withheld t t' e) :
    t.state ≠ .new ∧ e.kind = .illegalState ∨ e.kind ≠ .illegalState ∧ e.kind ≠ .operationFailed := by
  cases h with
  | refused hne _ => exact .inl ⟨hne, rfl⟩
  | unanswered => exact .inr (by simp [Error.kind])
  | unsealed _ _ _ he => exact .inr (by rcases he with he | he <;> simp [he])
  | aborted _ _ _ he => exact .inr (by rcases he with (he | he) | he <;> simp [he])

theorem Withheld.kind_ne (h : Withheld t t' e) : e.kind ≠ .operationFailed := by
  rcases h.kind_cases with ⟨-, hk⟩ | ⟨-, hk⟩
  · simp [hk]
  · exact hk

theorem Withheld.kind_ne_of_new (h : Withheld t t' e) (hnew : t.state = .new) : e.kind ≠ .illegalState :=
  (h.kind_cases.resolve_left fun hk => hk.1 hnew).1

theorem Withheld.state (h : Withheld t t' e) : t'.state = t.state ∨ t'.state = .aborted := by
  cases h with
  | refused _ hsame => exact .inl (congrArg Transaction.state hsame)
  | unsealed _ hnew hnew' _ | unanswered _ hnew hnew' => exact .inl (hnew'.trans hnew.symm)
  | aborted _ _ haborted _ => exact .inr haborted

/-- Where something is withheld, a new transaction becomes neither issued nor failed. -/
theorem Withheld.not_ended (h : Withheld t t' e) (hnew : t.state = .new) :
    t'.state ≠ .issued ∧ t'.state ≠ .failed := by
  rcases h.state with hstate | hstate
  all_goals
    rw [hstate]
    simp [hnew]

theorem Retrieved.ok_iff (h : Retrieved show? t t' result) :
    (∃ v, result = .ok v) ↔ t.state = .new ∧ t'.state = .issued := by
  cases h with
  | granted v hnew hissued _ => exact ⟨fun _ => ⟨hnew, hissued⟩, fun _ => ⟨v, rfl⟩⟩
  | rejected _ _ hfailed _ => simp [hfailed]
  | withheld e he =>
    constructor
    · rintro ⟨v, ⟨⟩⟩
    · rintro ⟨hnew, hissued⟩
      exact absurd hissued (he.not_ended hnew).1

theorem Retrieved.failed_iff (h : Retrieved show? t t' result) :
    (∃ reason, result = .error (.operationFailed reason)) ↔ t.state = .new ∧ t'.state = .failed := by
  cases h with
  | granted _ _ hissued _ => simp [hissued]
  | rejected reason hnew hfailed _ => exact ⟨fun _ => ⟨hnew, hfailed⟩, fun _ => ⟨reason, rfl⟩⟩
  | withheld e he =>
    constructor
    · rintro ⟨reason, ⟨⟩⟩
      exact absurd rfl he.kind_ne
    · rintro ⟨hnew, hfailed⟩
      exact absurd hfailed (he.not_ended hnew).2

theorem Retrieved.shown {v : Reply} (h : Retrieved show? t t' (.ok v)) : show? t' = .ok v := by
  cases h with
  | granted _ _ _ hv => exact hv

theorem Retrieved.reason {reason : FailInfo} (h : Retrieved show? t t' (.error (.operationFailed reason))) :
    t'.failureReason = .ok reason := by
  cases h with
  | rejected _ _ _ hreason => exact hreason
  | withheld _ he => exact absurd rfl he.kind_ne

theorem Retrieved.withheld_of_ne (h : Retrieved show? t t' (.error e))
    (hne : ∀ reason, e ≠ .operationFailed reason) : Withheld t t' e := by
  cases h with
  | rejected reason _ _ _ => exact absurd rfl (hne reason)
  | withheld _ he => exact he

theorem Retrieved.state_of_pending (h : Retrieved show? t t' result) (hpending : t'.state = .pending) :
    t.state = .pending := by
  cases h with
  | granted _ _ hissued _ =>
    rw [hissued] at hpending
    cases hpending
  | rejected _ _ hfailed _ =>
    rw [hfailed] at hpending
    cases hpending
  | withheld _ he =>
    rcases he.state with hstate | hstate
    · exact hstate.symm.trans hpending
    · rw [hstate] at hpending
      cases hpending

theorem Retrieved.ne_illegalState (h : Retrieved show? t t' result) (hnew : t.state = .new) (state : State) :
    result ≠ .error (.illegalState state) := by
  rintro rfl
  exact (h.withheld_of_ne (by simp)).kind_ne_of_new hnew rfl

end

/-- After any moves, a call that asks for a certificate or for the revocation list of the recipient returns
something exactly if it takes the transaction from new to issued, and this is what the transaction shows then.
It returns the reason of a failure exactly if it takes the transaction from new to failed, and this is the
reason that the transaction gives then.  Otherwise it returns another error: that of the state, which is not
new, and does nothing; or one of the sealing or of the transport, and leaves the transaction new; or one of
the answer, and the transaction is aborted.  No call takes a transaction to pending, and in a new one it does
not end in an error of the state.  What it hands over is the request for the certificate with the given number
of the recipient's issuer, or for the revocation list with the recipient's own number. -/
theorem retrieval_reports (identity : Identity) (recipient : Certificate) (moves : List (Move σ))
    (o : Occasion σ) (op : Operation) (show? : Transaction → Result Reply)
    (h : Retrieves recipient o.call op show?) :
    let t := (start identity recipient).run moves
    ((∃ v, o.result t = .ok v) ↔ t.state = .new ∧ (o.after t).state = .issued) ∧
    (∀ v, o.result t = .ok v → show? (o.after t) = .ok v) ∧
    ((∃ reason, o.result t = .error (.operationFailed reason)) ↔
      t.state = .new ∧ (o.after t).state = .failed) ∧
    (∀ reason, o.result t = .error (.operationFailed reason) → (o.after t).failureReason = .ok reason) ∧
    (∀ e, o.result t = .error e → (∀ reason, e ≠ .operationFailed reason) → Withheld t (o.after t) e) ∧
    ((o.after t).state = .pending → t.state = .pending ∧ o.Ignored t) ∧
    (t.state = .new → ∀ state, o.result t ≠ .error (.illegalState state)) ∧
    ∀ document, document ∈ o.handed t → ∃ q answer, o.Exchanges t op q document answer ∧ q.AsksFor op := by
  intro t
  have hrecipient : t.recipient = recipient := run_recipient _ moves
  rw [← hrecipient] at h
  have hends := o.retrieved h
  refine ⟨hends.ok_iff, fun v hv => ?_, hends.failed_iff, fun reason hreason => ?_, fun e he hne => ?_,
    fun hpending => ?_, hends.ne_illegalState, fun document hd => ?_⟩
  · rw [hv] at hends
    exact hends.shown
  · rw [hreason] at hends
    exact hends.reason
  · rw [he] at hends
    exact hends.withheld_of_ne hne
  · have hstate := hends.state_of_pending hpending
    refine ⟨hstate, Occasion.ignored_of_not_allowed fun ⟨op', hop, hp⟩ => ?_⟩
    obtain rfl : op = op' := Except.ok.inj (h.operation.symm.trans hop)
    rw [h.permits, hstate] at hp
    cases hp
  · rcases o.handed_cases t with hnone | ⟨op', q, document', answer, hx, hone⟩
    · rw [hnone] at hd
      cases hd
    · rw [hone] at hd
      obtain rfl := List.mem_singleton.mp hd
      obtain rfl : op = op' := Except.ok.inj (h.operation.symm.trans hx.operation)
      exact ⟨q, answer, hx, hx.asksFor⟩

/-! ### A sample -/

/-- A call to which a trusted and new answer comes leaves what the answer brings. -/
theorem Occasion.after_of_answer {o : Occasion σ} {t : Transaction} {op : Operation} {q m : Message}
    {state : State} {outcome : Outcome} (hc : o.call.operation t = .ok op)
    (h : t.AnsweredWith o.send o.now op o.surroundings q m)
    (hbrings : t.Brings q.attributes.transactionId op m state outcome) :
    (o.after t).state = state ∧ (o.after t).Shows outcome := by
  simp only [Occasion.after, Call.make_apply, hc]
  exact (h.concluded hbrings).2

theorem message_of_failure {request : Request} {nonce : Nonce} {reason : FailInfo} {m : Message}
    (h : Responder.message request nonce (.failure reason) = .ok m) :
    m.attributes.pkiStatus = some .failure ∧ m.attributes.failInfo = some reason := by
  cases h
  exact ⟨rfl, rfl⟩

/-- The sample transaction asks for its revocation list and gets an answer. -/
def selfRetrieval (answer : Bytes) : Occasion Unit := ⟨.getRevocations, fun _ => pure (.ok answer), ⟨0, 0⟩, quiet⟩

theorem selfResponder_rejects {answer : Bytes} {rest : Random}
    (h : (Sealing.sample.encode ⟨0, 0⟩ Sealing.sampleRejection).run.run (Sealing.ones 16) = (.ok answer, rest)) :
    (selfResponder.answer ⟨0, 0⟩ ⟨Sealing.sampleQuestion, selfQuestion, selfTransaction.identity.certificate⟩
      (.failure .badRequest)).run.run (Sealing.ones 0) = (.ok answer, rest) :=
  Drawing.bind_eq_ok.mpr ⟨_, Sealing.ones 16, rfl, Drawing.bind_eq_ok.mpr ⟨_, Sealing.ones 16, rfl, h⟩⟩

/-- The sample authority rejects the question for its revocation list. -/
theorem answeredWith_rejection : ∃ (answer : Bytes) (m : Message),
    selfTransaction.AnsweredWith (selfRetrieval answer).send (selfRetrieval answer).now selfQuestion
      (selfRetrieval answer).surroundings Sealing.sampleQuestion m ∧
      m.attributes.pkiStatus = some .failure ∧ m.attributes.failInfo = some .badRequest := by
  obtain ⟨document, rest, hquestion⟩ := Sealing.exists_encode_sampleQuestion
  obtain ⟨answer, rest', hrejection⟩ := Sealing.exists_encode_sampleRejection
  obtain ⟨m, signed, hm, htrusts⟩ := trusts_of_answer (t := selfTransaction) Identity.heldBy_sample
    Identity.sound_sample (.inl rfl) (selfResponder_rejects hrejection)
  obtain ⟨-, -, -, htype, -⟩ := Responder.message_eq_ok hm
  exact ⟨answer, m, ⟨rfl, ⟨document, rest, answer, (rest, ()), signed, selfTransaction_sends hquestion, rfl,
    htrusts⟩, List.not_mem_nil, htype⟩, message_of_failure hm⟩

/-- The rejection is reported, and can be asked for afterwards. -/
theorem retrieval_reports_rejection : ∃ answer : Bytes,
    (selfRetrieval answer).result selfTransaction = .error (.operationFailed .badRequest) ∧
      ((selfRetrieval answer).after selfTransaction).failureReason = .ok .badRequest := by
  obtain ⟨answer, m, hanswered, hstatus, hreason⟩ := answeredWith_rejection
  have hoperation : (selfRetrieval answer).call.operation selfTransaction = .ok selfQuestion := rfl
  obtain ⟨hstate, hshown⟩ :=
    Occasion.after_of_answer hoperation hanswered (.failure .badRequest hstatus hreason)
  obtain ⟨-, -, hfailed, hgiven, -⟩ := retrieval_reports .sample Identity.sample.certificate
    [.withConfig ⟨.md5, .aes128, 1, true⟩, .withId Sealing.sampleId] (selfRetrieval answer) _ _ .revocations
  obtain ⟨reason, hresult⟩ := hfailed.mpr ⟨rfl, hstate⟩
  have hsame : reason = .badRequest := Except.ok.inj ((hgiven reason hresult).symm.trans hshown)
  exact ⟨answer, hsame ▸ hresult, hshown⟩

end CertEnroll.Transaction
