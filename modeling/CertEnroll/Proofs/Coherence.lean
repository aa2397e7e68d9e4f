import CertEnroll.Proofs.Session

/-!
# Proofs.Coherence — the state of a transaction and what it shows agree

State and outcome are written on different paths: at the start, when an answer concludes an exchange,
when a bad answer aborts it and when no answer comes.  `Agree` lists the pairs that occur.  An exchange
keeps it, hence every run does, and what the accessors return follows from it.
-/

namespace CertEnroll

/-- The state of a transaction may become another by a call. -/
def State.MayBecome (a b : State) : Prop :=
  b = a ∨
    (a = .new ∨ a = .pending) ∧ (b = .issued ∨ b = .pending ∨ b = .failed ∨ b = .aborted)

namespace Transaction

open Result (FailsOnly)

variable {σ : Type}

/-! ### Errors of an answer -/

theorem vet_failsOnly (t : Transaction) (w : Awaited) (answer : Bytes) :
    FailsOnly (fun e => e.OfContent ∨ e.kind = .exchangeIntegrity) (t.vet w answer) := by
  unfold vet
  rw [Result.failsOnly_bind]
  refine ⟨fun e he => .inl (Unsealing.decode_failsOnly _ answer e he), fun x _ => ?_⟩
  simp [Error.kind]

theorem conclude_failsOnly (t : Transaction) (w : Awaited) (m : Message) :
    FailsOnly Error.OfContent (t.conclude w m) := by
  simp only [conclude, Result.failsOnly_ite]
  refine ⟨fun _ => ?_, fun _ => by simp [Error.kind]⟩
  cases m.attributes.pkiStatus with
  | none => simp [Error.kind]
  | some status =>
    cases status with
    | success => simp [Message.store_failsOnly]
    | failure => simp [Error.kind]
    | pending => simp [Error.kind]

/-! ### State and outcome -/

/-- The outcomes that go with a state. -/
inductive Agree : State → Option Outcome → Prop
  | new : Agree .new none
  | issued (store : CertStore) : Agree .issued (some (.issued store))
  | pending (task : PollTask) : Agree .pending (some (.pending task))
  | failed (reason : FailInfo) : Agree .failed (some (.failed reason))
  | aborted : Agree .aborted none

theorem Brings.agree {t : Transaction} {id : TransactionId} {op : Operation} {m : Message}
    {state : State} {outcome : Outcome} (h : t.Brings id op m state outcome) :
    Agree state (some outcome) := by
  cases h with
  | success b store _ _ _ => exact .issued store
  | failure reason _ _ => exact .failed reason
  | pending _ _ => exact .pending _

theorem Settled.agree {t : Transaction} {w : Awaited} {cache : ReplayCache}
    {answer : Except String Bytes} {r : Result State × Transaction × ReplayCache}
    (h : Settled t w cache answer r) (ha : Agree w.before t.outcome?) :
    Agree r.2.1.state r.2.1.outcome? := by
  cases h with
  | unanswered text => exact ha
  | untrusted | replayed | unread => exact .aborted
  | concluded answer m state outcome _ _ hc => exact (conclude_eq_ok.mp hc).2.agree

theorem Performed.agree {send : Transport σ} {now : Calendar.Instant} {op : Operation}
    {t : Transaction} {s : Surroundings σ} {r : Result State × Transaction × Surroundings σ}
    (h : Performed send now op t s r) (ha : Agree t.state t.outcome?) :
    Agree r.2.1.state r.2.1.outcome? := by
  cases h with
  | refused | unsealed => exact ha
  | exchanged q document rest answer after r _ _ _ hr => exact hr.agree ha

theorem advance_agree {t : Transaction} (m : Move σ) (h : Agree t.state t.outcome?) :
    Agree (t.advance m).state (t.advance m).outcome? := by
  cases m with
  | withConfig c => exact h
  | withId i => exact h
  | call o =>
    have hg := o.goes t
    change Agree (o.after t).state (o.after t).outcome?
    generalize o.result t = result, o.after t = t' at hg ⊢
    cases hg with
    | stopped => exact h
    | performed op r _ hp => exact hp.agree h

theorem run_agree {t : Transaction} (moves : List (Move σ)) (h : Agree t.state t.outcome?) :
    Agree (t.run moves).state (t.run moves).outcome? := by
  induction moves generalizing t with
  | nil => exact h
  | cons m moves ih => exact ih (advance_agree m h)

/-! ### What is shown -/

/-- Something is shown in one state only, and elsewhere asking for it is an error of the state. -/
def ShownIn {α : Type} (t : Transaction) (state : State) (r : Result α) : Prop :=
  (t.state = state → ∃ a, r = .ok a) ∧ (t.state ≠ state → r = .error (.illegalState t.state))

/-- No answer is awaited, and the accessors return what goes with the state. -/
structure Coherent (t : Transaction) : Prop where
  answered : t.state ≠ .awaitingResponse
  certificates : t.ShownIn .issued t.certificates
  revocations : t.ShownIn .issued t.revocations
  failureReason : t.ShownIn .failed t.failureReason
  task : t.ShownIn .pending t.task

/-- The accessors look at the outcome alone; that they follow the state rests on the agreement of both. -/
theorem coherent_of_agree {t : Transaction} (h : Agree t.state t.outcome?) : t.Coherent := by
  obtain ⟨identity, recipient, config, id?, sentNonce?, state, outcome?⟩ := t
  cases h with
  | new | issued | pending | failed | aborted =>
    constructor <;>
      simp [ShownIn, Transaction.certificates, Transaction.revocations, Transaction.failureReason,
        Transaction.task, illegalState]

/-! ### What a call leaves -/

/-- A call in one state has a result and ends in another state: only some changes occur, and errors tell
whether the transaction was aborted or left alone. -/
structure Leaves {α : Type} (before : State) (result : Result α) (after : State) : Prop where
  step : before.MayBecome after
  integrity : ∀ e, result = .error e → e.kind = .exchangeIntegrity → after = .aborted
  untouched : ∀ e, result = .error e → e.kind = .transport ∨ e.kind = .illegalState → after = before

section Leaves

variable {α β : Type} {before after : State} {e : Error}

theorem leaves_ok (a : α) (h : before.MayBecome after) : Leaves before (.ok a : Result α) after := by
  refine ⟨h, fun e he => ?_, fun e he => ?_⟩
  · cases he
  · cases he

theorem leaves_same (h : e.kind ≠ .exchangeIntegrity) :
    Leaves before (.error e : Result α) before := by
  refine ⟨.inl rfl, fun e' he hk => ?_, fun _ _ _ => rfl⟩
  cases he
  exact absurd hk h

theorem leaves_aborted (hb : before = .new ∨ before = .pending)
    (h : e.OfContent ∨ e.kind = .exchangeIntegrity) :
    Leaves before (.error e : Result α) .aborted := by
  refine ⟨.inr ⟨hb, by simp⟩, fun _ _ _ => rfl, fun e' he hk => ?_⟩
  cases he
  rcases h with (hc | hc) | hc <;> simp [hc] at hk

/-- Making a reply of the result adds no error of the exchange, the transport or the state. -/
theorem Leaves.bind {r : Result α} {f : α → Result β} (h : Leaves before r after)
    (hf : ∀ a, r = .ok a → FailsOnly (fun e => e.kind = .operationFailed) (f a)) :
    Leaves before (r >>= f) after := by
  cases r with
  | error e =>
    refine ⟨h.step, fun e' he => ?_, fun e' he => ?_⟩ <;> cases he
    · exact h.integrity e rfl
    · exact h.untouched e rfl
  | ok a =>
    refine ⟨h.step, fun e he hk => ?_, fun e he hk => ?_⟩
    all_goals simp [hf a rfl e he] at hk

end Leaves

theorem Brings.mayBecome {t : Transaction} {id : TransactionId} {op : Operation} {m : Message}
    {before state : State} {outcome : Outcome} (h : t.Brings id op m state outcome)
    (hb : before = .new ∨ before = .pending) : before.MayBecome state := by
  cases h <;> exact .inr ⟨hb, by simp⟩

theorem Settled.leaves {t : Transaction} {w : Awaited} {cache : ReplayCache}
    {answer : Except String Bytes} {r : Result State × Transaction × ReplayCache}
    (h : Settled t w cache answer r) (hw : w.before = .new ∨ w.before = .pending) :
    Leaves w.before r.1 r.2.1.state := by
  cases h with
  | unanswered text => exact leaves_same (by simp [Error.kind])
  | untrusted answer e hv => exact leaves_aborted hw (t.vet_failsOnly w answer e hv)
  | replayed answer m _ _ => exact leaves_aborted hw (.inr rfl)
  | unread answer m e _ _ hc => exact leaves_aborted hw (.inl (t.conclude_failsOnly w m e hc))
  | concluded answer m state outcome _ _ hc =>
    exact leaves_ok state ((conclude_eq_ok.mp hc).2.mayBecome hw)

theorem Performed.leaves {send : Transport σ} {now : Calendar.Instant} {op : Operation}
    {t : Transaction} {s : Surroundings σ} {r : Result State × Transaction × Surroundings σ}
    (h : Performed send now op t s r) : Leaves t.state r.1 r.2.1.state := by
  cases h with
  | refused _ => exact leaves_same (by simp [Error.kind])
  | unsealed e rest _ he =>
    refine leaves_same fun hk => ?_
    rcases he with he | he <;> simp [hk] at he
  | exchanged q document rest answer after r hp _ _ hr =>
    refine hr.leaves ?_
    rcases (t.permits_iff op).mp hp with hs | ⟨hs, _⟩
    · exact .inl hs
    · exact .inr hs

/-- An exchange that succeeds has an answer that brings the transaction to the state returned. -/
theorem Performed.brings {send : Transport σ} {now : Calendar.Instant} {op : Operation}
    {t : Transaction} {s : Surroundings σ} {r : Result State × Transaction × Surroundings σ}
    {state : State} (h : Performed send now op t s r) (hr : r.1 = .ok state) :
    ∃ id m outcome, t.Brings id op m state outcome ∧ r.2.1.state = state ∧
      r.2.1.outcome? = some outcome := by
  cases h with
  | refused _ => cases hr
  | unsealed e rest _ _ => cases hr
  | exchanged q document rest answer after r _ _ _ hs =>
    cases hs with
    | unanswered text => cases hr
    | untrusted answer e _ => cases hr
    | replayed answer m _ _ => cases hr
    | unread answer m e _ _ _ => cases hr
    | concluded answer m state' outcome _ _ hc =>
      cases hr
      exact ⟨_, m, outcome, brings_sent.mp (conclude_eq_ok.mp hc).2, rfl, rfl⟩

/-- Where a reply is not made of the state, it is what the transaction shows or the reason of the
failure. -/
theorem Call.reply_failsOnly {c : Call} {t t' : Transaction} {id : TransactionId} {op : Operation}
    {m : Message} {state : State} {outcome : Outcome} (hc : c.operation t = .ok op)
    (hb : t.Brings id op m state outcome) (ho : t'.outcome? = some outcome) :
    FailsOnly (fun e => e.kind = .operationFailed) (c.reply t' state) := by
  cases c with
  | perform op => simp [reply]
  | enroll r => simp [reply]
  | poll => simp [reply]
  | getCertificate n =>
    cases hc
    -- the question for a certificate cannot be made to wait, so the state is issued or failed
    cases hb with
    | success b store _ _ _ => simp [reply, collected, certificates, ho]
    | failure reason _ _ => simp [reply, collected, failureReason, ho, Error.kind]
    | pending _ hd => cases hd
  | getRevocations =>
    cases hc
    cases hb with
    | success b store _ _ _ => simp [reply, collected, revocations, ho]
    | failure reason _ _ => simp [reply, collected, failureReason, ho, Error.kind]
    | pending _ hd => cases hd

theorem Call.state_of_reply {c : Call} {t : Transaction} {state state' : State}
    (h : c.reply t state = .ok (.state state')) : state = state' := by
  cases c with
  | perform op => cases h; rfl
  | enroll r => cases h; rfl
  | poll => cases h; rfl
  | getCertificate n =>
    obtain ⟨a, -, ha⟩ := Result.map_eq_ok.mp h
    cases ha
  | getRevocations =>
    obtain ⟨a, -, ha⟩ := Result.map_eq_ok.mp h
    cases ha

theorem Occasion.leaves (o : Occasion σ) (t : Transaction) :
    Leaves t.state (o.result t) (o.after t).state ∧
      ∀ state, o.result t = .ok (.state state) → (o.after t).state = state := by
  have h := o.goes t
  generalize o.result t = result, o.after t = t' at h ⊢
  cases h with
  | stopped _ => exact ⟨leaves_same (by simp [Error.kind]), fun _ h => by cases h⟩
  | performed op r hc hp =>
    refine ⟨hp.leaves.bind fun state hr => ?_, fun state h => ?_⟩
    · obtain ⟨id, m, outcome, hb, -, ho⟩ := hp.brings hr
      exact Call.reply_failsOnly hc hb ho
    · obtain ⟨state', hr, h⟩ := Result.bind_eq_ok.mp h
      obtain ⟨_, _, _, -, hs, -⟩ := hp.brings hr
      rw [hs]
      exact Call.state_of_reply h

/-! ### Runs -/

/-- After any run a transaction is coherent, and its next call changes the state only as it may: to the
state that is returned, to aborted if the answer is not to be trusted, and not at all if no answer
came or the state forbids the call. -/
theorem run_coherent (identity : Identity) (recipient : X509.Certificate) (moves : List (Move σ)) :
    ((start identity recipient).run moves).Coherent ∧
      ∀ o : Occasion σ,
        let t := (start identity recipient).run moves
        Leaves t.state (o.result t) (o.after t).state ∧
          ∀ state, o.result t = .ok (.state state) → (o.after t).state = state :=
  ⟨coherent_of_agree (run_agree moves .new), fun o => o.leaves _⟩

end Transaction

end CertEnroll
