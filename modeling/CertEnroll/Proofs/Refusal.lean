import CertEnroll.Proofs.Coherence
import CertEnroll.Proofs.Traffic

/-!
# Proofs.Refusal — calls that a state forbids, and transactions that have ended

Each entry point has its own guard: enrolling looks at the state, polling asks for the task, and the
rest is left to the exchange itself.  Together they refuse exactly the forbidden calls, before anything
is drawn, sent or recorded.  Since every call of an ended transaction is forbidden, such a transaction
stays as it is.
-/

namespace CertEnroll

/-- A transaction in this state has ended. -/
def State.Ended (s : State) : Prop := s = .issued ∨ s = .failed ∨ s = .aborted

namespace Transaction

variable {σ : Type}

/-! ### Forbidden calls -/

/-- The calls that a state forbids: all once the transaction has ended; all but the question for the
decision while it is pending; this question, in its convenient form, while it is new. -/
inductive Call.Forbidden : State → Call → Prop
  | ended {s : State} (c : Call) : s.Ended → Forbidden s c
  | perform (op : Operation) : (∀ names, op ≠ .getCertInitial names) → Forbidden .pending (.perform op)
  | enroll (r : X509.CertificationRequest) : Forbidden .pending (.enroll r)
  | getCertificate (n : X509.SerialNumber) : Forbidden .pending (.getCertificate n)
  | getRevocations : Forbidden .pending .getRevocations
  | poll : Forbidden .new .poll

theorem Call.Allowed.state {c : Call} {t : Transaction} (h : c.Allowed t) :
    t.state = .new ∨ t.state = .pending := by
  obtain ⟨op, -, hp⟩ := h
  rcases (t.permits_iff op).mp hp with hs | ⟨hs, -⟩
  · exact .inl hs
  · exact .inr hs

theorem Call.not_allowed_of_ended {t : Transaction} (h : t.state.Ended) (c : Call) : ¬ c.Allowed t := by
  intro hc
  rcases hc.state with hs | hs
  all_goals
    rw [State.Ended, hs] at h
    simp at h

/-- A pending transaction allows no operation but the question for the decision. -/
theorem Call.not_allowed_of_pending {c : Call} {t : Transaction} {op : Operation}
    (hs : t.state = .pending) (hc : c.operation t = .ok op) (hop : ∀ names, op ≠ .getCertInitial names) :
    ¬ c.Allowed t := by
  rintro ⟨op', hc', hp⟩
  rw [hc] at hc'
  cases hc'
  rcases (t.permits_iff op).mp hp with hnew | ⟨-, names, hnames⟩
  · rw [hs] at hnew
    cases hnew
  · exact hop names hnames

theorem Call.not_allowed_of_forbidden {c : Call} {t : Transaction} (ht : t.Coherent)
    (h : Forbidden t.state c) : ¬ c.Allowed t := by
  generalize hs : t.state = s at h
  cases h with
  | ended _ he =>
    rw [← hs] at he
    exact not_allowed_of_ended he c
  | perform op hop => exact not_allowed_of_pending hs rfl hop
  | enroll r =>
    rintro ⟨op, hop, -⟩
    simp [operation, hs, illegalState] at hop
  | getCertificate n => exact not_allowed_of_pending hs rfl (by simp)
  | getRevocations => exact not_allowed_of_pending hs rfl (by simp)
  | poll =>
    -- a new transaction has no task
    have hnone := ht.task.2 (by rw [hs]; decide)
    rintro ⟨op, hop, -⟩
    simp [operation, hnone, Except.map] at hop

theorem Call.allowed_of_new {c : Call} {t : Transaction} (hs : t.state = .new)
    (h : ¬ Forbidden .new c) : c.Allowed t := by
  have hp (op : Operation) : t.permits op = true := (t.permits_iff op).mpr (.inl hs)
  cases c with
  | perform op => exact ⟨op, rfl, hp op⟩
  | enroll r => exact ⟨.pkcsReq r, by simp [operation, hs], hp _⟩
  | poll => exact absurd .poll h
  | getCertificate n => exact ⟨_, rfl, hp _⟩
  | getRevocations => exact ⟨_, rfl, hp _⟩

theorem Call.allowed_of_pending {c : Call} {t : Transaction} {task : PollTask} (hs : t.state = .pending)
    (ht : t.task = .ok task) (h : ¬ Forbidden .pending c) : c.Allowed t := by
  have hp (names : IssuerAndSubject) : t.permits (.getCertInitial names) = true :=
    (t.permits_iff _).mpr (.inr ⟨hs, names, rfl⟩)
  cases c with
  | perform op =>
    cases op with
    | getCertInitial names => exact ⟨_, rfl, hp names⟩
    | pkcsReq r => exact absurd (.perform _ (by simp)) h
    | getCert id => exact absurd (.perform _ (by simp)) h
    | getCrl id => exact absurd (.perform _ (by simp)) h
  | enroll r => exact absurd (.enroll r) h
  | poll => exact ⟨task.operation, by simp [operation, ht, Except.map], hp _⟩
  | getCertificate n => exact absurd (.getCertificate n) h
  | getRevocations => exact absurd .getRevocations h

/-- The guards of the calls, spread as they are, allow exactly what is not forbidden. -/
theorem Call.allowed_iff {t : Transaction} (ht : t.Coherent) (c : Call) :
    c.Allowed t ↔ ¬ Forbidden t.state c := by
  refine ⟨fun ha hf => not_allowed_of_forbidden ht hf ha, fun h => ?_⟩
  cases hs : t.state with
  | awaitingResponse => exact absurd hs ht.answered
  | issued => exact absurd (.ended c (.inl hs)) h
  | failed => exact absurd (.ended c (.inr (.inl hs))) h
  | aborted => exact absurd (.ended c (.inr (.inr hs))) h
  | new =>
    rw [hs] at h
    exact allowed_of_new hs h
  | pending =>
    obtain ⟨task, htask⟩ := ht.task.1 hs
    rw [hs] at h
    exact allowed_of_pending hs htask h

/-- The call does nothing: it returns the error of the state, hands over nothing, and leaves the
transaction, the random stream, the cache and the peer as they are. -/
structure Occasion.Ignored (o : Occasion σ) (t : Transaction) : Prop where
  result : o.result t = .error (.illegalState t.state)
  handed : o.handed t = []
  after : o.after t = t
  left : o.left t = o.surroundings

theorem Occasion.ignored_of_not_allowed {o : Occasion σ} {t : Transaction} (h : ¬ o.call.Allowed t) :
    o.Ignored t := by
  obtain ⟨hresult, hafter, hleft⟩ := course_of_refused h
  exact ⟨hresult, handed_of_refused h, hafter, hleft⟩

/-! ### Ended transactions -/

theorem Occasion.ignored_of_ended {t : Transaction} (h : t.state.Ended) (o : Occasion σ) :
    o.Ignored t :=
  ignored_of_not_allowed (Call.not_allowed_of_ended h o.call)

theorem run_calls_of_ended {t : Transaction} (h : t.state.Ended) (os : List (Occasion σ)) :
    t.run (os.map .call) = t := by
  induction os with
  | nil => rfl
  | cons o os ih =>
    change (o.after t).run (os.map .call) = t
    rw [(o.ignored_of_ended h).after]
    exact ih

theorem advance_of_ended {t : Transaction} (h : t.state.Ended) (m : Move σ) :
    (t.advance m).state = t.state ∧ (t.advance m).outcome? = t.outcome? := by
  cases m with
  | withConfig c => exact ⟨rfl, rfl⟩
  | withId i => exact ⟨rfl, rfl⟩
  | call o =>
    change (o.after t).state = _ ∧ (o.after t).outcome? = _
    rw [(o.ignored_of_ended h).after]
    exact ⟨rfl, rfl⟩

theorem run_of_ended {t : Transaction} (h : t.state.Ended) (moves : List (Move σ)) :
    (t.run moves).state = t.state ∧ (t.run moves).outcome? = t.outcome? := by
  induction moves generalizing t with
  | nil => exact ⟨rfl, rfl⟩
  | cons m moves ih =>
    obtain ⟨hstate, houtcome⟩ := advance_of_ended h m
    obtain ⟨ihstate, ihoutcome⟩ := ih (t := t.advance m) (by rw [hstate]; exact h)
    exact ⟨ihstate.trans hstate, ihoutcome.trans houtcome⟩

/-- State and outcome determine what a transaction shows, but for its id and its choices. -/
theorem view_eq_of_outcome {t u : Transaction} (hs : u.state = t.state) (ho : u.outcome? = t.outcome?) :
    u.view = { t.view with id? := u.id?, config := u.config } := by
  simp [view, certificates, revocations, failureReason, task, illegalState, hs, ho]

/-- After any run, a call is refused exactly if the state forbids it, and then it does nothing.  A
transaction that has ended is left as it is by any calls; also if its id or its choices are replaced in
between, it shows the same otherwise, and no call does anything. -/
theorem forbidden_ignored (identity : Identity) (recipient : X509.Certificate) (moves : List (Move σ)) :
    let t := (start identity recipient).run moves
    (∀ c : Call, c.Allowed t ↔ ¬ Call.Forbidden t.state c) ∧
      (∀ o : Occasion σ, Call.Forbidden t.state o.call → o.Ignored t) ∧
      (t.state.Ended →
        (∀ os : List (Occasion σ), t.run (os.map .call) = t) ∧
        ∀ later : List (Move σ),
          let u := t.run later
          u.view = { t.view with id? := u.id?, config := u.config } ∧ ∀ o : Occasion σ, o.Ignored u) := by
  intro t
  have ht : t.Coherent := coherent_of_agree (run_agree moves .new)
  refine ⟨Call.allowed_iff ht, fun o ho => ?_, fun h => ⟨run_calls_of_ended h, fun later => ?_⟩⟩
  · exact Occasion.ignored_of_not_allowed (Call.not_allowed_of_forbidden ht ho)
  · obtain ⟨hstate, houtcome⟩ := run_of_ended h later
    exact ⟨view_eq_of_outcome hstate houtcome, fun o => o.ignored_of_ended (by rw [hstate]; exact h)⟩

end Transaction

end CertEnroll
