import CertEnroll.Proofs.Acceptance

/-!
# Proofs.Session — the calls of a transaction, and runs of them

Every call comes down to at most one exchange: it asks for an operation, performs it and turns the
state that comes back into its reply.  A run is a list of moves; each call of a run has surroundings of
its own, so that a run in which the random stream, the cache and the peer go on from call to call is one
of them.
-/

namespace CertEnroll.Transaction

open Calendar (Instant)
open X509 (Certificate CertificationRequest RevocationList SerialNumber)

variable {σ : Type}

/-! ### Actions -/

section Actions

variable {α β : Type} {send : Transport σ} {now : Instant} {t : Transaction} {s : Surroundings σ}

theorem Action.map_apply (f : α → β) (x : Action σ α) (u : Transaction × Surroundings σ) :
    (f <$> x) u = ((x u).1.map f, (x u).2) := by
  change (f <$> x).run.run u = _
  rw [ExceptT.run_map, StateT.run_map]
  rfl

theorem Action.bind_apply (x : Action σ α) (f : α → Action σ β) (u : Transaction × Surroundings σ) :
    (x >>= f) u = match x u with
      | (.ok a, v) => f a v
      | (.error e, v) => (.error e, v) := by
  change (x >>= f).run.run u = _
  have h : x.run.run u = x u := rfl
  rw [ExceptT.run_bind, StateT.run_bind, h]
  cases x u with
  | mk r v => cases r <;> rfl

theorem enroll_apply (r : CertificationRequest) :
    enroll send now r (t, s) =
      if t.state = .new then perform send now (.pkcsReq r) (t, s) else (t.illegalState, t, s) := by
  unfold enroll
  rw [Action.bind_apply]
  simp only [Action.self]
  by_cases h : t.state = .new
  · simp only [h, if_true]
  · simp only [h, if_false]
    rfl

theorem poll_apply :
    poll send now (t, s) = match t.task with
      | .ok task => perform send now task.operation (t, s)
      | .error e => (.error e, t, s) := by
  unfold poll
  rw [Action.bind_apply]
  simp only [Action.self]
  rw [Action.bind_apply]
  cases t.task <;> rfl

/-- What an ended transaction shows, or the reason of its failure. -/
def collected (show? : Transaction → Result α) (t : Transaction) (state : State) : Result α :=
  if state = .issued then show? t
  else t.failureReason >>= fun reason => .error (.operationFailed reason)

theorem collect_apply (show? : Transaction → Result α) (state : State)
    (u : Transaction × Surroundings σ) : collect show? state u = (collected show? u.1 state, u) := by
  obtain ⟨t, s⟩ := u
  have hfailed : (do throw (.operationFailed (← (← Action.self).failureReason)) : Action σ α) (t, s) =
      (t.failureReason >>= fun reason => .error (.operationFailed reason), t, s) := by
    rw [Action.bind_apply]
    simp only [Action.self]
    rw [Action.bind_apply]
    cases t.failureReason <;> rfl
  cases state with
  | issued =>
    change (Action.self >>= fun t => monadLift (show? t) : Action σ α) (t, s) = _
    rw [Action.bind_apply]
    simp only [Action.self]
    cases h : show? t <;> simp [collected, h] <;> rfl
  | new => exact hfailed
  | awaitingResponse => exact hfailed
  | pending => exact hfailed
  | failed => exact hfailed
  | aborted => exact hfailed

end Actions

/-! ### Calls -/

/-- A call of a transaction. -/
inductive Call
  | perform (op : Operation)
  | enroll (request : CertificationRequest)
  | poll
  | getCertificate (serial : SerialNumber)
  | getRevocations

/-- What a call returns. -/
inductive Reply
  | state (state : State)
  | certificates (certificates : List Certificate)
  | revocations (revocations : List RevocationList)
  deriving DecidableEq

namespace Call

/-- Makes a call. -/
def make (send : Transport σ) (now : Instant) : Call → Action σ Reply
  | perform op => .state <$> Transaction.perform send now op
  | enroll r => .state <$> Transaction.enroll send now r
  | poll => .state <$> Transaction.poll send now
  | getCertificate n => .certificates <$> Transaction.getCertificate send now n
  | getRevocations => .revocations <$> Transaction.getRevocations send now

/-- The operation that a call performs. -/
def operation (t : Transaction) : Call → Result Operation
  | perform op => .ok op
  | enroll r => if t.state = .new then .ok (.pkcsReq r) else t.illegalState
  | poll => t.task.map PollTask.operation
  | getCertificate n => .ok (.getCert ⟨t.recipient.body.issuer, n⟩)
  | getRevocations => .ok (.getCrl t.recipient.id)

/-- The reply of a call after which the transaction is `t`, if its operation led to a state. -/
def reply (t : Transaction) : Call → State → Result Reply
  | perform _, state | enroll _, state | poll, state => .ok (.state state)
  | getCertificate _, state => (collected certificates t state).map .certificates
  | getRevocations, state => (collected revocations t state).map .revocations

theorem make_apply (send : Transport σ) (now : Instant) (c : Call) (t : Transaction)
    (s : Surroundings σ) :
    c.make send now (t, s) =
      match c.operation t with
      | .error e => (.error e, t, s)
      | .ok op =>
        let r := Transaction.perform send now op (t, s)
        (r.1 >>= c.reply r.2.1, r.2) := by
  cases c with
  | perform op =>
    simp only [make, operation, Action.map_apply]
    cases (Transaction.perform send now op (t, s)).1 <;> rfl
  | enroll r =>
    simp only [make, operation, Action.map_apply, enroll_apply]
    by_cases h : t.state = .new
    · simp only [h, if_true]
      cases (Transaction.perform send now (.pkcsReq r) (t, s)).1 <;> rfl
    · simp only [h, if_false]
      rfl
  | poll =>
    simp only [make, operation, Action.map_apply, poll_apply]
    cases t.task with
    | error e => rfl
    | ok task =>
      simp only [Except.map]
      cases (Transaction.perform send now task.operation (t, s)).1 <;> rfl
  | getCertificate n =>
    simp only [make, operation, Action.map_apply, Transaction.getCertificate, Action.bind_apply,
      Action.self]
    cases Transaction.perform send now (.getCert ⟨t.recipient.body.issuer, n⟩) (t, s) with
    | mk r v =>
      cases r with
      | error e => rfl
      | ok state =>
        simp only [collect_apply]
        rfl
  | getRevocations =>
    simp only [make, operation, Action.map_apply, Transaction.getRevocations, Action.bind_apply,
      Action.self]
    cases Transaction.perform send now (.getCrl t.recipient.id) (t, s) with
    | mk r v =>
      cases r with
      | error e => rfl
      | ok state =>
        simp only [collect_apply]
        rfl

end Call

/-! ### Runs -/

/-- A call with the transport, the time and the surroundings in which it is made. -/
structure Occasion (σ : Type) where
  call : Call
  send : Transport σ
  now : Instant
  surroundings : Surroundings σ

/-- What the call returns. -/
def Occasion.result (o : Occasion σ) (t : Transaction) : Result Reply :=
  (o.call.make o.send o.now (t, o.surroundings)).1

/-- The transaction after the call. -/
def Occasion.after (o : Occasion σ) (t : Transaction) : Transaction :=
  (o.call.make o.send o.now (t, o.surroundings)).2.1

/-- What may happen to a transaction. -/
inductive Move (σ : Type)
  | call (o : Occasion σ)
  | withConfig (c : Config)
  | withId (i : TransactionId)

/-- The transaction after a move. -/
def advance (t : Transaction) : Move σ → Transaction
  | .call o => o.after t
  | .withConfig c => t.withConfig c
  | .withId i => t.withId i

/-- The transaction after some moves. -/
def run (t : Transaction) (moves : List (Move σ)) : Transaction := moves.foldl advance t

/-- The ways in which a call goes: it stops before the exchange, or performs an operation. -/
inductive Occasion.Goes (o : Occasion σ) (t : Transaction) : Result Reply → Transaction → Prop
  | stopped : o.call.operation t = .error (.illegalState t.state) →
      Goes o t (.error (.illegalState t.state)) t
  | performed (op : Operation) (r : Result State × Transaction × Surroundings σ) :
      o.call.operation t = .ok op → Performed o.send o.now op t o.surroundings r →
      Goes o t (r.1 >>= o.call.reply r.2.1) r.2.1

theorem Call.operation_failsOnly (c : Call) (t : Transaction) :
    Result.FailsOnly (· = .illegalState t.state) (c.operation t) := by
  cases c with
  | enroll r => simp [operation, illegalState]
  | poll =>
    rw [operation, Result.failsOnly_exceptMap]
    unfold task
    split <;> simp [illegalState]
  | _ => simp [operation]

theorem Occasion.goes (o : Occasion σ) (t : Transaction) : o.Goes t (o.result t) (o.after t) := by
  unfold result after
  rw [Call.make_apply]
  cases h : o.call.operation t with
  | error e =>
    obtain rfl : e = .illegalState t.state := o.call.operation_failsOnly t e h
    exact .stopped h
  | ok op => exact .performed op _ h (perform_performed o.send o.now op t o.surroundings)

end CertEnroll.Transaction
