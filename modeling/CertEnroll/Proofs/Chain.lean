import CertEnroll.Proofs.Coherence
import CertEnroll.Proofs.EnrollmentId
import CertEnroll.Proofs.Traffic
import Mathlib.Data.List.Induction

/-!
# Proofs.Chain — the requests of a transaction hang together

All requests of a transaction carry one id.  The first carry no recipient nonce; once the transaction
has been told to wait, each carries the nonce of the last answer that said so, however many attempts
failed in between.  `Sent` and `LastDelay` say what a history of calls holds; the invariant `Waits` ties
the task of the transaction to it.
-/

namespace CertEnroll

open X509 (Certificate Name)

/-- The subject that an operation names, if its answer may ask to wait. -/
def Operation.subject? : Operation → Option Name
  | pkcsReq r => some r.body.subject
  | getCertInitial i => some i.subject
  | getCert _ => none
  | getCrl _ => none

/-- The message is a request for an operation. -/
def Message.AsksFor (q : Message) (op : Operation) : Prop :=
  q.attributes.messageType = op.messageType ∧ ∃ b, op.write = .ok b ∧ q.data = some b

/-- The task is that of an operation of which the answer `m` says that it has to wait. -/
structure PollTask.MadeFrom (task : PollTask) (recipient : Certificate) (op : Operation) (m : Message) :
    Prop where
  issuer : task.issuer = recipient.body.issuer
  subject : op.subject? = some task.subject
  recipientNonce : task.recipientNonce = m.attributes.senderNonce

namespace Transaction

variable {σ : Type}

/-! ### Histories of calls -/

/-- What may be chosen before the first call. -/
inductive Choice
  | config (c : Config)
  | id (i : TransactionId)

/-- The transaction with a choice. -/
def choose (t : Transaction) : Choice → Transaction
  | .config c => t.withConfig c
  | .id i => t.withId i

/-- A transaction before its first call. -/
def prepared (identity : Identity) (recipient : Certificate) (choices : List Choice) : Transaction :=
  choices.foldl choose (start identity recipient)

/-- The call is told to wait: it performs `op`, which may have to wait, and `m` is a trusted and new
answer that asks for it. -/
structure Occasion.Delayed (o : Occasion σ) (t : Transaction) (op : Operation) (m : Message) : Prop where
  answered : ∃ q, o.Answered t op q m
  type : m.attributes.messageType = .certRep
  status : m.attributes.pkiStatus = some .pending
  delayable : op.isDelayable = true

/-- `q` is a request that one of the calls hands over. -/
inductive Sent (t : Transaction) : List (Occasion σ) → Message → Prop
  | now {os : List (Occasion σ)} {o : Occasion σ} {op : Operation} {q : Message} {document : Bytes}
      {answer : Except String Bytes} : o.Exchanges (t.run (os.map .call)) op q document answer →
      Sent t (os ++ [o]) q
  | before {os : List (Occasion σ)} (o : Occasion σ) {q : Message} : Sent t os q → Sent t (os ++ [o]) q

/-- The last of the calls that was told to wait performed `op` and was told so by `m`. -/
inductive LastDelay (t : Transaction) : List (Occasion σ) → Operation → Message → Prop
  | now {os : List (Occasion σ)} {o : Occasion σ} {op : Operation} {m : Message} :
      o.Delayed (t.run (os.map .call)) op m → LastDelay t (os ++ [o]) op m
  | before {os : List (Occasion σ)} {o : Occasion σ} {op : Operation} {m : Message} :
      LastDelay t os op m → (∀ op' m', ¬ o.Delayed (t.run (os.map .call)) op' m') →
      LastDelay t (os ++ [o]) op m

theorem run_concat (t : Transaction) (os : List (Occasion σ)) (o : Occasion σ) :
    t.run ((os ++ [o]).map .call) = o.after (t.run (os.map .call)) := by
  simp only [run, List.map_append, List.foldl_append]
  rfl

/-! ### One call -/

section Call

variable {o : Occasion σ} {t : Transaction} {op : Operation} {q m : Message} {document : Bytes}
  {answer : Except String Bytes}

theorem Occasion.after_recipient (o : Occasion σ) (t : Transaction) :
    (o.after t).recipient = t.recipient := by
  have hc := o.course t
  generalize o.result t = result, o.after t = t', o.left t = s at hc ⊢
  cases hc with
  | refused _ => rfl
  | unsealed _ _ _ _ _ _ => rfl
  | exchanged _ _ _ _ _ _ _ _ _ _ _ hr => cases hr <;> rfl

theorem Occasion.Exchanges.after_id (h : o.Exchanges t op q document answer) :
    (o.after t).id? = some q.attributes.transactionId := by
  rw [h.settles.2.1]
  exact (settle_settled (t.sent q) (t.awaits op q) answer o.surroundings.cache).id

theorem Occasion.Exchanges.recipientNonce (h : o.Exchanges t op q document answer) :
    q.attributes.recipientNonce = t.lastNonce? := by
  rw [requestMessage_attributes h.message]

theorem Occasion.Exchanges.asksFor (h : o.Exchanges t op q document answer) : q.AsksFor op := by
  refine ⟨?_, requestMessage_data h.message⟩
  rw [requestMessage_attributes h.message]
  rfl

theorem subject?_of_isDelayable (h : op.isDelayable = true) (t : Transaction) :
    op.subject? = some (t.pollSubject op) := by
  cases op with
  | pkcsReq r => rfl
  | getCertInitial i => rfl
  | getCert i => cases h
  | getCrl i => cases h

/-- A call that is told to wait leaves the task made from its operation and the answer. -/
theorem Occasion.Delayed.after (h : o.Delayed t op m) :
    ∃ task, (o.after t).outcome? = some (.pending task) ∧
      (o.after t).id? = some task.transactionId ∧ task.MadeFrom t.recipient op m := by
  obtain ⟨q, ha⟩ := h.answered
  have hc : (t.sent q).conclude (t.awaits op q) m = .ok (.pending, .pending
      ⟨q.attributes.transactionId, t.recipient.body.issuer, t.pollSubject op, m.attributes.senderNonce⟩) :=
    conclude_eq_ok.mpr ⟨h.type, .pending h.status h.delayable⟩
  have hs := ha.settle.2
  rw [hc] at hs
  rw [hs.1]
  exact ⟨_, rfl, rfl, rfl, subject?_of_isDelayable h.delayable t, rfl⟩

/-- A call after which the transaction is pending was told to wait, or left the transaction pending with
the task it had. -/
theorem Occasion.delayed_of_pending (h : (o.after t).state = .pending) :
    (∃ op m, o.Delayed t op m) ∨ t.state = .pending ∧ (o.after t).outcome? = t.outcome? := by
  have hc := o.course t
  generalize o.result t = result, o.after t = t', o.left t = s at hc h ⊢
  cases hc with
  | refused _ => exact .inr ⟨h, rfl⟩
  | unsealed _ _ _ _ _ _ => exact .inr ⟨h, rfl⟩
  | exchanged op q document rest answer after r hop hp hq ha hr =>
    cases hr with
    | unanswered text => exact .inr ⟨h, rfl⟩
    | untrusted b e _ => cases h
    | replayed b m _ _ => cases h
    | unread b m e _ _ _ => cases h
    | concluded b m state outcome hv hm hconclude =>
      obtain rfl : state = .pending := h
      obtain ⟨htype, hbrings⟩ := conclude_eq_ok.mp hconclude
      obtain ⟨signed, htrusts⟩ := vet_sent.mp hv
      have hx : o.Exchanges t op q document (.ok b) := ⟨hop, hp, rest, after, hq, ha⟩
      cases hbrings with
      | pending hs hd => exact .inl ⟨op, m, ⟨q, ⟨document, b, signed, hx, htrusts⟩, hm⟩, htype, hs, hd⟩

theorem lastNonce_of_new (h : Agree t.state t.outcome?) (hs : t.state = .new) : t.lastNonce? = none := by
  unfold lastNonce?
  rw [hs] at h
  generalize t.outcome? = outcome? at h
  cases h
  rfl

end Call

/-! ### Histories -/

section Histories

variable {t : Transaction} {os : List (Occasion σ)}

theorem Sent.id {q : Message} (h : Sent t os q) :
    (t.run (os.map .call)).id? = some q.attributes.transactionId := by
  induction h with
  | now hx =>
    rw [run_concat]
    exact hx.after_id
  | before o _ ih =>
    rw [run_concat]
    exact Occasion.after_id_of_some ih

theorem advance_recipient (t : Transaction) (m : Move σ) : (t.advance m).recipient = t.recipient := by
  cases m with
  | call o => exact o.after_recipient t
  | withConfig _ | withId _ => rfl

theorem run_recipient (t : Transaction) (moves : List (Move σ)) : (t.run moves).recipient = t.recipient := by
  induction moves generalizing t with
  | nil => rfl
  | cons m moves ih => exact (ih (t.advance m)).trans (t.advance_recipient m)

/-- While the transaction is pending it holds the task made from the last call that was told to wait, and
the task has its id. -/
def Waits (t : Transaction) (os : List (Occasion σ)) : Prop :=
  (t.run (os.map .call)).state = .pending → ∃ op m task, LastDelay t os op m ∧
    (t.run (os.map .call)).outcome? = some (.pending task) ∧
    (t.run (os.map .call)).id? = some task.transactionId ∧ task.MadeFrom t.recipient op m

theorem Waits.step (h : t.Waits os) (o : Occasion σ) : t.Waits (os ++ [o]) := by
  unfold Waits
  rw [run_concat]
  intro hs
  by_cases hd : ∃ op m, o.Delayed (t.run (os.map .call)) op m
  · obtain ⟨op, m, hd⟩ := hd
    obtain ⟨task, houtcome, hid, hmade⟩ := hd.after
    rw [run_recipient] at hmade
    exact ⟨op, m, task, .now hd, houtcome, hid, hmade⟩
  · -- the call was not told to wait, so the task is the one from before
    obtain ⟨hpending, hsame⟩ := (Occasion.delayed_of_pending hs).resolve_left hd
    obtain ⟨op, m, task, hlast, houtcome, hid, hmade⟩ := h hpending
    have hnot (op' m') : ¬ o.Delayed (t.run (os.map .call)) op' m' := fun h' => hd ⟨op', m', h'⟩
    exact ⟨op, m, task, .before hlast hnot, hsame.trans houtcome, Occasion.after_id_of_some hid, hmade⟩

theorem waits_of_new (h : t.state = .new) (os : List (Occasion σ)) : t.Waits os := by
  induction os using List.reverseRecOn with
  | nil =>
    intro hs
    change t.state = .pending at hs
    rw [h] at hs
    cases hs
  | append_singleton os o ih => exact ih.step o

/-- A call after the history hands over a request for its operation, with the nonce of the last answer
that asked to wait if the transaction is pending, and with none if it is new. -/
theorem Waits.handed (h : t.Waits os) (ha : Agree t.state t.outcome?) {o : Occasion σ} {document : Bytes}
    (hd : document ∈ o.handed (t.run (os.map .call))) :
    ∃ op q answer, o.Exchanges (t.run (os.map .call)) op q document answer ∧ q.AsksFor op ∧
      ((t.run (os.map .call)).state = .new ∧ q.attributes.recipientNonce = none ∨
        (t.run (os.map .call)).state = .pending ∧ ∃ op' m, LastDelay t os op' m ∧
          q.attributes.recipientNonce = some m.attributes.senderNonce) := by
  rcases o.handed_cases (t.run (os.map .call)) with hnone | ⟨op, q, document', answer, hx, hone⟩
  · rw [hnone] at hd
    cases hd
  · rw [hone] at hd
    obtain rfl := List.mem_singleton.mp hd
    refine ⟨op, q, answer, hx, hx.asksFor, ?_⟩
    rw [hx.recipientNonce]
    rcases ((t.run (os.map .call)).permits_iff op).mp hx.permitted with hs | ⟨hs, -⟩
    · exact .inl ⟨hs, lastNonce_of_new (run_agree (os.map .call) ha) hs⟩
    · obtain ⟨op', m, task, hlast, houtcome, -, hmade⟩ := h hs
      refine .inr ⟨hs, op', m, hlast, ?_⟩
      simp only [lastNonce?, houtcome, hmade.recipientNonce]

theorem Waits.task_id (h : t.Waits os) (ha : Agree t.state t.outcome?) {task : PollTask}
    (ht : (t.run (os.map .call)).task = .ok task) :
    (t.run (os.map .call)).id? = some task.transactionId := by
  -- a task is shown in the pending state only
  have hs : (t.run (os.map .call)).state = .pending := by
    refine Decidable.byContradiction fun hne => ?_
    rw [(coherent_of_agree (run_agree (os.map .call) ha)).task.2 hne] at ht
    cases ht
  obtain ⟨op, m, task', -, houtcome, hid, -⟩ := h hs
  have hshown : (t.run (os.map .call)).task = .ok task' := shows_of_outcome houtcome
  rw [hshown] at ht
  cases ht
  exact hid

end Histories

theorem prepared_unused (identity : Identity) (recipient : Certificate) (choices : List Choice) :
    (prepared identity recipient choices).state = .new ∧
      (prepared identity recipient choices).outcome? = none ∧
      (prepared identity recipient choices).recipient = recipient := by
  suffices h : ∀ t : Transaction, t.state = .new ∧ t.outcome? = none ∧ t.recipient = recipient →
      (choices.foldl choose t).state = .new ∧ (choices.foldl choose t).outcome? = none ∧
        (choices.foldl choose t).recipient = recipient from h _ ⟨rfl, rfl, rfl⟩
  induction choices with
  | nil => exact fun _ h => h
  | cons c choices ih =>
    intro t h
    cases c with
    | config c => exact ih (t.withConfig c) h
    | id i => exact ih (t.withId i) h

/-- After any calls of a transaction that was prepared in any way: every request that was handed over
carries the id that the transaction has, and so does the task that it holds.  What the next call hands
over is a request for its operation; it carries no recipient nonce while the transaction is new, and
the nonce of the last answer that asked to wait once it is pending.  Then the task names the issuer of
the recipient and the subject of the operation that was last told to wait, and polling asks for exactly
these. -/
theorem requests_chain (identity : Identity) (recipient : Certificate) (choices : List Choice)
    (os : List (Occasion σ)) :
    let t₀ := prepared identity recipient choices
    let t := t₀.run (os.map .call)
    (∀ q, Sent t₀ os q → t.id? = some q.attributes.transactionId) ∧
    (∀ task, t.task = .ok task → t.id? = some task.transactionId) ∧
    (∀ (o : Occasion σ) document, document ∈ o.handed t →
      ∃ op q answer, o.Exchanges t op q document answer ∧ q.AsksFor op ∧
        (t.state = .new ∧ q.attributes.recipientNonce = none ∨
          t.state = .pending ∧ ∃ op' m, LastDelay t₀ os op' m ∧
            q.attributes.recipientNonce = some m.attributes.senderNonce)) ∧
    (t.state = .pending → ∃ op m task, LastDelay t₀ os op m ∧ t.task = .ok task ∧
      task.MadeFrom recipient op m ∧
      Call.poll.operation t = .ok (.getCertInitial ⟨task.issuer, task.subject⟩)) := by
  intro t₀ t
  obtain ⟨hstate, houtcome, hrecipient⟩ := prepared_unused identity recipient choices
  have hagree : Agree t₀.state t₀.outcome? := by
    rw [hstate, houtcome]
    exact .new
  have hwaits : t₀.Waits os := waits_of_new hstate os
  refine ⟨fun q hq => hq.id, fun task ht => hwaits.task_id hagree ht,
    fun o document hd => hwaits.handed hagree hd, fun hs => ?_⟩
  obtain ⟨op, m, task, hlast, ho, -, hmade⟩ := hwaits hs
  rw [hrecipient] at hmade
  have ht : t.task = .ok task := shows_of_outcome ho
  refine ⟨op, m, task, hlast, ht, hmade, ?_⟩
  rw [Call.operation, ht]
  rfl

end Transaction

end CertEnroll
