import CertEnroll.Proofs.Session

/-!
# Proofs.Traffic — what passes between a call and its surroundings

A call is refused, cannot seal its request, or hands over one document and settles what comes back.
`Exchanges` says what is handed over and what comes back, and `Answered` that a trusted answer came
back whose nonce is new; either determines what the call returns and leaves.  What a call hands over is
read off a transport that takes note of it.
-/

namespace CertEnroll.Transaction

open X509 (Certificate RevocationList)

variable {σ : Type}

/-! ### What a transaction shows -/

/-- All that can be asked of a transaction. -/
structure View where
  state : State
  id? : Option TransactionId
  config : Config
  certificates : Result (List Certificate)
  revocations : Result (List RevocationList)
  failureReason : Result FailInfo
  task : Result PollTask

/-- What a transaction shows. -/
def view (t : Transaction) : View :=
  ⟨t.state, t.id?, t.config, t.certificates, t.revocations, t.failureReason, t.task⟩

/-! ### The courses of a call -/

/-- The call performs an operation that the state of the transaction permits. -/
def Call.Allowed (c : Call) (t : Transaction) : Prop :=
  ∃ op, c.operation t = .ok op ∧ t.permits op = true

/-- The surroundings after the call. -/
def Occasion.left (o : Occasion σ) (t : Transaction) : Surroundings σ :=
  (o.call.make o.send o.now (t, o.surroundings)).2.2

/-- The courses that a call can take, each with what it returns, the transaction it leaves and the
surroundings it leaves. -/
inductive Occasion.Course (o : Occasion σ) (t : Transaction) :
    Result Reply → Transaction → Surroundings σ → Prop
  | refused : ¬ o.call.Allowed t → Course o t (.error (.illegalState t.state)) t o.surroundings
  | unsealed (op : Operation) (e : Error) (rest : Random) : o.call.operation t = .ok op →
      t.permits op = true → e.OfContent →
      Course o t (.error e) { t with id? := t.chosenId? op o.surroundings.random }
        { o.surroundings with random := rest }
  | exchanged (op : Operation) (q : Message) (document : Bytes) (rest : Random)
      (answer : Except String Bytes) (after : Random × σ)
      (r : Result State × Transaction × ReplayCache) : o.call.operation t = .ok op →
      t.permits op = true → t.Sends o.now op o.surroundings.random q document rest →
      (o.send document).run (rest, o.surroundings.peer) = (answer, after) →
      Settled (t.sent q) (t.awaits op q) o.surroundings.cache answer r →
      Course o t (r.1 >>= o.call.reply r.2.1) r.2.1 ⟨after.1, r.2.2, after.2⟩

theorem Occasion.course (o : Occasion σ) (t : Transaction) :
    o.Course t (o.result t) (o.after t) (o.left t) := by
  unfold result after left
  rw [Call.make_apply]
  cases hc : o.call.operation t with
  | error e =>
    obtain rfl : e = .illegalState t.state := o.call.operation_failsOnly t e hc
    refine .refused fun ⟨op, hop, _⟩ => ?_
    rw [hc] at hop
    cases hop
  | ok op =>
    have hp := perform_performed o.send o.now op t o.surroundings
    dsimp only
    generalize perform o.send o.now op (t, o.surroundings) = r at hp ⊢
    cases hp with
    | refused hr =>
      refine .refused fun ⟨op', hop, hp⟩ => ?_
      rw [hc] at hop
      cases hop
      rw [hr] at hp
      cases hp
    | unsealed e rest hp he => exact .unsealed op e rest hc hp he
    | exchanged q document rest answer after r hp hq ha hr =>
      exact .exchanged op q document rest answer after r hc hp hq ha hr

theorem Occasion.course_of_refused {o : Occasion σ} {t : Transaction} (h : ¬ o.call.Allowed t) :
    o.result t = .error (.illegalState t.state) ∧ o.after t = t ∧ o.left t = o.surroundings := by
  have hc := o.course t
  generalize o.result t = result, o.after t = t', o.left t = s at hc ⊢
  cases hc with
  | refused _ => exact ⟨rfl, rfl, rfl⟩
  | unsealed op _ _ hop hp _ => exact absurd ⟨op, hop, hp⟩ h
  | exchanged op _ _ _ _ _ _ hop hp _ _ _ => exact absurd ⟨op, hop, hp⟩ h

/-! ### Exchanges -/

/-- The call performs `op`: it hands over `document`, which is the request `q` sealed, and `answer` comes
back. -/
structure Occasion.Exchanges (o : Occasion σ) (t : Transaction) (op : Operation) (q : Message)
    (document : Bytes) (answer : Except String Bytes) : Prop where
  operation : o.call.operation t = .ok op
  permitted : t.permits op = true
  passed : ∃ rest after, t.Sends o.now op o.surroundings.random q document rest ∧
    (o.send document).run (rest, o.surroundings.peer) = (answer, after)

section Exchanges

variable {o : Occasion σ} {t : Transaction} {op : Operation} {q m : Message} {document : Bytes}
  {answer : Except String Bytes}

theorem Occasion.Exchanges.settles (h : o.Exchanges t op q document answer) :
    let r := (t.sent q).settle (t.awaits op q) answer o.surroundings.cache
    o.result t = (r.1 >>= o.call.reply r.2.1) ∧ o.after t = r.2.1 ∧ (o.left t).cache = r.2.2 := by
  obtain ⟨rest, after, hq, ha⟩ := h.passed
  have hr := request_of_sends h.permitted hq
  simp only [Occasion.result, Occasion.after, Occasion.left, Call.make_apply, h.operation, perform, hr, ha,
    and_self]

theorem Occasion.Exchanges.message (h : o.Exchanges t op q document answer) :
    t.requestMessage q.attributes.transactionId q.attributes.senderNonce op = .ok q := by
  obtain ⟨rest, after, hq, -⟩ := h.passed
  obtain ⟨_, _, -, -, hmessage, -⟩ := hq
  exact hmessage

/-- The call performs `op` by the request `q`, and a trusted answer `m` comes back whose nonce is not in
the cache. -/
structure Occasion.Answered (o : Occasion σ) (t : Transaction) (op : Operation) (q m : Message) :
    Prop where
  trusted : ∃ document b s, o.Exchanges t op q document (.ok b) ∧
    t.Trusts q.attributes.transactionId q.attributes.senderNonce b s m
  fresh : m.attributes.senderNonce ∉ o.surroundings.cache.nonces

theorem vet_sent {b : Bytes} :
    (t.sent q).vet (t.awaits op q) b = .ok m ↔
      ∃ s, t.Trusts q.attributes.transactionId q.attributes.senderNonce b s m := by
  rw [vet_eq_ok]
  constructor
  · rintro ⟨nonce, s, hnonce, h⟩
    cases hnonce
    exact ⟨s, trusts_sent.mp h⟩
  · rintro ⟨s, h⟩
    exact ⟨_, s, rfl, trusts_sent.mpr h⟩

/-- The nonce of such an answer is recorded, whatever is concluded from it. -/
theorem Occasion.Answered.settle (h : o.Answered t op q m) :
    (o.left t).cache = o.surroundings.cache.record m.attributes.senderNonce ∧
      match (t.sent q).conclude (t.awaits op q) m with
      | .error e => o.result t = .error e ∧ o.after t = (t.sent q).aborted
      | .ok (state, outcome) =>
        o.after t = { t.sent q with state := state, outcome? := some outcome } ∧
          o.result t = o.call.reply (o.after t) state := by
  obtain ⟨document, b, s, hx, hs⟩ := h.trusted
  have hv : (t.sent q).vet (t.awaits op q) b = .ok m := vet_sent.mpr ⟨s, hs⟩
  obtain ⟨hresult, hafter, hcache⟩ := hx.settles
  simp only [Transaction.settle, judge_run, hv, h.fresh, if_false] at hresult hafter hcache
  cases hc : (t.sent q).conclude (t.awaits op q) m with
  | error e =>
    simp only [hc] at hresult hafter hcache
    exact ⟨hcache, hresult, hafter⟩
  | ok x =>
    simp only [hc] at hresult hafter hcache
    refine ⟨hcache, hafter, ?_⟩
    rw [hafter]
    exact hresult

end Exchanges

/-! ### What is handed over -/

/-- The transport that takes note of what it is handed before it passes it on. -/
def Transport.noting (send : Transport σ) : Transport (σ × List Bytes) :=
  fun document (random, peer, noted) =>
    let (answer, random, peer) := (send document).run (random, peer)
    (answer, random, peer, noted ++ [document])

/-- The call with a transport that takes note. -/
def Occasion.noted (o : Occasion σ) : Occasion (σ × List Bytes) where
  call := o.call
  send := o.send.noting
  now := o.now
  surroundings := { o.surroundings with peer := (o.surroundings.peer, []) }

/-- The documents that the call hands to its transport. -/
def Occasion.handed (o : Occasion σ) (t : Transaction) : List Bytes := (o.noted.left t).peer.2

theorem Occasion.handed_of_refused {o : Occasion σ} {t : Transaction} (h : ¬ o.call.Allowed t) :
    o.handed t = [] := by
  have hleft := (course_of_refused (o := o.noted) h).2.2
  unfold handed
  rw [hleft]
  rfl

theorem Occasion.Exchanges.handed_eq {o : Occasion σ} {t : Transaction} {op : Operation} {q : Message}
    {document : Bytes} {answer : Except String Bytes} (h : o.Exchanges t op q document answer) :
    o.handed t = [document] := by
  obtain ⟨rest, after, hq, -⟩ := h.passed
  have hr := request_of_sends h.permitted hq
  simp only [Occasion.handed, Occasion.left, Occasion.noted, Call.make_apply, h.operation, perform, hr]
  rfl

/-- Each call hands over one document or none; one if it comes to an exchange. -/
theorem Occasion.handed_cases (o : Occasion σ) (t : Transaction) :
    o.handed t = [] ∨ ∃ op q document answer, o.Exchanges t op q document answer ∧
      o.handed t = [document] := by
  have hc := o.noted.course t
  unfold handed
  generalize o.noted.result t = result, o.noted.after t = t', o.noted.left t = s at hc ⊢
  cases hc with
  | refused _ => exact .inl rfl
  | unsealed op e rest _ _ _ => exact .inl rfl
  | exchanged op q document rest answer after r hop hp hq ha _ =>
    -- the noting transport adds its document to the empty note and passes it on to the given one
    obtain ⟨⟩ := ha
    exact .inr ⟨op, q, document, _, ⟨hop, hp, rest, _, hq, rfl⟩, rfl⟩

end CertEnroll.Transaction
