import CertEnroll.Proofs.EnrollmentId
import CertEnroll.Proofs.Traffic

/-!
# Proofs.Retry — an attempt to which no answer comes leaves no trace but the id

Such an attempt writes the id and, once its request is handed over, the nonce and the state.  The state
is put back, and the id stays.  The nonce stays as well, but it is read only while an answer is awaited,
after the next request has written its own; so no later call can tell the transaction from one that was
given the id and nothing else.
-/

namespace CertEnroll.Transaction

open Calendar (Instant)

variable {σ τ : Type}

/-! ### Transactions that differ in the nonce alone -/

/-- The second transaction differs from the first at most in the nonce of the last request. -/
def Alike (t u : Transaction) : Prop := ∃ nonce?, u = { t with sentNonce? := nonce? }

theorem Alike.refl (t : Transaction) : t.Alike t := ⟨t.sentNonce?, rfl⟩

theorem Alike.view {t u : Transaction} (h : t.Alike u) : u.view = t.view := by
  obtain ⟨nonce?, rfl⟩ := h
  rfl

theorem Alike.operation {t u : Transaction} (h : t.Alike u) (c : Call) : c.operation u = c.operation t := by
  obtain ⟨nonce?, rfl⟩ := h
  cases c <;> rfl

theorem Alike.reply {t u : Transaction} (h : t.Alike u) (c : Call) (state : State) :
    c.reply u state = c.reply t state := by
  obtain ⟨nonce?, rfl⟩ := h
  cases c <;> rfl

/-- A request that is handed over writes its own nonce; otherwise the nonce stays what it was. -/
theorem request_sentNonce (t : Transaction) (nonce? : Option Nonce) (now : Instant) (op : Operation)
    (random : Random) :
    ({ t with sentNonce? := nonce? } : Transaction).request now op random =
      match t.request now op random with
      | (.ok x, t', rest) => (.ok x, t', rest)
      | (.error e, t', rest) => (.error e, { t' with sentNonce? := nonce? }, rest) := by
  -- neither the guard nor the draft reads the nonce
  have hp : ({ t with sentNonce? := nonce? } : Transaction).permits op = t.permits op := rfl
  have hd : ({ t with sentNonce? := nonce? } : Transaction).draft now op = t.draft now op := rfl
  simp only [request, hp, hd]
  cases t.permits op with
  | false => rfl
  | true =>
    generalize (t.draft now op).run.run random = x
    obtain ⟨drafted, rest⟩ := x
    simp only [if_true]
    cases drafted with
    | error e => rfl
    | ok d => cases hd : d.document <;> simp only [hd] <;> rfl

theorem Alike.perform {t u : Transaction} (h : t.Alike u) (send : Transport σ) (now : Instant)
    (op : Operation) (s : Surroundings σ) :
    (Transaction.perform send now op (u, s)).1 = (Transaction.perform send now op (t, s)).1 ∧
      (Transaction.perform send now op (t, s)).2.1.Alike (Transaction.perform send now op (u, s)).2.1 ∧
      (Transaction.perform send now op (u, s)).2.2 = (Transaction.perform send now op (t, s)).2.2 := by
  obtain ⟨nonce?, rfl⟩ := h
  simp only [Transaction.perform, request_sentNonce]
  generalize t.request now op s.random = r
  obtain ⟨result, t', rest⟩ := r
  cases result with
  | error e => exact ⟨rfl, ⟨nonce?, rfl⟩, rfl⟩
  | ok x => exact ⟨rfl, Alike.refl _, rfl⟩

/-! ### Calls and runs -/

theorem Alike.make {t u : Transaction} (h : t.Alike u) (o : Occasion σ) :
    o.result u = o.result t ∧ (o.after t).Alike (o.after u) ∧ o.left u = o.left t := by
  unfold Occasion.result Occasion.after Occasion.left
  simp only [Call.make_apply, h.operation]
  cases o.call.operation t with
  | error e => exact ⟨rfl, h, rfl⟩
  | ok op =>
    obtain ⟨hresult, hafter, hleft⟩ := h.perform o.send o.now op o.surroundings
    refine ⟨?_, hafter, hleft⟩
    dsimp only
    rw [hresult]
    congr 1
    funext state
    exact hafter.reply o.call state

theorem Alike.advance {t u : Transaction} (h : t.Alike u) (m : Move σ) :
    (t.advance m).Alike (u.advance m) := by
  cases m with
  | call o => exact (h.make o).2.1
  | withConfig c =>
    obtain ⟨nonce?, rfl⟩ := h
    exact ⟨nonce?, rfl⟩
  | withId i =>
    obtain ⟨nonce?, rfl⟩ := h
    exact ⟨nonce?, rfl⟩

theorem Alike.run {t u : Transaction} (h : t.Alike u) (moves : List (Move σ)) :
    (t.run moves).Alike (u.run moves) := by
  induction moves generalizing t u with
  | nil => exact h
  | cons m moves ih => exact ih (h.advance m)

/-- A call is the same for two transactions: it returns the same, hands over the same, leaves the same
surroundings, the cache among them, and both transactions show the same afterwards. -/
structure Occasion.SameFor (o : Occasion σ) (t u : Transaction) : Prop where
  result : o.result u = o.result t
  handed : o.handed u = o.handed t
  left : o.left u = o.left t
  view : (o.after u).view = (o.after t).view

theorem Alike.sameFor {t u : Transaction} (h : t.Alike u) (o : Occasion σ) : o.SameFor t u := by
  obtain ⟨hresult, hafter, hleft⟩ := h.make o
  refine ⟨hresult, ?_, hleft, hafter.view⟩
  unfold Occasion.handed
  rw [(h.make o.noted).2.2]

/-! ### Attempts without an answer -/

/-- The call is allowed, but no answer comes: either it hands nothing over, or the transport fails. -/
inductive Occasion.Unanswered (o : Occasion σ) (t : Transaction) : Prop
  | unsent : o.call.Allowed t → o.handed t = [] → Unanswered o t
  | failed (op : Operation) (q : Message) (document : Bytes) (text : String) :
      o.Exchanges t op q document (.error text) → Unanswered o t

theorem unanswered_of_silent {o : Occasion σ} {t : Transaction} (h : o.call.Allowed t)
    (hsend : ∀ document u, ∃ text, ((o.send document).run u).1 = .error text) : o.Unanswered t := by
  rcases o.handed_cases t with hnone | ⟨op, q, document, answer, hx, -⟩
  · exact .unsent h hnone
  · obtain ⟨rest, after, -, ha⟩ := hx.passed
    obtain ⟨text, htext⟩ := hsend document (rest, o.surroundings.peer)
    rw [ha] at htext
    cases htext
    exact .failed op q document text hx

/-- An attempt of the call may leave the transaction with this id, if any: with the one that it had, and with
none only if the call requests a certificate for a key that has none. -/
structure Occasion.MayLeave (o : Occasion σ) (t : Transaction) (i? : Option TransactionId) : Prop where
  kept : t.id? = none ∨ i? = t.id?
  missing : i? = none → ∃ r e, o.call.operation t = .ok (.pkcsReq r) ∧
    TransactionId.ofKey r.body.keyInfo t.config.digest = .error e

theorem Occasion.mayLeave_chosenId? {o : Occasion σ} {t : Transaction} {op : Operation}
    (hop : o.call.operation t = .ok op) (random : Random) : o.MayLeave t (t.chosenId? op random) where
  kept := by
    cases h : t.id? with
    | none => exact .inl rfl
    | some i => exact .inr (chosenId?_of_some h op random)
  missing h := by
    obtain ⟨-, r, e, rfl, hkey⟩ := chosenId?_eq_none h
    exact ⟨r, e, hop, hkey⟩

theorem Occasion.Unanswered.leaves {o : Occasion σ} {t : Transaction} (h : o.Unanswered t) :
    (∃ e, o.result t = .error e ∧ (e.OfContent ∨ e.kind = .transport)) ∧
      (o.left t).cache = o.surroundings.cache ∧
      ∃ i?, o.MayLeave t i? ∧ Alike { t with id? := i? } (o.after t) := by
  cases h with
  | unsent hallowed hnone =>
    -- of the courses of an allowed call, only that of an exchange hands something over
    have hc := o.course t
    generalize o.result t = result, o.after t = t', o.left t = s at hc ⊢
    cases hc with
    | refused hr => exact absurd hallowed hr
    | unsealed op e rest hop _ he =>
      exact ⟨⟨e, rfl, .inl he⟩, rfl, _, mayLeave_chosenId? hop _, t.sentNonce?, rfl⟩
    | exchanged op q document rest answer after r hop hp hq ha _ =>
      have hx : o.Exchanges t op q document answer := ⟨hop, hp, rest, after, hq, ha⟩
      rw [hx.handed_eq] at hnone
      cases hnone
  | failed op q document text hx =>
    obtain ⟨hresult, hafter, hcache⟩ := hx.settles
    obtain ⟨rest, after, hq, -⟩ := hx.passed
    have hid := mayLeave_chosenId? hx.operation o.surroundings.random
    rw [hq.id] at hid
    refine ⟨⟨.transport text, hresult, .inr rfl⟩, hcache, _, hid, some q.attributes.senderNonce, ?_⟩
    rw [hafter]
    rfl

/-- A call that is allowed but gets no answer fails and leaves the cache alone.  All that the
transaction shows stays the same but for the id, which it may get if it had none.  From then on,
whatever follows, it cannot be told from the transaction that was given this id instead of the
attempt, or that was left without one. -/
theorem unanswered_leaves_only_id {o : Occasion σ} {t : Transaction} (h : o.Unanswered t) :
    (∃ e, o.result t = .error e ∧ (e.OfContent ∨ e.kind = .transport)) ∧
      (o.left t).cache = o.surroundings.cache ∧
      ∃ i?, o.MayLeave t i? ∧ (o.after t).view = { t.view with id? := i? } ∧
        ∀ later : List (Move τ),
          ((o.after t).run later).view = (run { t with id? := i? } later).view ∧
            ∀ o' : Occasion τ, o'.SameFor (run { t with id? := i? } later) ((o.after t).run later) := by
  obtain ⟨herror, hcache, i?, hid, halike⟩ := h.leaves
  refine ⟨herror, hcache, i?, hid, halike.view, fun later => ?_⟩
  have hlater := halike.run later
  exact ⟨hlater.view, hlater.sameFor⟩

/-- The question for the revocation lists, to which no answer comes, gives the transaction an id and
nothing else. -/
theorem unanswered_question_leaves_only_id :
    Sample.question.Unanswered Sample.transaction ∧
      (Sample.question.left Sample.transaction).cache = .empty ∧
      ∃ i, (Sample.question.after Sample.transaction).view =
        { Sample.transaction.view with id? := some i } := by
  have h : Sample.question.Unanswered Sample.transaction :=
    unanswered_of_silent ⟨_, rfl, rfl⟩ fun _ _ => ⟨_, rfl⟩
  obtain ⟨-, hcache, i?, hid, hview, -⟩ := unanswered_leaves_only_id (τ := Unit) h
  cases i? with
  | some i => exact ⟨h, hcache, i, hview⟩
  | none =>
    obtain ⟨r, e, hop, -⟩ := hid.missing rfl
    cases hop

end CertEnroll.Transaction
