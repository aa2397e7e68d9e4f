import CertEnroll.Proofs.Faults
import CertEnroll.Proofs.ReplayWindow
import CertEnroll.Transaction

/-!
# Proofs.Exchange — the ways in which a request, an answer and a whole exchange end

A request is refused, cannot be sealed, or is sent.  An answer does not come, is not trusted, is a
replay, says nothing that ends the exchange, or concludes it.  Every proof about runs of a transaction
splits into these cases and opens neither `request` nor `settle`.
-/

namespace CertEnroll

open Calendar (Instant)

namespace Transaction

/-! ### Requests -/

theorem permits_iff (t : Transaction) (op : Operation) :
    t.permits op = true ↔
      t.state = .new ∨ t.state = .pending ∧ ∃ names, op = .getCertInitial names := by
  unfold permits
  cases t.state <;> cases op <;> simp

/-- The id under which an operation is requested, if there is one. -/
def chosenId? (t : Transaction) (op : Operation) (random : Random) : Option TransactionId :=
  ((t.chooseId op).run.run random).1.toOption

/-- The request `q` for `op` is drawn from `random` and sealed as `document`, which leaves `rest`. -/
def Sends (t : Transaction) (now : Instant) (op : Operation) (random : Random) (q : Message)
    (document : Bytes) (rest : Random) : Prop :=
  ∃ afterId afterNonce,
    (t.chooseId op).run.run random = (.ok q.attributes.transactionId, afterId) ∧
    (Nonce.draw t.config.nonceSize).run afterId = (q.attributes.senderNonce, afterNonce) ∧
    t.requestMessage q.attributes.transactionId q.attributes.senderNonce op = .ok q ∧
    (t.sealing.encode now q).run.run afterNonce = (.ok document, rest)

/-- The transaction that awaits the answer to `q`. -/
def sent (t : Transaction) (q : Message) : Transaction :=
  { t with
    id? := some q.attributes.transactionId
    sentNonce? := some q.attributes.senderNonce
    state := .awaitingResponse }

/-- The transaction after an answer that cannot be trusted or read. -/
def aborted (t : Transaction) : Transaction := { t with state := .aborted, outcome? := none }

/-- What is remembered of the request `q` for `op`. -/
def awaits (t : Transaction) (op : Operation) (q : Message) : Awaited :=
  ⟨q.attributes.transactionId, op, t.state⟩

theorem sealRequest_run (t : Transaction) (now : Instant) (id : TransactionId) (nonce : Nonce)
    (op : Operation) (r : Random) :
    (t.sealRequest now id nonce op).run.run r =
      match t.requestMessage id nonce op with
      | .error e => (.error e, r)
      | .ok q => (t.sealing.encode now q).run.run r := by
  unfold sealRequest
  cases t.requestMessage id nonce op <;> rfl

theorem chooseId_failsOnly (t : Transaction) (op : Operation) :
    Drawing.FailsOnly Error.OfContent (t.chooseId op) := by
  unfold chooseId
  split
  · exact Drawing.failsOnly_pure _
  · exact Drawing.failsOnly_lift (TransactionId.ofKey_failsOnly _ _)
  · exact Drawing.failsOnly_draw _

/-- An id that the transaction has is chosen. -/
theorem chosenId?_of_some {t : Transaction} {i : TransactionId} (h : t.id? = some i) (op : Operation)
    (random : Random) : t.chosenId? op random = some i := by
  unfold chosenId? chooseId
  rw [h]
  rfl

/-- No id is found only for a transaction without one that requests a certificate for a key without one. -/
theorem chosenId?_eq_none {t : Transaction} {op : Operation} {random : Random}
    (h : t.chosenId? op random = none) : t.id? = none ∧ ∃ r e, op = .pkcsReq r ∧
      TransactionId.ofKey r.body.keyInfo t.config.digest = .error e := by
  cases hi : t.id? with
  | some i =>
    rw [chosenId?_of_some hi] at h
    cases h
  | none =>
    unfold chosenId? chooseId at h
    rw [hi] at h
    cases op with
    | pkcsReq r =>
      cases hk : TransactionId.ofKey r.body.keyInfo t.config.digest with
      | error e => exact ⟨rfl, r, e, rfl, hk⟩
      | ok i =>
        dsimp only at h
        rw [hk] at h
        cases h
    | _ => cases h

theorem with_chosenId?_of_none {t : Transaction} {op : Operation} {random : Random}
    (h : t.chosenId? op random = none) : { t with id? := t.chosenId? op random } = t := by
  rw [h, ← (chosenId?_eq_none h).1]

theorem sealRequest_failsOnly (t : Transaction) (now : Instant) (id : TransactionId) (nonce : Nonce)
    (op : Operation) : Drawing.FailsOnly Error.OfContent (t.sealRequest now id nonce op) := by
  unfold sealRequest
  refine Drawing.failsOnly_bind (Drawing.failsOnly_lift ?_) fun q => Sealing.encode_failsOnly _ _ _
  simp [requestMessage]

theorem requestMessage_attributes {t : Transaction} {id : TransactionId} {nonce : Nonce} {op : Operation}
    {q : Message} (h : t.requestMessage id nonce op = .ok q) :
    q.attributes = { MessageAttributes.request id op.messageType nonce with
      recipientNonce := t.lastNonce? } := by
  obtain ⟨m, hm, h⟩ := Result.bind_eq_ok.mp h
  obtain ⟨b, -, hm⟩ := Result.bind_eq_ok.mp hm
  cases hm
  cases h
  rfl

theorem requestMessage_data {t : Transaction} {id : TransactionId} {nonce : Nonce} {op : Operation}
    {q : Message} (h : t.requestMessage id nonce op = .ok q) : ∃ b, op.write = .ok b ∧ q.data = some b := by
  obtain ⟨m, hm, h⟩ := Result.bind_eq_ok.mp h
  obtain ⟨b, hb, hm⟩ := Result.bind_eq_ok.mp hm
  cases hm
  cases h
  exact ⟨b, hb, rfl⟩

theorem draft_run {t : Transaction} {now : Instant} {op : Operation} {random r₁ r₂ rest : Random}
    {id : TransactionId} {nonce : Nonce} {document : Result Bytes}
    (hid : (t.chooseId op).run.run random = (.ok id, r₁))
    (hnonce : (Nonce.draw t.config.nonceSize).run r₁ = (nonce, r₂))
    (hdocument : (t.sealRequest now id nonce op).run.run r₂ = (document, rest)) :
    (t.draft now op).run.run random = (.ok ⟨id, nonce, document⟩, rest) := by
  refine Drawing.bind_eq_ok.mpr ⟨id, r₁, hid, Drawing.bind_eq_ok.mpr ⟨nonce, r₂, ?_, ?_⟩⟩
  · exact Drawing.draw_eq_ok.mpr hnonce
  · exact Drawing.bind_eq_ok.mpr ⟨document, rest, Drawing.attempt_eq_ok.mpr hdocument, rfl⟩

theorem draft_of_chooseId {t : Transaction} {now : Instant} {op : Operation} {random rest : Random}
    {e : Error} (hid : (t.chooseId op).run.run random = (.error e, rest)) :
    (t.draft now op).run.run random = (.error e, rest) := by
  unfold draft
  rw [ExceptT.run_bind, run_bind_of_eq hid]
  rfl

/-- The ways in which preparing a request ends. -/
inductive Requested (t : Transaction) (now : Instant) (op : Operation) (random : Random) :
    Result (Awaited × Bytes) × Transaction × Random → Prop
  | refused : t.permits op = false →
      Requested t now op random (.error (.illegalState t.state), t, random)
  | unsealed (e : Error) (rest : Random) : t.permits op = true → e.OfContent →
      Requested t now op random (.error e, { t with id? := t.chosenId? op random }, rest)
  | sent (q : Message) (document : Bytes) (rest : Random) : t.permits op = true →
      t.Sends now op random q document rest →
      Requested t now op random (.ok (t.awaits op q, document), t.sent q, rest)

theorem request_of_sends {t : Transaction} {now : Instant} {op : Operation} {random rest : Random}
    {q : Message} {document : Bytes} (hp : t.permits op = true)
    (h : t.Sends now op random q document rest) :
    t.request now op random = (.ok (t.awaits op q, document), t.sent q, rest) := by
  obtain ⟨r₁, r₂, hid, hnonce, hq, hdocument⟩ := h
  have hs : (t.sealRequest now q.attributes.transactionId q.attributes.senderNonce op).run.run r₂ =
      (.ok document, rest) := by
    rw [sealRequest_run, hq]
    exact hdocument
  simp only [request, hp, if_true, draft_run hid hnonce hs]
  rfl

theorem sends_of_sealRequest {t : Transaction} {now : Instant} {op : Operation}
    {random r₁ r₂ rest : Random} {id : TransactionId} {nonce : Nonce} {document : Bytes}
    (hid : (t.chooseId op).run.run random = (.ok id, r₁))
    (hnonce : (Nonce.draw t.config.nonceSize).run r₁ = (nonce, r₂))
    (hdocument : (t.sealRequest now id nonce op).run.run r₂ = (.ok document, rest)) :
    ∃ q, t.Sends now op random q document rest := by
  rw [sealRequest_run] at hdocument
  cases hq : t.requestMessage id nonce op with
  | error e =>
    rw [hq] at hdocument
    cases hdocument
  | ok q =>
    rw [hq] at hdocument
    have hi : q.attributes.transactionId = id := by rw [requestMessage_attributes hq]; rfl
    have hn : q.attributes.senderNonce = nonce := by rw [requestMessage_attributes hq]; rfl
    subst hi hn
    exact ⟨q, r₁, r₂, hid, hnonce, hq, hdocument⟩

theorem request_requested (t : Transaction) (now : Instant) (op : Operation) (random : Random) :
    Requested t now op random (t.request now op random) := by
  cases hp : t.permits op with
  | false =>
    simp only [request, hp, Bool.false_eq_true, if_false]
    exact .refused hp
  | true =>
    -- the stream is drawn from three times: for the id, for the nonce and for the document
    cases hid : (t.chooseId op).run.run random with
    | mk chosen r₁ =>
      have hchosen : t.chosenId? op random = chosen.toOption := congrArg (fun x => x.1.toOption) hid
      cases chosen with
      | error e =>
        have he : e.OfContent := t.chooseId_failsOnly op random e (congrArg Prod.fst hid)
        have h : Requested t now op random (.error e, { t with id? := t.chosenId? op random }, r₁) :=
          .unsealed e r₁ hp he
        rw [with_chosenId?_of_none hchosen] at h
        simpa only [request, hp, if_true, draft_of_chooseId hid] using h
      | ok id =>
        obtain ⟨⟨nonce, r₂⟩, hnonce⟩ : ∃ x, (Nonce.draw t.config.nonceSize).run r₁ = x := ⟨_, rfl⟩
        cases hs : (t.sealRequest now id nonce op).run.run r₂ with
        | mk document rest =>
          cases document with
          | error e =>
            have he : e.OfContent := t.sealRequest_failsOnly now id nonce op r₂ e (congrArg Prod.fst hs)
            have h : Requested t now op random (.error e, { t with id? := t.chosenId? op random }, rest) :=
              .unsealed e rest hp he
            rw [hchosen] at h
            simp only [request, hp, if_true, draft_run hid hnonce hs]
            exact h
          | ok document =>
            obtain ⟨q, h⟩ := sends_of_sealRequest hid hnonce hs
            rw [request_of_sends hp h]
            exact .sent q document rest hp h

/-! ### Answers -/

/-- The nonce of a vetted answer is recorded before the answer is concluded, so it stays recorded if the
conclusion fails. -/
theorem judge_run (t : Transaction) (w : Awaited) (answer : Bytes) (cache : ReplayCache) :
    (t.judge w answer).run.run cache =
      match t.vet w answer with
      | .error e => (.error e, cache)
      | .ok m =>
        if m.attributes.senderNonce ∈ cache.nonces then (.error .replay, cache)
        else (t.conclude w m, cache.record m.attributes.senderNonce) := by
  unfold judge
  cases t.vet w answer with
  | error e => rfl
  | ok m =>
    have ha := ReplayCache.accept_run m.attributes.senderNonce cache
    change ((ReplayCache.accept m.attributes.senderNonce >>= fun _ =>
      (monadLift (t.conclude w m) : ExceptT Error (StateM ReplayCache) _)).run.run cache) = _
    by_cases hm : m.attributes.senderNonce ∈ cache.nonces
    · rw [if_pos hm] at ha
      rw [ExceptT.run_bind, run_bind_of_eq ha]
      simp only [hm, if_true]
      rfl
    · rw [if_neg hm] at ha
      rw [ExceptT.run_bind, run_bind_of_eq ha]
      simp only [hm, if_false]
      rfl

/-- The ways in which the wait for an answer ends. -/
inductive Settled (t : Transaction) (w : Awaited) (cache : ReplayCache) :
    Except String Bytes → Result State × Transaction × ReplayCache → Prop
  | unanswered (text : String) :
      Settled t w cache (.error text) (.error (.transport text), { t with state := w.before }, cache)
  | untrusted (answer : Bytes) (e : Error) : t.vet w answer = .error e →
      Settled t w cache (.ok answer) (.error e, t.aborted, cache)
  | replayed (answer : Bytes) (m : Message) : t.vet w answer = .ok m →
      m.attributes.senderNonce ∈ cache.nonces →
      Settled t w cache (.ok answer) (.error .replay, t.aborted, cache)
  | unread (answer : Bytes) (m : Message) (e : Error) : t.vet w answer = .ok m →
      m.attributes.senderNonce ∉ cache.nonces → t.conclude w m = .error e →
      Settled t w cache (.ok answer) (.error e, t.aborted, cache.record m.attributes.senderNonce)
  | concluded (answer : Bytes) (m : Message) (state : State) (outcome : Outcome) :
      t.vet w answer = .ok m → m.attributes.senderNonce ∉ cache.nonces →
      t.conclude w m = .ok (state, outcome) →
      Settled t w cache (.ok answer)
        (.ok state, { t with state := state, outcome? := some outcome },
          cache.record m.attributes.senderNonce)

theorem settle_settled (t : Transaction) (w : Awaited) (answer : Except String Bytes)
    (cache : ReplayCache) : Settled t w cache answer (t.settle w answer cache) := by
  cases answer with
  | error text => exact .unanswered text
  | ok answer =>
    unfold settle
    simp only [judge_run]
    cases hv : t.vet w answer with
    | error e => exact .untrusted answer e hv
    | ok m =>
      by_cases hm : m.attributes.senderNonce ∈ cache.nonces
      · simp only [hm, if_true]
        exact .replayed answer m hv hm
      · simp only [hm, if_false]
        cases hc : t.conclude w m with
        | error e => exact .unread answer m e hv hm hc
        | ok x => exact .concluded answer m x.1 x.2 hv hm hc

/-! ### Whole exchanges -/

variable {σ : Type}

/-- The ways in which an exchange ends. -/
inductive Performed (send : Transport σ) (now : Instant) (op : Operation) (t : Transaction)
    (s : Surroundings σ) : Result State × Transaction × Surroundings σ → Prop
  | refused : t.permits op = false →
      Performed send now op t s (.error (.illegalState t.state), t, s)
  | unsealed (e : Error) (rest : Random) : t.permits op = true → e.OfContent →
      Performed send now op t s
        (.error e, { t with id? := t.chosenId? op s.random }, { s with random := rest })
  | exchanged (q : Message) (document : Bytes) (rest : Random) (answer : Except String Bytes)
      (after : Random × σ) (r : Result State × Transaction × ReplayCache) :
      t.permits op = true → t.Sends now op s.random q document rest →
      (send document).run (rest, s.peer) = (answer, after) →
      Settled (t.sent q) (t.awaits op q) s.cache answer r →
      Performed send now op t s (r.1, r.2.1, ⟨after.1, r.2.2, after.2⟩)

theorem perform_performed (send : Transport σ) (now : Instant) (op : Operation) (t : Transaction)
    (s : Surroundings σ) : Performed send now op t s (perform send now op (t, s)) := by
  have h := t.request_requested now op s.random
  dsimp only [perform]
  generalize t.request now op s.random = r at h
  cases h with
  | refused hp => exact .refused hp
  | unsealed e rest hp he => exact .unsealed e rest hp he
  | sent q document rest hp hq =>
    exact .exchanged q document rest _ ((send document).run (rest, s.peer)).2 _ hp hq rfl
      (settle_settled _ _ _ _)

end Transaction

end CertEnroll
