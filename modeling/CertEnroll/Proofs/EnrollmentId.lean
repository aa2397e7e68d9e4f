import CertEnroll.Proofs.RoundTrip
import CertEnroll.Proofs.Session

/-!
# Proofs.EnrollmentId — under which id a certificate is requested

A transaction without an id gets one at the first call that attempts an exchange and finds an id for it,
and keeps it whatever comes of the attempt.  A request for a certificate therefore carries the id of its
own key if it is the first attempt; after another one it carries the id of that attempt, which may be
drawn at random or belong to another key.
-/

namespace CertEnroll.Transaction

open Calendar (Instant)
open X509 (Certificate CertificationRequest KeyInfo)

variable {σ : Type}

/-! ### One exchange -/

theorem Sends.id {t : Transaction} {now : Instant} {op : Operation} {random rest : Random} {q : Message}
    {document : Bytes} (h : t.Sends now op random q document rest) :
    t.chosenId? op random = some q.attributes.transactionId := by
  obtain ⟨_, _, hid, -⟩ := h
  rw [chosenId?, hid]
  rfl

/-- The nonce of the last request has no part in the next. -/
theorem sends_sentNonce_iff {t : Transaction} {now : Instant} {op : Operation} {random rest : Random}
    {q : Message} {document : Bytes} (nonce : Option Nonce) :
    ({ t with sentNonce? := nonce } : Transaction).Sends now op random q document rest ↔
      t.Sends now op random q document rest := Iff.rfl

theorem Settled.id {t : Transaction} {w : Awaited} {cache : ReplayCache} {answer : Except String Bytes}
    {r : Result State × Transaction × ReplayCache} (h : Settled t w cache answer r) :
    r.2.1.id? = t.id? := by
  cases h <;> rfl

/-- An exchange that is allowed leaves the id that was chosen for it, however it ends. -/
theorem Performed.id {send : Transport σ} {now : Instant} {op : Operation} {t : Transaction}
    {s : Surroundings σ} {r : Result State × Transaction × Surroundings σ}
    (h : Performed send now op t s r) (hp : t.permits op = true) :
    r.2.1.id? = t.chosenId? op s.random := by
  cases h with
  | refused hr =>
    rw [hp] at hr
    cases hr
  | unsealed e rest _ _ => rfl
  | exchanged q document rest answer after r _ hq _ hr => exact hr.id.trans hq.id.symm

/-- An exchange for which no id is found leaves the transaction as it was. -/
theorem Performed.eq_of_chosenId? {send : Transport σ} {now : Instant} {op : Operation} {t : Transaction}
    {s : Surroundings σ} {r : Result State × Transaction × Surroundings σ}
    (h : Performed send now op t s r) (hnone : t.chosenId? op s.random = none) : r.2.1 = t := by
  cases h with
  | refused _ => rfl
  | unsealed e rest _ _ => exact with_chosenId?_of_none hnone
  | exchanged q document rest answer after r _ hq _ _ =>
    rw [hq.id] at hnone
    cases hnone

theorem Performed.id_of_some {send : Transport σ} {now : Instant} {op : Operation} {t : Transaction}
    {s : Surroundings σ} {r : Result State × Transaction × Surroundings σ} {i : TransactionId}
    (h : Performed send now op t s r) (hi : t.id? = some i) : r.2.1.id? = some i := by
  cases hp : t.permits op with
  | true => rw [h.id hp, chosenId?_of_some hi]
  | false =>
    cases h with
    | refused _ => exact hi
    | unsealed e rest hr _ =>
      rw [hp] at hr
      cases hr
    | exchanged q document rest answer after r hr _ _ _ =>
      rw [hp] at hr
      cases hr

/-! ### Runs of calls -/

/-- The id that a call gives to a new transaction without one, if it attempts an exchange: that of the
requested key, if it has one, or a drawn one. -/
def Occasion.firstId (o : Occasion σ) (t : Transaction) : Option TransactionId :=
  match o.call.operation t with
  | .ok (.pkcsReq r) => (TransactionId.ofKey r.body.keyInfo t.config.digest).toOption
  | .ok _ => some (TransactionId.draw.run o.surroundings.random).1
  | .error _ => none

theorem Occasion.firstId_of_operation {o : Occasion σ} {t : Transaction} {op : Operation}
    (h : o.call.operation t = .ok op) (hi : t.id? = none) :
    o.firstId t = t.chosenId? op o.surroundings.random := by
  unfold firstId chosenId? chooseId
  rw [h, hi]
  cases op <;> rfl

theorem Occasion.after_id_of_some {o : Occasion σ} {t : Transaction} {i : TransactionId}
    (h : t.id? = some i) : (o.after t).id? = some i := by
  have hg := o.goes t
  generalize o.result t = result, o.after t = t' at hg ⊢
  cases hg with
  | stopped _ => exact h
  | performed op r _ hp => exact hp.id_of_some h

theorem Occasion.after_of_firstId {o : Occasion σ} {t : Transaction} (hs : t.state = .new)
    (hi : t.id? = none) :
    (o.after t).id? = o.firstId t ∧ (o.firstId t = none → o.after t = t) := by
  have hg := o.goes t
  generalize o.result t = result, o.after t = t' at hg ⊢
  cases hg with
  | stopped hc =>
    have hf : o.firstId t = none := by simp only [firstId, hc]
    rw [hf]
    exact ⟨hi, fun _ => rfl⟩
  | performed op r hc hp =>
    rw [firstId_of_operation hc hi]
    exact ⟨hp.id ((t.permits_iff op).mpr (.inl hs)), hp.eq_of_chosenId?⟩

theorem run_map_singleton (t : Transaction) (o : Occasion σ) : t.run ([o].map .call) = o.after t := rfl

theorem run_id_of_some {t : Transaction} {i : TransactionId} (os : List (Occasion σ))
    (h : t.id? = some i) : (t.run (os.map .call)).id? = some i := by
  induction os generalizing t with
  | nil => exact h
  | cons o os ih => exact ih (Occasion.after_id_of_some h)

/-- After some calls a transaction has the id of the first that attempted an exchange and found one; if none
did, the transaction is as it was. -/
theorem run_id {t : Transaction} (os : List (Occasion σ)) (hs : t.state = .new) (hi : t.id? = none) :
    (t.run (os.map .call)).id? = os.findSome? (·.firstId t) ∧
      (os.findSome? (·.firstId t) = none → t.run (os.map .call) = t) := by
  induction os with
  | nil => exact ⟨hi, fun _ => rfl⟩
  | cons o os ih =>
    obtain ⟨hid, hsame⟩ := o.after_of_firstId hs hi
    change ((o.after t).run (os.map .call)).id? = _ ∧ (_ → (o.after t).run (os.map .call) = t)
    -- a call that attempts nothing leaves the transaction new and without an id
    rw [List.findSome?_cons]
    cases hf : o.firstId t with
    | some i =>
      rw [hf] at hid
      refine ⟨run_id_of_some os hid, fun h => ?_⟩
      cases h
    | none =>
      rw [hsame hf]
      exact ih

theorem sends_enrollment_id {t : Transaction} {now : Instant} {request : CertificationRequest}
    {random rest : Random} {q : Message} {document : Bytes}
    (h : t.Sends now (.pkcsReq request) random q document rest) (hi : t.id? = none) :
    TransactionId.ofKey request.body.keyInfo t.config.digest = .ok q.attributes.transactionId := by
  obtain ⟨_, _, hid, -⟩ := h
  unfold chooseId at hid
  rw [hi] at hid
  exact (Drawing.lift_eq_ok.mp hid).1

/-- The request for a certificate that a transaction sends after some calls carries the id of its own key
exactly if no call before found an id for an exchange, or the first that did found this very id. -/
theorem enrollment_id_iff (identity : Identity) (recipient : Certificate) (c : Config)
    (os : List (Occasion σ)) :
    let t₀ := (start identity recipient).withConfig c
    let t := t₀.run (os.map .call)
    t.id? = os.findSome? (·.firstId t₀) ∧
      ∀ now request random q document rest,
        t.Sends now (.pkcsReq request) random q document rest →
        (TransactionId.ofKey request.body.keyInfo c.digest = .ok q.attributes.transactionId ↔
          ∀ i, os.findSome? (·.firstId t₀) = some i →
            TransactionId.ofKey request.body.keyInfo c.digest = .ok i) := by
  intro t₀ t
  obtain ⟨hid, hsame⟩ := run_id (t := t₀) os rfl rfl
  refine ⟨hid, fun now request random q document rest h => ?_⟩
  cases hf : os.findSome? (·.firstId t₀) with
  | some i =>
    have hq := h.id
    rw [chosenId?_of_some (hid.trans hf), Option.some_inj] at hq
    simp [hq]
  | none =>
    have ht : t = t₀ := hsame hf
    have hdigest : t₀.config.digest = c.digest := rfl
    rw [ht] at h
    have hkey := sends_enrollment_id h rfl
    rw [hdigest] at hkey
    exact iff_of_true hkey fun _ hi => by cases hi

/-! ### An enrollment under a drawn id -/

/-- An exchange without an answer changes no more than the id and the nonce. -/
theorem Performed.unanswered {send : Transport σ} {now : Instant} {op : Operation} {t : Transaction}
    {s : Surroundings σ} {r : Result State × Transaction × Surroundings σ}
    (h : Performed send now op t s r) (hsend : ∀ b u, ∃ text, ((send b).run u).1 = .error text) :
    r.2.1 = { t with id? := r.2.1.id?, sentNonce? := r.2.1.sentNonce? } := by
  cases h with
  | refused _ => rfl
  | unsealed e rest _ _ => rfl
  | exchanged q document rest answer after r _ _ ha hr =>
    obtain ⟨text, htext⟩ := hsend document (rest, s.peer)
    rw [ha] at htext
    cases htext
    cases hr
    rfl

theorem Occasion.after_unanswered {o : Occasion σ} (t : Transaction)
    (hsend : ∀ b u, ∃ text, ((o.send b).run u).1 = .error text) :
    o.after t = { t with id? := (o.after t).id?, sentNonce? := (o.after t).sentNonce? } := by
  have hg := o.goes t
  generalize o.result t = result, o.after t = t' at hg ⊢
  cases hg with
  | stopped _ => rfl
  | performed op r _ hp => exact hp.unanswered hsend

/-- The transport on which no answer comes. -/
def silent : Transport Unit := fun _ => pure (.error "no answer")

namespace Sample

/-- A key just large enough to sign over the shortest digest. -/
def key : Rsa.PrivateKey where
  publicKey :=
    { modulus :=
        19301216708096761496465165793463392063908756333507108009 *
          24142931011026310882471683123079284302273024477436068567
      exponent := 3 }
  secret :=
    0x2111bd96cd546f8e644086fc8b8f10030005477d800d2c4caabed6b50a701c2e8b2ee40eec23d35ff5c22c30f613
  prime1 := 19301216708096761496465165793463392063908756333507108009
  prime2 := 24142931011026310882471683123079284302273024477436068567

/-- The start of 1970. -/
def epoch : Der.Time := .short ⟨1970, 1, 1, 0, 0, 0, by decide⟩ (by decide)

/-- A certificate of the key. -/
def certificate : Certificate where
  body :=
    { version := .v1
      serial := ⟨[1]⟩
      signature := .plain rsaEncryption
      issuer := ⟨[]⟩
      validity := ⟨epoch, epoch⟩
      subject := ⟨[]⟩
      keyInfo := .ofKey key.publicKey
      issuerId := none
      subjectId := none
      extensions := none }
  algorithm := .plain rsaEncryption
  signature := .ofBytes []

theorem version_valid : 0 ≤ 0 ∧ 0 < 128 := by decide

/-- A request for a certificate of another key. -/
def request : CertificationRequest where
  body := ⟨⟨0, version_valid⟩, ⟨[]⟩, ⟨⟨.ofArcs [1, 2, 3], none⟩, .ofBytes [1]⟩, .empty⟩
  algorithm := ⟨.ofArcs [1, 2, 3], none⟩
  signature := .ofBytes []

/-- Small choices. -/
def config : Config := ⟨.md5, .aes128, 1, true⟩

/-- A transaction without an id. -/
def transaction : Transaction := (start ⟨certificate, key⟩ certificate).withConfig config

/-- A transaction of the sample identity with itself, without an id. -/
def asking : Transaction := (start .sample Identity.sample.certificate).withConfig config

/-- A random stream. -/
def random : Random := ⟨fun _ => 1, 0⟩

/-- The id drawn for a question that is not about a key. -/
def drawn : TransactionId := (TransactionId.draw.run random).1

/-- The question for revocation lists, to which no answer comes. -/
def question : Occasion Unit := ⟨.getRevocations, silent, ⟨0, 0⟩, ⟨random, .empty, ()⟩⟩

theorem ofKey_ne_drawn : TransactionId.ofKey request.body.keyInfo .md5 ≠ .ok drawn := by
  decide +kernel

theorem exists_sends : ∃ q document rest,
    (asking.withId drawn).Sends ⟨0, 0⟩ (.pkcsReq request) random q document rest := by
  have hok : ((asking.withId drawn).request ⟨0, 0⟩ (.pkcsReq request) random).1.isOk = true := by
    have hencode := Sealing.encode_of_undoes (s := (asking.withId drawn).sealing) Rsa.undoes_sampleKey
      Sealing.room_sample
    simp only [Transaction.request, draft, sealRequest, hencode]
    decide +kernel
  have h := (asking.withId drawn).request_requested ⟨0, 0⟩ (.pkcsReq request) random
  generalize (asking.withId drawn).request ⟨0, 0⟩ (.pkcsReq request) random = r at hok h
  cases h with
  | refused _ => cases hok
  | unsealed e rest _ _ => cases hok
  | sent q document rest _ hq => exact ⟨q, document, rest, hq⟩

end Sample

/-- Not every request for a certificate carries the id of its own key: after a question that got no
answer the request carries the id that was drawn for the question. -/
theorem enrollment_id_not_always_ofKey :
    ¬ ∀ (identity : Identity) (recipient : Certificate) (c : Config) (os : List (Occasion Unit))
      (now : Instant) (request : CertificationRequest) (random : Random) (q : Message)
      (document : Bytes) (rest : Random),
      let t := ((start identity recipient).withConfig c).run (os.map .call)
      t.permits (.pkcsReq request) = true → t.Sends now (.pkcsReq request) random q document rest →
      TransactionId.ofKey request.body.keyInfo c.digest = .ok q.attributes.transactionId := by
  intro h
  obtain ⟨q, document, rest, hq⟩ := Sample.exists_sends
  have hid : (Sample.question.after Sample.asking).id? = some Sample.drawn :=
    (Sample.question.after_of_firstId rfl rfl).1
  obtain ⟨nonce, ht⟩ : ∃ nonce, Sample.question.after Sample.asking =
      { Sample.asking.withId Sample.drawn with sentNonce? := nonce } := by
    have ht := Sample.question.after_unanswered Sample.asking fun _ _ => ⟨_, rfl⟩
    rw [hid] at ht
    exact ⟨_, ht⟩
  have hown := h Identity.sample Identity.sample.certificate Sample.config [Sample.question]
    ⟨0, 0⟩ Sample.request Sample.random q document rest
  rw [run_map_singleton, show (start .sample Identity.sample.certificate).withConfig Sample.config =
    Sample.asking from rfl, ht] at hown
  have hkey := hown rfl ((sends_sentNonce_iff nonce).mpr hq)
  have hdrawn := hq.id
  rw [chosenId?_of_some rfl, Option.some_inj] at hdrawn
  rw [← hdrawn] at hkey
  exact Sample.ofKey_ne_drawn hkey

end CertEnroll.Transaction
