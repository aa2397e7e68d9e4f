import CertEnroll.Proofs.Issuance
import CertEnroll.Proofs.Payloads
import CertEnroll.Proofs.StoreRoundTrip
import CertEnroll.Responder

/-!
# Proofs.HonestExchange — an exchange with an honest authority

The authority finds in a request what was asked for, by whom and under which id and nonce.  Its answer,
or that of someone it certifies, is trusted by the transaction, which ends as the answer says.
-/

namespace CertEnroll

open Calendar (Instant)
open Cms (CertificateChoice RevocationChoice)
open Der (Readable)
open X509 (Certificate IssuerAndSerial)

/-! ### Identities -/

/-- An identity in order whose key is one of two different primes, and whose certificate is named
readably. -/
structure Identity.Regular (i : Identity) : Prop extends i.Sound where
  prime1 : i.key.prime1.Prime
  prime2 : i.key.prime2.Prime
  different : i.key.prime1 ≠ i.key.prime2
  named : Readable i.certificate.id

theorem Identity.Regular.heldBy {i : Identity} (h : i.Regular) : i.certificate.HeldBy i.key where
  paired := h.paired
  undoes := Rsa.PrivateKey.undoes_of_prime (Rsa.PrivateKey.checked_of_check h.checked) h.prime1 h.prime2
    h.different
  readable := h.named

theorem Identity.regular_sample : sample.Regular where
  toSound := sound_sample
  prime1 := Rsa.prime_sampleKey_prime1
  prime2 := Rsa.prime_sampleKey_prime2
  different := by decide
  named := heldBy_sample.readable

/-- Who answers for an authority: itself, or someone to whom it issued a certificate. -/
def Identity.AnswersFor (i ca : Identity) : Prop :=
  i = ca ∨ ∃ request serial seconds now, ca.issue request serial seconds now = .ok i.certificate

theorem Identity.AnswersFor.accepted {i ca : Identity} (h : i.AnswersFor ca) (hca : ca.Sound) :
    i.certificate = ca.certificate ∨ i.certificate.IssuedBy ca.certificate := by
  rcases h with rfl | ⟨request, serial, seconds, now, h⟩
  · exact .inl rfl
  · exact .inr (Identity.issuedBy_of_issue hca.checked hca.paired h)

/-! ### Requests -/

section Requests

variable {t : Transaction} {ca : Identity} {now : Instant} {op : Operation} {random rest : Random}
  {q : Message} {document : Bytes}

/-- The recipient of a request finds in it what was sent. -/
theorem Transaction.Sends.decodeRequest (h : t.Sends now op random q document rest)
    (ht : t.identity.Sound) (hca : ca.certificate.HeldBy ca.key) (hrecipient : t.recipient = ca.certificate)
    (hop : op.Legible) :
    (Responder.standard ca).decodeRequest document = .ok ⟨q, op, t.identity.certificate⟩ := by
  obtain ⟨r₁, r₂, -, -, hq, hdocument⟩ := h
  have hattributes := requestMessage_attributes hq
  obtain ⟨b, hb, hdata⟩ := requestMessage_data hq
  have hstatus : q.attributes.pkiStatus = none := by rw [hattributes]; rfl
  have htype : q.attributes.messageType = op.messageType := by rw [hattributes]; rfl
  have hreceived : q.received = .ok q := by
    simp only [Message.received, hstatus, hdata, Option.isSome_some, if_true]
  obtain ⟨signed, hread, hgenuine, hopened, hsigner⟩ := Sealing.opens_of_encode (k := ca.key) ht hdocument
    (fun _ => show t.recipient.HeldBy ca.key from hrecipient ▸ hca) (by simp [hstatus])
  have hdecode : (Unsealing.standard ca.key).decode document = .ok (q, t.identity.certificate) :=
    Unsealing.decode_eq_ok.mpr ⟨signed, hread, fun _ => hgenuine, hopened.trans hreceived, hsigner⟩
  have hoperation : q.operation = .ok op := by
    rw [Message.operation, hdata, htype]
    exact Operation.read_of_write hop hb
  simp only [Responder.decodeRequest, Result.bind_eq_ok, Result.unless_eq_ok, Result.pure_eq_ok]
  exact ⟨_, hdecode, by simp [MessageAttributes.isRequest, hstatus], op, hoperation, rfl⟩

end Requests

/-! ### Answers -/

/-- What is granted can be read back. -/
def Answer.Legible : Answer → Prop
  | success store => store.Legible
  | pending | failure _ => True

namespace Responder

variable {r : Responder} {now : Instant} {request : Request} {nonce : Nonce} {a : Answer} {m : Message}
  {b : Bytes} {random rest : Random}

/-- The nonce that an answer gets from a stream. -/
def nonceFrom (random : Random) : Nonce := ((Nonce.draw Nonce.standardSize).run random).1

/-- The serial number that is asked for in a request has octets. -/
theorem serial_of_decodeRequest {id : IssuerAndSerial} (h : r.decodeRequest b = .ok request)
    (hop : request.operation = .getCert id) : id.serial.content ≠ [] := by
  obtain ⟨⟨m, signer⟩, -, h⟩ := Result.bind_eq_ok.mp h
  obtain ⟨-, h⟩ := Result.unless_eq_ok.mp h
  obtain ⟨op, hread, h⟩ := Result.bind_eq_ok.mp h
  cases h
  obtain ⟨data, -, hread⟩ := Result.bind_eq_ok.mp hread
  obtain rfl : op = .getCert id := hop
  exact Operation.serial_of_read hread

theorem answer_eq_ok (h : (r.answer now request a).run.run random = (.ok b, rest)) :
    ∃ m r₁, message request (nonceFrom random) a = .ok m ∧
      ((⟨r.identity, request.signer, r.digest, r.cipher⟩ : Sealing).encode now m).run.run r₁ =
        (.ok b, rest) := by
  obtain ⟨nonce, r₁, hnonce, h⟩ := Drawing.bind_eq_ok.mp h
  obtain ⟨m, r₂, hm, h⟩ := Drawing.bind_eq_ok.mp h
  obtain ⟨hmessage, rfl⟩ := Drawing.lift_eq_ok.mp hm
  have hsame : nonceFrom random = nonce := congrArg Prod.fst (Drawing.draw_eq_ok.mp hnonce)
  exact ⟨m, r₁, hsame ▸ hmessage, h⟩

/-- An answer is for the request, and nothing of it is lost on the way. -/
theorem message_eq_ok (h : message request nonce a = .ok m) :
    m.attributes.transactionId = request.message.attributes.transactionId ∧
    m.attributes.recipientNonce = some request.message.attributes.senderNonce ∧
    m.attributes.senderNonce = nonce ∧ m.attributes.messageType = .certRep ∧ m.received = .ok m := by
  cases a with
  | success store =>
    obtain ⟨b, -, h⟩ := Result.bind_eq_ok.mp h
    cases h
    exact ⟨rfl, rfl, rfl, rfl, rfl⟩
  | pending =>
    cases h
    exact ⟨rfl, rfl, rfl, rfl, rfl⟩
  | failure reason =>
    cases h
    exact ⟨rfl, rfl, rfl, rfl, rfl⟩

/-- An answer of a sound authority is read, is genuine, and is opened with the key of the requester. -/
theorem opens_of_answer {k : Rsa.PrivateKey} (hr : r.identity.Sound) (hk : request.signer.HeldBy k)
    (h : (r.answer now request a).run.run random = (.ok b, rest)) :
    ∃ m signed, message request (nonceFrom random) a = .ok m ∧ SignedMessage.read b = .ok signed ∧
      signed.Genuine ∧ signed.openWith k = .ok m ∧ signed.signer = r.identity.certificate := by
  obtain ⟨m, r₁, hm, h⟩ := answer_eq_ok h
  obtain ⟨-, -, -, -, hreceived⟩ := message_eq_ok hm
  have hreason : ¬ (m.attributes.pkiStatus = some .failure ∧ m.attributes.failInfo = none) := by
    rintro ⟨hstatus, hnone⟩
    simp [Message.received, hstatus, hnone] at hreceived
  obtain ⟨signed, hread, hgenuine, hopened, hsigner⟩ :=
    Sealing.opens_of_encode (k := k) hr h (fun _ => hk) hreason
  exact ⟨m, signed, hm, hread, hgenuine, hopened.trans hreceived, hsigner⟩

end Responder

namespace Transaction

variable {t : Transaction} {ca : Identity} {r : Responder} {a : Answer} {m : Message}

/-- How an exchange for `op` ends, and what it leaves of the transaction, if the authority's answer has the
given nonce. -/
def EndsWith (op : Operation) (nonce : Nonce) (result : Result State) (t : Transaction) : Answer → Prop
  | .success store => result = .ok .issued ∧ t.state = .issued ∧ ∃ cs ls,
      t.certificates = .ok cs ∧ t.revocations = .ok ls ∧
        SetOrdered CertificateChoice.certificate store.certificates cs ∧
        SetOrdered RevocationChoice.list store.revocations ls
  | .failure reason => result = .ok .failed ∧ t.state = .failed ∧ t.failureReason = .ok reason
  | .pending =>
    match op with
    | .pkcsReq _ | .getCertInitial _ => result = .ok .pending ∧ t.state = .pending ∧
        ∃ task, t.task = .ok task ∧ task.recipientNonce = nonce
    | .getCert _ | .getCrl _ =>
        result = .error (.unexpectedPending op.messageType) ∧ t.state = .aborted

/-- The answer of an honest authority to a request is trusted. -/
theorem trusts_of_answer {now' : Instant} {op : Operation} {q : Message} {random' rest' : Random} {b : Bytes}
    (ht : t.identity.certificate.HeldBy t.identity.key) (hr : r.identity.Sound)
    (hsigner : r.identity.certificate = t.recipient ∨ r.identity.certificate.IssuedBy t.recipient)
    (h : (r.answer now' ⟨q, op, t.identity.certificate⟩ a).run.run random' = (.ok b, rest')) :
    ∃ m signed, Responder.message ⟨q, op, t.identity.certificate⟩ (Responder.nonceFrom random') a = .ok m ∧
      t.Trusts q.attributes.transactionId q.attributes.senderNonce b signed m := by
  obtain ⟨m, signed, hm, hread, hgenuine, hopened, hcertificate⟩ := Responder.opens_of_answer hr ht h
  obtain ⟨hid, hecho, -, -, -⟩ := Responder.message_eq_ok hm
  refine ⟨m, signed, hm, hread, hopened, fun _ => ⟨hgenuine, ?_⟩, hid, hecho⟩
  rw [hcertificate]
  exact hsigner

/-- What comes back from the other side of a transport, in surroundings `s`, is a trusted and new answer
`m` to the request `q` for `op`. -/
structure AnsweredWith {σ : Type} (send : Transport σ) (now : Instant) (op : Operation) (t : Transaction)
    (s : Surroundings σ) (q m : Message) : Prop where
  permitted : t.permits op = true
  exchanged : ∃ document rest answer after signed, t.Sends now op s.random q document rest ∧
    (send document).run (rest, s.peer) = (.ok answer, after) ∧
    t.Trusts q.attributes.transactionId q.attributes.senderNonce answer signed m
  new : m.attributes.senderNonce ∉ s.cache.nonces
  type : m.attributes.messageType = .certRep

section Ends

variable {σ : Type} {send : Transport σ} {now : Instant} {op : Operation} {s : Surroundings σ} {q : Message}

theorem AnsweredWith.concluded {state : State} {outcome : Outcome} (h : t.AnsweredWith send now op s q m)
    (hbrings : t.Brings q.attributes.transactionId op m state outcome) :
    (perform send now op (t, s)).1 = .ok state ∧ (perform send now op (t, s)).2.1.state = state ∧
      (perform send now op (t, s)).2.1.Shows outcome := by
  obtain ⟨document, rest, answer, after, signed, hq, ha, htrusts⟩ := h.exchanged
  obtain ⟨q', s', hr⟩ := perform_of_accepts ⟨(t.permits_iff op).mp h.permitted, q, document, rest, answer,
    after, signed, m, hq, ha, htrusts, h.new, h.type, hbrings⟩
  rw [hr]
  exact ⟨rfl, rfl, shows_of_outcome rfl⟩

/-- An answer that asks to wait where nothing can wait aborts the transaction. -/
theorem AnsweredWith.unexpected (h : t.AnsweredWith send now op s q m)
    (hstatus : m.attributes.pkiStatus = some .pending) (hop : op.isDelayable = false) :
    (perform send now op (t, s)).1 = .error (.unexpectedPending op.messageType) ∧
      (perform send now op (t, s)).2.1.state = .aborted := by
  obtain ⟨document, rest, answer, after, signed, hq, ha, htrusts⟩ := h.exchanged
  have hv : (t.sent q).vet (t.awaits op q) answer = .ok m :=
    vet_eq_ok.mpr ⟨_, signed, rfl, trusts_sent.mpr htrusts⟩
  have hc : (t.sent q).conclude (t.awaits op q) m = .error (.unexpectedPending op.messageType) := by
    simp only [conclude, h.type, hstatus, awaits, hop]
    rfl
  have hr : (perform send now op (t, s)).1 = .error (.unexpectedPending op.messageType) ∧
      (perform send now op (t, s)).2.1 = (t.sent q).aborted := by
    simp [perform, request_of_sends h.permitted hq, ha, settle, judge_run, hv, h.new, hc, aborted]
  exact ⟨hr.1, congrArg Transaction.state hr.2⟩

theorem AnsweredWith.delayed (h : t.AnsweredWith send now op s q m)
    (hstatus : m.attributes.pkiStatus = some .pending) (hop : op.isDelayable = true) :
    (perform send now op (t, s)).1 = .ok .pending ∧ (perform send now op (t, s)).2.1.state = .pending ∧
      ∃ task, (perform send now op (t, s)).2.1.task = .ok task ∧
        task.recipientNonce = m.attributes.senderNonce := by
  obtain ⟨hresult, hstate, hshown⟩ := h.concluded (.pending hstatus hop)
  exact ⟨hresult, hstate, _, hshown, rfl⟩

theorem AnsweredWith.endsWith {nonce : Nonce} {signer : Certificate} (h : t.AnsweredWith send now op s q m)
    (hm : Responder.message ⟨q, op, signer⟩ nonce a = .ok m) (ha : a.Legible) :
    EndsWith op nonce (perform send now op (t, s)).1 (perform send now op (t, s)).2.1 a := by
  cases a with
  | success store =>
    obtain ⟨b, hb, hm⟩ := Result.bind_eq_ok.mp hm
    cases hm
    obtain ⟨store', hread, harranged⟩ := CertStore.read_of_write ha hb
    obtain ⟨hresult, hstate, hcertificates, hrevocations⟩ := h.concluded (.success b store' rfl rfl hread)
    exact ⟨hresult, hstate, _, _, hcertificates, hrevocations, harranged.certificates,
      harranged.revocations⟩
  | failure reason =>
    cases hm
    exact h.concluded (.failure reason rfl rfl)
  | pending =>
    cases hm
    cases op with
    | pkcsReq r => exact h.delayed rfl rfl
    | getCertInitial i => exact h.delayed rfl rfl
    | getCert i => exact h.unexpected rfl rfl
    | getCrl i => exact h.unexpected rfl rfl

end Ends

/-! ### The exchange -/

theorem sends_of_request {now : Instant} {op : Operation} {random rest : Random} {w : Awaited}
    {document : Bytes} {t' : Transaction} (h : t.request now op random = (.ok (w, document), t', rest)) :
    t.permits op = true ∧ ∃ q, t.Sends now op random q document rest ∧ t' = t.sent q := by
  have hr := t.request_requested now op random
  rw [h] at hr
  cases hr with
  | sent q _ _ hp hq => exact ⟨hp, q, hq, rfl⟩

/-- If a transaction with an honest authority prepares a request, the authority finds in it the operation,
the id and the nonce of the transaction and the requester's certificate.  Whatever it or someone to whom
it issued a certificate answers then, under a new nonce, the transaction ends as the answer says. -/
theorem honest_exchange {σ : Type} (send : Transport σ) (now : Instant) (op : Operation)
    (t t' : Transaction) (s : Surroundings σ) (ca : Identity) (w : Awaited) (document : Bytes)
    (rest : Random) (ht : t.identity.Regular) (hca : ca.Regular) (hrecipient : t.recipient = ca.certificate)
    (hop : op.Legible) (hrequest : t.request now op s.random = (.ok (w, document), t', rest)) :
    ∃ request, (Responder.standard ca).decodeRequest document = .ok request ∧
      request.operation = op ∧ request.signer = t.identity.certificate ∧
      t'.id? = some request.message.attributes.transactionId ∧
      t'.sentNonce? = some request.message.attributes.senderNonce ∧
      ∀ (r : Responder) (a : Answer) (now' : Instant) (random' rest' : Random) (answer : Bytes)
        (after : Random × σ), r.identity.Sound → r.identity.AnswersFor ca → a.Legible →
        (r.answer now' request a).run.run random' = (.ok answer, rest') →
        (send document).run (rest, s.peer) = (.ok answer, after) →
        Responder.nonceFrom random' ∉ s.cache.nonces →
        EndsWith op (Responder.nonceFrom random') (perform send now op (t, s)).1
          (perform send now op (t, s)).2.1 a := by
  obtain ⟨hp, q, hq, rfl⟩ := sends_of_request hrequest
  refine ⟨_, hq.decodeRequest ht.toSound hca.heldBy hrecipient hop, rfl, rfl, rfl, rfl, ?_⟩
  intro r a now' random' rest' answer after hr hfor ha hanswer hsend hnew
  obtain ⟨m, signed, hm, htrusts⟩ :=
    trusts_of_answer ht.heldBy hr (hrecipient ▸ hfor.accepted hca.toSound) hanswer
  obtain ⟨-, -, hnonce, htype, -⟩ := Responder.message_eq_ok hm
  have hanswered : t.AnsweredWith send now op s q m :=
    ⟨hp, ⟨document, rest, answer, after, signed, hq, hsend, htrusts⟩, hnonce ▸ hnew, htype⟩
  exact hanswered.endsWith hm ha

/-! ### Samples -/

open Sealing (ones sample sampleQuestion)

/-- A transaction of the sample identity with itself. -/
def selfTransaction : Transaction :=
  ((start .sample Identity.sample.certificate).withConfig ⟨.md5, .aes128, 1, true⟩).withId Sealing.sampleId

/-- The question for the revocation list for the sample certificate. -/
def selfQuestion : Operation := .getCrl Identity.sample.certificate.id

/-- A responder with algorithms that fit the sample key. -/
def selfResponder : Responder := ⟨.sample, .md5, .aes128⟩

/-- The surroundings before the exchange. -/
def quiet : Surroundings Unit := ⟨ones 0, .empty, ()⟩

theorem selfTransaction_sends {document : Bytes} {rest : Random}
    (h : (sample.encode ⟨0, 0⟩ sampleQuestion).run.run (ones 1) = (.ok document, rest)) :
    selfTransaction.Sends ⟨0, 0⟩ selfQuestion quiet.random sampleQuestion document rest := by
  have hmessage : selfTransaction.requestMessage sampleQuestion.attributes.transactionId
      sampleQuestion.attributes.senderNonce selfQuestion = .ok sampleQuestion := by decide +kernel
  exact ⟨ones 0, ones 1, rfl, rfl, hmessage, h⟩

/-- The answer that grants two certificates, which stand in the wrong order. -/
def selfGrant : Answer := .success .samplePair

theorem exists_answer_selfGrant : ∃ answer rest,
    (selfResponder.answer ⟨0, 0⟩ ⟨sampleQuestion, selfQuestion, selfTransaction.identity.certificate⟩
      selfGrant).run.run (ones 0) = (.ok answer, rest) := by
  have hencode := Sealing.encode_of_undoes (s := sample) Rsa.undoes_sampleKey Sealing.room_sample
  have hsealing : (⟨selfResponder.identity, selfTransaction.identity.certificate, selfResponder.digest,
    selfResponder.cipher⟩ : Sealing) = sample := rfl
  simp only [Responder.answer, hsealing, hencode]
  exact Drawing.exists_of_isOk (by decide +kernel)

theorem honest_exchange_with_self : ∃ answer : Bytes,
    EndsWith selfQuestion (Responder.nonceFrom (ones 0))
      (perform (fun _ => pure (.ok answer)) ⟨0, 0⟩ selfQuestion (selfTransaction, quiet)).1
      (perform (fun _ => pure (.ok answer)) ⟨0, 0⟩ selfQuestion (selfTransaction, quiet)).2.1 selfGrant := by
  obtain ⟨document, rest, hquestion⟩ := Sealing.exists_encode_sampleQuestion
  obtain ⟨answer, rest', hgrant⟩ := exists_answer_selfGrant
  have hsends := selfTransaction_sends hquestion
  have hlegible : selfQuestion.Legible := Identity.regular_sample.named
  obtain ⟨request, hdecode, -, -, -, -, hends⟩ := honest_exchange (fun _ => pure (.ok answer)) ⟨0, 0⟩
    selfQuestion selfTransaction _ quiet .sample _ document rest Identity.regular_sample
    Identity.regular_sample rfl hlegible (request_of_sends rfl hsends)
  rw [hsends.decodeRequest Identity.sound_sample Identity.heldBy_sample rfl hlegible] at hdecode
  obtain rfl := Except.ok.inj hdecode
  exact ⟨answer, hends selfResponder selfGrant ⟨0, 0⟩ (ones 0) rest' answer (rest, ())
    Identity.sound_sample (.inl rfl) CertStore.legible_samplePair hgrant rfl (by decide)⟩

theorem isOk_request_of_nameless :
    (selfTransaction.request ⟨0, 0⟩ (.getCert ⟨⟨[]⟩, ⟨[]⟩⟩) (ones 0)).1.isOk = true := by
  have hencode := Sealing.encode_of_undoes (s := selfTransaction.sealing) Rsa.undoes_sampleKey Sealing.room_sample
  simp only [request, draft, sealRequest, hencode]
  decide +kernel

/-- Not all that is sent can be found: the authority reads no serial number without octets, but one is
written. -/
theorem not_every_request_found :
    ¬ ∀ (t t' : Transaction) (ca : Identity) (now : Instant) (op : Operation) (random rest : Random)
      (w : Awaited) (document : Bytes), t.identity.Regular → ca.Regular → t.recipient = ca.certificate →
      t.request now op random = (.ok (w, document), t', rest) →
      ∃ request, (Responder.standard ca).decodeRequest document = .ok request ∧ request.operation = op := by
  intro h
  have hok := isOk_request_of_nameless
  generalize hrun : selfTransaction.request ⟨0, 0⟩ (.getCert ⟨⟨[]⟩, ⟨[]⟩⟩) (ones 0) = r at hok
  obtain ⟨result, t', rest⟩ := r
  obtain ⟨⟨w, document⟩, rfl⟩ := Result.isOk_iff.mp hok
  obtain ⟨request, hdecode, hoperation⟩ := h selfTransaction t' .sample ⟨0, 0⟩ _ (ones 0) rest w document
    Identity.regular_sample Identity.regular_sample rfl hrun
  exact Responder.serial_of_decodeRequest hdecode hoperation rfl

end Transaction

end CertEnroll
