import CertEnroll.Config
import CertEnroll.Message.Decoding
import CertEnroll.Message.Encoding
import CertEnroll.ReplayCache
import CertEnroll.TransactionId.Derive

/-!
# Transaction — one enrollment, from the requester's side

A transaction starts new.  Each exchange prepares a request, hands it to a transport and settles what
comes back; while the answer is awaited the transaction says so in its state.  An answer ends the
transaction as issued or failed, or leaves it pending with a task; an answer that cannot be trusted or
read aborts it.  A request that gets no answer puts the transaction back where it was, but for the id
and the nonce.

    new ── exchange ──▶ awaiting ──┬─ success ─▶ issued
     ▲                     │       ├─ failure ─▶ failed
     └── no answer ────────┤       └─ pending ─▶ pending ── exchange ──▶ …
                           └── bad answer ─────▶ aborted
-/

namespace CertEnroll

open Calendar (Instant)
open X509 (Certificate CertificationRequest Name RevocationList SerialNumber)

/-- A request that waits for a decision. -/
structure PollTask where
  transactionId : TransactionId
  issuer : Name
  subject : Name
  /-- The nonce of the last answer, which the next request returns. -/
  recipientNonce : Nonce
  deriving DecidableEq

/-- The operation that asks for the decision. -/
def PollTask.operation (t : PollTask) : Operation :=
  .getCertInitial ⟨t.issuer, t.subject⟩

/-- What a transaction has come to. -/
inductive Outcome
  | issued (store : CertStore)
  | pending (task : PollTask)
  | failed (reason : FailInfo)
  deriving DecidableEq

/-- A transaction of a requester with an authority. -/
structure Transaction where
  identity : Identity
  /-- The certificate for which requests are sealed. -/
  recipient : Certificate
  config : Config
  id? : Option TransactionId
  /-- The nonce of the last request that was handed to the transport. -/
  sentNonce? : Option Nonce
  state : State
  outcome? : Option Outcome
  deriving DecidableEq

namespace Transaction

/-- A new transaction. -/
def start (identity : Identity) (recipient : Certificate) : Transaction :=
  ⟨identity, recipient, .standard, none, none, .new, none⟩

/-- The transaction with other choices. -/
def withConfig (t : Transaction) (c : Config) : Transaction := { t with config := c }

/-- The transaction with a given id. -/
def withId (t : Transaction) (i : TransactionId) : Transaction := { t with id? := some i }

/-! ### What a transaction shows -/

/-- The error of asking for what the state does not have. -/
def illegalState {α : Type} (t : Transaction) : Result α := .error (.illegalState t.state)

/-- The certificates issued. -/
def certificates (t : Transaction) : Result (List Certificate) :=
  match t.outcome? with
  | some (.issued store) => .ok store.certificates
  | _ => t.illegalState

/-- The revocation lists received. -/
def revocations (t : Transaction) : Result (List RevocationList) :=
  match t.outcome? with
  | some (.issued store) => .ok store.revocations
  | _ => t.illegalState

/-- Why the request was rejected. -/
def failureReason (t : Transaction) : Result FailInfo :=
  match t.outcome? with
  | some (.failed reason) => .ok reason
  | _ => t.illegalState

/-- The task of a pending transaction. -/
def task (t : Transaction) : Result PollTask :=
  match t.outcome? with
  | some (.pending task) => .ok task
  | _ => t.illegalState

/-! ### Preparing a request -/

/-- Whether an operation may be performed: any in a new transaction, only the question for the decision
in a pending one. -/
def permits (t : Transaction) (op : Operation) : Bool :=
  match t.state, op with
  | .new, _ => true
  | .pending, .getCertInitial _ => true
  | _, _ => false

/-- The id under which an operation is requested: the one the transaction has, or the one of the
requested key, or a random one. -/
def chooseId (t : Transaction) (op : Operation) : Drawing TransactionId :=
  match t.id?, op with
  | some i, _ => pure i
  | none, .pkcsReq r => TransactionId.ofKey r.body.keyInfo t.config.digest
  | none, _ => TransactionId.draw

/-- The nonce of the last answer, in a transaction that holds a task. -/
def lastNonce? (t : Transaction) : Option Nonce :=
  match t.outcome? with
  | some (.pending task) => some task.recipientNonce
  | _ => none

/-- The message of a request under an id and a nonce. -/
def requestMessage (t : Transaction) (id : TransactionId) (nonce : Nonce) (op : Operation) :
    Result Message := do
  let m ← Message.request id nonce op
  return { m with attributes := { m.attributes with recipientNonce := t.lastNonce? } }

/-- How the requests of a transaction are sealed. -/
def sealing (t : Transaction) : Sealing :=
  ⟨t.identity, t.recipient, t.config.digest, t.config.cipher⟩

/-- The document of a request under an id and a nonce. -/
def sealRequest (t : Transaction) (now : Instant) (id : TransactionId) (nonce : Nonce) (op : Operation) :
    Drawing Bytes := do
  let m ← t.requestMessage id nonce op
  t.sealing.encode now m

/-- A request that is not handed over yet: its id and nonce, and its document or the reason why it has
none. -/
structure Draft where
  id : TransactionId
  nonce : Nonce
  document : Result Bytes

/-- Drafts the request for an operation, if there is an id for it. -/
def draft (t : Transaction) (now : Instant) (op : Operation) : Drawing Draft := do
  let id ← t.chooseId op
  let nonce ← (Nonce.draw t.config.nonceSize : StateM Random Nonce)
  let document ← (t.sealRequest now id nonce op).attempt
  return ⟨id, nonce, document⟩

/-- What is remembered of a request while its answer is awaited. -/
structure Awaited where
  id : TransactionId
  operation : Operation
  /-- The state before the request, to which the transaction returns if no answer comes. -/
  before : State

/-- Prepares the request for an operation, whose answer is awaited from then on.  An id that was chosen is
kept even if there is no document. -/
def request (t : Transaction) (now : Instant) (op : Operation) (random : Random) :
    Result (Awaited × Bytes) × Transaction × Random :=
  if t.permits op then
    match (t.draft now op).run.run random with
    | (.error e, random) => (.error e, t, random)
    | (.ok d, random) =>
      match d.document with
      | .error e => (.error e, t.withId d.id, random)
      | .ok b =>
        (.ok (⟨d.id, op, t.state⟩, b),
          { t.withId d.id with sentNonce? := some d.nonce, state := .awaitingResponse }, random)
  else (.error (.illegalState t.state), t, random)

/-! ### Judging an answer -/

/-- Whether the signer of an answer is the recipient or certified by it. -/
def acceptsSigner (t : Transaction) (signer : Certificate) : Bool :=
  signer = t.recipient || (signer.verifyIssuedBy t.recipient).isOk

/-- Whether a message returns the nonce of the last request. -/
def isEchoedBy (t : Transaction) (m : Message) : Bool :=
  match m.attributes.recipientNonce, t.sentNonce? with
  | some echoed, some sent => echoed = sent
  | _, _ => false

/-- The message of an answer, if it is signed by the right side, belongs to the transaction and returns
the nonce of the request. -/
def vet (t : Transaction) (w : Awaited) (answer : Bytes) : Result Message := do
  let (m, signer) ← (⟨t.identity.key, t.config.verifies⟩ : Unsealing).decode answer
  unless !t.config.verifies || t.acceptsSigner signer do
    throw .unexpectedSigner
  unless m.attributes.transactionId = w.id do
    throw (.transactionIdMismatch w.id m.attributes.transactionId)
  unless t.isEchoedBy m do
    throw .nonceMismatch
  return m

/-- The subject by which a delayed operation is found again. -/
def pollSubject (t : Transaction) : Operation → Name
  | .pkcsReq r => r.body.subject
  | .getCertInitial i => i.subject
  | _ => t.identity.certificate.body.subject

/-- The task of an operation that has to wait. -/
def pollTask (t : Transaction) (w : Awaited) (nonce : Nonce) : PollTask :=
  ⟨w.id, t.recipient.body.issuer, t.pollSubject w.operation, nonce⟩

/-- What a vetted answer brings the transaction to. -/
def conclude (t : Transaction) (w : Awaited) (m : Message) : Result (State × Outcome) := do
  unless m.attributes.messageType = .certRep do
    throw (.unexpectedMessageType m.attributes.messageType)
  match m.attributes.pkiStatus with
  | none => throw (.missingAttribute AttributeId.pkiStatus)
  | some .success => return (.issued, .issued (← m.store))
  | some .failure =>
    let reason ← Result.ofOption (.missingAttribute AttributeId.failInfo) m.attributes.failInfo
    return (.failed, .failed reason)
  | some .pending =>
    unless w.operation.isDelayable do
      throw (.unexpectedPending w.operation.messageType)
    return (.pending, .pending (t.pollTask w m.attributes.senderNonce))

/-- What an answer brings the transaction to.  The nonce of a vetted answer is recorded, whatever the
answer says further. -/
def judge (t : Transaction) (w : Awaited) (answer : Bytes) :
    ExceptT Error (StateM ReplayCache) (State × Outcome) := do
  let m ← t.vet w answer
  ReplayCache.accept m.attributes.senderNonce
  t.conclude w m

/-- Takes the answer to an awaited request, or the text that says why there is none. -/
def settle (t : Transaction) (w : Awaited) (answer : Except String Bytes) (cache : ReplayCache) :
    Result State × Transaction × ReplayCache :=
  match answer with
  | .error text => (.error (.transport text), { t with state := w.before }, cache)
  | .ok b =>
    let (verdict, cache) := (t.judge w b).run.run cache
    match verdict with
    | .ok (state, outcome) => (.ok state, { t with state := state, outcome? := some outcome }, cache)
    | .error e => (.error e, { t with state := .aborted, outcome? := none }, cache)

/-! ### Exchanges -/

/-- What surrounds a transaction: the random stream, the cache that it shares with others, and the other
side of the transport. -/
structure Surroundings (σ : Type) where
  random : Random
  cache : ReplayCache
  peer : σ

/-- Hands a request to the other side; it returns an answer or a text that says why there is none. -/
abbrev Transport (σ : Type) := Bytes → StateM (Random × σ) (Except String Bytes)

variable {σ : Type}

/-- An action of a transaction in its surroundings. -/
abbrev Action (σ : Type) (α : Type) := ExceptT Error (StateM (Transaction × Surroundings σ)) α

/-- The transaction as it is. -/
def Action.self : Action σ Transaction := fun (t, s) => (.ok t, t, s)

open Transaction.Action

/-- Performs an operation. -/
def perform (send : Transport σ) (now : Instant) (op : Operation) : Action σ State := fun (t, s) =>
  match t.request now op s.random with
  | (.error e, t, random) => (.error e, t, { s with random := random })
  | (.ok (w, document), t, random) =>
    let (answer, random, peer) := (send document).run (random, s.peer)
    let (result, t, cache) := t.settle w answer s.cache
    (result, t, ⟨random, cache, peer⟩)

/-! ### Convenient operations -/

/-- Requests a certificate. -/
def enroll (send : Transport σ) (now : Instant) (request : CertificationRequest) : Action σ State := do
  let t ← self
  unless t.state = .new do
    throw (.illegalState t.state)
  perform send now (.pkcsReq request)

/-- Asks for the decision on a pending request. -/
def poll (send : Transport σ) (now : Instant) : Action σ State := do
  let task ← (← self).task
  perform send now task.operation

/-- What an ended transaction shows, or the reason of its failure. -/
def collect {α : Type} (show? : Transaction → Result α) : State → Action σ α
  | .issued => do show? (← self)
  | _ => do throw (.operationFailed (← (← self).failureReason))

/-- Fetches a certificate of the recipient's issuer. -/
def getCertificate (send : Transport σ) (now : Instant) (serial : SerialNumber) :
    Action σ (List Certificate) := do
  let t ← self
  let state ← perform send now (.getCert ⟨t.recipient.body.issuer, serial⟩)
  collect certificates state

/-- Fetches the revocation list for the recipient's certificate. -/
def getRevocations (send : Transport σ) (now : Instant) : Action σ (List RevocationList) := do
  let t ← self
  let state ← perform send now (.getCrl t.recipient.id)
  collect revocations state

end Transaction

end CertEnroll
