import CertEnroll.Responder
import CertEnroll.Transaction

/-!
# Authority — an authority that answers by a script

The authority stands at the other end of a transport.  For each request a script says what comes back:
nothing, given octets, octets seen before, or an answer that the authority makes.  It remembers the
certification request of each transaction and the octets it returned last.  The parts of a script are
read only when they are needed, and one that cannot be read means that no answer comes back.
-/

namespace CertEnroll

open Calendar (Instant)
open Transaction (Transport)
open X509 (Certificate CertificationRequest SerialNumber)

namespace Authority

/-- What the authority remembers of a transaction. -/
structure Memory where
  request : Option CertificationRequest
  returned : Option Bytes

/-- An authority that has not been asked anything. -/
def Memory.blank : Memory := ⟨none, none⟩

/-- A message that departs from what an honest answer says.  A missing part is as in an honest answer
that asks to wait. -/
structure Deviation where
  encryptTo : Option Bytes
  senderNonce : Option Bytes
  transactionId : Option String
  recipientNonce : Option (Option Bytes)
  messageType : Option Nat
  pkiStatus : Option (Option String)
  failInfo : Option Nat
  data : Option Bytes

/-- What an answer says. -/
inductive Content
  /-- A certificate for the request that is remembered. -/
  | issue (seconds : Nat) (serial : Bytes)
  /-- The documents of certificates and of revocation lists. -/
  | success (certificates revocations : List Bytes)
  | pending
  | failure (reason : Nat)
  | deviation (d : Deviation)

/-- Who signs an answer, and with which algorithms; a missing part is as usual. -/
structure Signing where
  signer : Option (Bytes × Rsa.PrivateKey)
  digest : Option String
  cipher : Option String

/-- What comes back for a request. -/
inductive Reply
  | silence
  | refusal (text : String)
  | octets (b : Bytes)
  | echo
  | previous
  | made (signing : Signing) (content : Content)

/-- A reply, and what happens to its octets on the way: bytes combined with octets at offsets, which
count from the end if they are negative. -/
structure Script where
  reply : Reply
  changes : List (Int × UInt8)

/-! ### Making answers -/

/-- What the authority does: it draws random bytes, remembers, and may fail with a text. -/
abbrev Acting (α : Type) := ExceptT String (StateM (Random × Memory)) α

/-- The text of an error takes the place of the error. -/
def Acting.ofResult {α : Type} (r : Result α) : Acting α :=
  match r with
  | .ok a => pure a
  | .error e => throw e.text

/-- Runs what draws from the random stream. -/
def Acting.ofDrawing {α : Type} (d : Drawing α) : Acting α := fun (random, memory) =>
  let (r, random) := d.run random
  (r.mapError Error.text, random, memory)

open Acting

/-- The algorithms and the identity of a signing. -/
def Signing.responder (s : Signing) (ca : Identity) : Result Responder := do
  let identity ← match s.signer with
    | none => pure ca
    | some (document, key) => Identity.read document key
  let digest ← match s.digest with
    | none => pure Digest.standard
    | some name => Digest.parse name
  let cipher ← match s.cipher with
    | none => pure Cipher.standard
    | some name => Cipher.parse name
  return ⟨identity, digest, cipher⟩

/-- The attributes of a deviating message. -/
def Deviation.attributes (d : Deviation) (request : Request) (nonce : Nonce) : Result MessageAttributes := do
  let asked := request.message.attributes
  let id ← match d.transactionId with
    | none => pure asked.transactionId
    | some text => Result.ofOption .invalidTransactionId (TransactionId.ofText? text)
  let recipient := match d.recipientNonce with
    | none => some asked.senderNonce
    | some b => b.map Nonce.mk
  let type ← match d.messageType with
    | none => pure MessageType.certRep
    | some n => MessageType.ofCode n
  let status ← match d.pkiStatus with
    | none => pure (some PkiStatus.pending)
    | some none => pure none
    | some (some text) => (PkiStatus.parse text).map some
  let reason ← match d.failInfo with
    | none => pure none
    | some n => (FailInfo.ofCode n).map some
  return ⟨id, type, nonce, recipient, status, reason⟩

/-- The document of a deviating message. -/
def Deviation.encode (d : Deviation) (r : Responder) (now : Instant) (request : Request) : Drawing Bytes := do
  let recipient ← match d.encryptTo with
    | none => pure request.signer
    | some b => (Der.read b : Result Certificate)
  let nonce ← match d.senderNonce with
    | none => (Nonce.draw Nonce.standardSize : StateM Random Nonce)
    | some b => pure ⟨b⟩
  let attributes ← d.attributes request nonce
  (⟨r.identity, recipient, r.digest, r.cipher⟩ : Sealing).encode now ⟨attributes, d.data⟩

/-- The store with a certificate for the remembered request. -/
def issued (ca : Identity) (now : Instant) (seconds : Nat) (serial : Bytes) : Acting CertStore := do
  let (_, memory) ← get
  match memory.request with
  | none => throw "nothing enrolled"
  | some request =>
    let serial ← ofResult (Result.ofDecoded (SerialNumber.ofUnsigned? serial))
    let certificate ← ofResult (ca.issue request serial seconds now)
    return ⟨[certificate], []⟩

/-- The document of an answer. -/
def Content.encode (ca : Identity) (r : Responder) (now : Instant) (request : Request) :
    Content → Acting Bytes
  | .issue seconds serial => do
    let store ← issued ca now seconds serial
    ofDrawing (r.answer now request (.success store))
  | .success certificates revocations => do
    let store ← ofResult (CertStore.ofDocuments certificates revocations)
    ofDrawing (r.answer now request (.success store))
  | .pending => ofDrawing (r.answer now request .pending)
  | .failure n => do
    let reason ← ofResult (FailInfo.ofCode n)
    ofDrawing (r.answer now request (.failure reason))
  | .deviation d => ofDrawing (d.encode r now request)

/-- Remembers what a request asks for, if it asks for a certificate. -/
def remember (op : Operation) : Acting Unit :=
  match op with
  | .pkcsReq r => modify fun (random, memory) => (random, { memory with request := some r })
  | _ => pure ()

/-- The octets of a reply. -/
def Reply.octetsFor (ca : Identity) (now : Instant) (request : Bytes) : Reply → Acting Bytes
  | .silence => throw "no answer"
  | .refusal text => throw text
  | .octets b => pure b
  | .echo => pure request
  | .previous => do
    match (← get).2.returned with
    | none => throw "no previous response"
    | some b => pure b
  | .made signing content => do
    let asked ← ofResult ((Responder.standard ca).decodeRequest request)
    remember asked.operation
    let r ← ofResult (signing.responder ca)
    content.encode ca r now asked

/-! ### The way back -/

/-- Octets with a byte combined with one of them; an offset beyond the ends changes nothing. -/
def change (b : Bytes) (c : Int × UInt8) : Bytes :=
  let i := if c.1 < 0 then c.1 + b.length else c.1
  if i < 0 then b else b.modify i.toNat (· ^^^ c.2)

/-- The transport to an authority that answers by a script. -/
def transport (ca : Identity) (now : Instant) (script : Script) : Transport Memory := fun request => do
  match ← (script.reply.octetsFor ca now request).run with
  | .error text => return .error text
  | .ok b =>
    let b := script.changes.foldl change b
    modify fun (random, memory) => (random, { memory with returned := some b })
    return .ok b

/-! ### Watching a transport -/

/-- What passed through a transport. -/
structure Passage where
  sent : Option Bytes
  returned : Option Bytes

/-- Nothing has passed. -/
def Passage.nothing : Passage := ⟨none, none⟩

/-- A transport that notes what passes through it. -/
def watch {σ : Type} (send : Transport σ) : Transport (σ × Passage) := fun request (random, peer, _) =>
  let (answer, random, peer) := (send request).run (random, peer)
  (answer, random, peer, ⟨some request, answer.toOption⟩)

end Authority

end CertEnroll
