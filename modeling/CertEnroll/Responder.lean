import CertEnroll.Message.Decoding
import CertEnroll.Message.Encoding

/-!
# Responder — the side that reads requests and answers them
-/

namespace CertEnroll

open Calendar (Instant)
open X509 (Certificate)

/-- A request that was read. -/
structure Request where
  message : Message
  operation : Operation
  signer : Certificate
  deriving DecidableEq

/-- An answer to a request. -/
inductive Answer
  | success (store : CertStore)
  | pending
  | failure (reason : FailInfo)
  deriving DecidableEq

/-- Who answers requests, and with which algorithms. -/
structure Responder where
  identity : Identity
  digest : Digest
  cipher : Cipher

namespace Responder

/-- A responder with the usual algorithms. -/
def standard (identity : Identity) : Responder := ⟨identity, .standard, .standard⟩

/-- The request of a document. -/
def decodeRequest (r : Responder) (b : Bytes) : Result Request := do
  let (m, signer) ← (Unsealing.standard r.identity.key).decode b
  unless m.attributes.isRequest do
    throw (.unexpectedMessageType m.attributes.messageType)
  let op ← m.operation
  return ⟨m, op, signer⟩

/-- The message of an answer with a given nonce. -/
def message (request : Request) (nonce : Nonce) : Answer → Result Message
  | .success store =>
    Message.success request.message.attributes.transactionId nonce
      request.message.attributes.senderNonce store
  | .pending =>
    .ok (Message.pending request.message.attributes.transactionId nonce
      request.message.attributes.senderNonce)
  | .failure reason =>
    .ok (Message.failure request.message.attributes.transactionId nonce
      request.message.attributes.senderNonce reason)

/-- The document of an answer, for the signer of the request. -/
def answer (r : Responder) (now : Instant) (request : Request) (a : Answer) : Drawing Bytes := do
  let nonce ← (Nonce.draw Nonce.standardSize : StateM Random Nonce)
  let m ← message request nonce a
  (⟨r.identity, request.signer, r.digest, r.cipher⟩ : Sealing).encode now m

end Responder

end CertEnroll
