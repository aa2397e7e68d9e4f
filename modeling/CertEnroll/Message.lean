import CertEnroll.CertStore
import CertEnroll.MessageAttributes
import CertEnroll.Operation

/-!
# Message — what requester and authority say to each other
-/

namespace CertEnroll

/-- A message: its attributes and the content of its envelope. -/
structure Message where
  attributes : MessageAttributes
  data : Option Bytes
  deriving DecidableEq

namespace Message

/-- A request for an operation. -/
def request (id : TransactionId) (nonce : Nonce) (op : Operation) : Result Message := do
  return ⟨.request id op.messageType nonce, some (← op.write)⟩

/-- An answer that grants a request. -/
def success (id : TransactionId) (sender recipient : Nonce) (store : CertStore) : Result Message := do
  return ⟨.answer id sender recipient .success none, some (← store.write)⟩

/-- An answer that asks to wait. -/
def pending (id : TransactionId) (sender recipient : Nonce) : Message :=
  ⟨.answer id sender recipient .pending none, none⟩

/-- An answer that rejects a request. -/
def failure (id : TransactionId) (sender recipient : Nonce) (reason : FailInfo) : Message :=
  ⟨.answer id sender recipient .failure (some reason), none⟩

/-- The operation that a request asks for. -/
def operation (m : Message) : Result Operation := do
  let b ← Result.ofOption .missingEnvelope m.data
  Operation.read m.attributes.messageType b

/-- The store that an answer carries. -/
def store (m : Message) : Result CertStore := do
  let b ← Result.ofOption .missingEnvelope m.data
  CertStore.read b

end Message

end CertEnroll
