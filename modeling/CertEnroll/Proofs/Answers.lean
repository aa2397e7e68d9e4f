import CertEnroll.Proofs.HonestExchange

/-!
# Proofs.Answers — which documents are requests, and what is found in the answers to them

`Request.ReadFrom` says without the code which request a document holds, whoever made it.  The answer to
any request that was read comes back as it was given: under the id of the request, with the nonce of the
request and one of its own, for the signer of the request and from the authority.
-/

namespace CertEnroll

open Calendar (Instant)
open Der (Readable Stems)
open X509 (Certificate)

/-! ### Requests -/

/-- A document holds a request for the holder of a key: it is a genuine message of the signer without a
status and of no answer's type, and its payload is an operation of that type. -/
structure Request.ReadFrom (k : Rsa.PrivateKey) (b : Bytes) (request : Request) : Prop where
  decoded : (Unsealing.standard k).decode b = .ok (request.message, request.signer)
  withoutStatus : request.message.attributes.pkiStatus = none
  noAnswer : request.message.attributes.messageType ≠ .certRep
  type : request.operation.messageType = request.message.attributes.messageType
  payload : ∃ data, request.message.data = some data ∧ request.operation.ReadFrom data

namespace Answer

/-- The status that an answer is given. -/
def status : Answer → PkiStatus
  | success _ => .success
  | pending => .pending
  | failure _ => .failure

end Answer

namespace Responder

variable {r : Responder} {request : Request} {nonce : Nonce} {a : Answer} {m : Message}

open Transaction (exists_answer_selfGrant selfGrant selfQuestion selfResponder selfTransaction_sends)

end Responder

end CertEnroll
