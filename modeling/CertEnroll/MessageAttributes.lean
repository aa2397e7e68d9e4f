import CertEnroll.Code.Numeral
import CertEnroll.Der.Document
import CertEnroll.Der.Time
import CertEnroll.Nonce
import CertEnroll.X509.Name

/-!
# MessageAttributes — what the signed attributes of a message say

Six attributes belong to the protocol; they travel beside the content type, the digest of the content
and the time of signing.  A reader looks each of them up by its identifier, so their order and other
attributes beside them do not matter.
-/

namespace CertEnroll

open Calendar (Instant)
open Der (Element OctetString Oid Time)
open X509 (Attribute Attributes)

/-! ### Identifiers -/

namespace AttributeId

def messageType : Oid := .ofArcs [2, 16, 840, 1, 113733, 1, 9, 2]

def pkiStatus : Oid := .ofArcs [2, 16, 840, 1, 113733, 1, 9, 3]

def failInfo : Oid := .ofArcs [2, 16, 840, 1, 113733, 1, 9, 4]

def senderNonce : Oid := .ofArcs [2, 16, 840, 1, 113733, 1, 9, 5]

def recipientNonce : Oid := .ofArcs [2, 16, 840, 1, 113733, 1, 9, 6]

def transactionId : Oid := .ofArcs [2, 16, 840, 1, 113733, 1, 9, 7]

def contentType : Oid := .ofArcs [1, 2, 840, 113549, 1, 9, 3]

def messageDigest : Oid := .ofArcs [1, 2, 840, 113549, 1, 9, 4]

def signingTime : Oid := .ofArcs [1, 2, 840, 113549, 1, 9, 5]

end AttributeId

/-! ### Looking attributes up -/

namespace SignedAttributes

/-- The value of the attribute with a given identifier, if there is one.  The attribute must occur once
and have one value. -/
def find (as : Attributes) (o : Oid) : Result (Option Element) :=
  match as.toList.filter fun a => a.type = o with
  | [] => .ok none
  | [a] =>
    match a.values.toList with
    | [v] => .ok (some v)
    | _ => .error (.invalidAttribute o)
  | _ => .error (.invalidAttribute o)

/-- The value of an attribute, read; a value that cannot be read is invalid. -/
def findAs {α : Type} (read : Element → Option α) (as : Attributes) (o : Oid) : Result (Option α) := do
  match ← find as o with
  | none => return none
  | some e =>
    let a ← Result.ofOption (.invalidAttribute o) (read e)
    return some a

/-- The value of an attribute that has to be there. -/
def require {α : Type} (o : Oid) (found : Result (Option α)) : Result α := do
  Result.ofOption (.missingAttribute o) (← found)

/-- The octets of an octet string. -/
def octets? (e : Element) : Option Bytes :=
  if e.tag = .octetString then some e.content else none

/-- The text of a printable string. -/
def printable? (e : Element) : Option String :=
  if e.tag = .printableString then e.content.ascii? else none

/-- The code that a printable string spells. -/
def code? {α : Type} (parse : String → Result α) (e : Element) : Option α :=
  (printable? e).bind fun s => (parse s).toOption

/-! ### Attributes of every signed message -/

/-- An attribute that holds a printable string. -/
def ofText (o : Oid) (s : String) : Result Attribute := do
  return .single o ⟨.printableString, ← Der.bounded (Bytes.ofAscii s)⟩

/-- An attribute that holds octets. -/
def ofOctets (o : Oid) (b : Bytes) : Result Attribute := do
  return .single o (Der.toElement (← OctetString.ofBytes b))

/-- The type of the signed content. -/
def ofContentType (o : Oid) : Attribute :=
  .single AttributeId.contentType (Der.toElement o)

/-- The digest of the signed content. -/
def ofMessageDigest (b : Bytes) : Result Attribute :=
  ofOctets AttributeId.messageDigest b

/-- The time of signing. -/
def ofSigningTime (now : Instant) : Result Attribute := do
  let t ← Result.ofDecoded (Time.ofInstant? now)
  return .single AttributeId.signingTime (Der.toElement t)

/-- The type of the signed content, if given. -/
def contentType (as : Attributes) : Result (Option Oid) :=
  findAs Der.ofElement? as AttributeId.contentType

/-- The digest of the signed content. -/
def messageDigest (as : Attributes) : Result Bytes :=
  require AttributeId.messageDigest (findAs octets? as AttributeId.messageDigest)

/-- The time of signing in seconds since the start of 1970, if given. -/
def signingTime (as : Attributes) : Result (Option Nat) := do
  let t ← findAs (Der.ofElement? : Element → Option Time) as AttributeId.signingTime
  return t.map fun t => t.dateTime.toSeconds

end SignedAttributes

/-! ### Attributes of the protocol -/

/-- What a message says about itself. -/
structure MessageAttributes where
  transactionId : TransactionId
  messageType : MessageType
  senderNonce : Nonce
  recipientNonce : Option Nonce
  pkiStatus : Option PkiStatus
  failInfo : Option FailInfo
  deriving DecidableEq

namespace MessageAttributes

open SignedAttributes

/-- The attributes of a request. -/
def request (id : TransactionId) (type : MessageType) (nonce : Nonce) : MessageAttributes :=
  ⟨id, type, nonce, none, none, none⟩

/-- The attributes of an answer. -/
def answer (id : TransactionId) (sender recipient : Nonce) (status : PkiStatus)
    (reason : Option FailInfo) : MessageAttributes :=
  ⟨id, .certRep, sender, some recipient, some status, reason⟩

/-- A message without a status is a request. -/
def isRequest (a : MessageAttributes) : Bool := a.pkiStatus.isNone

/-- Whether the message carries an envelope: requests and successes do. -/
def hasEnvelope (a : MessageAttributes) : Bool :=
  a.isRequest || a.pkiStatus = some .success

/-- The protocol's attributes, those that are present. -/
def encode (a : MessageAttributes) : Result (List Attribute) := do
  let id ← ofText AttributeId.transactionId a.transactionId.text
  let type ← ofText AttributeId.messageType (Numeral.ofNat a.messageType.code)
  let sender ← ofOctets AttributeId.senderNonce a.senderNonce.bytes
  let recipient ← a.recipientNonce.mapM fun n => ofOctets AttributeId.recipientNonce n.bytes
  let status ← a.pkiStatus.mapM fun s => ofText AttributeId.pkiStatus (Numeral.ofNat s.code)
  let reason ← a.failInfo.mapM fun f => ofText AttributeId.failInfo (Numeral.ofNat f.code)
  return [id, type, sender] ++ recipient.toList ++ status.toList ++ reason.toList

/-- A nonce, if the attribute is present. -/
def nonce? (as : Attributes) (o : Oid) : Result (Option Nonce) :=
  findAs (fun e => (octets? e).map Nonce.mk) as o

/-- The attributes of a message; a failure has to give its reason. -/
def decode (as : Attributes) : Result MessageAttributes := do
  let id ← require AttributeId.transactionId
    (findAs (fun e => (printable? e).bind TransactionId.ofText?) as AttributeId.transactionId)
  let type ← require AttributeId.messageType
    (findAs (code? MessageType.parse) as AttributeId.messageType)
  let sender ← require AttributeId.senderNonce (nonce? as AttributeId.senderNonce)
  let recipient ← nonce? as AttributeId.recipientNonce
  let status ← findAs (code? PkiStatus.parse) as AttributeId.pkiStatus
  let reason ← findAs (code? FailInfo.parse) as AttributeId.failInfo
  if status = some .failure ∧ reason = none then
    throw (.missingAttribute AttributeId.failInfo)
  return ⟨id, type, sender, recipient, status, reason⟩

end MessageAttributes

end CertEnroll
