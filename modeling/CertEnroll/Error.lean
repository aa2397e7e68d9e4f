import CertEnroll.Code
import CertEnroll.Der.Oid
import CertEnroll.Random
import CertEnroll.Rsa.Key
import CertEnroll.Text.Quoted
import CertEnroll.TransactionId

/-!
# Error — the causes for which an operation fails, their wording and their kinds
-/

namespace CertEnroll

/-- Where a transaction stands. -/
inductive State
  | new
  | awaitingResponse
  | issued
  | pending
  | failed
  | aborted
  deriving DecidableEq, Repr

/-- The name of a state. -/
def State.name : State → String
  | new => "New"
  | awaitingResponse => "AwaitingResponse"
  | issued => "Issued"
  | pending => "Pending"
  | failed => "Failed"
  | aborted => "Aborted"

/-- A set of protocol codes. -/
inductive CodeSet
  | messageType
  | pkiStatus
  | failInfo
  deriving DecidableEq, Repr

/-- The name of a code set. -/
def CodeSet.name : CodeSet → String
  | messageType => "messageType"
  | pkiStatus => "pkiStatus"
  | failInfo => "failInfo"

/-- A message structure that has a version. -/
inductive Versioned
  | signedData
  | envelopedData
  deriving DecidableEq, Repr

/-- The name of a structure that has a version. -/
def Versioned.name : Versioned → String
  | signedData => "SignedData"
  | envelopedData => "EnvelopedData"

/-- Why an operation failed. -/
inductive Error
  /-- Octets are not the encoding of the value wanted, or a value has no encoding. -/
  | asn1
  /-- A public key of a certificate is unusable. -/
  | publicKey
  /-- A key is unusable, or too small for what is done with it. -/
  | rsa (fault : Rsa.Fault)
  /-- A certificate or a certification request cannot be signed. -/
  | builder
  | unexpectedContentType (found : Der.Oid)
  | unexpectedVersion (of : Versioned)
  | signerCount (found : Nat)
  | recipientCount (found : Nat)
  | missingSignedAttributes
  | missingAttribute (oid : Der.Oid)
  | invalidAttribute (oid : Der.Oid)
  | invalidCode (of : CodeSet) (text : String)
  | invalidTransactionId
  | missingEnvelope
  | unsupportedAlgorithm (algorithm : Der.Oid)
  | unknownAlgorithmName (text : String)
  /-- A symmetric key or an initial vector has the wrong length. -/
  | invalidKeyLength
  /-- The signer's certificate does not come with the message. -/
  | unknownSigner
  /-- A private key does not belong to the certificate it is paired with. -/
  | keyMismatch
  | decryption
  | verification
  /-- The digest attribute does not belong to the signed content. -/
  | digestMismatch
  /-- A combined signature algorithm names another digest than the signer does. -/
  | signatureAlgorithmMismatch (algorithm : Der.Oid)
  | transactionIdMismatch (expected found : TransactionId)
  /-- The answer does not echo the nonce of the request. -/
  | nonceMismatch
  /-- The answer is signed by neither the recipient nor a certificate that it issued. -/
  | unexpectedSigner
  /-- The nonce of the answer has been seen before. -/
  | replay
  | unexpectedMessageType (found : MessageType)
  /-- An operation that cannot wait was answered with a request to wait. -/
  | unexpectedPending (operation : MessageType)
  | illegalState (state : State)
  | operationFailed (reason : FailInfo)
  | transport (text : String)
  deriving DecidableEq

namespace Error

/-- The coarse kind of an error. -/
inductive Kind
  | malformedMessage
  | cryptoFailure
  | exchangeIntegrity
  | illegalState
  | transport
  | operationFailed
  deriving DecidableEq, Repr

/-- The name of a kind. -/
def Kind.name : Kind → String
  | malformedMessage => "MalformedMessage"
  | cryptoFailure => "CryptoFailure"
  | exchangeIntegrity => "ExchangeIntegrity"
  | illegalState => "IllegalState"
  | transport => "Transport"
  | operationFailed => "OperationFailed"

/-- The kind of an error. -/
def kind : Error → Kind
  | asn1 | unexpectedContentType _ | unexpectedVersion _ | signerCount _ | recipientCount _
  | missingSignedAttributes | missingAttribute _ | invalidAttribute _ | invalidCode _ _
  | invalidTransactionId | missingEnvelope | unknownSigner | unexpectedMessageType _
  | unexpectedPending _ => .malformedMessage
  | publicKey | rsa _ | builder | unsupportedAlgorithm _ | unknownAlgorithmName _ | invalidKeyLength
  | keyMismatch | decryption | verification | digestMismatch | signatureAlgorithmMismatch _ =>
    .cryptoFailure
  | transactionIdMismatch _ _ | nonceMismatch | unexpectedSigner | replay => .exchangeIntegrity
  | illegalState _ => .illegalState
  | operationFailed _ => .operationFailed
  | transport _ => .transport

/-- The label of a cause. -/
def label : Error → String
  | asn1 => "Asn1"
  | publicKey => "PublicKey"
  | rsa _ => "Rsa"
  | builder => "Builder"
  | unexpectedContentType _ => "UnexpectedContentType"
  | unexpectedVersion _ => "UnexpectedVersion"
  | signerCount _ => "SignerCount"
  | recipientCount _ => "RecipientCount"
  | missingSignedAttributes => "MissingSignedAttributes"
  | missingAttribute _ => "MissingAttribute"
  | invalidAttribute _ => "InvalidAttribute"
  | invalidCode _ _ => "InvalidCode"
  | invalidTransactionId => "InvalidTransactionId"
  | missingEnvelope => "MissingEnvelope"
  | unsupportedAlgorithm _ => "UnsupportedAlgorithm"
  | unknownAlgorithmName _ => "UnknownAlgorithmName"
  | invalidKeyLength => "InvalidKeyLength"
  | unknownSigner => "UnknownSigner"
  | keyMismatch => "KeyMismatch"
  | decryption => "Decryption"
  | verification => "Verification"
  | digestMismatch => "DigestMismatch"
  | signatureAlgorithmMismatch _ => "SignatureAlgorithmMismatch"
  | transactionIdMismatch _ _ => "TransactionIdMismatch"
  | nonceMismatch => "NonceMismatch"
  | unexpectedSigner => "UnexpectedSigner"
  | replay => "Replay"
  | unexpectedMessageType _ => "UnexpectedMessageType"
  | unexpectedPending _ => "UnexpectedPending"
  | illegalState _ => "IllegalState"
  | operationFailed _ => "OperationFailed"
  | transport _ => "Transport"

/-- The wording of an error; faults of the encoding and of keys have none. -/
def message? : Error → Option String
  | asn1 => none
  | publicKey => none
  | builder => none
  | rsa fault => some ("RSA error: " ++ fault.message)
  | unexpectedContentType o => some ("unexpected content type " ++ o.dotted)
  | unexpectedVersion s => some ("unexpected " ++ s.name ++ " version")
  | signerCount n => some ("expected exactly one signer, found " ++ toString n)
  | recipientCount n => some ("expected exactly one key transport recipient, found " ++ toString n)
  | missingSignedAttributes => some "signer info carries no signed attributes"
  | missingAttribute o => some ("missing attribute " ++ o.dotted)
  | invalidAttribute o => some ("invalid value for attribute " ++ o.dotted)
  | invalidCode s text => some ("invalid " ++ s.name ++ " code " ++ Text.quoted text)
  | invalidTransactionId => some "invalid transaction id"
  | missingEnvelope => some "message carries no pkcsPkiEnvelope"
  | unsupportedAlgorithm o => some ("unsupported algorithm " ++ o.dotted)
  | unknownAlgorithmName text => some ("unknown algorithm name " ++ Text.quoted text)
  | invalidKeyLength => some "invalid key or IV length"
  | unknownSigner => some "signer certificate not found"
  | keyMismatch => some "private key does not match certificate"
  | decryption => some "decryption error"
  | verification => some "verification error"
  | digestMismatch => some "message digest mismatch"
  | signatureAlgorithmMismatch o =>
    some ("signature algorithm " ++ o.dotted ++ " does not match the digest algorithm")
  | transactionIdMismatch expected found =>
    some ("transaction id mismatch: expected " ++ expected.text ++ ", found " ++ found.text)
  | nonceMismatch => some "recipient nonce does not match sender nonce"
  | unexpectedSigner => some "response signed by an unexpected certificate"
  | replay => some "response nonce has already been used"
  | unexpectedMessageType t => some ("unexpected message type " ++ t.name)
  | unexpectedPending t => some ("unexpected PENDING status for " ++ t.name)
  | illegalState s => some ("illegal transaction state " ++ s.name)
  | operationFailed f => some ("operation failed: " ++ f.name)
  | transport text => some ("transport error: " ++ text)

/-- The wording of an error, or its label where it has none. -/
def text (e : Error) : String := e.message?.getD e.label

end Error

/-- An operation that may fail. -/
abbrev Result (α : Type) := Except Error α

namespace Result

/-- The value of an option, or an error. -/
def ofOption {α : Type} (e : Error) : Option α → Result α
  | some a => .ok a
  | none => .error e

/-- The value of a decoder, or the error that octets are malformed. -/
def ofDecoded {α : Type} (a : Option α) : Result α := ofOption .asn1 a

end Result

/-- An operation that may fail and draws from a stream of random bytes; what it drew before it failed
stays drawn. -/
abbrev Drawing (α : Type) := ExceptT Error (StateM Random) α

/-- The result of an operation that draws, as a value. -/
def Drawing.attempt {α : Type} (d : Drawing α) : Drawing (Result α) := ExceptT.lift d.run

end CertEnroll
