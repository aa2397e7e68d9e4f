import CertEnroll.Envelope
import CertEnroll.Identity
import CertEnroll.Message

/-!
# Message.Decoding — messages taken apart, verified and opened

A document is taken apart without any key.  Then the signature may be verified, with the key of the
certificate that the signer names, and at last the envelope is opened with the reader's private key.
-/

namespace CertEnroll

open Cms (CertificateChoice ContentInfo KeyHolder SignedData SignerInfo)
open Der (OctetString SetOf)
open X509 (Attributes Certificate)

/-- A signed message taken apart. -/
structure SignedMessage where
  /-- What the message says about itself. -/
  attributes : MessageAttributes
  /-- The octets that are signed, if there are any. -/
  content : Option Bytes
  /-- The signer and the signature. -/
  info : SignerInfo
  /-- The signed attributes. -/
  signedAttributes : Attributes
  /-- The signer's certificate. -/
  signer : Certificate

namespace SignedMessage

/-! ### Taking apart -/

/-- The only signer. -/
def onlySigner (d : SignedData) : Result SignerInfo :=
  match d.signers.toList with
  | [s] => .ok s
  | l => .error (.signerCount l.length)

/-- Fails if the signed attributes name another content type than the content has. -/
def checkContentType (d : SignedData) (as : Attributes) : Result Unit := do
  match ← SignedAttributes.contentType as with
  | none => return ()
  | some o =>
    unless o = d.content.contentType do
      throw (.unexpectedContentType o)

/-- The signed octets, if there are any. -/
def signedContent (d : SignedData) : Result (Option Bytes) :=
  match d.content.content with
  | none => .ok none
  | some e => do
    let s ← Result.ofDecoded (Der.ofElement? e : Option OctetString)
    return some s.bytes

/-- The certificates that come with a message. -/
def certificates (d : SignedData) : List Certificate :=
  ((d.certificates.map SetOf.toList).getD []).filterMap CertStore.certificate?

/-- The first certificate that a signer names. -/
def findSigner (d : SignedData) : KeyHolder → Result Certificate
  | .certificate id => Result.ofOption .unknownSigner ((certificates d).find? fun c => c.id = id)
  | .keyId _ => .error .unknownSigner

/-- Takes signed data apart. -/
def ofSignedData (d : SignedData) : Result SignedMessage := do
  unless d.version = .v1 do
    throw (.unexpectedVersion .signedData)
  let info ← onlySigner d
  let as ← Result.ofOption .missingSignedAttributes info.signedAttributes
  let attributes ← MessageAttributes.decode as
  checkContentType d as
  let content ← signedContent d
  let signer ← findSigner d info.signer
  return ⟨attributes, content, info, as, signer⟩

/-- Takes a document apart. -/
def read (b : Bytes) : Result SignedMessage := do
  let info ← (Der.read b : Result ContentInfo)
  unless info.contentType = Cms.signedDataType do
    throw (.unexpectedContentType info.contentType)
  let d ← Result.ofDecoded (Der.ofElement? info.content : Option SignedData)
  ofSignedData d

/-! ### Verifying -/

/-- Succeeds if the attributes give the digest of the content and the signature over them is right. -/
def verify (s : SignedMessage) : Result Unit := do
  let digest ← Digest.ofOid s.info.digest.algorithm
  digest.checkSignatureAlgorithm s.info.signatureAlgorithm
  unless (← SignedAttributes.messageDigest s.signedAttributes) = digest.hash (s.content.getD []) do
    throw .digestMismatch
  let key ← s.signer.publicKey
  digest.verify key (Der.encode s.signedAttributes) s.info.signature.bytes

/-! ### Opening -/

/-- The envelope, if the message carries one. -/
def envelope (s : SignedMessage) : Result (Option Envelope) :=
  if s.attributes.hasEnvelope then do
    let b ← Result.ofOption .missingEnvelope s.content
    let e ← Envelope.read b
    return some e
  else .ok none

/-- The message, with its envelope opened. -/
def openWith (s : SignedMessage) (key : Rsa.PrivateKey) : Result Message := do
  match ← s.envelope with
  | none => return ⟨s.attributes, none⟩
  | some e => return ⟨s.attributes, some (← e.decrypt key)⟩

end SignedMessage

/-- How messages are read: with which key, and whether signatures are verified. -/
structure Unsealing where
  key : Rsa.PrivateKey
  verifies : Bool
  deriving DecidableEq

/-- Reading that verifies signatures. -/
def Unsealing.standard (key : Rsa.PrivateKey) : Unsealing := ⟨key, true⟩

/-- The message of a document and the certificate of its signer. -/
def Unsealing.decode (u : Unsealing) (b : Bytes) : Result (Message × Certificate) := do
  let s ← SignedMessage.read b
  if u.verifies then s.verify
  let m ← s.openWith u.key
  return (m, s.signer)

end CertEnroll
