import CertEnroll.Envelope
import CertEnroll.Identity
import CertEnroll.Message

/-!
# Message.Encoding — messages signed, and sealed for their recipient

A message is signed data.  Its content is the envelope of the message's data, or nothing; its signed
attributes are those of the message with the type and the digest of the content and the time.
-/

namespace CertEnroll

open Calendar (Instant)
open Cms (CertificateChoice ContentInfo SignedData SignerInfo)
open Der (OctetString SetOf)
open X509 (AlgorithmId Attributes Certificate)

/-- Who signs messages, for whom, and with which algorithms. -/
structure Sealing where
  signer : Identity
  recipient : Certificate
  digest : Digest
  cipher : Cipher

namespace Sealing

/-- A signer and a recipient, with the usual algorithms. -/
def standard (signer : Identity) (recipient : Certificate) : Sealing :=
  ⟨signer, recipient, .standard, .standard⟩

/-- The envelope of a message's data. -/
def content (s : Sealing) (m : Message) : Drawing (Option Bytes) := do
  match m.data with
  | none => return none
  | some data =>
    let e ← Envelope.encrypt data s.recipient s.cipher
    let b ← e.write
    return some b

/-- The signed attributes of a message with some content. -/
def signedAttributes (s : Sealing) (now : Instant) (m : Message) (content : Bytes) : Result Attributes := do
  let own ← m.attributes.encode
  let digest ← SignedAttributes.ofMessageDigest (s.digest.hash content)
  let time ← SignedAttributes.ofSigningTime now
  Result.ofDecoded
    (SetOf.ofList? (own ++ [SignedAttributes.ofContentType Cms.dataType, digest, time]))

/-- The signer of some attributes, with the signature over them. -/
def signerInfo (s : Sealing) (attributes : Attributes) : Result SignerInfo := do
  let signature ← s.digest.sign s.signer.key (← Der.write attributes)
  return {
    version := .v1
    signer := .certificate s.signer.id
    digest := s.digest.algorithmId
    signedAttributes := some attributes
    signatureAlgorithm := .plain rsaEncryption
    signature := ← OctetString.ofBytes signature
    unsignedAttributes := none }

/-- The signed data of some content and its signer. -/
def signedData (s : Sealing) (content : Option Bytes) (info : SignerInfo) : SignedData where
  version := .v1
  digests := .singleton s.digest.algorithmId
  content := ⟨Cms.dataType, content.map fun b => Der.toElement (⟨b⟩ : OctetString)⟩
  certificates := some (.singleton (CertificateChoice.certificate s.signer.certificate))
  revocations := none
  signers := .singleton info

/-- The document of a message. -/
def encode (s : Sealing) (now : Instant) (m : Message) : Drawing Bytes := do
  let content ← s.content m
  let attributes ← s.signedAttributes now m (content.getD [])
  let info ← s.signerInfo attributes
  Der.write (⟨Cms.signedDataType, Der.toElement (s.signedData content info)⟩ : ContentInfo)

end Sealing

end CertEnroll
