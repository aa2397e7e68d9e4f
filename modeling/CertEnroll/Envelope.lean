import CertEnroll.Cipher.Identifier
import CertEnroll.Cms.EnvelopedData
import CertEnroll.Der.Document
import CertEnroll.Rsa.Encryption

/-!
# Envelope — content encrypted for the holder of one certificate

The content is encrypted with a fresh key, and that key with the public key of the recipient's
certificate.
-/

namespace CertEnroll

open Cms (ContentInfo EnvelopedData KeyTransport)
open Der (OctetString SetOf)
open X509 (AlgorithmId Certificate IssuerAndSerial)

/-- Content encrypted for a recipient. -/
structure Envelope where
  data : EnvelopedData
  deriving DecidableEq

namespace Envelope

/-! ### Making -/

/-- The envelope of encrypted content and its key. -/
def assemble (recipient : Certificate) (algorithm : AlgorithmId) (content key : OctetString) :
    Envelope where
  data :=
    { version := .v0
      originator := none
      recipients := .singleton (.transport
        { version := .v0
          recipient := .certificate recipient.id
          algorithm := recipient.body.keyInfo.algorithm
          encryptedKey := key })
      content :=
        { contentType := Cms.dataType
          algorithm := algorithm
          content := some content }
      unprotectedAttributes := none }

/-- Encrypts content for the holder of a certificate. -/
def encrypt (content : Bytes) (recipient : Certificate) (cipher : Cipher) : Drawing Envelope := do
  let publicKey ← recipient.publicKey
  let key ← (cipher.drawKey : StateM Random Bytes)
  let iv ← (cipher.drawIv : StateM Random Bytes)
  let encrypted ← cipher.encrypt key iv content
  let encryptedKey ← OctetString.ofBytes (← Rsa.encrypt publicKey key)
  let algorithm ← cipher.algorithmId iv
  let encrypted ← OctetString.ofBytes encrypted
  return assemble recipient algorithm encrypted encryptedKey

/-- The document of an envelope. -/
def write (e : Envelope) : Result Bytes :=
  Der.write (⟨Cms.envelopedDataType, Der.toElement e.data⟩ : ContentInfo)

/-! ### Reading -/

/-- The envelope of a document; its version has to be 0 or 2. -/
def read (b : Bytes) : Result Envelope := do
  let info ← (Der.read b : Result ContentInfo)
  unless info.contentType = Cms.envelopedDataType do
    throw (.unexpectedContentType info.contentType)
  let d ← Result.ofDecoded (Der.ofElement? info.content : Option EnvelopedData)
  unless d.version.value = 0 ∨ d.version.value = 2 do
    throw (.unexpectedVersion .envelopedData)
  return ⟨d⟩

/-- The only recipient, to whom the key has to be transported. -/
def keyTransport (e : Envelope) : Result KeyTransport :=
  match e.data.recipients.toList with
  | [.transport k] => .ok k
  | [_] => .error (.recipientCount 0)
  | l => .error (.recipientCount l.length)

/-- The cipher of the content and its initial vector. -/
def cipherAndIv (e : Envelope) : Result (Cipher × Bytes) :=
  Cipher.ofAlgorithmId e.data.content.algorithm

/-- The cipher of the content. -/
def cipher (e : Envelope) : Result Cipher :=
  e.cipherAndIv.map (·.1)

/-- The certificate for whose holder the envelope is. -/
def recipient (e : Envelope) : Result IssuerAndSerial := do
  match (← e.keyTransport).recipient with
  | .certificate id => return id
  | .keyId _ => throw (.recipientCount 0)

/-! ### Opening -/

/-- What has to be read from an envelope before a private key is used. -/
structure Lock where
  cipher : Cipher
  iv : Bytes
  encryptedKey : Bytes
  content : Option OctetString

/-- Reads what is needed to open an envelope. -/
def lock (e : Envelope) : Result Lock := do
  let k ← e.keyTransport
  unless k.algorithm.algorithm = rsaEncryption do
    throw (.unsupportedAlgorithm k.algorithm.algorithm)
  let (cipher, iv) ← e.cipherAndIv
  return ⟨cipher, iv, k.encryptedKey.bytes, e.data.content.content⟩

/-- The content key, if the private key yields one of the right length. -/
def Lock.contentKey (l : Lock) (key : Rsa.PrivateKey) : Result Bytes := do
  let k ← Result.ofOption .decryption (Rsa.decrypt? key l.encryptedKey)
  if k.length = l.cipher.keySize then return k else throw .decryption

/-- The content under a lock. -/
def Lock.unlock (l : Lock) (key : Rsa.PrivateKey) : Result Bytes := do
  let k ← l.contentKey key
  let content ← Result.ofOption .missingEnvelope l.content
  l.cipher.decrypt k l.iv content.bytes

/-- Decrypts the content with the recipient's private key. -/
def decrypt (e : Envelope) (key : Rsa.PrivateKey) : Result Bytes := do
  let l ← e.lock
  l.unlock key

end Envelope

end CertEnroll
