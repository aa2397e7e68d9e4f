import CertEnroll.Der.Document
import CertEnroll.X509.Issue

/-!
# Identity — a certificate with its private key, and what it can issue
-/

namespace CertEnroll

open Calendar (Instant)
open X509 (Certificate CertificationRequest IssuerAndSerial KeyInfo Name SerialNumber Validity)

/-- A certificate and the private key of its public key. -/
structure Identity where
  certificate : Certificate
  key : Rsa.PrivateKey
  deriving DecidableEq

namespace Identity

/-- The identity of a certificate and its key. -/
def pair (certificate : Certificate) (key : Rsa.PrivateKey) : Result Identity := do
  if (← certificate.publicKey) = key.publicKey then
    return ⟨certificate, key⟩
  else throw .keyMismatch

/-- The identity of the document of a certificate and a private key that is not yet checked. -/
def read (document : Bytes) (key : Rsa.PrivateKey) : Result Identity := do
  let certificate ← (Der.read document : Result Certificate)
  let key ← key.checked.mapError .rsa
  pair certificate key

/-- The serial number of a self-signed certificate: a positive number of eight bytes that depends on
the key alone. -/
def serialOfKey (k : KeyInfo) : Result SerialNumber :=
  match (Digest.sha1.hash (Der.encode k)).take 8 with
  | [] => .error .asn1
  | b :: r => Result.ofDecoded (SerialNumber.ofUnsigned? (((b &&& 0x7f) ||| 0x40) :: r))

/-- How long a self-signed certificate holds, in seconds. -/
def selfSignedSeconds : Nat := 365 * 24 * 60 * 60

/-- An identity whose certificate is signed by its own key. -/
def selfSigned (key : Rsa.PrivateKey) (subject : Name) (now : Instant) : Result Identity := do
  let info := KeyInfo.ofKey key.publicKey
  let serial ← serialOfKey info
  let validity ← Validity.from now selfSignedSeconds
  let certificate ← X509.issueCertificate key subject subject info serial validity
  return ⟨certificate, key⟩

/-- A certificate for what a request asks for. -/
def issue (ca : Identity) (request : CertificationRequest) (serial : SerialNumber) (seconds : Nat)
    (now : Instant) : Result Certificate := do
  let validity ← Validity.from now seconds
  X509.issueCertificate ca.key ca.certificate.body.subject request.body.subject request.body.keyInfo
    serial validity

/-- The issuer and serial number of the certificate. -/
def id (i : Identity) : IssuerAndSerial := i.certificate.id

end Identity

/-- Succeeds if a certificate names another as its issuer and is signed by its key. -/
def X509.Certificate.verifyIssuedBy (certificate issuer : Certificate) : Result Unit := do
  unless certificate.body.issuer = issuer.body.subject do
    throw .verification
  let digest ← Digest.ofSignatureOid certificate.algorithm.algorithm
  let key ← issuer.publicKey
  digest.verify key (Der.encode certificate.body) certificate.signature.bytes

end CertEnroll
