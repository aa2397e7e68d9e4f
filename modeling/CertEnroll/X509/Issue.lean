import CertEnroll.Rsa.Signature
import CertEnroll.X509.DirectoryString
import CertEnroll.X509.Request

/-!
# X509.Issue — certificates and certification requests made and signed

Both are signed over SHA-256.  A certificate says which key it is for, which key signed it, that it is
not an authority's, and what its key is for.
-/

namespace CertEnroll.X509

open Calendar (Instant)
open Der (BitString Element OctetString Oid SetOf SmallNumber Time sequence)

/-! ### Signing -/

/-- The digest under the signatures. -/
def issueDigest : Digest := .sha256

/-- The algorithm of the signatures. -/
def issueAlgorithm : AlgorithmId := .plain issueDigest.signatureOid

/-- The signature of a body. -/
def signBody {α : Type} [Der α] (key : Rsa.PrivateKey) (body : α) : Result BitString :=
  match issueDigest.sign key (Der.encode body) with
  | .ok s => .ok (.ofBytes s)
  | .error _ => .error .builder

/-! ### Certificates -/

/-- The identifier of a key: the digest of its octets. -/
def keyDigest (key : Bytes) : OctetString := ⟨Digest.sha1.hash key⟩

/-- An extension whose value is an element. -/
def Extension.ofElement (id : Oid) (critical : Bool) (e : Element) : Extension :=
  ⟨id, critical, ⟨e.encode⟩⟩

/-- The extensions of a certificate for a key, signed by another. -/
def issuedExtensions (key : KeyInfo) (signer : Rsa.PublicKey) : List Extension :=
  [.ofElement (.ofArcs [2, 5, 29, 14]) false (Der.toElement (keyDigest key.key.bytes)),
    .ofElement (.ofArcs [2, 5, 29, 35]) false
      (sequence [(Der.toElement (keyDigest signer.encode)).retag 0]),
    .ofElement (.ofArcs [2, 5, 29, 19]) true (sequence []),
    .ofElement (.ofArcs [2, 5, 29, 15]) true (Der.toElement (⟨5, [0xe0], by decide⟩ : BitString))]

/-- What holds from an instant on for some seconds. -/
def Validity.from (now : Instant) (seconds : Nat) : Result Validity := do
  let notBefore ← Result.ofDecoded (Time.ofInstant? now)
  let notAfter ← Result.ofDecoded (Time.ofInstant? (now.later seconds))
  return ⟨notBefore, notAfter⟩

/-- A certificate for a subject and its key, signed by the issuer's key. -/
def issueCertificate (signer : Rsa.PrivateKey) (issuer subject : Name) (key : KeyInfo)
    (serial : SerialNumber) (validity : Validity) : Result Certificate := do
  let body : CertificateBody :=
    { version := .v3
      serial := serial
      signature := issueAlgorithm
      issuer := issuer
      validity := validity
      subject := subject
      keyInfo := key
      issuerId := none
      subjectId := none
      extensions := some (issuedExtensions key signer.publicKey) }
  return ⟨body, issueAlgorithm, ← signBody signer body⟩

/-! ### Requests -/

/-- The identifier of the attribute that asks for extensions. -/
def extensionRequest : Oid := .ofArcs [1, 2, 840, 113549, 1, 9, 14]

/-- The identifier of the attribute that holds a password. -/
def challengePassword : Oid := .ofArcs [1, 2, 840, 113549, 1, 9, 7]

/-- The attributes of a request: no extensions are asked for, and a password is optional. -/
def requestAttributes (password : Option String) : List Attribute :=
  .single extensionRequest (sequence []) ::
    (password.map fun p => .single challengePassword (directoryString p)).toList

/-- A certification request for a subject and the key that signs it. -/
def issueRequest (key : Rsa.PrivateKey) (subject : Name) (password : Option String) :
    Result CertificationRequest := do
  let attributes ← Result.ofOption .builder (SetOf.ofList? (requestAttributes password))
  let body : RequestBody := ⟨⟨0, by decide⟩, subject, .ofKey key.publicKey, attributes⟩
  return ⟨body, issueAlgorithm, ← signBody key body⟩

/-- The password of a request. -/
def CertificationRequest.password? (r : CertificationRequest) : Option String := do
  let a ← r.body.attributes.toList.find? fun a => a.type = challengePassword
  let v ← a.values.toList.head?
  directoryText? v

end CertEnroll.X509
