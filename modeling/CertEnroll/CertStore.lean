import CertEnroll.Cms.SignedData
import CertEnroll.Der.Document

/-!
# CertStore — certificates and revocation lists that travel together

A store is written as signed data without content and signers.  Reading keeps the certificates and the
lists of the usual formats and passes over everything else.
-/

namespace CertEnroll

open Cms (CertificateChoice ContentInfo RevocationChoice SignedData)
open Der (Member SetOf)
open X509 (Certificate RevocationList)

/-- Certificates and revocation lists. -/
structure CertStore where
  certificates : List Certificate
  revocations : List RevocationList
  deriving DecidableEq

namespace CertStore

/-- Whether a store holds nothing. -/
def isEmpty (s : CertStore) : Bool :=
  s.certificates.isEmpty && s.revocations.isEmpty

/-- The set of a non-empty list; its members have to be different. -/
def setOf {α : Type} [Member α] : List α → Result (Option (SetOf α))
  | [] => .ok none
  | l => do
    let s ← Result.ofDecoded (SetOf.ofList? l)
    return some s

/-- The certificate of a choice. -/
def certificate? : CertificateChoice → Option Certificate
  | .certificate c => some c
  | .other _ _ => none

/-- The revocation list of a choice. -/
def revocation? : RevocationChoice → Option RevocationList
  | .list l => some l
  | .other _ _ => none

/-- The signed data of a store. -/
def toSignedData (s : CertStore) : Result SignedData := do
  let certificates ← setOf (s.certificates.map CertificateChoice.certificate)
  let revocations ← setOf (s.revocations.map RevocationChoice.list)
  return ⟨.v1, .empty, ⟨Cms.dataType, none⟩, certificates, revocations, .empty⟩

/-- The store of signed data. -/
def ofSignedData (d : SignedData) : CertStore where
  certificates := ((d.certificates.map SetOf.toList).getD []).filterMap certificate?
  revocations := ((d.revocations.map SetOf.toList).getD []).filterMap revocation?

/-- The document of a store. -/
def write (s : CertStore) : Result Bytes := do
  let d ← s.toSignedData
  Der.write (⟨Cms.signedDataType, Der.toElement d⟩ : ContentInfo)

/-- The store of a document. -/
def read (b : Bytes) : Result CertStore := do
  let info ← (Der.read b : Result ContentInfo)
  unless info.contentType = Cms.signedDataType do
    throw (.unexpectedContentType info.contentType)
  let d ← Result.ofDecoded (Der.ofElement? info.content : Option SignedData)
  return ofSignedData d

/-- The store of the documents of certificates and of revocation lists. -/
def ofDocuments (certificates revocations : List Bytes) : Result CertStore := do
  let cs ← certificates.mapM (Der.read : Bytes → Result Certificate)
  let rs ← revocations.mapM (Der.read : Bytes → Result RevocationList)
  return ⟨cs, rs⟩

end CertStore

end CertEnroll
