import CertEnroll.Digest
import CertEnroll.Error
import CertEnroll.X509.PublicKey

/-!
# Digest.Identifier — how digests are named in messages
-/

namespace CertEnroll.Digest

open Der (Oid)
open X509 (AlgorithmId)

/-- The object identifier of a digest. -/
def oid : Digest → Oid
  | md5 => .ofArcs [1, 2, 840, 113549, 2, 5]
  | sha1 => .ofArcs [1, 3, 14, 3, 2, 26]
  | sha256 => .ofArcs [2, 16, 840, 1, 101, 3, 4, 2, 1]
  | sha512 => .ofArcs [2, 16, 840, 1, 101, 3, 4, 2, 3]

/-- The object identifier of signatures over a digest. -/
def signatureOid : Digest → Oid
  | md5 => .ofArcs [1, 2, 840, 113549, 1, 1, 4]
  | sha1 => .ofArcs [1, 2, 840, 113549, 1, 1, 5]
  | sha256 => .ofArcs [1, 2, 840, 113549, 1, 1, 11]
  | sha512 => .ofArcs [1, 2, 840, 113549, 1, 1, 13]

/-- The digest with a given object identifier. -/
def ofOid (o : Oid) : Result Digest :=
  Result.ofOption (.unsupportedAlgorithm o) (all.find? fun d => d.oid = o)

/-- The digest of a combined signature algorithm. -/
def ofSignatureOid (o : Oid) : Result Digest :=
  Result.ofOption (.unsupportedAlgorithm o) (all.find? fun d => d.signatureOid = o)

/-- The digest that a name means. -/
def parse (s : String) : Result Digest :=
  Result.ofOption (.unknownAlgorithmName s) (ofName? s)

/-- The algorithm of a digest. -/
def algorithmId (d : Digest) : AlgorithmId := .plain d.oid

/-- Whether a signature algorithm may be used with a digest: it names no digest, or this one. -/
def checkSignatureAlgorithm (a : AlgorithmId) (d : Digest) : Result Unit := do
  unless a.algorithm = rsaEncryption do
    let named ← ofSignatureOid a.algorithm
    unless named = d do
      throw (.signatureAlgorithmMismatch a.algorithm)

end CertEnroll.Digest
