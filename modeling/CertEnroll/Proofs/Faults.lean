import CertEnroll.Message.Decoding
import CertEnroll.Message.Encoding
import CertEnroll.Proofs.Result
import CertEnroll.TransactionId.Derive

/-!
# Proofs.Faults — reading and writing messages fails only over their content

Taking a document apart, verifying it, opening it and sealing one end in errors about octets, codes,
algorithms or keys.  None of them is an error of the exchange, of the transport or of the state of a
transaction, whatever octets are read and whatever is drawn.
-/

namespace CertEnroll

open Result (FailsOnly)
open X509 (Attributes Certificate)

/-- The error is about octets, algorithms or keys. -/
def Error.OfContent (e : Error) : Prop :=
  e.kind = .malformedMessage ∨ e.kind = .cryptoFailure

@[simp] theorem Error.ofContent_iff (e : Error) :
    e.OfContent ↔ e.kind = .malformedMessage ∨ e.kind = .cryptoFailure := Iff.rfl

variable {α : Type}

/-! ### Documents and attributes -/

@[simp] theorem Result.failsOnly_ofDecoded (o : Option α) :
    FailsOnly Error.OfContent (Result.ofDecoded o) := by
  simp [Result.ofDecoded, Error.kind]

@[simp] theorem Der.bounded_failsOnly (b : Bytes) : FailsOnly Error.OfContent (Der.bounded b) := by
  simp [Der.bounded, Error.kind]

@[simp] theorem Der.ofBytes_failsOnly (b : Bytes) :
    FailsOnly Error.OfContent (Der.OctetString.ofBytes b) := by
  simp [Der.OctetString.ofBytes]

@[simp] theorem Der.write_failsOnly [Der α] (a : α) : FailsOnly Error.OfContent (Der.write a) := by
  simp [Der.write]

@[simp] theorem Der.read_failsOnly [Der α] (b : Bytes) :
    FailsOnly Error.OfContent (Der.read b : Result α) := by
  simp [Der.read]

namespace SignedAttributes

theorem find_failsOnly_invalid (as : Attributes) (o : Der.Oid) :
    FailsOnly (· = .invalidAttribute o) (find as o) := by
  unfold find
  split
  · simp
  · split <;> simp
  · simp

theorem findAs_failsOnly_invalid (read : Der.Element → Option α) (as : Attributes) (o : Der.Oid) :
    FailsOnly (· = .invalidAttribute o) (findAs read as o) := by
  unfold findAs
  rw [Result.failsOnly_bind]
  refine ⟨find_failsOnly_invalid as o, fun found _ => ?_⟩
  cases found with
  | none => simp
  | some e => simp

@[simp] theorem findAs_failsOnly (read : Der.Element → Option α) (as : Attributes) (o : Der.Oid) :
    FailsOnly Error.OfContent (findAs read as o) := by
  intro err h
  obtain rfl := findAs_failsOnly_invalid read as o err h
  exact .inl rfl

@[simp] theorem require_failsOnly (o : Der.Oid) (found : Result (Option α)) :
    FailsOnly Error.OfContent (require o found) ↔ FailsOnly Error.OfContent found := by
  simp [require, Error.kind]

end SignedAttributes

@[simp] theorem MessageAttributes.decode_failsOnly (as : Attributes) :
    FailsOnly Error.OfContent (MessageAttributes.decode as) := by
  simp [MessageAttributes.decode, MessageAttributes.nonce?, Error.kind]

/-! ### Taking apart and verifying -/

namespace SignedMessage

@[simp] theorem onlySigner_failsOnly (d : Cms.SignedData) :
    FailsOnly Error.OfContent (onlySigner d) := by
  unfold onlySigner
  split <;> simp [Error.kind]

@[simp] theorem checkContentType_failsOnly (d : Cms.SignedData) (as : Attributes) :
    FailsOnly Error.OfContent (checkContentType d as) := by
  unfold checkContentType
  rw [Result.failsOnly_bind]
  refine ⟨by simp [SignedAttributes.contentType], fun type _ => ?_⟩
  cases type with
  | none => simp
  | some o => simp [Error.kind]

@[simp] theorem signedContent_failsOnly (d : Cms.SignedData) :
    FailsOnly Error.OfContent (signedContent d) := by
  unfold signedContent
  split <;> simp

@[simp] theorem findSigner_failsOnly (d : Cms.SignedData) (holder : Cms.KeyHolder) :
    FailsOnly Error.OfContent (findSigner d holder) := by
  cases holder <;> simp [findSigner, Error.kind]

@[simp] theorem ofSignedData_failsOnly (d : Cms.SignedData) :
    FailsOnly Error.OfContent (ofSignedData d) := by
  simp [ofSignedData, Error.kind]

@[simp] theorem read_failsOnly (b : Bytes) : FailsOnly Error.OfContent (read b) := by
  simp [read, Error.kind]

end SignedMessage

@[simp] theorem Digest.ofOid_failsOnly (o : Der.Oid) : FailsOnly Error.OfContent (Digest.ofOid o) := by
  simp [Digest.ofOid, Error.kind]

@[simp] theorem Digest.checkSignatureAlgorithm_failsOnly (a : X509.AlgorithmId) (d : Digest) :
    FailsOnly Error.OfContent (Digest.checkSignatureAlgorithm a d) := by
  simp [Digest.checkSignatureAlgorithm, Digest.ofSignatureOid, Error.kind]

@[simp] theorem X509.Certificate.publicKey_failsOnly (c : Certificate) :
    FailsOnly Error.OfContent c.publicKey := by
  simp [Certificate.publicKey, Error.kind]

@[simp] theorem Digest.verify_failsOnly (d : Digest) (k : Rsa.PublicKey) (m signature : Bytes) :
    FailsOnly Error.OfContent (d.verify k m signature) := by
  simp [Digest.verify, Error.kind]

@[simp] theorem SignedMessage.verify_failsOnly (s : SignedMessage) :
    FailsOnly Error.OfContent s.verify := by
  simp [SignedMessage.verify, SignedAttributes.messageDigest, Error.kind]

/-! ### Opening -/

@[simp] theorem Cipher.ofAlgorithmId_failsOnly (a : X509.AlgorithmId) :
    FailsOnly Error.OfContent (Cipher.ofAlgorithmId a) := by
  unfold Cipher.ofAlgorithmId
  rw [Result.failsOnly_bind]
  refine ⟨by simp [Cipher.ofOid, Error.kind], fun c _ => ?_⟩
  split <;> simp [Error.kind]

@[simp] theorem Cipher.decrypt_failsOnly (c : Cipher) (key iv m : Bytes) :
    FailsOnly Error.OfContent (c.decrypt key iv m) := by
  simp [Cipher.decrypt, Error.kind]

namespace Envelope

@[simp] theorem read_failsOnly (b : Bytes) : FailsOnly Error.OfContent (Envelope.read b) := by
  simp [Envelope.read, Error.kind]

@[simp] theorem keyTransport_failsOnly (e : Envelope) : FailsOnly Error.OfContent e.keyTransport := by
  unfold keyTransport
  split <;> simp [Error.kind]

@[simp] theorem decrypt_failsOnly (e : Envelope) (key : Rsa.PrivateKey) :
    FailsOnly Error.OfContent (e.decrypt key) := by
  simp [decrypt, lock, cipherAndIv, Lock.unlock, Lock.contentKey, Error.kind]

end Envelope

@[simp] theorem SignedMessage.openWith_failsOnly (s : SignedMessage) (key : Rsa.PrivateKey) :
    FailsOnly Error.OfContent (s.openWith key) := by
  unfold SignedMessage.openWith
  rw [Result.failsOnly_bind]
  refine ⟨?_, fun e _ => ?_⟩
  · simp [SignedMessage.envelope, Error.kind]
  · cases e <;> simp

theorem Unsealing.decode_failsOnly (u : Unsealing) (b : Bytes) :
    FailsOnly Error.OfContent (u.decode b) := by
  simp [Unsealing.decode]

theorem Message.store_failsOnly (m : Message) : FailsOnly Error.OfContent m.store := by
  simp [Message.store, CertStore.read, Error.kind]

/-! ### Sealing -/

@[simp] theorem SignedAttributes.ofText_failsOnly (o : Der.Oid) (s : String) :
    FailsOnly Error.OfContent (ofText o s) := by
  simp [ofText]

@[simp] theorem SignedAttributes.ofOctets_failsOnly (o : Der.Oid) (b : Bytes) :
    FailsOnly Error.OfContent (ofOctets o b) := by
  simp [ofOctets]

@[simp] theorem MessageAttributes.encode_failsOnly (m : MessageAttributes) :
    FailsOnly Error.OfContent m.encode := by
  simp [encode]

@[simp] theorem TransactionId.ofKey_failsOnly (k : X509.KeyInfo) (d : Digest) :
    FailsOnly Error.OfContent (ofKey k d) := by
  simp [ofKey]

@[simp] theorem Cipher.algorithmId_failsOnly (c : Cipher) (iv : Bytes) :
    FailsOnly Error.OfContent (c.algorithmId iv) := by
  simp [algorithmId]

@[simp] theorem Message.request_failsOnly (id : TransactionId) (nonce : Nonce) (op : Operation) :
    FailsOnly Error.OfContent (Message.request id nonce op) := by
  cases op <;> simp [Message.request, Operation.write]

theorem Rsa.encrypt_failsOnly (k : Rsa.PublicKey) (m : Bytes) :
    Drawing.FailsOnly Error.OfContent (Rsa.encrypt k m) := by
  unfold Rsa.encrypt
  split
  · exact Drawing.failsOnly_throw (by simp [Error.kind])
  · refine Drawing.failsOnly_bind (Drawing.failsOnly_draw _) fun start => ?_
    exact Drawing.failsOnly_bind (Drawing.failsOnly_draw _) fun filling => Drawing.failsOnly_pure _

theorem Envelope.encrypt_failsOnly (content : Bytes) (recipient : Certificate) (cipher : Cipher) :
    Drawing.FailsOnly Error.OfContent (Envelope.encrypt content recipient cipher) := by
  unfold Envelope.encrypt
  refine Drawing.failsOnly_bind (Drawing.failsOnly_lift (by simp)) fun publicKey => ?_
  refine Drawing.failsOnly_bind (Drawing.failsOnly_draw _) fun key => ?_
  refine Drawing.failsOnly_bind (Drawing.failsOnly_draw _) fun iv => ?_
  refine Drawing.failsOnly_bind (Drawing.failsOnly_lift ?_) fun encrypted => ?_
  · simp [Cipher.encrypt, Error.kind]
  refine Drawing.failsOnly_bind (Rsa.encrypt_failsOnly publicKey key) fun b => ?_
  refine Drawing.failsOnly_bind (Drawing.failsOnly_lift (Der.ofBytes_failsOnly b)) fun encryptedKey => ?_
  refine Drawing.failsOnly_bind (Drawing.failsOnly_lift (cipher.algorithmId_failsOnly iv)) fun algorithm => ?_
  exact Drawing.failsOnly_bind (Drawing.failsOnly_lift (Der.ofBytes_failsOnly encrypted))
    fun _ => Drawing.failsOnly_pure _

namespace Sealing

theorem content_failsOnly (s : Sealing) (m : Message) :
    Drawing.FailsOnly Error.OfContent (s.content m) := by
  unfold content
  cases m.data with
  | none => exact Drawing.failsOnly_pure none
  | some data =>
    refine Drawing.failsOnly_bind (Envelope.encrypt_failsOnly _ _ _) fun e => ?_
    exact Drawing.failsOnly_bind (Drawing.failsOnly_lift (by simp [Envelope.write]))
      fun _ => Drawing.failsOnly_pure _

theorem signedAttributes_failsOnly (s : Sealing) (now : Calendar.Instant) (m : Message)
    (content : Bytes) : FailsOnly Error.OfContent (s.signedAttributes now m content) := by
  simp [signedAttributes, SignedAttributes.ofSigningTime, SignedAttributes.ofMessageDigest]

theorem signerInfo_failsOnly (s : Sealing) (attributes : Attributes) :
    FailsOnly Error.OfContent (s.signerInfo attributes) := by
  simp [signerInfo, Digest.sign, Error.kind]

theorem encode_failsOnly (s : Sealing) (now : Calendar.Instant) (m : Message) :
    Drawing.FailsOnly Error.OfContent (s.encode now m) := by
  unfold encode
  refine Drawing.failsOnly_bind (s.content_failsOnly m) fun content => ?_
  refine Drawing.failsOnly_bind (Drawing.failsOnly_lift (s.signedAttributes_failsOnly now m _))
    fun attributes => ?_
  refine Drawing.failsOnly_bind (Drawing.failsOnly_lift (s.signerInfo_failsOnly attributes))
    fun info => ?_
  exact Drawing.failsOnly_lift (Der.write_failsOnly _)

end Sealing

end CertEnroll
