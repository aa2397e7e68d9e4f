import CertEnroll.Proofs.Exchange

/-!
# Proofs.Acceptance — which answers end an exchange, and in what

The checks of an answer are spread over reading, verifying, vetting, the cache and the conclusion.  Here
each is stated without the code that makes it, and the exchange is shown to succeed exactly when all of
them hold against the request that was just sent.
-/

namespace CertEnroll

open Calendar (Instant)
open X509 (Certificate)

/-! ### Signatures -/

theorem Digest.ofSignatureOid_eq_ok {o : Der.Oid} {d : Digest} :
    Digest.ofSignatureOid o = .ok d ↔ d.signatureOid = o := by
  have hself (d : Digest) : all.find? (fun d' => d'.signatureOid = d.signatureOid) = some d := by
    cases d <;> decide
  rw [Digest.ofSignatureOid, Result.ofOption_eq_ok]
  constructor
  · intro h
    simpa using List.find?_some h
  · rintro rfl
    exact hself d

theorem Digest.verify_eq_ok {d : Digest} {k : Rsa.PublicKey} {m signature : Bytes} {u : Unit} :
    d.verify k m signature = .ok u ↔ Rsa.verifies d k m signature = true := by
  unfold Digest.verify
  split <;> simp_all

/-- The signature of a message is over its attributes and by its signer's key, and the attributes hold
the digest of its content. -/
def SignedMessage.Genuine (s : SignedMessage) : Prop :=
  ∃ digest key,
    Digest.ofOid s.info.digest.algorithm = .ok digest ∧
    (s.info.signatureAlgorithm.algorithm = rsaEncryption ∨
      s.info.signatureAlgorithm.algorithm = digest.signatureOid) ∧
    SignedAttributes.messageDigest s.signedAttributes = .ok (digest.hash (s.content.getD [])) ∧
    s.signer.publicKey = .ok key ∧
    Rsa.verifies digest key (Der.encode s.signedAttributes) s.info.signature.bytes = true

/-- A certificate names another as its issuer and is signed by its key. -/
def X509.Certificate.IssuedBy (certificate issuer : Certificate) : Prop :=
  certificate.body.issuer = issuer.body.subject ∧
    ∃ digest : Digest, digest.signatureOid = certificate.algorithm.algorithm ∧
      ∃ key, issuer.publicKey = .ok key ∧
        Rsa.verifies digest key (Der.encode certificate.body) certificate.signature.bytes = true

theorem Digest.checkSignatureAlgorithm_eq_ok {a : X509.AlgorithmId} {d : Digest} {u : Unit} :
    Digest.checkSignatureAlgorithm a d = .ok u ↔
      a.algorithm = rsaEncryption ∨ a.algorithm = d.signatureOid := by
  unfold Digest.checkSignatureAlgorithm
  by_cases h : a.algorithm = rsaEncryption
  · simp [h, Result.pure_eq_ok]
  · simp only [h, if_false, false_or, Result.bind_eq_ok, Digest.ofSignatureOid_eq_ok,
      Result.check_eq_ok]
    constructor
    · rintro ⟨named, hnamed, rfl, -⟩
      exact hnamed.symm
    · intro hd
      exact ⟨d, hd.symm, rfl, rfl⟩

theorem SignedMessage.verify_eq_ok {s : SignedMessage} {u : Unit} : s.verify = .ok u ↔ s.Genuine := by
  simp only [SignedMessage.verify, Result.bind_eq_ok, Result.unless_eq_ok,
    Digest.checkSignatureAlgorithm_eq_ok, Digest.verify_eq_ok]
  constructor
  · rintro ⟨digest, hdigest, -, halgorithm, _, hmessage, rfl, key, hkey, hsignature⟩
    exact ⟨digest, key, hdigest, halgorithm, hmessage, hkey, hsignature⟩
  · rintro ⟨digest, key, hdigest, halgorithm, hmessage, hkey, hsignature⟩
    exact ⟨digest, hdigest, (), halgorithm, _, hmessage, rfl, key, hkey, hsignature⟩

theorem X509.Certificate.verifyIssuedBy_isOk (certificate issuer : Certificate) :
    (certificate.verifyIssuedBy issuer).isOk = true ↔ certificate.IssuedBy issuer := by
  simp only [Certificate.verifyIssuedBy, Result.isOk_iff, Result.unless_eq_ok, Result.bind_eq_ok,
    Digest.ofSignatureOid_eq_ok, Digest.verify_eq_ok]
  exact ⟨fun ⟨_, h⟩ => h, fun h => ⟨(), h⟩⟩

/-! ### Messages -/

theorem Unsealing.decode_eq_ok {u : Unsealing} {answer : Bytes} {m : Message} {signer : Certificate} :
    u.decode answer = .ok (m, signer) ↔
      ∃ s, SignedMessage.read answer = .ok s ∧ (u.verifies = true → s.Genuine) ∧
        s.openWith u.key = .ok m ∧ s.signer = signer := by
  unfold Unsealing.decode
  cases hu : u.verifies with
  | false => simp [Result.bind_eq_ok, Result.map_eq_ok, and_left_comm]
  | true => simp [Result.bind_eq_ok, Result.map_eq_ok, SignedMessage.verify_eq_ok, and_left_comm]

theorem Message.store_eq_ok {m : Message} {store : CertStore} :
    m.store = .ok store ↔ ∃ b, m.data = some b ∧ CertStore.read b = .ok store := by
  simp [Message.store, Result.bind_eq_ok, Result.ofOption_eq_ok]

namespace Transaction

/-! ### Trust -/

/-- The answer reads as `s` and opens to `m`, is signed by the recipient or by whom it certifies, and
belongs to the request with the given id and nonce. -/
structure Trusts (t : Transaction) (id : TransactionId) (nonce : Nonce) (answer : Bytes)
    (s : SignedMessage) (m : Message) : Prop where
  read : SignedMessage.read answer = .ok s
  opened : s.openWith t.identity.key = .ok m
  signed : t.config.verifies = true →
    s.Genuine ∧ (s.signer = t.recipient ∨ s.signer.IssuedBy t.recipient)
  sameId : m.attributes.transactionId = id
  echo : m.attributes.recipientNonce = some nonce

theorem acceptsSigner_iff (t : Transaction) (signer : Certificate) :
    t.acceptsSigner signer = true ↔ signer = t.recipient ∨ signer.IssuedBy t.recipient := by
  simp [acceptsSigner, Certificate.verifyIssuedBy_isOk]

theorem isEchoedBy_iff (t : Transaction) (m : Message) :
    t.isEchoedBy m = true ↔
      ∃ nonce, t.sentNonce? = some nonce ∧ m.attributes.recipientNonce = some nonce := by
  unfold isEchoedBy
  cases m.attributes.recipientNonce <;> cases t.sentNonce? <;> simp [eq_comm]

theorem vet_eq_ok {t : Transaction} {w : Awaited} {answer : Bytes} {m : Message} :
    t.vet w answer = .ok m ↔
      ∃ nonce s, t.sentNonce? = some nonce ∧ t.Trusts w.id nonce answer s m := by
  simp only [vet, Result.bind_eq_ok, Result.unless_eq_ok, Result.pure_eq_ok, isEchoedBy_iff,
    Bool.or_eq_true, Bool.not_eq_true', acceptsSigner_iff]
  constructor
  · rintro ⟨⟨m', signer⟩, hdecode, hsigner, hid, ⟨nonce, hsent, hecho⟩, rfl⟩
    obtain ⟨s, hread, hgenuine, hopened, rfl⟩ := Unsealing.decode_eq_ok.mp hdecode
    refine ⟨nonce, s, hsent, hread, hopened, fun hv => ⟨hgenuine hv, ?_⟩, hid, hecho⟩
    exact hsigner.resolve_left (by simp [hv])
  · rintro ⟨nonce, s, hsent, h⟩
    refine ⟨(m, s.signer), ?_, ?_, h.sameId, ⟨nonce, hsent, h.echo⟩, rfl⟩
    · exact Unsealing.decode_eq_ok.mpr ⟨s, h.read, fun hv => (h.signed hv).1, h.opened, rfl⟩
    · cases hv : t.config.verifies with
      | false => exact .inl rfl
      | true => exact .inr (h.signed hv).2

/-! ### Conclusions -/

/-- What a trusted answer to `op` under an id brings the transaction to. -/
inductive Brings (t : Transaction) (id : TransactionId) (op : Operation) (m : Message) :
    State → Outcome → Prop
  | success (b : Bytes) (store : CertStore) : m.attributes.pkiStatus = some .success →
      m.data = some b → CertStore.read b = .ok store →
      Brings t id op m .issued (.issued store)
  | failure (reason : FailInfo) : m.attributes.pkiStatus = some .failure →
      m.attributes.failInfo = some reason →
      Brings t id op m .failed (.failed reason)
  | pending : m.attributes.pkiStatus = some .pending → op.isDelayable = true →
      Brings t id op m .pending
        (.pending ⟨id, t.recipient.body.issuer, t.pollSubject op, m.attributes.senderNonce⟩)

theorem conclude_eq_ok {t : Transaction} {w : Awaited} {m : Message} {state : State}
    {outcome : Outcome} :
    t.conclude w m = .ok (state, outcome) ↔
      m.attributes.messageType = .certRep ∧ t.Brings w.id w.operation m state outcome := by
  simp only [conclude, Result.unless_eq_ok]
  refine and_congr_right fun _ => ?_
  constructor
  · intro h
    cases hs : m.attributes.pkiStatus with
    | none =>
      rw [hs] at h
      cases h
    | some status =>
      rw [hs] at h
      cases status with
      | success =>
        obtain ⟨store, hstore, h⟩ := Result.bind_eq_ok.mp h
        obtain ⟨b, hb, hr⟩ := Message.store_eq_ok.mp hstore
        cases h
        exact .success b store hs hb hr
      | failure =>
        obtain ⟨reason, hreason, h⟩ := Result.bind_eq_ok.mp h
        cases h
        exact .failure reason hs (Result.ofOption_eq_ok.mp hreason)
      | pending =>
        obtain ⟨hd, h⟩ := Result.unless_eq_ok.mp h
        cases h
        exact .pending hs hd
  · rintro (⟨b, store, hs, hb, hr⟩ | ⟨reason, hs, hf⟩ | ⟨hs, hd⟩)
    · have hstore : m.store = .ok store := Message.store_eq_ok.mpr ⟨b, hb, hr⟩
      simp only [hs, hstore]
      rfl
    · simp only [hs, hf]
      rfl
    · simp only [hs, hd]
      rfl

/-! ### The rule -/

theorem trusts_sent {t : Transaction} {q m : Message} {id : TransactionId} {nonce : Nonce}
    {answer : Bytes} {s : SignedMessage} :
    (t.sent q).Trusts id nonce answer s m ↔ t.Trusts id nonce answer s m :=
  ⟨fun ⟨hr, ho, hs, hi, he⟩ => ⟨hr, ho, hs, hi, he⟩, fun ⟨hr, ho, hs, hi, he⟩ => ⟨hr, ho, hs, hi, he⟩⟩

theorem brings_sent {t : Transaction} {q m : Message} {id : TransactionId} {op : Operation}
    {state : State} {outcome : Outcome} :
    (t.sent q).Brings id op m state outcome ↔ t.Brings id op m state outcome := by
  constructor
  all_goals
    rintro (⟨b, store, hs, hb, hr⟩ | ⟨reason, hs, hf⟩ | ⟨hs, hd⟩)
    · exact .success b store hs hb hr
    · exact .failure reason hs hf
    · exact .pending hs hd

variable {σ : Type} (send : Transport σ) (now : Instant) (op : Operation) (t : Transaction)
  (s : Surroundings σ)

/-- The operation is allowed, its request is sent, and what comes back is a trusted answer to this very
request, has a nonce that is not remembered, and brings the transaction to a state and an outcome. -/
def Accepts (state : State) (outcome : Outcome) : Prop :=
  (t.state = .new ∨ t.state = .pending ∧ ∃ names, op = .getCertInitial names) ∧
    ∃ q document rest answer after signed m,
      t.Sends now op s.random q document rest ∧
      (send document).run (rest, s.peer) = (.ok answer, after) ∧
      t.Trusts q.attributes.transactionId q.attributes.senderNonce answer signed m ∧
      m.attributes.senderNonce ∉ s.cache.nonces ∧
      m.attributes.messageType = .certRep ∧
      t.Brings q.attributes.transactionId op m state outcome

/-- What the transaction shows is an outcome. -/
def Shows (t : Transaction) : Outcome → Prop
  | .issued store => t.certificates = .ok store.certificates ∧ t.revocations = .ok store.revocations
  | .failed reason => t.failureReason = .ok reason
  | .pending task => t.task = .ok task

theorem shows_of_outcome {t : Transaction} {outcome : Outcome} (h : t.outcome? = some outcome) :
    t.Shows outcome := by
  cases outcome <;> simp [Shows, certificates, revocations, failureReason, task, h]

variable {send now op t s}

theorem accepts_of_perform {state : State} (h : (perform send now op (t, s)).1 = .ok state) :
    ∃ outcome, Accepts send now op t s state outcome := by
  have hp := perform_performed send now op t s
  generalize perform send now op (t, s) = r at h hp
  cases hp with
  | refused _ => cases h
  | unsealed e rest _ _ => cases h
  | exchanged q document rest answer after r hp hq ha hr =>
    cases hr with
    | unanswered text => cases h
    | untrusted answer e _ => cases h
    | replayed answer m _ _ => cases h
    | unread answer m e _ _ _ => cases h
    | concluded answer m state' outcome hv hm hc =>
      cases h
      obtain ⟨nonce, signed, hnonce, htrusts⟩ := vet_eq_ok.mp hv
      cases hnonce
      obtain ⟨htype, hbrings⟩ := conclude_eq_ok.mp hc
      exact ⟨outcome, (t.permits_iff op).mp hp, q, document, rest, answer, after, signed, m, hq, ha,
        trusts_sent.mp htrusts, hm, htype, brings_sent.mp hbrings⟩

theorem perform_of_accepts {state : State} {outcome : Outcome}
    (h : Accepts send now op t s state outcome) :
    ∃ q s', perform send now op (t, s) =
      (.ok state, { t.sent q with state := state, outcome? := some outcome }, s') := by
  obtain ⟨hp, q, document, rest, answer, after, signed, m, hq, ha, htrusts, hm, htype, hbrings⟩ := h
  have hv : (t.sent q).vet (t.awaits op q) answer = .ok m :=
    vet_eq_ok.mpr ⟨_, signed, rfl, trusts_sent.mpr htrusts⟩
  have hc : (t.sent q).conclude (t.awaits op q) m = .ok (state, outcome) :=
    conclude_eq_ok.mpr ⟨htype, brings_sent.mpr hbrings⟩
  have hr := request_of_sends ((t.permits_iff op).mpr hp) hq
  refine ⟨q, ⟨after.1, s.cache.record m.attributes.senderNonce, after.2⟩, ?_⟩
  simp only [perform, hr, ha, settle, judge_run, hv, hm, if_false, hc]

/-- An exchange succeeds exactly if a trusted answer to the request that was just sent, new to the cache,
brings the transaction to the state that is returned; the transaction then is in this state and shows
what the answer carries. -/
theorem perform_eq_ok_iff (send : Transport σ) (now : Instant) (op : Operation) (t : Transaction)
    (s : Surroundings σ) (state : State) :
    ((perform send now op (t, s)).1 = .ok state ↔ ∃ outcome, Accepts send now op t s state outcome) ∧
      ∀ outcome, Accepts send now op t s state outcome →
        (perform send now op (t, s)).2.1.state = state ∧
          (perform send now op (t, s)).2.1.Shows outcome := by
  refine ⟨⟨accepts_of_perform, fun ⟨outcome, h⟩ => ?_⟩, fun outcome h => ?_⟩
  · obtain ⟨q, s', hr⟩ := perform_of_accepts h
    rw [hr]
  · obtain ⟨q, s', hr⟩ := perform_of_accepts h
    rw [hr]
    exact ⟨rfl, shows_of_outcome rfl⟩

end Transaction

end CertEnroll
