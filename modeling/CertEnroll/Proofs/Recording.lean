import CertEnroll.Proofs.Traffic

/-!
# Proofs.Recording — which answers the cache records

The cache is written in the middle of the checks of an answer.  An answer that is not trusted, or whose
nonce is remembered, does not reach the cache; a trusted answer with a new nonce is recorded by exactly
one insertion, also if nothing can be concluded from it afterwards.
-/

namespace CertEnroll

namespace ReplayCache

/-- One insertion: the nonce becomes the newest, and only a full cache forgets its oldest. -/
structure Inserts (n : Nonce) (before after : ReplayCache) : Prop where
  capacity : after.capacity = before.capacity
  roomy : before.nonces.length < before.capacity → after.nonces = before.nonces ++ [n]
  full : before.nonces.length = before.capacity → after.nonces = before.nonces.tail ++ [n]

theorem inserts_record (c : ReplayCache) (n : Nonce) : Inserts n c (c.record n) where
  capacity := rfl
  roomy h := by
    change (if c.nonces.length = c.capacity then c.nonces.drop 1 else c.nonces) ++ [n] = _
    rw [if_neg (Nat.ne_of_lt h)]
  full h := by
    change (if c.nonces.length = c.capacity then c.nonces.drop 1 else c.nonces) ++ [n] = _
    rw [if_pos h, List.drop_one]

theorem record_ne {c : ReplayCache} {n : Nonce} (h : n ∉ c.nonces) : c.record n ≠ c := by
  intro he
  have hn : n ∈ (c.record n).nonces := List.mem_append_right _ (List.mem_singleton_self n)
  rw [he] at hn
  exact h hn

end ReplayCache

namespace Transaction

variable {σ : Type}

/-! ### Answers that conclude nothing -/

/-- Why nothing is concluded from a trusted answer to `op`. -/
inductive Unusable (op : Operation) (m : Message) : Error → Prop
  | type : m.attributes.messageType ≠ .certRep →
      Unusable op m (.unexpectedMessageType m.attributes.messageType)
  | status : m.attributes.messageType = .certRep → m.attributes.pkiStatus = none →
      Unusable op m (.missingAttribute AttributeId.pkiStatus)
  | pending : m.attributes.messageType = .certRep → m.attributes.pkiStatus = some .pending →
      op.isDelayable = false → Unusable op m (.unexpectedPending op.messageType)
  | store (b : Bytes) (e : Error) : m.attributes.messageType = .certRep →
      m.attributes.pkiStatus = some .success → m.data = some b → CertStore.read b = .error e →
      Unusable op m e

theorem conclude_of_unusable {t : Transaction} {w : Awaited} {m : Message} {e : Error}
    (h : Unusable w.operation m e) : t.conclude w m = .error e := by
  unfold conclude
  cases h with
  | type ht => simp only [ht, if_false]; rfl
  | status ht hs => simp only [ht, hs, if_true]; rfl
  | pending ht hs hd => simp only [ht, hs, hd, if_true]; rfl
  | store b e ht hs hb hr =>
    simp only [ht, hs, if_true, Message.store, hb, Result.ofOption]
    change (CertStore.read b >>= _) = _
    rw [hr]
    rfl

/-! ### Insertions -/

theorem Occasion.Answered.inserts {o : Occasion σ} {t : Transaction} {op : Operation} {q m : Message}
    (h : o.Answered t op q m) :
    ReplayCache.Inserts m.attributes.senderNonce o.surroundings.cache (o.left t).cache := by
  rw [h.settle.1]
  exact ReplayCache.inserts_record _ _

theorem Occasion.Answered.cache_ne {o : Occasion σ} {t : Transaction} {op : Operation} {q m : Message}
    (h : o.Answered t op q m) : (o.left t).cache ≠ o.surroundings.cache := by
  rw [h.settle.1]
  exact ReplayCache.record_ne h.fresh

theorem Occasion.Answered.result_of_unusable {o : Occasion σ} {t : Transaction} {op : Operation}
    {q m : Message} {e : Error} (h : o.Answered t op q m) (he : Unusable op m e) :
    o.result t = .error e ∧ (o.after t).state = .aborted := by
  have hc : (t.sent q).conclude (t.awaits op q) m = .error e := conclude_of_unusable he
  have hs := h.settle.2
  rw [hc] at hs
  obtain ⟨hresult, hafter⟩ := hs
  exact ⟨hresult, by rw [hafter]; rfl⟩

/-- Only a trusted answer with a new nonce changes the cache. -/
theorem Occasion.Exchanges.trusted_of_cache_ne {o : Occasion σ} {t : Transaction} {op : Operation}
    {q : Message} {document b : Bytes} (h : o.Exchanges t op q document (.ok b))
    (hne : (o.left t).cache ≠ o.surroundings.cache) :
    ∃ s m, t.Trusts q.attributes.transactionId q.attributes.senderNonce b s m ∧
      m.attributes.senderNonce ∉ o.surroundings.cache.nonces := by
  have hs := settle_settled (t.sent q) (t.awaits op q) (.ok b) o.surroundings.cache
  rw [h.settles.2.2] at hne
  generalize (t.sent q).settle (t.awaits op q) (.ok b) o.surroundings.cache = r at hs hne
  -- two ways to settle an answer write the cache, and both come after the vetting
  cases hs with
  | untrusted _ _ _ => exact absurd rfl hne
  | replayed _ _ _ _ => exact absurd rfl hne
  | unread _ m _ hv hm _ =>
    obtain ⟨s, hs⟩ := vet_sent.mp hv
    exact ⟨s, m, hs, hm⟩
  | concluded _ m _ _ hv hm _ =>
    obtain ⟨s, hs⟩ := vet_sent.mp hv
    exact ⟨s, m, hs, hm⟩

/-- A call to which no answer comes leaves the cache alone. -/
theorem Occasion.exchanges_of_cache_ne {o : Occasion σ} {t : Transaction}
    (hne : (o.left t).cache ≠ o.surroundings.cache) :
    ∃ op q document b, o.Exchanges t op q document (.ok b) := by
  have hc := o.course t
  generalize o.result t = result, o.after t = t', o.left t = s at hc hne
  cases hc with
  | refused _ => exact absurd rfl hne
  | unsealed op e rest _ _ _ => exact absurd rfl hne
  | exchanged op q document rest answer after r hop hp hq ha hr =>
    cases answer with
    | error text =>
      cases hr
      exact absurd rfl hne
    | ok b => exact ⟨op, q, document, b, hop, hp, rest, after, hq, ha⟩

/-- A call changes the cache only through an answer, and an answer changes it exactly if it is trusted
and has a new nonce.  The change is one insertion of this nonce, also where nothing is concluded from
the answer.  Where signatures are verified, an answer that is not genuine, or signed by neither the
recipient nor whom it certifies, changes nothing. -/
theorem cache_changes_iff (o : Occasion σ) (t : Transaction) :
    ((o.left t).cache ≠ o.surroundings.cache → ∃ op q document b, o.Exchanges t op q document (.ok b)) ∧
    ∀ op q document b, o.Exchanges t op q document (.ok b) →
      ((o.left t).cache ≠ o.surroundings.cache ↔
        ∃ s m, t.Trusts q.attributes.transactionId q.attributes.senderNonce b s m ∧
          m.attributes.senderNonce ∉ o.surroundings.cache.nonces) ∧
      (∀ s m, t.Trusts q.attributes.transactionId q.attributes.senderNonce b s m →
        m.attributes.senderNonce ∉ o.surroundings.cache.nonces →
        ReplayCache.Inserts m.attributes.senderNonce o.surroundings.cache (o.left t).cache ∧
          ∀ e, Unusable op m e → o.result t = .error e ∧ (o.after t).state = .aborted) ∧
      (t.config.verifies = true →
        (∀ s, SignedMessage.read b = .ok s →
          ¬ s.Genuine ∨ s.signer ≠ t.recipient ∧ ¬ s.signer.IssuedBy t.recipient) →
        (o.left t).cache = o.surroundings.cache) := by
  refine ⟨Occasion.exchanges_of_cache_ne, fun op q document b hx => ⟨⟨hx.trusted_of_cache_ne, ?_⟩, ?_, ?_⟩⟩
  · rintro ⟨s, m, hs, hm⟩
    have ha : o.Answered t op q m := ⟨⟨document, b, s, hx, hs⟩, hm⟩
    exact ha.cache_ne
  · intro s m hs hm
    have ha : o.Answered t op q m := ⟨⟨document, b, s, hx, hs⟩, hm⟩
    exact ⟨ha.inserts, fun e he => ha.result_of_unusable he⟩
  · intro hv hforeign
    refine Decidable.byContradiction fun hne => ?_
    obtain ⟨s, m, hs, -⟩ := hx.trusted_of_cache_ne hne
    obtain ⟨hgenuine, hsigner⟩ := hs.signed hv
    rcases hforeign s hs.read with hg | ⟨hrecipient, hissued⟩
    · exact hg hgenuine
    · exact hsigner.elim hrecipient hissued

end Transaction

end CertEnroll
