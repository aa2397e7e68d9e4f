import CertEnroll.Proofs.ReplayWindow
import CertEnroll.Proofs.Session

/-!
# Proofs.Sharing — transactions that share a cache

A call that comes to an exchange has two halves: it hands its request over, and later takes an answer.
Calls of different transactions may overlap in any way, and whoever answers may return anything at any
time, the answers of other transactions included.  The halves are the steps here; a call made as a whole
is the two steps in a row.
-/

namespace CertEnroll

open Calendar (Instant)

namespace Transaction

/-! ### Parties and their steps -/

/-- A transaction, and the call whose answer it awaits. -/
structure Party where
  transaction : Transaction
  awaited : Option (Call × Awaited)

/-- Transactions and the cache that they share. -/
structure Shared (ι : Type) where
  cache : ReplayCache
  party : ι → Party

/-- What may happen next. -/
inductive Event (ι : Type)
  /-- A transaction makes a call; it has to be done with its last one. -/
  | call (i : ι) (c : Call) (now : Instant) (random : Random)
  /-- The call of a transaction gets an answer, or the text that says why there is none. -/
  | answer (i : ι) (answer : Except String Bytes)

namespace Shared

variable {ι : Type} [DecidableEq ι]

/-- The same with another party and another cache. -/
def put (s : Shared ι) (i : ι) (p : Party) (cache : ReplayCache) : Shared ι :=
  ⟨cache, fun j => if j = i then p else s.party j⟩

/-- What an event returns to its caller, if the call ends with it, and what it leaves. -/
def step (s : Shared ι) : Event ι → Option (Result Reply) × Shared ι
  | .call i c now random =>
    let t := (s.party i).transaction
    match (s.party i).awaited, c.operation t with
    | some _, _ => (none, s)
    | none, .error e => (some (.error e), s)
    | none, .ok op =>
      match t.request now op random with
      | (.error e, t, _) => (some (.error e), s.put i ⟨t, none⟩ s.cache)
      | (.ok (w, _), t, _) => (none, s.put i ⟨t, some (c, w)⟩ s.cache)
  | .answer i answer =>
    match (s.party i).awaited with
    | none => (none, s)
    | some (c, w) =>
      let (r, t, cache) := (s.party i).transaction.settle w answer s.cache
      (some (r >>= c.reply t), s.put i ⟨t, none⟩ cache)

/-- What some events leave. -/
def run (s : Shared ι) (es : List (Event ι)) : Shared ι := es.foldl (fun s e => (s.step e).2) s

/-- Transactions before their first call, with an empty cache for at least one nonce. -/
def init (capacity : Nat) (ts : ι → Transaction) : Shared ι :=
  ⟨.ofCapacity capacity, fun i => ⟨ts i, none⟩⟩

@[simp] theorem put_cache (s : Shared ι) (i : ι) (p : Party) (cache : ReplayCache) :
    (s.put i p cache).cache = cache := rfl

@[simp] theorem put_party_same (s : Shared ι) (i : ι) (p : Party) (cache : ReplayCache) :
    (s.put i p cache).party i = p := by
  simp [put]

@[simp] theorem put_party_other {i j : ι} (h : j ≠ i) (s : Shared ι) (p : Party)
    (cache : ReplayCache) : (s.put i p cache).party j = s.party j := by
  simp [put, h]

theorem put_self {s : Shared ι} {i : ι} {t : Transaction} (h : (s.party i).awaited = none)
    (ht : (s.party i).transaction = t) : s.put i ⟨t, none⟩ s.cache = s := by
  have hp : s.party i = ⟨t, none⟩ := by rw [← h, ← ht]
  have hf : (fun j => if j = i then (⟨t, none⟩ : Party) else s.party j) = s.party := by
    funext j
    by_cases hj : j = i
    · rw [if_pos hj, hj, hp]
    · rw [if_neg hj]
  rw [put, hf]

theorem put_put (s : Shared ι) (i : ι) (p p' : Party) (cache cache' : ReplayCache) :
    (s.put i p cache).put i p' cache' = s.put i p' cache' := by
  have hf : (fun j => if j = i then p' else (s.put i p cache).party j) =
      fun j => if j = i then p' else s.party j := by
    funext j
    by_cases hj : j = i
    · rw [if_pos hj, if_pos hj]
    · rw [if_neg hj, if_neg hj, put_party_other hj]
  change Shared.mk cache' _ = Shared.mk cache' _
  rw [hf]

theorem step_answer {s : Shared ι} {i : ι} {c : Call} {w : Awaited} (answer : Except String Bytes)
    (h : (s.party i).awaited = some (c, w)) :
    let r := (s.party i).transaction.settle w answer s.cache
    s.step (.answer i answer) = (some (r.1 >>= c.reply r.2.1), s.put i ⟨r.2.1, none⟩ r.2.2) := by
  simp only [step, h]

theorem run_append (s : Shared ι) (es fs : List (Event ι)) : s.run (es ++ fs) = (s.run es).run fs :=
  List.foldl_append

/-- A call made as a whole ends with its first step, or is this step followed by that of the answer which
the transport returns. -/
theorem make_eq_steps {σ : Type} (s : Shared ι) (i : ι) (c : Call) (send : Transport σ) (now : Instant)
    (random : Random) (peer : σ) (hi : (s.party i).awaited = none) :
    let r := c.make send now ((s.party i).transaction, ⟨random, s.cache, peer⟩)
    let s₁ := s.step (.call i c now random)
    s₁ = (some r.1, s.put i ⟨r.2.1, none⟩ r.2.2.cache) ∨
      s₁.1 = none ∧ ∃ answer, s₁.2.step (.answer i answer) =
        (some r.1, s.put i ⟨r.2.1, none⟩ r.2.2.cache) := by
  simp only [Call.make_apply, step, hi]
  cases hc : c.operation (s.party i).transaction with
  | error e => exact .inl (by rw [put_self hi rfl])
  | ok op =>
    simp only [perform]
    cases hr : (s.party i).transaction.request now op random with
    | mk result rest =>
      obtain ⟨t, random'⟩ := rest
      cases result with
      | error e => exact .inl rfl
      | ok awaited =>
        obtain ⟨w, document⟩ := awaited
        refine .inr ⟨rfl, ((send document).run (random', peer)).1, ?_⟩
        simp only [put_party_same, put_put, put_cache]
        rfl

/-! ### The check of the cache -/

/-- The nonce that passes the check of the cache at an event. -/
def passing (s : Shared ι) : Event ι → Option Nonce
  | .answer i (.ok b) =>
    match (s.party i).awaited with
    | none => none
    | some (_, w) =>
      match (s.party i).transaction.vet w b with
      | .error _ => none
      | .ok m =>
        if ((ReplayCache.checkAndInsert m.attributes.senderNonce).run s.cache).1 then
          some m.attributes.senderNonce
        else none
  | _ => none

/-- The nonces that pass the check of the cache during a run, in order. -/
def passes (s : Shared ι) : List (Event ι) → List Nonce
  | [] => []
  | e :: es => (s.passing e).toList ++ (s.step e).2.passes es

omit [DecidableEq ι] in
theorem passing_of_vet {s : Shared ι} {i : ι} {c : Call} {w : Awaited} {b : Bytes} {m : Message}
    (ha : (s.party i).awaited = some (c, w)) (hv : (s.party i).transaction.vet w b = .ok m) :
    s.passing (.answer i (.ok b)) =
      if m.attributes.senderNonce ∈ s.cache.nonces then none else some m.attributes.senderNonce := by
  have hcheck := s.cache.checkAndInsert_iff m.attributes.senderNonce
  by_cases hm : m.attributes.senderNonce ∈ s.cache.nonces
  · rw [if_pos hm]
    simp only [passing, ha, hv]
    exact if_neg fun h => hcheck.mp h hm
  · rw [if_neg hm]
    simp only [passing, ha, hv]
    exact if_pos (hcheck.mpr hm)

theorem passes_append (s : Shared ι) (es fs : List (Event ι)) :
    s.passes (es ++ fs) = s.passes es ++ (s.run es).passes fs := by
  induction es generalizing s with
  | nil => rfl
  | cons e es ih =>
    change (s.passing e).toList ++ (s.step e).2.passes (es ++ fs) = _
    rw [ih, ← List.append_assoc]
    rfl

theorem step_cache (s : Shared ι) (e : Event ι) :
    s.passing e = none ∧ (s.step e).2.cache = s.cache ∨
      ∃ n, s.passing e = some n ∧ n ∉ s.cache.nonces ∧ (s.step e).2.cache = s.cache.record n := by
  cases e with
  | call i c now random =>
    refine .inl ⟨rfl, ?_⟩
    simp only [step]
    split
    · rfl
    · rfl
    · split <;> rfl
  | answer i answer =>
    cases ha : (s.party i).awaited with
    | none =>
      refine .inl ⟨?_, ?_⟩
      · cases answer <;> simp only [passing, ha]
      · simp only [step, ha]
    | some cw =>
      obtain ⟨c, w⟩ := cw
      rw [step_answer answer ha]
      have h := settle_settled (s.party i).transaction w answer s.cache
      generalize (s.party i).transaction.settle w answer s.cache = r at h
      cases h with
      | unanswered text => exact .inl ⟨rfl, rfl⟩
      | untrusted b e hv => exact .inl ⟨by simp only [passing, ha, hv], rfl⟩
      | replayed b m hv hm => exact .inl ⟨by rw [passing_of_vet ha hv, if_pos hm], rfl⟩
      | unread b m e hv hm _ => exact .inr ⟨_, by rw [passing_of_vet ha hv, if_neg hm], hm, rfl⟩
      | concluded b m state outcome hv hm _ =>
        exact .inr ⟨_, by rw [passing_of_vet ha hv, if_neg hm], hm, rfl⟩

/-- During a run the cache goes on to hold the end of the nonces that passed. -/
theorem run_holds {s : Shared ι} {history : List Nonce} (es : List (Event ι))
    (h : s.cache.Holds history) :
    (s.run es).cache.Holds (history ++ s.passes es) ∧ (s.run es).cache.capacity = s.cache.capacity := by
  induction es generalizing s history with
  | nil => simpa [run, passes] using h
  | cons e es ih =>
    change ((s.step e).2.run es).cache.Holds (history ++ ((s.passing e).toList ++ _)) ∧
      ((s.step e).2.run es).cache.capacity = _
    rcases s.step_cache e with ⟨hp, hc⟩ | ⟨n, hp, hn, hc⟩
    · rw [hp, ← hc]
      exact ih (by rw [hc]; exact h)
    · have hstep : (s.step e).2.cache.Holds (history ++ [n]) := by
        rw [hc]
        exact h.record hn
      rw [hp, Option.toList_some, ← List.append_assoc]
      refine ⟨(ih hstep).1, (ih hstep).2.trans ?_⟩
      rw [hc]
      rfl

/-! ### No replay -/

/-- A run with an event at which a nonce passes leaves a cache that holds the end of a history in which
this nonce is followed by those that passed since. -/
theorem holds_since {capacity : Nat} {ts : ι → Transaction} {pre : List (Event ι)} (mid : List (Event ι))
    {e : Event ι} {x : Nonce} (hx : ((init capacity ts).run pre).passing e = some x) :
    ∃ older, ((init capacity ts).run (pre ++ e :: mid)).cache.Holds
        (older ++ x :: ((init capacity ts).run (pre ++ [e])).passes mid) ∧
      ((init capacity ts).run (pre ++ e :: mid)).cache.capacity = max capacity 1 := by
  have hsplit : pre ++ e :: mid = (pre ++ [e]) ++ mid := by simp
  have h₀ : (init capacity ts).cache.Holds [] := ReplayCache.ofCapacity_holds capacity
  have h₁ := run_holds (pre ++ [e]) h₀
  have h₂ := run_holds mid h₁.1
  rw [← run_append, ← hsplit] at h₂
  refine ⟨(init capacity ts).passes pre, ?_, h₂.2.trans h₁.2⟩
  have hpasses : (init capacity ts).passes (pre ++ [e]) = (init capacity ts).passes pre ++ [x] := by
    rw [passes_append]
    simp [passes, hx]
  have h := h₂.1
  rw [hpasses, List.nil_append, List.append_assoc] at h
  exact h

/-- Between two events at which the same nonce passes the check, as many different other nonces pass as
the cache has room for.  An answer that is trusted but whose nonce passed, and fewer than that many
since, makes its call return a replay and aborts its transaction, and changes nothing else. -/
theorem replay_window (capacity : Nat) (ts : ι → Transaction) :
    (∀ pre mid e₁ e₂ x,
      ((init capacity ts).run pre).passing e₁ = some x →
      ((init capacity ts).run (pre ++ e₁ :: mid)).passing e₂ = some x →
      ∃ between : List Nonce, between.Sublist (((init capacity ts).run (pre ++ [e₁])).passes mid) ∧
        between.length = max capacity 1 ∧ between.Nodup ∧ x ∉ between) ∧
    ∀ pre mid e₁ x,
      ((init capacity ts).run pre).passing e₁ = some x →
      (((init capacity ts).run (pre ++ [e₁])).passes mid).length < max capacity 1 →
      ∀ i c w nonce b signed m,
        let s := (init capacity ts).run (pre ++ e₁ :: mid)
        (s.party i).awaited = some (c, w) →
        (s.party i).transaction.sentNonce? = some nonce →
        (s.party i).transaction.Trusts w.id nonce b signed m →
        m.attributes.senderNonce = x →
        let r := s.step (.answer i (.ok b))
        r.1 = some (.error .replay) ∧
          (r.2.party i).transaction.state = .aborted ∧ (r.2.party i).transaction.outcome? = none ∧
          (∀ j, j ≠ i → r.2.party j = s.party j) ∧ r.2.cache = s.cache := by
  refine ⟨fun pre mid e₁ e₂ x h₁ h₂ => ?_, fun pre mid e₁ x h₁ hlt i c w nonce b signed m => ?_⟩
  · -- the nonces between are those that the cache holds when the nonce passes again
    obtain ⟨older, hholds, hcapacity⟩ := holds_since mid h₁
    have hx : x ∉ ((init capacity ts).run (pre ++ e₁ :: mid)).cache.nonces := by
      rcases step_cache _ e₂ with ⟨hp, -⟩ | ⟨n, hp, hn, -⟩
      · rw [hp] at h₂
        cases h₂
      · rw [hp] at h₂
        cases h₂
        exact hn
    obtain ⟨hsub, hfull⟩ := hholds.full_of_forgotten hx
    exact ⟨_, hsub, hfull.trans hcapacity, hholds.distinct, hx⟩
  · intro s ha hsent htrusts hm
    obtain ⟨older, hholds, hcapacity⟩ := holds_since mid h₁
    have hx : m.attributes.senderNonce ∈ s.cache.nonces := by
      rw [hm]
      exact hholds.mem_of_recent (by rw [hcapacity]; exact hlt)
    have hv : (s.party i).transaction.vet w b = .ok m := vet_eq_ok.mpr ⟨nonce, signed, hsent, htrusts⟩
    have hsettle : (s.party i).transaction.settle w (.ok b) s.cache =
        (.error .replay, (s.party i).transaction.aborted, s.cache) := by
      simp only [settle, judge_run, hv, hx, if_true]
      rfl
    simp only [step_answer (.ok b) ha, hsettle]
    refine ⟨rfl, ?_, ?_, fun j hj => ?_, rfl⟩
    · rw [put_party_same]
      rfl
    · rw [put_party_same]
      rfl
    · rw [put_party_other hj]

end Shared

end Transaction

end CertEnroll
