import CertEnroll.ReplayCache

/-!
# Proofs.ReplayWindow — the cache remembers the last nonces of a history

A history is the list of all nonces that were ever recorded.  The cache holds its end, so a nonce is
forgotten only after as many others as the cache has room for, and these others are all different.
-/

namespace CertEnroll.ReplayCache

/-- The cache has room for one nonce at least, and it holds the end of a history without repetition. -/
structure Holds (c : ReplayCache) (history : List Nonce) : Prop where
  room : 1 ≤ c.capacity
  last : c.nonces = history.drop (history.length - c.capacity)
  distinct : c.nonces.Nodup

variable {c : ReplayCache} {history older newer : List Nonce} {n : Nonce}

theorem ofCapacity_holds (k : Nat) : (ofCapacity k).Holds [] where
  room := Nat.le_max_right k 1
  last := (List.drop_nil).symm
  distinct := List.nodup_nil

theorem Holds.length_nonces (h : c.Holds history) :
    c.nonces.length = min history.length c.capacity := by
  rw [h.last, List.length_drop]
  omega

/-- The nonces that stay when another is recorded: all, or all but the oldest if the cache is full. -/
def kept (c : ReplayCache) : List Nonce :=
  if c.nonces.length = c.capacity then c.nonces.drop 1 else c.nonces

theorem kept_sublist (c : ReplayCache) : c.kept.Sublist c.nonces := by
  unfold kept
  split
  · exact List.drop_sublist 1 c.nonces
  · exact List.Sublist.refl c.nonces

theorem Holds.kept_eq_drop (h : c.Holds history) :
    c.kept = history.drop (history.length + 1 - c.capacity) := by
  have hlength := h.length_nonces
  have hroom := h.room
  unfold kept
  by_cases hfull : c.nonces.length = c.capacity
  · rw [if_pos hfull, h.last, List.drop_drop]
    congr 1
    omega
  · rw [if_neg hfull, h.last]
    congr 1
    omega

theorem Holds.record (h : c.Holds history) (hn : n ∉ c.nonces) :
    (c.record n).Holds (history ++ [n]) := by
  have hroom := h.room
  refine ⟨hroom, ?_, ?_⟩
  · change c.kept ++ [n] = (history ++ [n]).drop ((history ++ [n]).length - c.capacity)
    rw [h.kept_eq_drop, List.length_append, List.length_singleton,
      List.drop_append_of_le_length (by omega)]
  · change (c.kept ++ [n]).Nodup
    refine List.nodup_append.mpr ⟨c.kept_sublist.nodup h.distinct, by simp, fun a ha b hb => ?_⟩
    rintro rfl
    obtain rfl := List.mem_singleton.mp hb
    exact hn (c.kept_sublist.subset ha)

theorem checkAndInsert_iff (c : ReplayCache) (n : Nonce) :
    ((checkAndInsert n).run c).1 = true ↔ n ∉ c.nonces := by
  change (!c.contains n) = true ↔ _
  simp [contains]

theorem accept_run (n : Nonce) (c : ReplayCache) :
    (accept n).run.run c = if n ∈ c.nonces then (.error .replay, c) else (.ok (), c.record n) := by
  have hc : c.contains n = decide (n ∈ c.nonces) := by simp [contains]
  change ((if !c.contains n then pure () else throw .replay :
    ExceptT Error (StateM ReplayCache) Unit).run.run (c.offer n)) = _
  by_cases h : n ∈ c.nonces
  · simp [offer, hc, h]
    rfl
  · simp [offer, hc, h]
    rfl

/-- A nonce of the history with fewer newer ones than the cache has room for is remembered. -/
theorem Holds.mem_of_recent (h : c.Holds (older ++ n :: newer)) (hnewer : newer.length < c.capacity) :
    n ∈ c.nonces := by
  have hle : (older ++ n :: newer).length - c.capacity ≤ older.length := by
    simp only [List.length_append, List.length_cons]
    omega
  rw [h.last, List.drop_append_of_le_length hle]
  simp

/-- If a nonce of the history is forgotten, the cache is full of newer ones. -/
theorem Holds.full_of_forgotten (h : c.Holds (older ++ n :: newer)) (hn : n ∉ c.nonces) :
    c.nonces.Sublist newer ∧ c.nonces.length = c.capacity := by
  have hlt : older.length < (older ++ n :: newer).length - c.capacity := by
    refine Nat.lt_of_not_le fun hle => hn ?_
    rw [h.last, List.drop_append_of_le_length hle]
    simp
  have hle : (older ++ [n]).length ≤ (older ++ n :: newer).length - c.capacity := by
    rw [List.length_append, List.length_singleton]
    exact hlt
  constructor
  · rw [h.last]
    generalize (older ++ n :: newer).length - c.capacity = k at hle
    rw [List.append_cons, List.drop_append, List.drop_eq_nil_of_le hle, List.nil_append]
    exact List.drop_sublist _ newer
  · rw [h.length_nonces]
    omega

example : (((ofCapacity 1).offer ⟨[1]⟩).offer ⟨[2]⟩).nonces = [⟨[2]⟩] := by decide

end CertEnroll.ReplayCache
