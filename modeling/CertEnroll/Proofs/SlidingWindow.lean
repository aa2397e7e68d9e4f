import CertEnroll.Proofs.ReplayWindow

/-!
# Proofs.SlidingWindow — a cache answers as the end of its history would

The history is kept apart from the cache: a list that a request makes longer by its nonce, unless the
nonce is among the last entries already.  A fresh cache and an empty history stay together through any
requests, so that what the cache holds, what it answers and what it leaves alone can be read off the
history.
-/

namespace CertEnroll.ReplayCache

/-! ### The end of a list -/

section Entries

variable {α : Type} {n : Nat} {l older newer : List α} {x : α}

/-- The last `n` entries of a list; all of them where there are fewer. -/
def lastEntries (n : Nat) (l : List α) : List α := l.drop (l.length - n)

/-- Among `n` entries in a row none is repeated. -/
def Spaced (n : Nat) (l : List α) : Prop := ∀ w, w <:+: l → w.length ≤ n → w.Nodup

theorem length_lastEntries (n : Nat) (l : List α) : (lastEntries n l).length = min l.length n := by
  rw [lastEntries, List.length_drop]
  omega

theorem suffix_lastEntries {w : List α} (h : w <:+ l) (hw : w.length ≤ n) : w <:+ lastEntries n l := by
  refine List.suffix_of_suffix_length_le h (List.drop_suffix _ l) ?_
  have hl := h.length_le
  rw [length_lastEntries]
  omega

theorem spaced_nil (n : Nat) : Spaced n ([] : List α) := by
  intro w hw _
  rw [List.infix_nil.mp hw]
  exact List.nodup_nil

/-- An entry that is not among the last `n` may follow them. -/
theorem Spaced.concat (h : Spaced (n + 1) l) (hx : x ∉ lastEntries n l) : Spaced (n + 1) (l ++ [x]) := by
  intro w hw hlength
  rcases List.infix_concat_iff.mp hw with hsuffix | hinfix
  · rcases List.suffix_concat_iff.mp hsuffix with rfl | ⟨v, rfl, hv⟩
    · exact List.nodup_nil
    · rw [List.length_append, List.length_singleton] at hlength
      have hsub := (suffix_lastEntries hv (Nat.le_of_succ_le_succ hlength)).subset
      have hnodup : v.Nodup := h v hv.isInfix (by omega)
      refine List.nodup_append.mpr ⟨hnodup, by simp, fun a ha b hb => ?_⟩
      rintro rfl
      obtain rfl := List.mem_singleton.mp hb
      exact hx (hsub ha)
  · exact h w hinfix hlength

/-- After exactly `n` further entries an entry is not among the last `n`. -/
theorem Spaced.notMem_lastEntries (h : Spaced (n + 1) (older ++ x :: newer)) (hn : newer.length = n) :
    x ∉ lastEntries n (older ++ x :: newer) := by
  have hlast : lastEntries n (older ++ x :: newer) = newer := by
    have hlength : (older ++ x :: newer).length - n = (older ++ [x]).length := by
      simp only [List.length_append, List.length_cons, List.length_nil]
      omega
    rw [lastEntries, hlength, List.append_cons older x newer, List.drop_left]
  have hnodup : (x :: newer).Nodup :=
    h (x :: newer) (List.suffix_append older _).isInfix (by rw [List.length_cons]; omega)
  rw [hlast]
  exact (List.nodup_cons.mp hnodup).1

end Entries

/-! ### Requests -/

/-- What is asked of a cache. -/
inductive Request
  /-- Whether a nonce is remembered. -/
  | contains (n : Nonce)
  | offer (n : Nonce)
  | checkAndInsert (n : Nonce)
  /-- The check of a shared cache.  Every handle of a shared cache leads to the one cache, so it does
  not matter which of them is used. -/
  | accept (n : Nonce)

/-- What a request returns. -/
inductive Reply
  | nothing
  | truth (b : Bool)
  | verdict (r : Result Unit)

/-- A request to a cache. -/
def serve : Request → StateM ReplayCache Reply
  | .contains n => fun c => (.truth (c.contains n), c)
  | .offer n => fun c => (.nothing, c.offer n)
  | .checkAndInsert n => .truth <$> ReplayCache.checkAndInsert n
  | .accept n => .verdict <$> (ReplayCache.accept n).run

/-- The cache after some requests. -/
def after (c : ReplayCache) (qs : List Request) : ReplayCache :=
  qs.foldl (fun c q => ((serve q).run c).2) c

/-- The nonce that a request records if it is not remembered. -/
def Request.entry? : Request → Option Nonce
  | .contains _ => none
  | .offer n | .checkAndInsert n | .accept n => some n

/-- A history with the nonce of a request, unless that is among the last `n` entries. -/
def extend (n : Nat) (history : List Nonce) (q : Request) : List Nonce :=
  history ++ (q.entry?.filter fun x => x ∉ lastEntries n history).toList

/-- The nonces recorded by some requests, in order, where the last `n` are remembered. -/
def recorded (n : Nat) (qs : List Request) : List Nonce := qs.foldl (extend n) []

/-- What the entries that are remembered let a request return. -/
def replyOf (entries : List Nonce) : Request → Reply
  | .contains x => .truth (x ∈ entries)
  | .offer _ => .nothing
  | .checkAndInsert x => .truth (x ∉ entries)
  | .accept x => .verdict (if x ∈ entries then .error .replay else .ok ())

variable {c : ReplayCache} {history : List Nonce}

theorem contains_eq (c : ReplayCache) (n : Nonce) : c.contains n = decide (n ∈ c.nonces) := by
  simp [contains]

/-- A request is answered from what the cache holds, and leaves it as it is or with its nonce recorded. -/
theorem serve_run (c : ReplayCache) (q : Request) :
    (serve q).run c =
      (replyOf c.nonces q, (q.entry?.filter fun x => x ∉ c.nonces).elim c c.record) := by
  cases q with
  | contains n =>
    change (Reply.truth (c.contains n), c) = _
    rw [contains_eq]
    rfl
  | offer n =>
    change (Reply.nothing, c.offer n) = _
    by_cases h : n ∈ c.nonces <;> simp [offer, contains_eq, replyOf, Request.entry?, Option.filter, h]
  | checkAndInsert n =>
    change (Reply.truth (!c.contains n), c.offer n) = _
    by_cases h : n ∈ c.nonces <;> simp [offer, contains_eq, replyOf, Request.entry?, Option.filter, h]
  | accept n =>
    change (Reply.verdict ((accept n).run.run c).1, ((accept n).run.run c).2) = _
    rw [accept_run]
    by_cases h : n ∈ c.nonces <;> simp [replyOf, Request.entry?, Option.filter, h]

/-! ### The window -/

/-- The cache holds the end of a history in which its nonces come back only after it forgot them. -/
structure Reflects (c : ReplayCache) (history : List Nonce) : Prop where
  holds : c.Holds history
  spaced : Spaced (c.capacity + 1) history

theorem Reflects.nonces_eq (h : c.Reflects history) : c.nonces = lastEntries c.capacity history :=
  h.holds.last

theorem ofCapacity_reflects (k : Nat) : (ofCapacity k).Reflects [] where
  holds := ofCapacity_holds k
  spaced := spaced_nil _

/-- A request extends the history as it extends the cache. -/
theorem Reflects.serve (h : c.Reflects history) (q : Request) :
    ((serve q).run c).2.Reflects (extend c.capacity history q) ∧
      ((serve q).run c).2.capacity = c.capacity := by
  rw [serve_run, extend, ← h.nonces_eq]
  cases hq : q.entry?.filter fun x => x ∉ c.nonces with
  | none => simpa using h
  | some n =>
    have hn : n ∉ c.nonces := by simpa using (Option.filter_eq_some_iff.mp hq).2
    have hn' : n ∉ lastEntries c.capacity history := h.nonces_eq ▸ hn
    exact ⟨⟨h.holds.record hn, h.spaced.concat hn'⟩, rfl⟩

theorem Reflects.after (h : c.Reflects history) (qs : List Request) :
    (c.after qs).Reflects (qs.foldl (extend c.capacity) history) ∧
      (c.after qs).capacity = c.capacity := by
  induction qs generalizing c history with
  | nil => exact ⟨h, rfl⟩
  | cons q qs ih =>
    obtain ⟨hstep, hcapacity⟩ := h.serve q
    obtain ⟨hrest, hrest'⟩ := ih hstep
    rw [hcapacity] at hrest hrest'
    exact ⟨hrest, hrest'⟩

/-- A cache is the sliding window over what was recorded: after any requests it holds the last recorded
nonces, as many as it has room for, in their order and without repetition; it answers from them, and a
request whose nonce is among them changes nothing.  So a nonce is remembered until as many others are
recorded after it as the cache has room for, and no longer. -/
theorem after_slides (k : Nat) (qs : List Request) :
    let room := max k 1
    let c := (ofCapacity k).after qs
    let history := recorded room qs
    (c.capacity = room ∧ c.nonces = lastEntries room history ∧ c.nonces.Nodup ∧
      c.size = min history.length room) ∧
    (∀ q, ((serve q).run c).1 = replyOf (lastEntries room history) q) ∧
    (∀ q, (∀ x ∈ q.entry?, x ∈ lastEntries room history) → ((serve q).run c).2 = c) ∧
    ∀ older x newer, history = older ++ x :: newer →
      (newer.length < room → x ∈ c.nonces) ∧ (newer.length = room → x ∉ c.nonces) := by
  intro room c history
  obtain ⟨hreflects, hcapacity⟩ := (ofCapacity_reflects k).after qs
  change c.Reflects history at hreflects
  change c.capacity = room at hcapacity
  have hnonces : c.nonces = lastEntries room history := hcapacity ▸ hreflects.nonces_eq
  have hsize : c.size = min history.length room := hcapacity ▸ hreflects.holds.length_nonces
  refine ⟨⟨hcapacity, hnonces, hreflects.holds.distinct, hsize⟩, fun q => ?_, fun q hq => ?_,
    fun older x newer hsplit => ⟨fun hlt => ?_, fun hn => ?_⟩⟩
  · rw [serve_run, hnonces]
  · have hnothing : (q.entry?.filter fun x => x ∉ c.nonces) = none := by
      rw [hnonces]
      exact Option.filter_eq_none_iff.mpr fun x hx => by simpa using hq x hx
    rw [serve_run, hnothing]
    rfl
  · exact (hsplit ▸ hreflects.holds).mem_of_recent (hcapacity ▸ hlt)
  · have hspaced : Spaced (room + 1) history := hcapacity ▸ hreflects.spaced
    rw [hsplit] at hspaced
    rw [hnonces, hsplit]
    exact hspaced.notMem_lastEntries hn

example : ((ofCapacity 2).after
    [.offer ⟨[1]⟩, .checkAndInsert ⟨[2]⟩, .accept ⟨[1]⟩, .offer ⟨[3]⟩]).nonces = [⟨[2]⟩, ⟨[3]⟩] := by
  decide

end CertEnroll.ReplayCache
