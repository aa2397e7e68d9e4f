import CertEnroll.Error

/-!
# Proofs.Result — when a sequence of steps succeeds, and in which errors it can end

`FailsOnly p r` says that `r` is either a success or an error of which `p` holds.  Its rules follow the
ways in which results are put together, so that a bound on the errors of a function follows from the
bounds on the functions it calls.
-/

namespace CertEnroll

namespace Result

variable {α β : Type}

/-! ### Success -/

theorem bind_eq_ok {x : Result α} {f : α → Result β} {b : β} :
    (x >>= f) = .ok b ↔ ∃ a, x = .ok a ∧ f a = .ok b := by
  cases x with
  | error e => simp [bind, Except.bind]
  | ok a => simp [bind, Except.bind]

theorem map_eq_ok {x : Result α} {f : α → β} {b : β} :
    f <$> x = .ok b ↔ ∃ a, x = .ok a ∧ f a = b := by
  cases x with
  | error e => simp [Functor.map, Except.map]
  | ok a => simp [Functor.map, Except.map]

theorem pure_eq_ok {a b : α} : (pure a : Result α) = .ok b ↔ a = b := by
  simp [pure, Except.pure]

theorem ofOption_eq_ok {e : Error} {o : Option α} {a : α} : ofOption e o = .ok a ↔ o = some a := by
  cases o with
  | none => simp [ofOption]
  | some b => simp [ofOption]

/-- A check succeeds if its condition holds. -/
theorem check_eq_ok {c : Prop} [Decidable c] {x : Result α} {e : Error} {a : α} :
    (if c then x else throw e) = .ok a ↔ c ∧ x = .ok a := by
  change (if c then x else .error e) = _ ↔ _
  by_cases h : c <;> simp [h]

/-- What follows a check succeeds if its condition holds. -/
theorem unless_eq_ok {c : Prop} [Decidable c] {x : Result α} {e : Error} {f : β → Result α} {a : α} :
    (if c then x else throw e >>= f) = .ok a ↔ c ∧ x = .ok a := check_eq_ok

theorem isOk_iff {x : Result α} : x.isOk = true ↔ ∃ a, x = .ok a := by
  cases x with
  | error e => simp [Except.isOk, Except.toBool]
  | ok a => simp [Except.isOk, Except.toBool]

/-! ### Failure -/

theorem bind_eq_error {x : Result α} {f : α → Result β} {e : Error} :
    (x >>= f) = .error e ↔ x = .error e ∨ ∃ a, x = .ok a ∧ f a = .error e := by
  cases x with
  | error e' => simp [bind, Except.bind]
  | ok a => simp [bind, Except.bind]

theorem ofOption_eq_error {e e' : Error} {o : Option α} :
    ofOption e o = .error e' ↔ o = none ∧ e = e' := by
  cases o with
  | none => simp [ofOption]
  | some a => simp [ofOption]

/-! ### Errors -/

/-- If the result is an error, `p` holds of it. -/
def FailsOnly (p : Error → Prop) (r : Result α) : Prop :=
  ∀ e, r = .error e → p e

variable {p : Error → Prop}

@[simp] theorem failsOnly_ok (a : α) : FailsOnly p (.ok a : Result α) := by
  intro e h
  cases h

@[simp] theorem failsOnly_pure (a : α) : FailsOnly p (pure a : Result α) := failsOnly_ok a

@[simp] theorem failsOnly_error (e : Error) : FailsOnly p (.error e : Result α) ↔ p e := by
  constructor
  · intro h
    exact h e rfl
  · intro h e' h'
    cases h'
    exact h

@[simp] theorem failsOnly_throw (e : Error) : FailsOnly p (throw e : Result α) ↔ p e :=
  failsOnly_error e

@[simp] theorem failsOnly_bind (x : Result α) (f : α → Result β) :
    FailsOnly p (x >>= f) ↔ FailsOnly p x ∧ ∀ a, x = .ok a → FailsOnly p (f a) := by
  cases x with
  | error e =>
    change FailsOnly p (.error e : Result β) ↔ _
    simp
  | ok a =>
    change FailsOnly p (f a) ↔ _
    simp

@[simp] theorem failsOnly_map (f : α → β) (x : Result α) :
    FailsOnly p (f <$> x) ↔ FailsOnly p x := by
  cases x with
  | error e =>
    change FailsOnly p (.error e : Result β) ↔ _
    simp
  | ok a =>
    change FailsOnly p (.ok (f a) : Result β) ↔ _
    simp

@[simp] theorem failsOnly_exceptMap (f : α → β) (x : Result α) :
    FailsOnly p (x.map f) ↔ FailsOnly p x := failsOnly_map f x

@[simp] theorem failsOnly_ofOption (e : Error) (o : Option α) :
    FailsOnly p (ofOption e o) ↔ (o = none → p e) := by
  cases o with
  | none => simp [ofOption]
  | some a => simp [ofOption]

@[simp] theorem failsOnly_mapM (f : α → Result β) (x : Option α) :
    FailsOnly p (x.mapM f) ↔ ∀ a ∈ x, FailsOnly p (f a) := by
  cases x with
  | none =>
    change FailsOnly p (.ok none) ↔ _
    simp
  | some a =>
    change FailsOnly p (some <$> f a) ↔ _
    simp

@[simp] theorem failsOnly_ite (c : Prop) [Decidable c] (x y : Result α) :
    FailsOnly p (if c then x else y) ↔ (c → FailsOnly p x) ∧ (¬ c → FailsOnly p y) := by
  by_cases h : c <;> simp [h]

@[simp] theorem failsOnly_mapError {ε : Type} (f : ε → Error) (x : Except ε α) :
    FailsOnly p (x.mapError f) ↔ ∀ e, x = .error e → p (f e) := by
  cases x with
  | error e =>
    change FailsOnly p (.error (f e) : Result α) ↔ _
    simp
  | ok a =>
    change FailsOnly p (.ok a : Result α) ↔ _
    simp

end Result

/-! ### Steps with a state -/

/-- What follows a step goes on with its value and from its state. -/
theorem run_bind_of_eq {S α β : Type} {x : StateM S α} {f : α → StateM S β} {s s' : S} {a : α}
    (h : x.run s = (a, s')) : (x >>= f).run s = (f a).run s' := by
  rw [StateT.run_bind, h]
  rfl

/-! ### What draws -/

namespace Drawing

variable {α β : Type}

/-- What follows a drawing succeeds if the drawing does, and goes on with the rest of the stream. -/
theorem bind_eq_ok {d : Drawing α} {f : α → Drawing β} {b : β} {r r' : Random} :
    (d >>= f).run.run r = (.ok b, r') ↔
      ∃ a r₁, d.run.run r = (.ok a, r₁) ∧ (f a).run.run r₁ = (.ok b, r') := by
  rw [ExceptT.run_bind, StateT.run_bind]
  rcases d.run.run r with ⟨x, r₁⟩
  cases x with
  | error e =>
    constructor
    · intro h
      cases h
    · rintro ⟨a, r₂, h, -⟩
      cases h
  | ok a =>
    constructor
    · intro h
      exact ⟨a, r₁, rfl, h⟩
    · rintro ⟨a', r₂, h', h⟩
      cases h'
      exact h

theorem pure_eq_ok {a b : α} {r r' : Random} :
    (pure a : Drawing α).run.run r = (.ok b, r') ↔ a = b ∧ r = r' := by
  constructor
  · intro h
    cases h
    exact ⟨rfl, rfl⟩
  · rintro ⟨rfl, rfl⟩
    rfl

theorem lift_eq_ok {x : Result α} {a : α} {r r' : Random} :
    (monadLift x : Drawing α).run.run r = (.ok a, r') ↔ x = .ok a ∧ r = r' := by
  constructor
  · intro h
    cases h
    exact ⟨rfl, rfl⟩
  · rintro ⟨rfl, rfl⟩
    rfl

theorem attempt_eq_ok {d : Drawing α} {x : Result α} {r r' : Random} :
    d.attempt.run.run r = (.ok x, r') ↔ d.run.run r = (x, r') := by
  constructor
  · intro h
    cases h
    rfl
  · intro h
    change ((.ok (d.run.run r).1 : Result (Result α)), (d.run.run r).2) = _
    rw [h]

theorem draw_eq_ok {d : StateM Random α} {a : α} {r r' : Random} :
    (monadLift d : Drawing α).run.run r = (.ok a, r') ↔ d.run r = (a, r') := by
  constructor
  · intro h
    cases h
    rfl
  · intro h
    change ((.ok (d.run r).1 : Result α), (d.run r).2) = _
    rw [h]

theorem exists_of_isOk {d : Drawing α} {r : Random} (h : (d.run.run r).1.isOk = true) :
    ∃ a r', d.run.run r = (.ok a, r') := by
  obtain ⟨a, ha⟩ := Result.isOk_iff.mp h
  exact ⟨a, (d.run.run r).2, Prod.ext ha rfl⟩

/-! ### Errors of what draws -/

variable {p : Error → Prop}

/-- If the result is an error, `p` holds of it, whatever the random stream. -/
def FailsOnly (p : Error → Prop) (d : Drawing α) : Prop :=
  ∀ r : Random, Result.FailsOnly p (d.run.run r).1

theorem failsOnly_pure (a : α) : FailsOnly p (pure a : Drawing α) := by
  intro r e h
  cases h

theorem failsOnly_throw {e : Error} (h : p e) : FailsOnly p (throw e : Drawing α) := by
  intro r e' h'
  cases h'
  exact h

theorem failsOnly_lift {x : Result α} (h : Result.FailsOnly p x) :
    FailsOnly p (monadLift x : Drawing α) := by
  intro r e he
  cases x with
  | error e' => exact h e he
  | ok a => cases he

theorem failsOnly_draw (d : StateM Random α) : FailsOnly p (monadLift d : Drawing α) := by
  intro r e h
  cases h

theorem failsOnly_bind {d : Drawing α} {f : α → Drawing β} (hd : FailsOnly p d)
    (hf : ∀ a, FailsOnly p (f a)) : FailsOnly p (d >>= f) := by
  intro r e h
  rw [ExceptT.run_bind, StateT.run_bind] at h
  cases hr : d.run.run r with
  | mk x r' =>
    rw [hr] at h
    cases x with
    | error e' =>
      cases h
      exact hd r e (congrArg Prod.fst hr)
    | ok a => exact hf a r' e h

end Drawing

end CertEnroll
