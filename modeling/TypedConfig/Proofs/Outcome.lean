import Mathlib.Data.List.Basic

namespace TypedConfig

variable {ε σ τ α β : Type} {s t : σ}

theorem except_bind_eq_error_iff {x : Except ε α} {f : α → Except ε β} {e : ε} :
    x >>= f = .error e ↔ x = .error e ∨ ∃ a, x = .ok a ∧ f a = .error e := by
  cases x with
  | error e' => simp [bind, Except.bind]
  | ok a => simp [bind, Except.bind]

theorem except_bind_eq_ok_iff {x : Except ε α} {f : α → Except ε β} {b : β} :
    x >>= f = .ok b ↔ ∃ a, x = .ok a ∧ f a = .ok b := by
  cases x with
  | error e => simp [bind, Except.bind]
  | ok a => simp [bind, Except.bind]

theorem except_map_eq_error_iff {f : α → β} {x : Except ε α} {e : ε} :
    f <$> x = .error e ↔ x = .error e := by
  cases x with
  | error e' => simp [Functor.map, Except.map]
  | ok a => simp [Functor.map, Except.map]

theorem except_mapError_eq_ok_iff {ε' : Type} {f : ε → ε'} {x : Except ε α} {a : α} :
    x.mapError f = .ok a ↔ x = .ok a := by
  cases x with
  | error e => simp [Except.mapError]
  | ok b => simp [Except.mapError]

/-- What a step returns or fails with, and the state it leaves behind. -/
def outcome (x : ExceptT ε (StateM σ) α) (s : σ) : Except ε α × σ :=
  (x.run.run s).run

theorem exists_outcome_of_fst {x : ExceptT ε (StateM σ) α} {result : Except ε α}
    (h : (outcome x s).1 = result) : ∃ t, outcome x s = (result, t) :=
  ⟨_, Prod.ext h rfl⟩

@[simp] theorem outcome_pure (a : α) : outcome (pure a : ExceptT ε (StateM σ) α) s = (.ok a, s) :=
  rfl

@[simp] theorem outcome_get : outcome (get : ExceptT ε (StateM σ) σ) s = (.ok s, s) :=
  rfl

@[simp] theorem outcome_set (t : σ) :
    outcome (set t : ExceptT ε (StateM σ) PUnit) s = (.ok ⟨⟩, t) :=
  rfl

@[simp] theorem outcome_modify (f : σ → σ) :
    outcome (modify f : ExceptT ε (StateM σ) PUnit) s = (.ok ⟨⟩, f s) :=
  rfl

@[simp] theorem outcome_ofExcept (result : Except ε α) :
    outcome (MonadExcept.ofExcept result : ExceptT ε (StateM σ) α) s = (result, s) := by
  cases result <;> rfl

section

variable {x : ExceptT ε (StateM σ) α} {f : α → ExceptT ε (StateM σ) β}

theorem outcome_bind : outcome (x >>= f) s = match outcome x s with
    | (.ok a, t) => outcome (f a) t
    | (.error e, t) => (.error e, t) := by
  unfold outcome
  rw [ExceptT.run_bind, StateT.run_bind, Id.run_bind]
  rcases (x.run.run s).run with ⟨e | a, t⟩
  · rfl
  · rfl

theorem outcome_bind_of_ok {a : α} (h : outcome x s = (.ok a, t)) :
    outcome (x >>= f) s = outcome (f a) t := by
  rw [outcome_bind, h]

theorem outcome_bind_of_error {e : ε} (h : outcome x s = (.error e, t)) :
    outcome (x >>= f) s = (.error e, t) := by
  rw [outcome_bind, h]

theorem outcome_bind_eq_ok {b : β} : outcome (x >>= f) s = (.ok b, t) ↔
    ∃ a between, outcome x s = (.ok a, between) ∧ outcome (f a) between = (.ok b, t) := by
  rw [outcome_bind]
  rcases outcome x s with ⟨e | a, between⟩
  · simp
  · simp

theorem outcome_map (g : α → β) :
    outcome (g <$> x) s = ((outcome x s).1.map g, (outcome x s).2) := by
  rw [map_eq_pure_bind, outcome_bind]
  rcases outcome x s with ⟨e | a, t⟩
  · rfl
  · rfl

/-- The step leaves what the view shows as it was, whether it fails or not. -/
def Keeps (view : σ → τ) (x : ExceptT ε (StateM σ) α) : Prop :=
  ∀ s, view (outcome x s).2 = view s

variable {view : σ → τ}

theorem Keeps.eq_of_outcome {result : Except ε α} (hx : Keeps view x)
    (h : outcome x s = (result, t)) : view t = view s := by
  have hs := hx s
  rwa [h] at hs

theorem keeps_pure (a : α) : Keeps view (pure a : ExceptT ε (StateM σ) α) :=
  fun _ => rfl

theorem keeps_throw (e : ε) : Keeps view (throw e : ExceptT ε (StateM σ) α) :=
  fun _ => rfl

theorem keeps_get : Keeps view (get : ExceptT ε (StateM σ) σ) :=
  fun _ => rfl

theorem keeps_ofExcept (result : Except ε α) :
    Keeps view (MonadExcept.ofExcept result : ExceptT ε (StateM σ) α) :=
  fun _ => by rw [outcome_ofExcept]

theorem Keeps.bind (hx : Keeps view x) (hf : ∀ a, Keeps view (f a)) : Keeps view (x >>= f) := by
  intro s
  rw [outcome_bind]
  rcases h : outcome x s with ⟨e | a, t⟩
  · exact hx.eq_of_outcome h
  · exact (hf a t).trans (hx.eq_of_outcome h)

end

end TypedConfig
