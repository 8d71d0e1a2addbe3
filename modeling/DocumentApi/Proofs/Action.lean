import DocumentApi.Failure

/-!
Actions on a state that is kept also where they fail: what an action gives, and the state that it
leaves.
-/

set_option autoImplicit false

namespace DocumentApi

variable {ε σ α β : Type}

/-- What an action gives, and the state that it leaves. -/
def outcome (action : ExceptT ε (StateM σ) α) (s : σ) : Except ε α × σ := action.run.run s

@[simp] theorem outcome_pure (a : α) (s : σ) :
    outcome (pure a : ExceptT ε (StateM σ) α) s = (.ok a, s) := rfl

@[simp] theorem outcome_throw (e : ε) (s : σ) :
    outcome (throw e : ExceptT ε (StateM σ) α) s = (.error e, s) := rfl

@[simp] theorem outcome_get (s : σ) : outcome (get : ExceptT ε (StateM σ) σ) s = (.ok s, s) := rfl

@[simp] theorem outcome_set (s t : σ) :
    outcome (set t : ExceptT ε (StateM σ) PUnit) s = (.ok ⟨⟩, t) := rfl

@[simp] theorem outcome_modify (f : σ → σ) (s : σ) :
    outcome (modify f : ExceptT ε (StateM σ) PUnit) s = (.ok ⟨⟩, f s) := rfl

theorem exceptMap_eq_ok_iff {result : Except ε α} {f : α → β} {b : β} :
    result.map f = .ok b ↔ ∃ a, result = .ok a ∧ f a = b := by
  cases result <;> simp [Except.map]

section Sequence
variable {action : ExceptT ε (StateM σ) α} {next : α → ExceptT ε (StateM σ) β} {s t : σ}

theorem outcome_bind (action : ExceptT ε (StateM σ) α) (next : α → ExceptT ε (StateM σ) β) (s : σ) :
    outcome (action >>= next) s =
      match outcome action s with
      | (.ok a, t) => outcome (next a) t
      | (.error e, t) => (.error e, t) := by
  simp only [outcome, ExceptT.run_bind, StateT.run_bind]
  rcases h : StateT.run (ExceptT.run action) s with ⟨result, t⟩
  cases result <;> rfl

theorem outcome_bind_of_ok {a : α} (h : outcome action s = (.ok a, t)) :
    outcome (action >>= next) s = outcome (next a) t := by
  rw [outcome_bind, h]

theorem outcome_bind_of_error {e : ε} (h : outcome action s = (.error e, t)) :
    outcome (action >>= next) s = (.error e, t) := by
  rw [outcome_bind, h]

theorem outcome_bind_pure (action : ExceptT ε (StateM σ) α) (f : α → β) (s : σ) :
    outcome (action >>= fun a => pure (f a)) s =
      ((outcome action s).1.map f, (outcome action s).2) := by
  rw [outcome_bind]
  rcases outcome action s with ⟨result, t⟩
  cases result <;> rfl

theorem outcome_map (f : α → β) (action : ExceptT ε (StateM σ) α) (s : σ) :
    outcome (f <$> action) s = ((outcome action s).1.map f, (outcome action s).2) := by
  rw [map_eq_pure_bind, outcome_bind_pure]

theorem fst_outcome_map_eq_error_iff {f : α → β} {e : ε} :
    (outcome (f <$> action) s).1 = .error e ↔ (outcome action s).1 = .error e := by
  rw [outcome_map]
  cases (outcome action s).1 <;> simp [Except.map]

theorem fst_outcome_map_eq_ok_iff {f : α → β} {b : β} :
    (outcome (f <$> action) s).1 = .ok b ↔ ∃ a, (outcome action s).1 = .ok a ∧ f a = b := by
  rw [outcome_map, exceptMap_eq_ok_iff]

end Sequence

/-- An action of which nothing is told but whether it fails. -/
def effectOf (action : ExceptT ε (StateM σ) α) : ExceptT ε (StateM σ) Unit :=
  (fun _ => ()) <$> action

theorem outcome_effectOf (action : ExceptT ε (StateM σ) α) (s : σ) :
    outcome (effectOf action) s =
      ((outcome action s).1.map fun _ => (), (outcome action s).2) :=
  outcome_map _ action s

theorem effectOf_map (f : α → β) (action : ExceptT ε (StateM σ) α) :
    effectOf (f <$> action) = effectOf action := by
  rw [effectOf, effectOf, Functor.map_map]

theorem fst_outcome_effectOf_eq_error_iff {action : ExceptT ε (StateM σ) α} {s : σ} {e : ε} :
    (outcome (effectOf action) s).1 = .error e ↔ (outcome action s).1 = .error e :=
  fst_outcome_map_eq_error_iff

theorem outcome_tryCatch (action : ExceptT ε (StateM σ) α) (handle : ε → ExceptT ε (StateM σ) α)
    (s : σ) :
    outcome (tryCatch action handle) s =
      match outcome action s with
      | (.ok a, t) => (.ok a, t)
      | (.error e, t) => outcome (handle e) t := by
  change (let (result, t) := outcome action s
    StateT.run (match result with
      | .ok a => pure (Except.ok a)
      | .error e => ExceptT.run (handle e)) t) = _
  rcases outcome action s with ⟨result, t⟩
  cases result <;> rfl

end DocumentApi
