/-!
Steps that keep a state and may fail, read as a function of the state they start in. What a chain of
steps gives is told by its first step and by what the rest gives from there.
-/

namespace DotHttp

variable {ε σ α β : Type}

/-- What steps give, and the state they leave, when they start in a state. -/
def runFrom (steps : ExceptT ε (StateM σ) α) (s : σ) : Except ε α × σ :=
  steps.run.run s

@[simp] theorem runFrom_pure (a : α) (s : σ) :
    runFrom (pure a : ExceptT ε (StateM σ) α) s = (.ok a, s) := rfl

@[simp] theorem runFrom_throw (e : ε) (s : σ) :
    runFrom (throw e : ExceptT ε (StateM σ) α) s = (.error e, s) := rfl

@[simp] theorem runFrom_get (s : σ) :
    runFrom (get : ExceptT ε (StateM σ) σ) s = (.ok s, s) := rfl

@[simp] theorem runFrom_set (t s : σ) :
    runFrom (set t : ExceptT ε (StateM σ) PUnit) s = (.ok ⟨⟩, t) := rfl

@[simp] theorem runFrom_modify (f : σ → σ) (s : σ) :
    runFrom (modify f : ExceptT ε (StateM σ) PUnit) s = (.ok ⟨⟩, f s) := rfl

theorem runFrom_bind (x : ExceptT ε (StateM σ) α) (f : α → ExceptT ε (StateM σ) β) (s : σ) :
    runFrom (x >>= f) s =
      match runFrom x s with
      | (.ok a, s') => runFrom (f a) s'
      | (.error e, s') => (.error e, s') := by
  simp only [runFrom, ExceptT.run_bind, StateT.run_bind]
  rcases x.run.run s with ⟨_ | _, _⟩ <;> rfl

theorem runFrom_bind_ok {x : ExceptT ε (StateM σ) α} {s s' : σ} {a : α}
    (h : runFrom x s = (.ok a, s')) (f : α → ExceptT ε (StateM σ) β) :
    runFrom (x >>= f) s = runFrom (f a) s' := by
  rw [runFrom_bind, h]

theorem runFrom_bind_error {x : ExceptT ε (StateM σ) α} {s s' : σ} {e : ε}
    (h : runFrom x s = (.error e, s')) (f : α → ExceptT ε (StateM σ) β) :
    runFrom (x >>= f) s = (.error e, s') := by
  rw [runFrom_bind, h]

/-- Steps that give something have given something at their first step too. -/
theorem runFrom_bind_eq_ok {x : ExceptT ε (StateM σ) α} {f : α → ExceptT ε (StateM σ) β}
    {s s' : σ} {b : β} (h : runFrom (x >>= f) s = (.ok b, s')) :
    ∃ a s₁, runFrom x s = (.ok a, s₁) ∧ runFrom (f a) s₁ = (.ok b, s') := by
  rw [runFrom_bind] at h
  split at h
  · exact ⟨_, _, ‹_›, h⟩
  · cases h

/-- Steps that fail have failed at their first step or after it. -/
theorem runFrom_bind_eq_error {x : ExceptT ε (StateM σ) α} {f : α → ExceptT ε (StateM σ) β}
    {s s' : σ} {e : ε} (h : runFrom (x >>= f) s = (.error e, s')) :
    runFrom x s = (.error e, s') ∨
      ∃ a s₁, runFrom x s = (.ok a, s₁) ∧ runFrom (f a) s₁ = (.error e, s') := by
  rw [runFrom_bind] at h
  split at h
  · exact .inr ⟨_, _, ‹_›, h⟩
  · cases h
    exact .inl ‹_›

theorem runFrom_map (f : α → β) (x : ExceptT ε (StateM σ) α) (s : σ) :
    runFrom (f <$> x) s = ((runFrom x s).1.map f, (runFrom x s).2) := by
  rw [← bind_pure_comp, runFrom_bind]
  rcases runFrom x s with ⟨_ | _, _⟩ <;> rfl

theorem bind_eq_ok_iff {x : Except ε α} {f : α → Except ε β} {b : β} :
    x >>= f = .ok b ↔ ∃ a, x = .ok a ∧ f a = .ok b := by
  cases x <;> simp [bind, Except.bind]

theorem bind_eq_error_iff {x : Except ε α} {f : α → Except ε β} {e : ε} :
    x >>= f = .error e ↔ x = .error e ∨ ∃ a, x = .ok a ∧ f a = .error e := by
  cases x <;> simp [bind, Except.bind]

theorem exists_map_error {x : Except ε α} {f : α → β} :
    (∃ e, x.map f = .error e) ↔ ∃ e, x = .error e := by
  cases x <;> simp [Except.map]

theorem map_eq_ok_iff {x : Except ε α} {f : α → β} {b : β} :
    x.map f = .ok b ↔ ∃ a, x = .ok a ∧ f a = b := by
  cases x <;> simp [Except.map]

theorem map_eq_error_iff {x : Except ε α} {f : α → β} {e : ε} :
    x.map f = .error e ↔ x = .error e := by
  cases x <;> simp [Except.map]

end DotHttp
