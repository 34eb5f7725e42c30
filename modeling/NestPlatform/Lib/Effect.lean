-- SUMMARY: Computations on a state that survives a throw: how they run, and relations that every outcome keeps.
import Mathlib.Logic.Basic

/-!
# Effects

A service method reads and writes a store and may throw; what it wrote before the
throw stays written. `exec` runs an effect and its rules peel a `do` block apart.
`Keeps R x` says that `x` moves the state along `R` whatever its outcome; for a
reflexive and transitive `R` it follows rule by rule.
-/

/-- A computation on states `σ` that returns an `α` or throws an `ε`. -/
abbrev Effect (σ ε : Type) : Type → Type := ExceptT ε (StateM σ)

namespace Effect

variable {σ ε α β : Type}

/-- The outcome of `x` and the state after it, started in `s`. -/
def exec (x : Effect σ ε α) (s : σ) : Except ε α × σ := x.run.run s

/-- `x` on the part of the state that `get` reads and `put` writes. -/
def zoom {τ : Type} (get : σ → τ) (put : τ → σ → σ) (x : Effect τ ε α) : Effect σ ε α :=
  ExceptT.mk fun s => ((x.exec (get s)).1, put (x.exec (get s)).2 s)

/-! ## Running -/

@[simp] theorem exec_zoom {τ : Type} (get : σ → τ) (put : τ → σ → σ) (x : Effect τ ε α) (s : σ) :
    exec (zoom get put x) s = ((x.exec (get s)).1, put (x.exec (get s)).2 s) := rfl

@[simp] theorem exec_pure (a : α) (s : σ) : exec (pure a : Effect σ ε α) s = (.ok a, s) := rfl

@[simp] theorem exec_get (s : σ) : exec (get : Effect σ ε σ) s = (.ok s, s) := rfl

@[simp] theorem exec_modify (f : σ → σ) (s : σ) :
    exec (modify f : Effect σ ε Unit) s = (.ok (), f s) := rfl

@[simp] theorem exec_ofExcept (x : Except ε α) (s : σ) :
    exec (ofExcept x : Effect σ ε α) s = (x, s) := by
  cases x <;> rfl

theorem exec_bind (x : Effect σ ε α) (f : α → Effect σ ε β) (s : σ) :
    exec (x >>= f) s =
      match x.exec s with
      | (.ok a, s') => (f a).exec s'
      | (.error e, s') => (.error e, s') := by
  change (ExceptT.bind x f).run.run s = _
  unfold exec ExceptT.bind ExceptT.run ExceptT.mk
  simp only [StateT.run, bind, StateT.bind]
  rcases (x s : Except ε α × σ) with ⟨_ | a, s'⟩ <;> rfl

theorem exec_bind_ok {x : Effect σ ε α} {f : α → Effect σ ε β} {s s' : σ} {a : α}
    (h : x.exec s = (.ok a, s')) : exec (x >>= f) s = (f a).exec s' := by
  rw [exec_bind, h]

theorem exec_bind_error {x : Effect σ ε α} {f : α → Effect σ ε β} {s s' : σ} {e : ε}
    (h : x.exec s = (.error e, s')) : exec (x >>= f) s = (.error e, s') := by
  rw [exec_bind, h]

/-- A block that returns has returned from each of its parts. -/
theorem exec_bind_eq_ok {x : Effect σ ε α} {f : α → Effect σ ε β} {s s'' : σ} {b : β} :
    exec (x >>= f) s = (.ok b, s'') ↔
      ∃ a s', x.exec s = (.ok a, s') ∧ (f a).exec s' = (.ok b, s'') := by
  rw [exec_bind]
  rcases x.exec s with ⟨e | a, s'⟩
  · simp
  · constructor
    · intro h
      exact ⟨a, s', rfl, h⟩
    · rintro ⟨_, _, h, hf⟩
      cases h
      exact hf

@[simp] theorem exec_map (f : α → β) (x : Effect σ ε α) (s : σ) :
    exec (f <$> x) s = ((x.exec s).1.map f, (x.exec s).2) := by
  change (ExceptT.map f x).run.run s = _
  unfold exec ExceptT.map ExceptT.run ExceptT.mk
  simp only [StateT.run, bind, StateT.bind]
  rcases (x s : Except ε α × σ) with ⟨_ | a, s'⟩ <;> rfl

theorem exec_map_eq_ok {f : α → β} {x : Effect σ ε α} {s s' : σ} {b : β}
    (h : exec (f <$> x) s = (.ok b, s')) : ∃ a, x.exec s = (.ok a, s') ∧ f a = b := by
  rw [exec_map] at h
  rcases hx : x.exec s with ⟨e | a, s''⟩
  · rw [hx] at h
    cases h
  · rw [hx] at h
    cases h
    exact ⟨a, rfl, rfl⟩

theorem exec_tryCatch (x : Effect σ ε α) (handle : ε → Effect σ ε α) (s : σ) :
    exec (tryCatch x handle) s =
      match x.exec s with
      | (.ok a, s') => (.ok a, s')
      | (.error e, s') => (handle e).exec s' := by
  change (ExceptT.tryCatch x handle).run.run s = _
  unfold exec ExceptT.tryCatch ExceptT.run ExceptT.mk
  simp only [StateT.run, bind, StateT.bind]
  rcases (x s : Except ε α × σ) with ⟨_ | a, s'⟩ <;> rfl

/-! ## Relations that every outcome keeps -/

def Keeps (R : σ → σ → Prop) (x : Effect σ ε α) : Prop := ∀ s, R s (x.exec s).2

namespace Keeps

variable {R : σ → σ → Prop}

theorem pure (hrefl : ∀ s, R s s) (a : α) : Keeps R (pure a : Effect σ ε α) := hrefl

theorem throw (hrefl : ∀ s, R s s) (e : ε) : Keeps R (throw e : Effect σ ε α) := hrefl

theorem bind (htrans : ∀ {s s' s''}, R s s' → R s' s'' → R s s'') {x : Effect σ ε α}
    {f : α → Effect σ ε β} (hx : Keeps R x) (hf : ∀ a, Keeps R (f a)) : Keeps R (x >>= f) := by
  intro s
  have hs := hx s
  rw [exec_bind]
  cases h : x.exec s with
  | mk r s' =>
    rw [h] at hs
    cases r with
    | ok a => exact htrans hs (hf a s')
    | error e => exact hs

theorem tryCatch (htrans : ∀ {s s' s''}, R s s' → R s' s'' → R s s'') {x : Effect σ ε α}
    {handle : ε → Effect σ ε α} (hx : Keeps R x) (hhandle : ∀ e, Keeps R (handle e)) :
    Keeps R (tryCatch x handle) := by
  intro s
  have hs := hx s
  rw [exec_tryCatch]
  cases h : x.exec s with
  | mk r s' =>
    rw [h] at hs
    cases r with
    | ok a => exact hs
    | error e => exact htrans hs (hhandle e s')

end Keeps
end Effect
