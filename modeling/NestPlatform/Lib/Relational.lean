-- SUMMARY: Two executions side by side: related outcomes, related states, and equal answers to the same requests.
import NestPlatform.Lib.Effect

/-!
# Two executions

`Relates R A x y s s'` compares `x` started in `s` with `y` started in `s'`: both throw the
same or return values related by `A`, and end in states related by `R`. The rules follow
the form of a `do` block. A relation that every request keeps makes the answers to a
sequence of requests equal.
-/
namespace Effect

variable {σ τ ε ℓ α β γ δ : Type}

/-- Both throw the same, or both return related values. -/
inductive Outcomes (A : α → β → Prop) : Except ε α → Except ε β → Prop where
  | ok {a : α} {b : β} : A a b → Outcomes A (.ok a) (.ok b)
  | error (e : ε) : Outcomes A (.error e) (.error e)

/-- Related values are known to be what was returned. -/
theorem Outcomes.traced {A : α → β → Prop} {x : Except ε α} {y : Except ε β} (h : Outcomes A x y) :
    Outcomes (fun a b => A a b ∧ x = .ok a ∧ y = .ok b) x y := by
  cases h with
  | ok hab => exact .ok ⟨hab, rfl, rfl⟩
  | error e => exact .error e

theorem Outcomes.of_eq {x y : Except ε α} (h : x = y) : Outcomes Eq x y := by
  subst h
  cases x with
  | ok a => exact .ok rfl
  | error e => exact .error e

theorem Outcomes.eq {x y : Except ε α} (h : Outcomes Eq x y) : x = y := by
  cases h with
  | ok h => rw [h]
  | error e => rfl

theorem Outcomes.map {A : α → β → Prop} {B : γ → δ → Prop} {f : α → γ} {g : β → δ}
    {x : Except ε α} {y : Except ε β} (h : Outcomes A x y) (hf : ∀ a b, A a b → B (f a) (g b)) :
    Outcomes B (x.map f) (y.map g) := by
  cases h with
  | ok hab => exact .ok (hf _ _ hab)
  | error e => exact .error e

structure Relates (R : σ → τ → Prop) (A : α → β → Prop) (x : Effect σ ε α) (y : Effect τ ε β)
    (s : σ) (s' : τ) : Prop where
  outcome : Outcomes A (x.exec s).1 (y.exec s').1
  state : R (x.exec s).2 (y.exec s').2

namespace Relates

variable {R : σ → τ → Prop} {A : α → β → Prop} {x : Effect σ ε α} {y : Effect τ ε β} {s : σ} {s' : τ}

theorem pure {a : α} {b : β} (hs : R s s') (h : A a b) :
    Relates R A (pure a : Effect σ ε α) (pure b) s s' := ⟨.ok h, hs⟩

theorem throw (hs : R s s') (e : ε) :
    Relates R A (throw e : Effect σ ε α) (throw e) s s' := ⟨.error e, hs⟩

theorem get (hs : R s s') : Relates R R (get : Effect σ ε σ) (get : Effect τ ε τ) s s' :=
  ⟨.ok hs, hs⟩

theorem set {t : σ} {t' : τ} (ht : R t t') :
    Relates R Eq (set t : Effect σ ε PUnit) (set t') s s' := ⟨.ok rfl, ht⟩

/-- Both return related values or both throw the same, in related states. -/
theorem cases (hx : Relates R A x y s s') :
    (∃ a b t t', x.exec s = (.ok a, t) ∧ y.exec s' = (.ok b, t') ∧ A a b ∧ R t t') ∨
      ∃ e t t', x.exec s = (.error e, t) ∧ y.exec s' = (.error e, t') ∧ R t t' := by
  obtain ⟨houtcome, hstate⟩ := hx
  cases hl : x.exec s with
  | mk r t =>
    cases hr : y.exec s' with
    | mk r' t' =>
      rw [hl, hr] at houtcome hstate
      cases houtcome with
      | ok hab => exact .inl ⟨_, _, t, t', rfl, rfl, hab, hstate⟩
      | error e => exact .inr ⟨e, t, t', rfl, rfl, hstate⟩

theorem bind {B : γ → δ → Prop} {f : α → Effect σ ε γ} {g : β → Effect τ ε δ}
    (hx : Relates R A x y s s')
    (hf : ∀ a b t t', A a b → R t t' → Relates R B (f a) (g b) t t') :
    Relates R B (x >>= f) (y >>= g) s s' := by
  rcases hx.cases with ⟨a, b, t, t', hl, hr, hab, hstate⟩ | ⟨e, t, t', hl, hr, hstate⟩
  · have hnext := hf a b t t' hab hstate
    constructor
    · rw [exec_bind_ok hl, exec_bind_ok hr]
      exact hnext.outcome
    · rw [exec_bind_ok hl, exec_bind_ok hr]
      exact hnext.state
  · constructor
    · rw [exec_bind_error hl, exec_bind_error hr]
      exact .error e
    · rw [exec_bind_error hl, exec_bind_error hr]
      exact hstate

theorem map {B : γ → δ → Prop} {f : α → γ} {g : β → δ} (hx : Relates R A x y s s')
    (hf : ∀ a b, A a b → B (f a) (g b)) : Relates R B (f <$> x) (g <$> y) s s' := by
  constructor
  · rw [exec_map, exec_map]
    exact hx.outcome.map hf
  · rw [exec_map, exec_map]
    exact hx.state

theorem map_eq {y : Effect τ ε α} (hx : Relates R Eq x y s s') (f : α → γ) :
    Relates R Eq (f <$> x) (f <$> y) s s' := hx.map fun _ _ h => congrArg f h

theorem tryCatch {handle : ε → Effect σ ε α} {handle' : ε → Effect τ ε β}
    (hx : Relates R A x y s s')
    (hhandle : ∀ e t t', R t t' → Relates R A (handle e) (handle' e) t t') :
    Relates R A (tryCatch x handle) (tryCatch y handle') s s' := by
  rcases hx.cases with ⟨a, b, t, t', hl, hr, hab, hstate⟩ | ⟨e, t, t', hl, hr, hstate⟩
  · constructor
    · rw [exec_tryCatch, exec_tryCatch, hl, hr]
      exact .ok hab
    · rw [exec_tryCatch, exec_tryCatch, hl, hr]
      exact hstate
  · have hnext := hhandle e t t' hstate
    constructor
    · rw [exec_tryCatch, exec_tryCatch, hl, hr]
      exact hnext.outcome
    · rw [exec_tryCatch, exec_tryCatch, hl, hr]
      exact hnext.state

end Relates

/-! ## Sequences of requests -/

/-- The answers to requests made one after the other. -/
def answers (run : ℓ → Effect σ ε α) : σ → List ℓ → List (Except ε α)
  | _, [] => []
  | s, l :: ls => ((run l).exec s).1 :: answers run ((run l).exec s).2 ls

/-- `Cond` holds of the two states and the request whenever one is made. -/
def Along (run : ℓ → Effect σ ε α) (Cond : σ → σ → ℓ → Prop) : σ → σ → List ℓ → Prop
  | _, _, [] => True
  | s, s', l :: ls =>
    Cond s s' l ∧ Along run Cond ((run l).exec s).2 ((run l).exec s').2 ls

variable {run : ℓ → Effect σ ε α}

/-- If each request has equal outcomes in related states and keeps them related, a sequence
of requests has equal answers. -/
theorem answers_eq {R : σ → σ → Prop} {Cond : σ → σ → ℓ → Prop}
    (hstep : ∀ s s' l, R s s' → Cond s s' l → Relates R Eq (run l) (run l) s s') {s s' : σ}
    {ls : List ℓ} (hs : R s s') (h : Along run Cond s s' ls) :
    answers run s ls = answers run s' ls := by
  induction ls generalizing s s' with
  | nil => rfl
  | cons l ls ih =>
    have hl := hstep s s' l hs h.1
    exact congrArg₂ List.cons hl.outcome.eq (ih hl.state h.2)

/-- Requests that leave the state alone are all answered in the first state. -/
theorem answers_of_readOnly {s : σ} {ls : List ℓ} (h : ∀ l ∈ ls, ((run l).exec s).2 = s) :
    answers run s ls = ls.map fun l => ((run l).exec s).1 := by
  induction ls with
  | nil => rfl
  | cons l ls ih =>
    rw [answers, h l List.mem_cons_self, ih fun l' hl' => h l' (List.mem_cons_of_mem _ hl')]
    rfl

end Effect
