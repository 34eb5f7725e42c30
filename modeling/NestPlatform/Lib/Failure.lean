-- SUMMARY: What an effect throws and returns, and that it has written nothing when it throws.
import NestPlatform.Lib.Effect

/-!
# Failures

`Throws P x` says that every error of `x` satisfies `P`, `Returns P x` the same of its values.
`Atomic x` says that `x` writes nothing if it throws.
-/
namespace Effect

variable {σ ε α β : Type}

def Throws (P : ε → Prop) (x : Effect σ ε α) : Prop :=
  ∀ s s' e, x.exec s = (.error e, s') → P e

def Atomic (x : Effect σ ε α) : Prop := ∀ s s' e, x.exec s = (.error e, s') → s' = s

def Returns (P : α → Prop) (x : Effect σ ε α) : Prop := ∀ s s' a, x.exec s = (.ok a, s') → P a

/-- `x` writes nothing at all. -/
def Silent (x : Effect σ ε α) : Prop := ∀ s, (x.exec s).2 = s

theorem exec_map_eq_error {f : α → β} {x : Effect σ ε α} {s s' : σ} {e : ε}
    (h : exec (f <$> x) s = (.error e, s')) : x.exec s = (.error e, s') := by
  rw [exec_map] at h
  cases hs : x.exec s with
  | mk result s'' =>
    rw [hs] at h
    cases result with
    | error e' =>
      cases h
      rfl
    | ok a => cases h

namespace Throws

variable {P : ε → Prop}

theorem mono {Q : ε → Prop} {x : Effect σ ε α} (h : Throws P x) (hPQ : ∀ e, P e → Q e) :
    Throws Q x := fun s s' e hs => hPQ e (h s s' e hs)

theorem pure (a : α) : Throws P (pure a : Effect σ ε α) := by
  intro s s' e h
  cases h

theorem throw {e : ε} (h : P e) : Throws P (throw e : Effect σ ε α) := by
  intro s s' e' he
  cases he
  exact h

theorem bind {x : Effect σ ε α} {f : α → Effect σ ε β} (hx : Throws P x)
    (hf : ∀ a, Throws P (f a)) : Throws P (x >>= f) := by
  intro s s'' e h
  cases hs : x.exec s with
  | mk result s' =>
    cases result with
    | error e' =>
      rw [exec_bind_error hs] at h
      cases h
      exact hx _ _ _ hs
    | ok a =>
      rw [exec_bind_ok hs] at h
      exact hf a _ _ _ h

theorem map {x : Effect σ ε α} (f : α → β) (hx : Throws P x) : Throws P (f <$> x) :=
  fun _ _ _ h => hx _ _ _ (exec_map_eq_error h)

theorem tryCatch {x : Effect σ ε α} {handle : ε → Effect σ ε α} (hhandle : ∀ e, Throws P (handle e)) :
    Throws P (tryCatch x handle) := by
  intro s s' e h
  rw [exec_tryCatch] at h
  split at h
  · cases h
  · exact hhandle _ _ _ _ h

end Throws

namespace Atomic

theorem of_silent {x : Effect σ ε α} (h : Silent x) : Atomic x := by
  intro s s' e hs
  rw [← h s, hs]

theorem map {x : Effect σ ε α} (f : α → β) (hx : Atomic x) : Atomic (f <$> x) :=
  fun _ _ _ h => hx _ _ _ (exec_map_eq_error h)

theorem throw (e : ε) : Atomic (throw e : Effect σ ε α) := by
  intro s s' e' h
  cases h
  rfl

/-- A read before it does not matter. -/
theorem bind_silent {x : Effect σ ε α} {f : α → Effect σ ε β} (hx : Silent x)
    (hf : ∀ a, Atomic (f a)) : Atomic (x >>= f) := by
  intro s s'' e h
  have hkeep := hx s
  cases hs : x.exec s with
  | mk result s' =>
    rw [hs] at hkeep
    obtain rfl : s' = s := hkeep
    cases result with
    | error e' =>
      rw [exec_bind_error hs] at h
      cases h
      rfl
    | ok a =>
      rw [exec_bind_ok hs] at h
      exact hf a _ _ _ h

end Atomic

theorem Returns.map {P : β → Prop} {f : α → β} (hf : ∀ a, P (f a)) (x : Effect σ ε α) :
    Returns P (f <$> x) := by
  intro s s' b h
  obtain ⟨a, -, rfl⟩ := exec_map_eq_ok h
  exact hf a

end Effect
