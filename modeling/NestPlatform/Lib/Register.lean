-- SUMMARY: A state that answers show: between two answers that differ there is a request that writes.
import NestPlatform.Lib.Transition

/-!
# Registers

Answers show the value of a register. If each shows what the register holds once the request has
been served, and a request that only reads leaves it alone, then the answers of a run agree for as
long as nobody writes.
-/
namespace Transition

variable {σ ℓ ν : Type*}

/-- What an answer shows is held from then on, until a request writes. -/
structure Register (after : ℓ → σ → σ) (holds : σ → Option ν) (Shows : ℓ → σ → ν → Prop)
    (Spares : ℓ → Prop) : Prop where
  shown : ∀ l s v, Shows l s v → holds (after l s) = some v
  spared : ∀ l s, Spares l → holds (after l s) = holds s

namespace Register

variable {after : ℓ → σ → σ} {holds : σ → Option ν} {Shows : ℓ → σ → ν → Prop} {Spares : ℓ → Prop}
variable {s s' : σ} {l : ℓ} {ls : List ℓ} {v : ν}

/-- A run without writes ends with what it began with. -/
theorem holds_of_run (h : Register after holds Shows Spares)
    (hrun : Run (Meeting (fun s l s' => s' = after l s) fun _ l => Spares l) s ls s') :
    holds s' = holds s := by
  have hstep : ∀ t l t', holds t = holds s → Meeting (fun s l s' => s' = after l s)
      (fun _ l => Spares l) t l t' → holds t' = holds s := by
    rintro t l _ ht ⟨rfl, hspares⟩
    exact (h.spared l t hspares).trans ht
  exact hrun.invariant hstep rfl

/-- What an answer has shown is still held after a run without writes. -/
theorem holds_of_shown (h : Register after holds Shows Spares) (hshows : Shows l s v)
    (hrun : Run (Meeting (fun s l s' => s' = after l s) fun _ l => Spares l) (after l s) ls s') :
    holds s' = some v :=
  (h.holds_of_run hrun).trans (h.shown l s v hshows)

/-- Two answers show the same if nobody has written in between. -/
theorem coherent (h : Register after holds Shows Spares) (hshows : Shows l s v)
    (hrun : Run (Meeting (fun s l s' => s' = after l s) fun _ l => Spares l) (after l s) ls s')
    {m : ℓ} {w : ν} (hspares : Spares m) (hagain : Shows m s' w) : w = v := by
  have hheld : holds (after m s') = some v :=
    (h.spared m s' hspares).trans (h.holds_of_shown hshows hrun)
  exact Option.some.inj ((h.shown m s' w hagain).symm.trans hheld)

end Register
end Transition
