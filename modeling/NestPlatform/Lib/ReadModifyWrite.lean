-- SUMMARY: Clients that read a shared value and later write it back modified, and when this is as good as one after the other.
import Mathlib.Data.List.Nodup
import Mathlib.Logic.Function.Basic
import NestPlatform.Lib.Transition

/-!
# Read, modify, write

Each client changes a shared value in two steps: it reads the value, and later
writes back its modification of what it read. A client that has nothing to modify
ends after its read. If every write finds the value that its client read, the run
has the effect of the modifications made one after the other.
-/
namespace ReadModifyWrite

open Transition

variable {ι α : Type*}

inductive Stage (α : Type*) where
  | waiting
  | holding (a : α)
  | done

def Stage.map {β : Type*} (f : α → β) : Stage α → Stage β
  | .waiting => .waiting
  | .holding a => .holding (f a)
  | .done => .done

structure State (ι α : Type*) where
  value : α
  stage : ι → Stage α

inductive Label (ι : Type*) where
  | read (i : ι)
  | write (i : ι)

/-- The modifications made one after the other. -/
def inOrder (modify : ι → α → α) (order : List ι) (a : α) : α :=
  order.foldl (fun a i => modify i a) a

theorem inOrder_snoc (modify : ι → α → α) (order : List ι) (i : ι) (a : α) :
    inOrder modify (order ++ [i]) a = modify i (inOrder modify order a) := by
  simp [inOrder]

/-- A client that writes finds the value it read. -/
def Fresh (s : State ι α) : Label ι → Prop
  | .read _ => True
  | .write i => ∀ a, s.stage i = .holding a → a = s.value

variable [DecidableEq ι]

/-- The state with client `i` at the given stage. -/
def State.moveTo (s : State ι α) (i : ι) (st : Stage α) : State ι α :=
  { s with stage := Function.update s.stage i st }

inductive Step (modify : ι → α → α) : State ι α → Label ι → State ι α → Prop where
  | read {s : State ι α} {i : ι} : s.stage i = .waiting →
      Step modify s (.read i) (s.moveTo i (.holding s.value))
  | skip {s : State ι α} {i : ι} : s.stage i = .waiting → modify i s.value = s.value →
      Step modify s (.read i) (s.moveTo i .done)
  | write {s : State ι α} {i : ι} {a : α} : s.stage i = .holding a →
      Step modify s (.write i) (State.moveTo { s with value := modify i a } i .done)

/-- `order` lists the clients that are done, and the value is what they made of `a₀`. -/
structure Linear (modify : ι → α → α) (a₀ : α) (order : List ι) (s : State ι α) : Prop where
  nodup : order.Nodup
  done : ∀ i, i ∈ order ↔ s.stage i = .done
  value : s.value = inOrder modify order a₀

namespace Linear

variable {modify : ι → α → α} {a₀ : α} {order : List ι} {s s' : State ι α} {i : ι}

/-- A step that does not end its client leaves the order as it is. -/
theorem keep (h : Linear modify a₀ order s) {a : α} (hi : s.stage i ≠ .done) :
    Linear modify a₀ order (s.moveTo i (.holding a)) := by
  refine ⟨h.nodup, ?_, h.value⟩
  intro j
  rw [h.done j]
  by_cases hj : j = i
  · subst hj
    simp [State.moveTo, hi]
  · simp [State.moveTo, hj]

/-- A step that ends its client puts it last. -/
theorem finish (h : Linear modify a₀ order s) {a : α} (hi : s.stage i ≠ .done)
    (ha : a = modify i s.value) :
    Linear modify a₀ (order ++ [i]) (State.moveTo { s with value := a } i .done) := by
  have hnew : i ∉ order := fun hmem => hi ((h.done i).mp hmem)
  refine ⟨?_, ?_, ?_⟩
  · exact List.nodup_append.mpr ⟨h.nodup, List.nodup_singleton i, by
      rintro j hj _ hj' rfl
      exact hnew (List.mem_singleton.mp hj' ▸ hj)⟩
  · intro j
    rw [List.mem_append, List.mem_singleton, h.done j]
    by_cases hj : j = i
    · subst hj
      simp [State.moveTo]
    · simp [State.moveTo, hj]
  · rw [inOrder_snoc, ← h.value]
    exact ha

theorem step {l : Label ι} (h : Linear modify a₀ order s)
    (hstep : Meeting (Step modify) Fresh s l s') : ∃ order', Linear modify a₀ order' s' := by
  obtain ⟨hstep, hfresh⟩ := hstep
  cases hstep with
  | read hwaiting => exact ⟨order, h.keep (by simp [hwaiting])⟩
  | @skip i hwaiting hskip =>
    exact ⟨order ++ [i], h.finish (a := s.value) (by simp [hwaiting]) hskip.symm⟩
  | @write i a hholding =>
    obtain rfl := hfresh a hholding
    exact ⟨order ++ [i], h.finish (by simp [hholding]) rfl⟩

end Linear

/-- A run in which every write finds what its client read is a sequential run of the
clients that are done. -/
theorem linear_of_run {modify : ι → α → α} {s s' : State ι α} {ls : List (Label ι)}
    (h : Run (Meeting (Step modify) Fresh) s ls s') (hstart : ∀ i, s.stage i = .waiting) :
    ∃ order, Linear modify s.value order s' := by
  induction h with
  | nil => exact ⟨[], List.nodup_nil, by simp [hstart], rfl⟩
  | snoc _ hlast ih =>
    obtain ⟨order, hlinear⟩ := ih
    exact hlinear.step hlast

end ReadModifyWrite
