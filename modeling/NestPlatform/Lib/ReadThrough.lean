-- SUMMARY: Readers that fill a cache from a source and writers that invalidate it, and when the cache is left fresh.
import NestPlatform.Lib.Transition
import Mathlib.Logic.Function.Basic

/-!
# Read-through caches

A reader looks into the cache, on a miss reads the source, and later caches what it
has read. A writer changes the source and later drops the cached value. A cached
value that is not the source's can only be there for good if a reader caches an old
value when no writer is about to drop it.
-/
namespace ReadThrough

open Transition

variable {ι α κ : Type*}

/-! ## Caches -/

/-- What the clients do to a cache `κ` of a value `α`. -/
structure Cache (α κ : Type*) where
  hit : κ → Prop
  set : α → κ → κ
  del : κ → κ
  /-- What may become of the cache while no client uses it. -/
  Elapses : κ → κ → Prop

/-- `Shows k a`: what the cache `k` holds, if anything, is the value `a`. -/
structure Cache.Lawful (C : Cache α κ) (Shows : κ → α → Prop) : Prop where
  set : ∀ {k a}, Shows k a → Shows (C.set a k) a
  del : ∀ k a, Shows (C.del k) a
  elapse : ∀ {k k' a}, C.Elapses k k' → Shows k a → Shows k' a

/-! ## Clients -/

inductive Job (α : Type*) where
  | read
  | update (a : α)

inductive Stage (α : Type*) where
  | waiting
  /-- A reader that has missed. -/
  | missed
  /-- A reader that has read the source. -/
  | fetched (a : α)
  /-- A writer that has written the source. -/
  | written
  | done

structure State (ι α κ : Type*) where
  source : α
  cache : κ
  stage : ι → Stage α

inductive Label (ι : Type*) where
  | get (i : ι)
  | fetch (i : ι)
  | set (i : ι)
  | write (i : ι)
  | del (i : ι)
  | elapse

/-- A writer is about to drop the cached value. -/
def State.Pending (s : State ι α κ) : Prop := ∃ i, s.stage i = .written

variable [DecidableEq ι]

/-- The state with client `i` at the given stage. -/
def State.moveTo (s : State ι α κ) (i : ι) (st : Stage α) : State ι α κ :=
  { s with stage := Function.update s.stage i st }

inductive Step (C : Cache α κ) (job : ι → Job α) : State ι α κ → Label ι → State ι α κ → Prop where
  | hit {s : State ι α κ} {i : ι} : job i = .read → s.stage i = .waiting → C.hit s.cache →
      Step C job s (.get i) (s.moveTo i .done)
  | miss {s : State ι α κ} {i : ι} : job i = .read → s.stage i = .waiting → ¬ C.hit s.cache →
      Step C job s (.get i) (s.moveTo i .missed)
  | fetch {s : State ι α κ} {i : ι} : s.stage i = .missed →
      Step C job s (.fetch i) (s.moveTo i (.fetched s.source))
  | set {s : State ι α κ} {i : ι} {a : α} : s.stage i = .fetched a →
      Step C job s (.set i) (State.moveTo { s with cache := C.set a s.cache } i .done)
  | write {s : State ι α κ} {i : ι} {a : α} : job i = .update a → s.stage i = .waiting →
      Step C job s (.write i) (State.moveTo { s with source := a } i .written)
  | del {s : State ι α κ} {i : ι} : s.stage i = .written →
      Step C job s (.del i) (State.moveTo { s with cache := C.del s.cache } i .done)
  | elapse {s : State ι α κ} {k : κ} : C.Elapses s.cache k →
      Step C job s .elapse { s with cache := k }

/-! ## Freshness -/

omit [DecidableEq ι] in
/-- A reader caches the value that the source has, or nothing, or a writer is about to drop it. -/
def Timely (C : Cache α κ) (s : State ι α κ) : Label ι → Prop
  | .set i => ∀ a, s.stage i = .fetched a → a = s.source ∨ C.set a s.cache = s.cache ∨ s.Pending
  | _ => True

/-- The cache shows the source's value, or a writer is about to drop what it shows. -/
def Fresh (Shows : κ → α → Prop) (s : State ι α κ) : Prop := Shows s.cache s.source ∨ s.Pending

section

variable {C : Cache α κ} {Shows : κ → α → Prop} {job : ι → Job α} {s s' : State ι α κ}

/-- A client that is not about to drop the value moves on. -/
theorem State.Pending.moveTo (h : s.Pending) {i : ι} {st : Stage α} (hi : s.stage i ≠ .written) :
    (s.moveTo i st).Pending := by
  obtain ⟨j, hj⟩ := h
  have hne : j ≠ i := by
    rintro rfl
    exact hi hj
  exact ⟨j, (Function.update_of_ne hne _ _).trans hj⟩

theorem Fresh.moveTo (h : Fresh Shows s) {i : ι} {st : Stage α} (hi : s.stage i ≠ .written) :
    Fresh Shows (s.moveTo i st) := h.imp_right fun hpending => hpending.moveTo hi

theorem Fresh.step (hC : C.Lawful Shows) {l : Label ι} (h : Fresh Shows s)
    (hstep : Meeting (Step C job) (Timely C) s l s') : Fresh Shows s' := by
  obtain ⟨hstep, htimely⟩ := hstep
  cases hstep with
  | hit _ hwaiting _ | miss _ hwaiting _ =>
    apply h.moveTo
    simp [hwaiting]
  | fetch hmissed =>
    apply h.moveTo
    simp [hmissed]
  | @set i a hfetched =>
    have hne : s.stage i ≠ .written := by simp [hfetched]
    have hcached : Fresh Shows { s with cache := C.set a s.cache } := by
      rcases htimely a hfetched with rfl | hsame | hpending
      · exact h.imp_left hC.set
      · rw [hsame]
        exact h
      · exact .inr hpending
    exact hcached.moveTo hne
  | @write i a _ _ => exact .inr ⟨i, Function.update_self ..⟩
  | del _ => exact .inl (hC.del _ _)
  | elapse helapses => exact h.imp_left (hC.elapse helapses)

/-- In a run whose readers cache in time, the cache is left showing the source's value. -/
theorem shows_of_run (hC : C.Lawful Shows) {ls : List (Label ι)} (hstart : Shows s.cache s.source)
    (h : Run (Meeting (Step C job) (Timely C)) s ls s') (hdone : ∀ i, s'.stage i = .done) :
    Shows s'.cache s'.source := by
  have hfresh : Fresh Shows s' := h.invariant (fun _ _ _ hs hstep => hs.step hC hstep) (.inl hstart)
  rcases hfresh with hshows | ⟨i, hi⟩
  · exact hshows
  · rw [hdone i] at hi
    cases hi

end

end ReadThrough
