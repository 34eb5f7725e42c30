-- SUMMARY: Lists as sets in order of insertion: what a sequence of insertions and removals makes of one.
import Mathlib.Data.List.Nodup
import Mathlib.Order.BooleanAlgebra.Set

/-!
# Lists as sets

A list without duplicates stands for a set and keeps the order in which its elements came in. An
edit adds an element at the end, if it is not there, or removes it.
-/
namespace OrderedSet

variable {α : Type*}

inductive Edit (α : Type*) where
  | add (a : α)
  | remove (a : α)

/-- The element that is added or removed. -/
def Edit.element : Edit α → α
  | .add a | .remove a => a

/-! ## Sets -/

def Edit.applySet : Edit α → Set α → Set α
  | .add a, s => insert a s
  | .remove a, s => s \ {a}

def runSet (es : List (Edit α)) (s : Set α) : Set α := es.foldl (fun s e => e.applySet s) s

/-- Edits of different elements commute. -/
theorem Edit.applySet_comm {e e' : Edit α} (h : e.element ≠ e'.element) (s : Set α) :
    e.applySet (e'.applySet s) = e'.applySet (e.applySet s) := by
  cases e with
  | add a =>
    cases e' with
    | add b => exact Set.insert_comm a b s
    | remove b =>
      have hne : a ∉ ({b} : Set α) := h
      exact (Set.insert_sdiff_of_notMem s hne).symm
  | remove a =>
    cases e' with
    | add b =>
      have hne : b ∉ ({a} : Set α) := fun hb => h hb.symm
      exact Set.insert_sdiff_of_notMem s hne
    | remove b =>
      change (s \ {b}) \ {a} = (s \ {a}) \ {b}
      rw [Set.sdiff_sdiff_comm]

/-! ## Lists -/

variable [DecidableEq α]

def Edit.apply : Edit α → List α → List α
  | .add a, xs => if a ∈ xs then xs else xs ++ [a]
  | .remove a, xs => xs.filter (· ≠ a)

def run (es : List (Edit α)) (xs : List α) : List α := es.foldl (fun xs e => e.apply xs) xs

theorem Edit.mem_apply (e : Edit α) (xs : List α) (a : α) :
    a ∈ e.apply xs ↔ a ∈ e.applySet {b | b ∈ xs} := by
  cases e with
  | add b =>
    change a ∈ (if b ∈ xs then xs else xs ++ [b]) ↔ a = b ∨ a ∈ xs
    split
    case isTrue hmem =>
      refine ⟨.inr, ?_⟩
      rintro (rfl | ha)
      · exact hmem
      · exact ha
    case isFalse =>
      rw [List.mem_append, List.mem_singleton, or_comm]
  | remove b =>
    change a ∈ xs.filter (· ≠ b) ↔ a ∈ xs ∧ a ≠ b
    simp

theorem Edit.nodup_apply (e : Edit α) {xs : List α} (h : xs.Nodup) : (e.apply xs).Nodup := by
  cases e with
  | add a =>
    change (if a ∈ xs then xs else xs ++ [a]).Nodup
    split
    case isTrue => exact h
    case isFalse hmem => simpa using h.concat hmem
  | remove a => exact h.filter _

/-- What the edit does not remove stays, in the same order. -/
theorem Edit.sublist_apply (e : Edit α) {xs ys : List α} (h : ys.Sublist xs)
    (hkept : ∀ a ∈ ys, e ≠ .remove a) : ys.Sublist (e.apply xs) := by
  cases e with
  | add a =>
    change ys.Sublist (if a ∈ xs then xs else xs ++ [a])
    split
    case isTrue => exact h
    case isFalse => exact h.trans (List.sublist_append_left xs [a])
  | remove a =>
    have hself : ys.filter (· ≠ a) = ys := by
      apply List.filter_eq_self.mpr
      intro b hb
      have hne : b ≠ a := fun hba => hkept b hb (by rw [hba])
      simp [hne]
    rw [← hself]
    exact h.filter _

theorem Edit.apply_apply (e : Edit α) (xs : List α) : e.apply (e.apply xs) = e.apply xs := by
  cases e with
  | add a =>
    have hmem : a ∈ (Edit.add a).apply xs := (mem_apply _ _ _).mpr (Set.mem_insert a _)
    exact if_pos hmem
  | remove a =>
    change (xs.filter (· ≠ a)).filter (· ≠ a) = xs.filter (· ≠ a)
    simp

/-! ## Sequences of edits -/

theorem run_append (es es' : List (Edit α)) (xs : List α) :
    run (es ++ es') xs = run es' (run es xs) := List.foldl_append

theorem mem_run (es : List (Edit α)) (xs : List α) (a : α) :
    a ∈ run es xs ↔ a ∈ runSet es {b | b ∈ xs} := by
  induction es generalizing xs with
  | nil => exact Iff.rfl
  | cons e es ih =>
    have hset : {b | b ∈ e.apply xs} = e.applySet {b | b ∈ xs} := Set.ext (e.mem_apply xs)
    have hrest := ih (e.apply xs)
    rw [hset] at hrest
    exact hrest

theorem nodup_run (es : List (Edit α)) {xs : List α} (h : xs.Nodup) : (run es xs).Nodup := by
  induction es generalizing xs with
  | nil => exact h
  | cons e es ih => exact ih (e.nodup_apply h)

/-- An edit that is made again has no effect. -/
theorem run_again (es : List (Edit α)) (e : Edit α) (xs : List α) :
    run (es ++ [e, e]) xs = run (es ++ [e]) xs := by
  rw [run_append, run_append]
  exact e.apply_apply (run es xs)

/-- What is never removed stays, in the same order. -/
theorem sublist_run (es : List (Edit α)) {xs ys : List α} (h : ys.Sublist xs)
    (hkept : ∀ a ∈ ys, Edit.remove a ∉ es) : ys.Sublist (run es xs) := by
  induction es generalizing xs with
  | nil => exact h
  | cons e es ih =>
    apply ih
    · apply e.sublist_apply h
      rintro a ha rfl
      exact hkept a ha List.mem_cons_self
    · intro a ha hmem
      exact hkept a ha (List.mem_cons_of_mem e hmem)

/-- Neighbouring edits of different elements can change places, up to the order of the list. -/
theorem run_swap_perm (before after : List (Edit α)) {e e' : Edit α} (h : e.element ≠ e'.element)
    {xs : List α} (hxs : xs.Nodup) :
    (run (before ++ e :: e' :: after) xs).Perm (run (before ++ e' :: e :: after) xs) := by
  apply (List.perm_ext_iff_of_nodup (nodup_run _ hxs) (nodup_run _ hxs)).mpr
  intro a
  have hset : runSet (before ++ e :: e' :: after) {b | b ∈ xs} =
      runSet (before ++ e' :: e :: after) {b | b ∈ xs} := by
    unfold runSet
    rw [List.foldl_append, List.foldl_append]
    change runSet after (e'.applySet (e.applySet _)) = runSet after (e.applySet (e'.applySet _))
    rw [Edit.applySet_comm h]
  rw [mem_run, mem_run, hset]

end OrderedSet
