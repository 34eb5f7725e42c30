-- SUMMARY: Attempts at one request: when making it again comes to the same as making it once.
import NestPlatform.Lib.Transition

/-!
# Retries

A request may be made more than once, and an attempt may be lost on the way. Attempts that settle
have one effect, and it is not doubled, up to a relation on states. Then a run of attempts comes to
the same as any one of those that arrived.
-/
namespace Transition

variable {σ ι κ ℓ : Type*} {R : σ → σ → Prop}

/-! ## Actions -/

/-- Whichever action is taken, the effect is the same, and taking another adds nothing. -/
structure Settles (R : σ → σ → Prop) (act : ι → σ → σ) : Prop where
  congr : ∀ i j s t, R s t → R (act i s) (act j t)
  absorb : ∀ i j s, R (act j (act i s)) (act i s)

theorem Settles.of_keeps (hrefl : ∀ s, R s s) {act : ι → σ → σ} (hkeeps : ∀ i s, act i s = s) :
    Settles R act where
  congr i j s t h := by
    rw [hkeeps, hkeeps]
    exact h
  absorb i j s := by
    rw [hkeeps]
    exact hrefl _

/-- Whatever has been shown with one of the actions at hand. -/
theorem Settles.of_each {act : ι → σ → σ} (h : ι → Settles R act) : Settles R act where
  congr i := (h i).congr i
  absorb i := (h i).absorb i

/-- Fewer actions, or others that do the same. -/
theorem Settles.reindex {act : ι → σ → σ} (h : Settles R act) {act' : κ → σ → σ} (g : κ → ι)
    (heq : ∀ k s, act' k s = act (g k) s) : Settles R act' where
  congr i j s t hst := by
    rw [heq, heq]
    exact h.congr _ _ _ _ hst
  absorb i j s := by
    rw [heq, heq]
    exact h.absorb _ _ _

/-! ## Attempts -/

/-- The attempts at a request, with those among them that arrive. -/
structure Repeatable (after : ℓ → σ → σ) (Attempt Arrives : ℓ → Prop) (R : σ → σ → Prop) : Prop where
  equiv : Equivalence R
  lost : ∀ l s, Attempt l → ¬ Arrives l → after l s = s
  settles : Settles R fun l : {l // Attempt l ∧ Arrives l} => after l.1

/-- What the attempts of a run come to. -/
structure Once (after : ℓ → σ → σ) (Arrives : ℓ → Prop) (R : σ → σ → Prop) (s : σ) (ls : List ℓ)
    (s' : σ) : Prop where
  some : ∀ l ∈ ls, Arrives l → R s' (after l s)
  none : (∀ l ∈ ls, ¬ Arrives l) → s' = s

variable {after : ℓ → σ → σ} {Attempt Arrives : ℓ → Prop}

theorem Once.lost {s s' : σ} {ls : List ℓ} (h : Once after Arrives R s ls s') {l : ℓ}
    (hl : ¬ Arrives l) : Once after Arrives R s (ls ++ [l]) s' := by
  constructor
  · intro m hm harrives
    cases List.mem_append.mp hm with
    | inl hold => exact h.some m hold harrives
    | inr hnew =>
      obtain rfl := List.mem_singleton.mp hnew
      exact absurd harrives hl
  · intro hnone
    exact h.none fun m hm => hnone m (List.mem_append_left _ hm)

/-- One more attempt that arrives adds nothing. -/
theorem Repeatable.once_snoc (h : Repeatable after Attempt Arrives R) {s s' : σ} {ls : List ℓ}
    (hls : ∀ l ∈ ls, Attempt l) (honce : Once after Arrives R s ls s') {l : ℓ} (hattempt : Attempt l)
    (harrives : Arrives l) : Once after Arrives R s (ls ++ [l]) (after l s') := by
  let last : {l // Attempt l ∧ Arrives l} := ⟨l, hattempt, harrives⟩
  have hsame : R (after l s') (after l s) := by
    by_cases hsome : ∃ n ∈ ls, Arrives n
    · obtain ⟨n, hn, hfirst⟩ := hsome
      let first : {l // Attempt l ∧ Arrives l} := ⟨n, hls n hn, hfirst⟩
      have hagain : R (after l s') (after l (after n s)) :=
        h.settles.congr last last _ _ (honce.some n hn hfirst)
      have habsorbed : R (after l (after n s)) (after n s) := h.settles.absorb first last s
      have hone : R (after n s) (after l s) := h.settles.congr first last s s (h.equiv.refl s)
      exact h.equiv.trans hagain (h.equiv.trans habsorbed hone)
    · have hnone : ∀ n ∈ ls, ¬ Arrives n := fun n hn hfirst => hsome ⟨n, hn, hfirst⟩
      rw [honce.none hnone]
      exact h.equiv.refl _
  constructor
  · intro m hm hm'
    have hmattempt : Attempt m := by
      cases List.mem_append.mp hm with
      | inl hold => exact hls m hold
      | inr hnew => exact List.mem_singleton.mp hnew ▸ hattempt
    have hone : R (after l s) (after m s) :=
      h.settles.congr last ⟨m, hmattempt, hm'⟩ s s (h.equiv.refl s)
    exact h.equiv.trans hsame hone
  · intro hnone
    exact absurd harrives (hnone l (List.mem_append_right _ (List.mem_singleton_self l)))

/-- A run of attempts comes to any one of those that arrived, and else to nothing. -/
theorem Repeatable.run (h : Repeatable after Attempt Arrives R) {s s' : σ} {ls : List ℓ}
    (hrun : Run (fun s l s' => s' = after l s) s ls s') (hls : ∀ l ∈ ls, Attempt l) :
    Once after Arrives R s ls s' := by
  induction hrun with
  | nil =>
    constructor
    · intro l hl
      cases hl
    · intro _
      rfl
  | @snoc s' _ _ l _ hlast ih =>
    obtain rfl := hlast
    have hbefore := fun m hm => hls m (List.mem_append_left _ hm)
    have hattempt : Attempt l := hls l (List.mem_append_right _ (List.mem_singleton_self l))
    by_cases harrives : Arrives l
    · exact h.once_snoc hbefore (ih hbefore) hattempt harrives
    · rw [h.lost l s' hattempt harrives]
      exact (ih hbefore).lost harrives

end Transition
