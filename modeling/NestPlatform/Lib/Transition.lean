-- SUMMARY: Labelled transition systems: runs, steps that meet a condition, and invariants of a run.
import Mathlib.Data.List.Basic

/-!
# Transition systems

A system is a step relation between states, labelled with what happened. A run
is a finite sequence of steps. The rules below reduce a property of every state
of a run to one step.
-/
namespace Transition

variable {σ ℓ : Type*}

/-- `Run Step s ls s'`: from `s`, the steps labelled `ls` lead to `s'`. -/
inductive Run (Step : σ → ℓ → σ → Prop) : σ → List ℓ → σ → Prop where
  | nil (s : σ) : Run Step s [] s
  | snoc {s s' s'' : σ} {ls : List ℓ} {l : ℓ} :
      Run Step s ls s' → Step s' l s'' → Run Step s (ls ++ [l]) s''

/-- The steps taken where `Cond` holds of the state before the step and its label. -/
def Meeting (Step : σ → ℓ → σ → Prop) (Cond : σ → ℓ → Prop) : σ → ℓ → σ → Prop :=
  fun s l s' => Step s l s' ∧ Cond s l

/-- The states that a run can reach from a state in `Init`. -/
def Reachable (Init : σ → Prop) (Step : σ → ℓ → σ → Prop) (s : σ) : Prop :=
  ∃ s₀ ls, Init s₀ ∧ Run Step s₀ ls s

variable {Step : σ → ℓ → σ → Prop} {Init : σ → Prop}

/-- A property that each step preserves is preserved by a run. -/
theorem Run.invariant {Inv : σ → Prop} {s s' : σ} {ls : List ℓ} (h : Run Step s ls s')
    (hstep : ∀ s l s', Inv s → Step s l s' → Inv s') (hs : Inv s) : Inv s' := by
  induction h with
  | nil => exact hs
  | snoc _ hlast ih => exact hstep _ _ _ ih hlast

theorem Run.mono {Step' : σ → ℓ → σ → Prop} {s s' : σ} {ls : List ℓ} (h : Run Step s ls s')
    (hstep : ∀ s l s', Step s l s' → Step' s l s') : Run Step' s ls s' := by
  induction h with
  | nil => exact .nil _
  | snoc _ hlast ih => exact ih.snoc (hstep _ _ _ hlast)

/-- A run whose steps all meet a condition is a run. -/
theorem Run.unmeet {Cond : σ → ℓ → Prop} {s s' : σ} {ls : List ℓ}
    (h : Run (Meeting Step Cond) s ls s') : Run Step s ls s' :=
  h.mono fun _ _ _ hstep => hstep.1

/-- One run after the other. -/
theorem Run.append {s s' s'' : σ} {ls ls' : List ℓ} (h : Run Step s ls s')
    (h' : Run Step s' ls' s'') : Run Step s (ls ++ ls') s'' := by
  induction h' with
  | nil => exact (List.append_nil ls).symm ▸ h
  | snoc _ hlast ih => exact List.append_assoc ls _ _ ▸ ih.snoc hlast

/-- A run can be cut where its labels are. -/
theorem Run.append_inv {s s'' : σ} {ls ls' : List ℓ} (h : Run Step s (ls ++ ls') s'') :
    ∃ s', Run Step s ls s' ∧ Run Step s' ls' s'' := by
  generalize hall : ls ++ ls' = all at h
  induction h generalizing ls' with
  | nil =>
    obtain ⟨rfl, rfl⟩ := List.append_eq_nil_iff.mp hall
    exact ⟨_, .nil _, .nil _⟩
  | snoc hrun hlast ih =>
    rcases List.eq_nil_or_concat ls' with rfl | ⟨front, last, rfl⟩
    · rw [List.append_nil] at hall
      exact ⟨_, hall ▸ hrun.snoc hlast, .nil _⟩
    · rw [List.concat_eq_append, ← List.append_assoc] at hall
      obtain ⟨hfront, hlabel⟩ := List.append_inj' hall rfl
      obtain rfl := List.singleton_inj.mp hlabel
      obtain ⟨s', hbefore, hafter⟩ := ih hfront
      rw [List.concat_eq_append]
      exact ⟨s', hbefore, hafter.snoc hlast⟩

theorem Run.nil_inv {s s' : σ} (h : Run Step s [] s') : s' = s := by
  generalize hnone : ([] : List ℓ) = labels at h
  cases h with
  | nil => rfl
  | snoc hrun hlast => simp at hnone

theorem Run.singleton_inv {s s' : σ} {l : ℓ} (h : Run Step s [l] s') : Step s l s' := by
  generalize hone : [l] = labels at h
  cases h with
  | nil => cases hone
  | snoc hrun hlast =>
    obtain ⟨hfront, hlabel⟩ := List.append_inj' (List.nil_append [l] |>.trans hone) rfl
    subst hfront
    rw [hrun.nil_inv] at hlast
    exact List.singleton_inj.mp hlabel ▸ hlast

theorem Run.cons_inv {s s'' : σ} {l : ℓ} {ls : List ℓ} (h : Run Step s (l :: ls) s'') :
    ∃ s', Step s l s' ∧ Run Step s' ls s'' := by
  have hcut : Run Step s ([l] ++ ls) s'' := h
  obtain ⟨s', hfirst, hrest⟩ := hcut.append_inv
  exact ⟨s', hfirst.singleton_inv, hrest⟩

/-- The steps that do not meet a condition can be left out of a run if they change nothing. -/
theorem Run.without_idle {Cond : σ → ℓ → Prop} {s s' : σ} {ls : List ℓ} (h : Run Step s ls s')
    (hidle : ∀ s l s', Step s l s' → Cond s l ∨ s' = s) :
    ∃ ls', ls'.Sublist ls ∧ Run (Meeting Step Cond) s ls' s' := by
  induction h with
  | nil => exact ⟨[], .slnil, .nil _⟩
  | snoc _ hlast ih =>
    obtain ⟨ls', hsub, hrun⟩ := ih
    rcases hidle _ _ _ hlast with hcond | rfl
    · exact ⟨ls' ++ [_], hsub.append_right [_], hrun.snoc ⟨hlast, hcond⟩⟩
    · exact ⟨ls', hsub.trans (List.sublist_append_left _ _), hrun⟩

/-- If `f` takes each step to a step of another system, it takes a run to a run. -/
theorem Run.simulate {τ ℓ' : Type*} {Step' : τ → ℓ' → τ → Prop} {Inv : σ → Prop} {f : σ → τ}
    {s s' : σ} {ls : List ℓ} (h : Run Step s ls s')
    (hstep : ∀ s l s', Inv s → Step s l s' → Inv s' ∧ ∃ l', Step' (f s) l' (f s')) (hs : Inv s) :
    Inv s' ∧ ∃ ls', Run Step' (f s) ls' (f s') := by
  induction h with
  | nil => exact ⟨hs, [], .nil _⟩
  | snoc _ hlast ih =>
    obtain ⟨hinv, ls', hrun⟩ := ih
    obtain ⟨hinv', l', hlast'⟩ := hstep _ _ _ hinv hlast
    exact ⟨hinv', ls' ++ [l'], hrun.snoc hlast'⟩

/-- If `f` and `g` take each step to a step of another system, or to none where `g` takes its label to
none, then they take a run to a run. -/
theorem Run.project {τ ℓ' : Type*} {Step' : τ → ℓ' → τ → Prop} {f : σ → τ} {g : ℓ → Option ℓ'}
    {s s' : σ} {ls : List ℓ} (h : Run Step s ls s')
    (hstep : ∀ s l s' l', Step s l s' → g l = some l' → Step' (f s) l' (f s'))
    (hidle : ∀ s l s', Step s l s' → g l = none → f s' = f s) :
    Run Step' (f s) (ls.filterMap g) (f s') := by
  induction h with
  | nil => exact .nil _
  | @snoc s' s'' ls l _ hlast ih =>
    rw [List.filterMap_append]
    cases hl : g l with
    | none =>
      rw [hidle _ _ _ hlast hl]
      simpa [hl] using ih
    | some l' =>
      have hone : [l].filterMap g = [l'] := by simp [hl]
      rw [hone]
      exact ih.snoc (hstep _ _ _ _ hlast hl)

theorem Reachable.init {s : σ} (h : Init s) : Reachable Init Step s := ⟨s, [], h, .nil s⟩

theorem Reachable.step {s s' : σ} {l : ℓ} (h : Reachable Init Step s) (hstep : Step s l s') :
    Reachable Init Step s' := by
  obtain ⟨s₀, ls, hinit, hrun⟩ := h
  exact ⟨s₀, ls ++ [l], hinit, hrun.snoc hstep⟩

/-- A property of the initial states that each step preserves holds of every
reachable state. -/
theorem Reachable.invariant {Inv : σ → Prop} {s : σ} (h : Reachable Init Step s)
    (hinit : ∀ s, Init s → Inv s) (hstep : ∀ s l s', Inv s → Step s l s' → Inv s') : Inv s := by
  obtain ⟨s₀, ls, hs₀, hrun⟩ := h
  exact hrun.invariant hstep (hinit s₀ hs₀)

end Transition
