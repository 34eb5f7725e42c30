-- SUMMARY: States that fall into parts: effects on one part, and runs in which each part goes its own way.
import NestPlatform.Lib.Effect
import NestPlatform.Lib.Transition

/-!
# Parts of a state

A state is looked at part by part, with one view for each key. `At view k x` says that `x` depends on
and changes the part `k` alone. If every request of a run is of this kind, then what happens to a
part, and what the requests for it are answered, is decided by these requests and their order.
-/
namespace Effect

variable {σ ε α β κ : Type} {τ : κ → Type}

/-! ## Effects -/

/-- The effect and its outcome depend on one part, and the other parts stay. -/
structure At (view : ∀ k, σ → τ k) (k : κ) (x : Effect σ ε α) : Prop where
  outcome : ∀ s s', view k s = view k s' → (x.exec s).1 = (x.exec s').1
  part : ∀ s s', view k s = view k s' → view k (x.exec s).2 = view k (x.exec s').2
  others : ∀ s k', k' ≠ k → view k' (x.exec s).2 = view k' s

variable {view : ∀ k, σ → τ k} {k : κ}

namespace At

/-- What neither reads nor writes is at any part. -/
theorem const {x : Effect σ ε α} {r : Except ε α} (h : ∀ s, x.exec s = (r, s)) : At view k x where
  outcome s s' _ := by
    rw [h, h]
  part s s' hview := by
    rw [h, h]
    exact hview
  others s k' _ := by
    rw [h]

theorem congr {x y : Effect σ ε α} (hy : At view k y) (h : ∀ s, x.exec s = y.exec s) :
    At view k x where
  outcome s s' hview := by
    rw [h, h]
    exact hy.outcome s s' hview
  part s s' hview := by
    rw [h, h]
    exact hy.part s s' hview
  others s k' hk := by
    rw [h]
    exact hy.others s k' hk

theorem pure (a : α) : At view k (Pure.pure a : Effect σ ε α) := .const fun _ => rfl

theorem throw (e : ε) : At view k (throw e : Effect σ ε α) := .const fun _ => rfl

theorem bind {x : Effect σ ε α} {f : α → Effect σ ε β} (hx : At view k x) (hf : ∀ a, At view k (f a)) :
    At view k (x >>= f) where
  outcome s s' hview := by
    have hr := hx.outcome s s' hview
    have hpart := hx.part s s' hview
    rw [exec_bind, exec_bind]
    generalize x.exec s = r at hr hpart
    generalize x.exec s' = r' at hr hpart
    obtain ⟨result, t⟩ := r
    obtain ⟨result', t'⟩ := r'
    obtain rfl : result = result' := hr
    cases result with
    | ok a => exact (hf a).outcome t t' hpart
    | error e => rfl
  part s s' hview := by
    have hr := hx.outcome s s' hview
    have hpart := hx.part s s' hview
    rw [exec_bind, exec_bind]
    generalize x.exec s = r at hr hpart
    generalize x.exec s' = r' at hr hpart
    obtain ⟨result, t⟩ := r
    obtain ⟨result', t'⟩ := r'
    obtain rfl : result = result' := hr
    cases result with
    | ok a => exact (hf a).part t t' hpart
    | error e => exact hpart
  others s k' hk := by
    have hkeep := hx.others s k' hk
    rw [exec_bind]
    generalize x.exec s = r at hkeep
    obtain ⟨result, t⟩ := r
    cases result with
    | ok a => exact ((hf a).others t k' hk).trans hkeep
    | error e => exact hkeep

theorem map {x : Effect σ ε α} (hx : At view k x) (f : α → β) : At view k (f <$> x) where
  outcome s s' hview := by
    rw [exec_map, exec_map, hx.outcome s s' hview]
  part s s' hview := by
    rw [exec_map, exec_map]
    exact hx.part s s' hview
  others s k' hk := by
    rw [exec_map]
    exact hx.others s k' hk

end At
end Effect

/-! ## Runs -/

namespace Transition

section

variable {σ ℓ ω κ : Type} {τ : κ → Type} [DecidableEq κ]

/-- Each request, if it is for a part, is answered by that part, and changes no other. -/
structure Keyed (view : ∀ k, σ → τ k) (act : ℓ → σ → ω × σ) (Allowed : ℓ → Prop)
    (key : ℓ → Option κ) : Prop where
  answer : ∀ l k s s', Allowed l → key l = some k → view k s = view k s' →
    (act l s).1 = (act l s').1
  part : ∀ l k s s', Allowed l → key l = some k → view k s = view k s' →
    view k (act l s).2 = view k (act l s').2
  others : ∀ l k s, Allowed l → key l ≠ some k → view k (act l s).2 = view k s

/-- A step that is labelled with a request and its answer. -/
def Answered (act : ℓ → σ → ω × σ) (s : σ) (l : ℓ × ω) (s' : σ) : Prop := act l.1 s = (l.2, s')

/-- The requests for a part, with their answers. -/
def exchanged (key : ℓ → Option κ) (k : κ) (ls : List (ℓ × ω)) : List (ℓ × ω) :=
  ls.filter fun l => key l.1 = some k

/-- The requests for a part. -/
def asked (key : ℓ → Option κ) (k : κ) (ls : List (ℓ × ω)) : List ℓ :=
  (ls.map Prod.fst).filter fun l => key l = some k

/-- What the requests are answered, one after the other, and where they lead. -/
def answers (act : ℓ → σ → ω × σ) (s : σ) (ls : List ℓ) : List (ℓ × ω) × σ :=
  ls.foldl (fun r l => (r.1 ++ [(l, (act l r.2).1)], (act l r.2).2)) ([], s)

theorem answers_snoc (act : ℓ → σ → ω × σ) (s : σ) (ls : List ℓ) (l : ℓ) :
    answers act s (ls ++ [l]) =
      ((answers act s ls).1 ++ [(l, (act l (answers act s ls).2).1)], (act l (answers act s ls).2).2) := by
  unfold answers
  rw [List.foldl_append]
  rfl

variable {view : ∀ k, σ → τ k} {act : ℓ → σ → ω × σ} {Allowed : ℓ → Prop} {key : ℓ → Option κ}

/-- A part and the answers for it are as if the requests for it had been made alone. -/
theorem Keyed.run_alone (h : Keyed view act Allowed key) {s s' t : σ} {ls : List (ℓ × ω)}
    (hrun : Run (Answered act) s ls s') (hallowed : ∀ l ∈ ls, Allowed l.1) {k : κ}
    (hview : view k s = view k t) :
    exchanged key k ls = (answers act t (asked key k ls)).1 ∧
      view k s' = view k (answers act t (asked key k ls)).2 := by
  induction hrun with
  | nil => exact ⟨rfl, hview⟩
  | @snoc s' s'' ls l _ hlast ih =>
    obtain ⟨hanswers, hpart⟩ := ih fun m hm => hallowed m (List.mem_append_left _ hm)
    have hl := hallowed l (List.mem_append_right _ (List.mem_singleton_self l))
    obtain ⟨l, o⟩ := l
    have hact : act l s' = (o, s'') := hlast
    by_cases hkey : key l = some k
    · have hexchanged : exchanged key k (ls ++ [(l, o)]) = exchanged key k ls ++ [(l, o)] := by
        simp [exchanged, hkey]
      have hasked : asked key k (ls ++ [(l, o)]) = asked key k ls ++ [l] := by
        simp [asked, hkey]
      have hanswer := h.answer l k _ _ hl hkey hpart
      have hnext := h.part l k _ _ hl hkey hpart
      rw [hact] at hanswer hnext
      rw [hexchanged, hasked, answers_snoc, hanswers]
      refine ⟨?_, hnext⟩
      rw [← hanswer]
    · have hexchanged : exchanged key k (ls ++ [(l, o)]) = exchanged key k ls := by
        simp [exchanged, hkey]
      have hasked : asked key k (ls ++ [(l, o)]) = asked key k ls := by
        simp [asked, hkey]
      have hkeep := h.others l k s' hl hkey
      rw [hact] at hkeep
      rw [hexchanged, hasked]
      exact ⟨hanswers, hkeep.trans hpart⟩

/-- Two runs with the same requests for a part, in the same order, answer them alike and leave the
part alike, whatever else happens in them. -/
theorem Keyed.run_agree (h : Keyed view act Allowed key) {s s' t t' : σ} {ls ms : List (ℓ × ω)}
    (hls : Run (Answered act) s ls s') (hms : Run (Answered act) t ms t')
    (hallowed : ∀ l ∈ ls, Allowed l.1) (hallowed' : ∀ l ∈ ms, Allowed l.1) {k : κ}
    (hview : view k s = view k t) (hasked : asked key k ls = asked key k ms) :
    exchanged key k ls = exchanged key k ms ∧ view k s' = view k t' := by
  obtain ⟨hanswers, hpart⟩ := h.run_alone hls hallowed hview
  obtain ⟨hanswers', hpart'⟩ := h.run_alone hms hallowed' (rfl : view k t = view k t)
  rw [hasked] at hanswers hpart
  exact ⟨hanswers.trans hanswers'.symm, hpart.trans hpart'.symm⟩

end

end Transition
