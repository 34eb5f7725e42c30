-- SUMMARY: Pages cut from lists that are sorted anew for each page, and when they partition what is sorted.
import Mathlib.Data.List.Nodup
import Mathlib.Data.List.Perm.Basic
import Mathlib.Data.Nat.Basic

/-!
# Pages of a sorted list

Each page is cut from a sorted list of the same elements, but the elements that compare
equal may be listed in another order for each page. The pages are a partition whatever
the orders are exactly if no page ends inside a group of elements that compare equal.
-/
namespace Pages

variable {α : Type*}

/-- The page of `L` elements after `k` full pages. -/
def page (L k : ℕ) (xs : List α) : List α := (xs.drop (k * L)).take L

/-- `⌈total / L⌉` -/
def count (L total : ℕ) : ℕ := (total + L - 1) / L

/-- The pages one after the other, where page `k` is cut from `lists k`. -/
def concat (L total : ℕ) (lists : ℕ → List α) : List α :=
  (List.range (count L total)).flatMap fun k => page L k (lists k)

/-- `le` is a total preorder. -/
structure Order (le : α → α → Bool) : Prop where
  total : ∀ a b, le a b = true ∨ le b a = true
  trans : ∀ a b c, le a b = true → le b c = true → le a c = true

/-- First by `le`, then by `le'`. -/
def lex (le le' : α → α → Bool) (a b : α) : Bool := le a b && (! le b a || le' a b)

/-- A sorted list of the elements of `xs`. -/
structure Arranges (le : α → α → Bool) (xs ys : List α) : Prop where
  perm : ys.Perm xs
  sorted : ys.Pairwise fun a b => le a b = true

/-- A group of elements that compare equal ends after `n` elements. -/
def EndsAt (le : α → α → Bool) (xs : List α) (n : ℕ) : Prop := ∃ x ∈ xs, xs.countP (le · x) = n

/-- Every page with another one after it ends with the end of a group. -/
def Cut (le : α → α → Bool) (L : ℕ) (xs : List α) : Prop :=
  ∀ k, 0 < k → k * L < xs.length → EndsAt le xs (k * L)

variable {le : α → α → Bool} {xs ys zs : List α} {L : ℕ}

/-! ## Orders -/

theorem lex_iff {le' : α → α → Bool} {a b : α} :
    lex le le' a b = true ↔ le a b = true ∧ (le b a = true → le' a b = true) := by
  simp only [lex, Bool.and_eq_true, Bool.or_eq_true, Bool.not_eq_true']
  cases le b a <;> simp

theorem Order.lex {le' : α → α → Bool} (h : Order le) (h' : Order le') : Order (lex le le') where
  total a b := by
    simp only [lex_iff]
    rcases h.total a b with hab | hba
    · rcases h'.total a b with hab' | hba'
      · exact .inl ⟨hab, fun _ => hab'⟩
      · by_cases hba : le b a = true
        · exact .inr ⟨hba, fun _ => hba'⟩
        · exact .inl ⟨hab, fun hba' => absurd hba' hba⟩
    · rcases h'.total b a with hba' | hab'
      · exact .inr ⟨hba, fun _ => hba'⟩
      · by_cases hab : le a b = true
        · exact .inl ⟨hab, fun _ => hab'⟩
        · exact .inr ⟨hba, fun hab' => absurd hab' hab⟩
  trans a b c := by
    simp only [lex_iff]
    rintro ⟨hab, hab'⟩ ⟨hbc, hbc'⟩
    refine ⟨h.trans _ _ _ hab hbc, fun hca => ?_⟩
    exact h'.trans _ _ _ (hab' (h.trans _ _ _ hbc hca)) (hbc' (h.trans _ _ _ hca hab))

theorem Order.comap {β : Type*} (h : Order le) (f : β → α) : Order fun a b => le (f a) (f b) :=
  ⟨fun _ _ => h.total _ _, fun _ _ _ => h.trans _ _ _⟩

theorem Order.flip (h : Order le) : Order fun a b => le b a :=
  ⟨fun _ _ => h.total _ _, fun _ _ _ hab hbc => h.trans _ _ _ hbc hab⟩

/-! ## Counting pages -/

theorem lt_count_iff (hL : 0 < L) {k total : ℕ} : k < count L total ↔ k * L < total := by
  unfold count
  rw [Nat.lt_iff_add_one_le, Nat.le_div_iff_mul_le hL, Nat.add_mul, Nat.one_mul]
  omega

theorem page_eq_nil (hL : 0 < L) {k : ℕ} (h : count L xs.length ≤ k) : page L k xs = [] := by
  have hlong : xs.length ≤ k * L := by
    by_contra hshort
    exact absurd ((lt_count_iff hL).mpr (not_le.mp hshort)) (not_lt.mpr h)
  rw [page, List.drop_eq_nil_of_le hlong, List.take_nil]

theorem take_append_page (xs : List α) (k : ℕ) :
    xs.take (k * L) ++ page L k xs = xs.take ((k + 1) * L) := by
  rw [page, Nat.add_mul, Nat.one_mul, List.take_add]

/-- Pages of one list are the list. -/
theorem concat_const (hL : 0 < L) : concat L xs.length (fun _ => xs) = xs := by
  have htake : ∀ n, ((List.range n).flatMap fun k => page L k xs) = xs.take (n * L) := by
    intro n
    induction n with
    | zero => simp
    | succ n ih =>
      rw [List.range_succ, List.flatMap_append, ih, ← take_append_page]
      simp
  have hall : xs.length ≤ count L xs.length * L := by
    by_contra hshort
    exact lt_irrefl _ ((lt_count_iff hL).mpr (not_le.mp hshort))
  rw [concat, htake, List.take_of_length_le hall]

/-! ## The groups of a sorted list -/

/-- The elements up to the group of `x` come first. -/
theorem filter_eq_take (hle : Order le) (hsorted : xs.Pairwise fun a b => le a b = true) (x : α) :
    xs.filter (le · x) = xs.take (xs.countP (le · x)) := by
  induction xs with
  | nil => rfl
  | cons a xs ih =>
    obtain ⟨hfirst, hsorted⟩ := List.pairwise_cons.mp hsorted
    by_cases ha : le a x = true
    · rw [List.filter_cons_of_pos (by simpa using ha), List.countP_cons_of_pos (by simpa using ha),
        List.take_succ_cons, ih hsorted]
    · have hlater : ∀ b ∈ a :: xs, ¬ le b x = true := by
        intro b hb hbx
        rcases List.mem_cons.mp hb with rfl | hb
        · exact ha hbx
        · exact ha (hle.trans _ _ _ (hfirst b hb) hbx)
      rw [List.filter_eq_nil_iff.mpr hlater, List.countP_eq_zero.mpr hlater, List.take_zero]

/-- Where a group ends, all arrangements have the same elements before. -/
theorem take_perm_take (hle : Order le) {n : ℕ} (hends : EndsAt le xs n) (hys : Arranges le xs ys)
    (hzs : Arranges le xs zs) : (ys.take n).Perm (zs.take n) := by
  obtain ⟨x, -, rfl⟩ := hends
  have hfilter : ∀ {us : List α}, Arranges le xs us →
      (us.take (xs.countP (le · x))).Perm (xs.filter (le · x)) := by
    intro us hus
    rw [← hus.perm.countP_eq, ← filter_eq_take hle hus.sorted]
    exact hus.perm.filter _
  exact (hfilter hys).trans (hfilter hzs).symm

theorem Cut.take_perm_take (hle : Order le) (hcut : Cut le L xs) (hys : Arranges le xs ys)
    (hzs : Arranges le xs zs) (k : ℕ) : (ys.take (k * L)).Perm (zs.take (k * L)) := by
  rcases Nat.eq_zero_or_pos k with rfl | hk
  · simp
  · by_cases hinside : k * L < xs.length
    · exact Pages.take_perm_take hle (hcut k hk hinside) hys hzs
    · have hy : ys.length ≤ k * L := hys.perm.length_eq ▸ not_lt.mp hinside
      have hz : zs.length ≤ k * L := hzs.perm.length_eq ▸ not_lt.mp hinside
      rw [List.take_of_length_le hy, List.take_of_length_le hz]
      exact hys.perm.trans hzs.perm.symm

/-- If pages end with groups, a page has the same elements in all arrangements. -/
theorem Cut.page_perm (hle : Order le) (hcut : Cut le L xs) (hys : Arranges le xs ys)
    (hzs : Arranges le xs zs) (k : ℕ) : (page L k ys).Perm (page L k zs) := by
  have hlonger := hcut.take_perm_take hle hys hzs (k + 1)
  rw [← take_append_page, ← take_append_page] at hlonger
  have hshorter := (hcut.take_perm_take hle hys hzs k).append_right (page L k zs)
  exact (List.perm_append_left_iff _).mp (hlonger.trans hshorter.symm)

/-! ## The partition -/

theorem Cut.concat_perm (hle : Order le) (hL : 0 < L) (hcut : Cut le L xs) {lists : ℕ → List α}
    (hlists : ∀ k, Arranges le xs (lists k)) : (concat L xs.length lists).Perm xs := by
  have hfirst : (concat L xs.length lists).Perm (concat L xs.length fun _ => lists 0) :=
    List.Perm.flatMap_left _ fun k _ => hcut.page_perm hle (hlists k) (hlists 0) k
  rw [← (hlists 0).perm.length_eq, concat_const hL] at hfirst
  rw [← (hlists 0).perm.length_eq]
  exact hfirst.trans (hlists 0).perm

/-! ## Ties -/

theorem exists_neighbours {n : ℕ} (h : n + 1 < ys.length) :
    ∃ as a b bs, ys = as ++ a :: b :: bs ∧ as.length = n := by
  refine ⟨ys.take n, ys[n], ys[n + 1], ys.drop (n + 2), ?_, List.length_take_of_le (by omega)⟩
  rw [← List.drop_eq_getElem_cons, ← List.drop_eq_getElem_cons, List.take_append_drop]

/-- Where no group ends, two neighbours compare equal. -/
theorem Arranges.tie (hle : Order le) {as bs : List α} {a b : α}
    (h : Arranges le xs (as ++ a :: b :: bs)) (hends : ¬ EndsAt le xs (as.length + 1)) :
    le b a = true := by
  by_contra hlt
  have hsorted := h.sorted
  rw [List.pairwise_append, List.pairwise_cons, List.pairwise_cons] at hsorted
  obtain ⟨-, ⟨-, hlater, -⟩, hbefore⟩ := hsorted
  -- the elements up to the first neighbour, and no others, are below it
  have hall : ∀ x ∈ as ++ [a], le x a = true := by
    intro x hx
    rcases List.mem_append.mp hx with hx | hx
    · exact hbefore x hx _ List.mem_cons_self
    · rw [List.mem_singleton.mp hx]
      exact (hle.total _ _).elim id id
  have hnone : ∀ x ∈ b :: bs, ¬ le x a = true := by
    intro x hx hxa
    rcases List.mem_cons.mp hx with rfl | hx
    · exact hlt hxa
    · exact hlt (hle.trans _ _ _ (hlater x hx) hxa)
  refine hends ⟨a, h.perm.mem_iff.mp (by simp), ?_⟩
  rw [← h.perm.countP_eq, ← List.singleton_append, ← List.append_assoc, List.countP_append,
    List.countP_eq_length.mpr hall, List.countP_eq_zero.mpr hnone]
  simp

/-- Neighbours that compare equal can change places. -/
theorem Arranges.swap {as bs : List α} {a b : α} (h : Arranges le xs (as ++ a :: b :: bs))
    (hba : le b a = true) : Arranges le xs (as ++ b :: a :: bs) := by
  refine ⟨((List.Perm.swap a b bs).append_left as).trans h.perm, ?_⟩
  have hsorted := h.sorted
  simp only [List.pairwise_append, List.pairwise_cons, List.mem_cons] at hsorted ⊢
  obtain ⟨has, ⟨ha, hb, hbs⟩, hbefore⟩ := hsorted
  refine ⟨has, ⟨?_, fun x hx => ha x (.inr hx), hbs⟩, ?_⟩
  · rintro x (rfl | hx)
    · exact hba
    · exact hb x hx
  · rintro x hx y (rfl | rfl | hy)
    · exact hbefore x hx _ (.inr (.inl rfl))
    · exact hbefore x hx _ (.inl rfl)
    · exact hbefore x hx y (.inr (.inr hy))

theorem mem_page {as bs : List α} {a : α} {k : ℕ} (hfrom : k * L ≤ as.length)
    (hto : as.length < (k + 1) * L) : a ∈ page L k (as ++ a :: bs) := by
  have hlen : (as.drop (k * L)).length < L := by
    rw [Nat.add_mul, Nat.one_mul] at hto
    rw [List.length_drop]
    omega
  rw [page, List.drop_append_of_le_length hfrom]
  refine List.mem_take_iff_getElem.mpr ⟨(as.drop (k * L)).length, ?_, by simp⟩
  rw [List.length_append, List.length_cons]
  omega

/-- If pages never repeat an element, they end with groups: an element that compares equal
with the first one of the next page could be on both. -/
theorem cut_of_nodup (hle : Order le) (hL : 0 < L) (hys : Arranges le xs ys)
    (h : ∀ lists : ℕ → List α, (∀ k, Arranges le xs (lists k)) →
      (concat L xs.length lists).Nodup) : Cut le L xs := by
  intro k hpos hinside
  by_contra hends
  obtain ⟨j, rfl⟩ : ∃ j, k = j + 1 := ⟨k - 1, by omega⟩
  have hend := Nat.mul_pos hpos hL
  have hlong : (j + 1) * L - 1 + 1 < ys.length := by
    rw [hys.perm.length_eq]
    omega
  obtain ⟨as, a, b, bs, rfl, hlen⟩ := exists_neighbours hlong
  have hnext : (j + 1) * L = as.length + 1 := by omega
  have hba : le b a = true := by
    rw [hnext] at hends
    exact hys.tie hle hends
  have hlists : ∀ i, Arranges le xs (if i = j + 1 then as ++ b :: a :: bs else as ++ a :: b :: bs) := by
    intro i
    split
    · exact hys.swap hba
    · exact hys
  have hpages := (List.nodup_flatMap.mp (h _ hlists)).2
  have hlast : j + 1 < count L xs.length := (lt_count_iff hL).mpr hinside
  have hdisjoint := List.pairwise_iff_getElem.mp hpages j (j + 1)
    (by rw [List.length_range]; omega) (by rw [List.length_range]; exact hlast) (Nat.lt_succ_self j)
  rw [List.getElem_range, List.getElem_range, Function.onFun_apply] at hdisjoint
  refine hdisjoint (a := a) ?_ ?_
  · rw [if_neg (by omega)]
    refine mem_page ?_ (by omega)
    rw [Nat.add_mul, Nat.one_mul] at hnext
    omega
  · rw [if_pos rfl, ← List.singleton_append, ← List.append_assoc]
    refine mem_page (by simp [hnext]) ?_
    rw [Nat.add_mul, Nat.one_mul, hnext, List.length_append, List.length_singleton]
    omega

/-! ## Following links -/

/-- The pages that a reader visits from a page on, who leaves each page by `link` as long as
the page says that there is `more`. -/
inductive Follows (more : ℕ → Bool) (link : ℕ → ℕ) : ℕ → List ℕ → Prop where
  | stop {k} (h : more k = false) : Follows more link k [k]
  | go {k ks} (h : more k = true) (rest : Follows more link (link k) ks) :
      Follows more link k (k :: ks)

variable {more : ℕ → Bool} {link : ℕ → ℕ}

theorem Follows.unique {k : ℕ} {ks ks' : List ℕ} (h : Follows more link k ks)
    (h' : Follows more link k ks') : ks = ks' := by
  induction h generalizing ks' with
  | stop hstop =>
    cases h' with
    | stop => rfl
    | go hgo => exact absurd (hgo.symm.trans hstop) Bool.noConfusion
  | go hgo _ ih =>
    cases h' with
    | stop hstop => exact absurd (hgo.symm.trans hstop) Bool.noConfusion
    | go _ rest => rw [ih rest]

/-- Up to the last page, if exactly the pages below it say that there is more. -/
theorem Follows.up {last : ℕ} (hmore : ∀ k, more k = true ↔ k < last) (n : ℕ) {k : ℕ}
    (hk : k + n = last) : Follows more (· + 1) k (List.range' k (n + 1)) := by
  induction n generalizing k with
  | zero => exact .stop (Bool.eq_false_iff.mpr (mt (hmore k).mp (by omega)))
  | succ n ih =>
    rw [List.range'_succ]
    exact .go ((hmore k).mpr (by omega)) (ih (by omega))

/-- Down to the first page, if exactly the pages above it say that there is more. -/
theorem Follows.down {first : ℕ} (hmore : ∀ k, more k = true ↔ first < k) (n : ℕ) :
    Follows more (· - 1) (first + n) (List.range' first (n + 1)).reverse := by
  induction n with
  | zero => exact .stop (Bool.eq_false_iff.mpr (mt (hmore first).mp (by omega)))
  | succ n ih =>
    rw [List.range'_1_concat, List.reverse_append]
    exact .go ((hmore _).mpr (by omega)) ih

end Pages
