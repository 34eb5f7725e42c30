-- SUMMARY: Rounding of rationals to a binary floating-point format, with ties to even.
import Mathlib.Algebra.Order.Field.Power
import Mathlib.Algebra.Order.Ring.Rat
import Mathlib.Data.Int.Log
import Mathlib.Data.Rat.Floor
import Mathlib.Tactic.Linarith
import Mathlib.Tactic.Positivity

/-!
# Rounding

A format has a number of significant bits and a least exponent of the last place; its range is
not bounded above. A rational is rounded to the nearest number of the format, and of two nearest
ones to the even one. Whatever is known of rounding to integers is derived from the description
of the integers below the rounded value.
-/
namespace Rounding

/-! ## Integers -/

/-- The nearest integer, of two nearest ones the even one. -/
def toEven (q : ℚ) : ℤ :=
  if q - ⌊q⌋ < 1 / 2 then ⌊q⌋
  else if q - ⌊q⌋ = 1 / 2 ∧ Even ⌊q⌋ then ⌊q⌋
  else ⌊q⌋ + 1

/-- An integer is below the rounded value if it is reached from less than a half above, or from
the middle if it is even. -/
theorem le_toEven_iff {n : ℤ} {q : ℚ} :
    n ≤ toEven q ↔ (n : ℚ) - 1 / 2 < q ∨ (n : ℚ) - 1 / 2 = q ∧ Even n := by
  have hfloor : (⌊q⌋ : ℚ) ≤ q := Int.floor_le q
  have hlt : q < ⌊q⌋ + 1 := Int.lt_floor_add_one q
  -- only the integer above `q` depends on the middle
  rcases lt_trichotomy n (⌊q⌋ + 1) with hn | rfl | hn
  · have hle : n ≤ ⌊q⌋ := Int.lt_add_one_iff.mp hn
    have hcast : (n : ℚ) ≤ ⌊q⌋ := by exact_mod_cast hle
    refine iff_of_true ?_ (.inl (by linarith))
    unfold toEven
    split
    · exact hle
    · split
      · exact hle
      · omega
  · unfold toEven
    push_cast
    split
    · rename_i hlow
      refine iff_of_false (by omega) ?_
      rintro (h | ⟨h, -⟩)
      · linarith
      · linarith
    · rename_i hlow
      split
      · rename_i hmid
        refine iff_of_false (by omega) ?_
        rintro (h | ⟨-, heven⟩)
        · linarith
        · exact Int.not_even_iff_odd.mpr hmid.2.add_one heven
      · rename_i hhigh
        refine iff_of_true le_rfl ?_
        rcases lt_or_eq_of_le (not_lt.mp hlow) with habove | hmid
        · exact .inl (by linarith)
        · have hodd : ¬ Even ⌊q⌋ := fun heven => hhigh ⟨hmid.symm, heven⟩
          exact .inr ⟨by linarith, (Int.not_even_iff_odd.mp hodd).add_one⟩
  · have hcast : (⌊q⌋ : ℚ) + 1 + 1 ≤ n := by exact_mod_cast hn
    refine iff_of_false ?_ ?_
    · unfold toEven
      split
      · omega
      · split
        · omega
        · omega
    · rintro (h | ⟨h, -⟩)
      · linarith
      · linarith

theorem toEven_mono {q q' : ℚ} (h : q ≤ q') : toEven q ≤ toEven q' := by
  rw [le_toEven_iff]
  rcases le_toEven_iff.mp (le_refl (toEven q)) with hlow | ⟨hmid, heven⟩
  · exact .inl (hlow.trans_le h)
  · rcases h.lt_or_eq with hlt | rfl
    · exact .inl (hmid.trans_lt hlt)
    · exact .inr ⟨hmid, heven⟩

/-- An even integer is also reached from the middle. -/
theorem toEven_eq_of_even {n : ℤ} (hn : Even n) {q : ℚ} (h : |q - n| ≤ 1 / 2) : toEven q = n := by
  obtain ⟨hlow, hhigh⟩ := abs_le.mp h
  apply le_antisymm
  · apply Int.lt_add_one_iff.mp
    apply not_le.mp
    rw [le_toEven_iff]
    push_cast
    rintro (h | ⟨-, heven⟩)
    · linarith
    · exact Int.not_even_iff_odd.mpr hn.add_one heven
  · rw [le_toEven_iff]
    rcases hlow.lt_or_eq with hlt | heq
    · exact .inl (by linarith)
    · exact .inr ⟨by linarith, hn⟩

/-- Whatever is less than a half away from an integer is rounded to it. -/
theorem toEven_eq_of_abs_lt {n : ℤ} {q : ℚ} (h : |q - n| < 1 / 2) : toEven q = n := by
  obtain ⟨hlow, hhigh⟩ := abs_lt.mp h
  apply le_antisymm
  · apply Int.lt_add_one_iff.mp
    apply not_le.mp
    rw [le_toEven_iff]
    push_cast
    rintro (h | ⟨h, -⟩)
    · linarith
    · linarith
  · rw [le_toEven_iff]
    exact .inl (by linarith)

@[simp] theorem toEven_intCast (n : ℤ) : toEven n = n := toEven_eq_of_abs_lt (by simp)

@[simp] theorem toEven_zero : toEven 0 = 0 := toEven_intCast 0

/-- An even summand can be taken out. -/
theorem toEven_add_of_even {n : ℤ} (hn : Even n) (q : ℚ) : toEven (q + n) = toEven q + n := by
  apply eq_of_forall_le_iff
  intro k
  rw [le_toEven_iff, ← sub_le_iff_le_add, le_toEven_iff, Int.even_sub]
  push_cast
  have hlt : (k : ℚ) - 1 / 2 < q + n ↔ (k : ℚ) - n - 1 / 2 < q := by
    constructor <;> intro h <;> linarith
  have heq : (k : ℚ) - 1 / 2 = q + n ↔ (k : ℚ) - n - 1 / 2 = q := by
    constructor <;> intro h <;> linarith
  rw [hlt, heq]
  simp [hn]

theorem toEven_neg (q : ℚ) : toEven (-q) = -toEven q := by
  apply eq_of_forall_le_iff
  intro k
  have hnot : k ≤ -toEven q ↔ ¬ 1 - k ≤ toEven q := by omega
  rw [hnot, le_toEven_iff, le_toEven_iff, Int.even_sub]
  push_cast
  have hodd : Even (1 : ℤ) ↔ False := by simp
  rw [hodd, false_iff]
  constructor
  · rintro (hlow | ⟨hmid, heven⟩)
    · rintro (h | ⟨h, -⟩)
      · linarith
      · linarith
    · rintro (h | ⟨-, hodd⟩)
      · linarith
      · exact hodd heven
  · intro h
    rcases lt_trichotomy ((k : ℚ) - 1 / 2) (-q) with hlt | heq | hgt
    · exact .inl hlt
    · refine .inr ⟨heq, ?_⟩
      by_contra hodd
      exact h (.inr ⟨by linarith, hodd⟩)
    · exact absurd (.inl (by linarith)) h

/-- The even one of the two integers around the middle of them. -/
theorem toEven_add_half (n : ℤ) : toEven (n + 1 / 2) = if Even n then n else n + 1 := by
  have hfloor : ⌊(n : ℚ) + 1 / 2⌋ = n := by
    rw [Int.floor_intCast_add]
    norm_num
  have hmid : (n : ℚ) + 1 / 2 - n = 1 / 2 := by ring
  unfold toEven
  rw [hfloor, hmid, if_neg (lt_irrefl _)]
  simp

theorem even_toEven_add_half (n : ℤ) : Even (toEven (n + 1 / 2)) := by
  rw [toEven_add_half]
  split
  · assumption
  · rename_i hodd
    exact (Int.not_even_iff_odd.mp hodd).add_one

/-! ## Formats -/

structure Format where
  /-- The number of significant bits. -/
  precision : ℕ
  /-- The least exponent of the last place. -/
  emin : ℤ
  precision_pos : 0 < precision

namespace Format

variable (F : Format)

/-- The exponent of the last place of a number as large as `q`. -/
def exponent (q : ℚ) : ℤ := max (Int.log 2 |q| + 1 - F.precision) F.emin

/-- The nearest number of the format, of two nearest ones the even one. -/
def nearest (q : ℚ) : ℚ := toEven (q / 2 ^ F.exponent q) * 2 ^ F.exponent q

/-- The multiples of a last place that have no more bits than the format. -/
def Representable (q : ℚ) : Prop :=
  ∃ (m e : ℤ), F.emin ≤ e ∧ |m| ≤ 2 ^ F.precision ∧ q = m * 2 ^ e

variable {F}

theorem two_zpow_pos (e : ℤ) : (0 : ℚ) < 2 ^ e := by positivity

theorem exponent_neg (q : ℚ) : F.exponent (-q) = F.exponent q := by
  unfold exponent
  rw [abs_neg]

theorem nearest_neg (q : ℚ) : F.nearest (-q) = -F.nearest q := by
  unfold nearest
  rw [exponent_neg, neg_div, toEven_neg, Int.cast_neg, neg_mul]

@[simp] theorem nearest_zero : F.nearest 0 = 0 := by simp [nearest]

theorem nearest_nonneg {q : ℚ} (h : 0 ≤ q) : 0 ≤ F.nearest q := by
  have hscaled : 0 ≤ toEven (q / 2 ^ F.exponent q) := by
    rw [← toEven_zero]
    exact toEven_mono (by positivity)
  exact mul_nonneg (by exact_mod_cast hscaled) (two_zpow_pos _).le

/-- Rounding keeps the multiples of the last place, as the quotient is an integer. -/
theorem nearest_of_dvd {q : ℚ} {m : ℤ} (h : q = m * 2 ^ F.exponent q) : F.nearest q = q := by
  have hquotient : q / 2 ^ F.exponent q = m := by
    rw [div_eq_iff (two_zpow_pos _).ne']
    exact h
  unfold nearest
  rw [hquotient, toEven_intCast]
  exact h.symm

/-- A multiple of a power of two is one of every lower power. -/
theorem exists_mul_zpow {m e e' : ℤ} (h : e' ≤ e) : ∃ m' : ℤ, (m : ℚ) * 2 ^ e = m' * 2 ^ e' := by
  obtain ⟨n, rfl⟩ : ∃ n : ℕ, e = e' + n := ⟨(e - e').toNat, by omega⟩
  refine ⟨m * 2 ^ n, ?_⟩
  rw [zpow_add₀ two_ne_zero, zpow_natCast]
  push_cast
  ring

/-- The exponent is the least one or leaves as many bits as the format has. -/
theorem exponent_le {q : ℚ} (hq : q ≠ 0) {e : ℤ} (he : F.emin ≤ e)
    (h : |q| < 2 ^ (e + F.precision)) : F.exponent q ≤ e := by
  have hlog : Int.log 2 |q| < e + F.precision := by
    rw [← Int.lt_zpow_iff_log_lt one_lt_two (abs_pos.mpr hq)]
    exact_mod_cast h
  unfold exponent
  omega

theorem lt_zpow_exponent (q : ℚ) : |q| < 2 ^ (F.exponent q + F.precision) := by
  have hlog : |q| < 2 ^ (Int.log 2 |q| + 1) := by
    exact_mod_cast Int.lt_zpow_succ_log_self one_lt_two |q|
  refine hlog.trans_le (zpow_le_zpow_right₀ one_le_two ?_)
  unfold exponent
  omega

/-- Above the least exponent all the bits of the format are used. -/
theorem zpow_le_of_emin_lt {q : ℚ} (hq : q ≠ 0) (h : F.emin < F.exponent q) :
    2 ^ (F.exponent q + F.precision - 1) ≤ |q| := by
  have hexponent : F.exponent q + F.precision - 1 = Int.log 2 |q| := by
    unfold exponent at h ⊢
    omega
  rw [hexponent]
  exact_mod_cast Int.zpow_log_le_self one_lt_two (abs_pos.mpr hq)

theorem nearest_of_representable {q : ℚ} (h : F.Representable q) : F.nearest q = q := by
  by_cases hq : q = 0
  · rw [hq, nearest_zero]
  obtain ⟨m, e, he, hm, rfl⟩ := h
  have habs : |(m : ℚ) * 2 ^ e| = |m| * 2 ^ e := by
    rw [abs_mul, abs_of_pos (two_zpow_pos e), Int.cast_abs]
  rcases hm.lt_or_eq with hlt | heq
  · have hle : F.exponent (m * 2 ^ e) ≤ e := by
      apply exponent_le hq he
      rw [habs, add_comm, zpow_add₀ two_ne_zero, zpow_natCast]
      exact mul_lt_mul_of_pos_right (by exact_mod_cast hlt) (two_zpow_pos e)
    obtain ⟨m', hm'⟩ := exists_mul_zpow (m := m) hle
    exact nearest_of_dvd hm'
  · -- a power of two, whose last place is one higher
    have hle : F.exponent (m * 2 ^ e) ≤ e + 1 := by
      apply exponent_le hq (he.trans (by omega))
      rw [habs, heq, add_assoc, add_comm, zpow_add₀ two_ne_zero]
      push_cast
      rw [add_comm, zpow_add₀ two_ne_zero, zpow_natCast]
      have hpos := two_zpow_pos e
      have hpow : (0 : ℚ) < 2 ^ F.precision := by positivity
      nlinarith
    have heven : ∃ m' : ℤ, m = m' * 2 := by
      have hdvd : (2 : ℤ) ∣ |m| := by
        rw [heq]
        exact dvd_pow_self 2 F.precision_pos.ne'
      obtain ⟨m', hm'⟩ := (dvd_abs 2 m).mp hdvd
      exact ⟨m', by rw [hm', mul_comm]⟩
    obtain ⟨m', rfl⟩ := heven
    have hdouble : ((m' * 2 : ℤ) : ℚ) * 2 ^ e = m' * 2 ^ (e + 1) := by
      rw [zpow_add_one₀ two_ne_zero]
      push_cast
      ring
    rw [hdouble] at hle ⊢
    obtain ⟨m'', hm''⟩ := exists_mul_zpow (m := m') hle
    exact nearest_of_dvd hm''

theorem representable_nearest (q : ℚ) : F.Representable (F.nearest q) := by
  refine ⟨toEven (q / 2 ^ F.exponent q), F.exponent q, le_max_right _ _, ?_, rfl⟩
  have hquotient : |q / 2 ^ F.exponent q| < 2 ^ F.precision := by
    rw [abs_div, abs_of_pos (two_zpow_pos _), div_lt_iff₀ (two_zpow_pos _), ← zpow_natCast,
      ← zpow_add₀ two_ne_zero, add_comm]
    exact lt_zpow_exponent q
  obtain ⟨hlow, hhigh⟩ := abs_lt.mp hquotient
  rw [abs_le]
  constructor
  · have h := toEven_mono hlow.le
    have hcast : -(2 : ℚ) ^ F.precision = ((-2 ^ F.precision : ℤ) : ℚ) := by push_cast; rfl
    rwa [hcast, toEven_intCast] at h
  · have h := toEven_mono hhigh.le
    have hcast : (2 : ℚ) ^ F.precision = ((2 ^ F.precision : ℤ) : ℚ) := by push_cast; rfl
    rwa [hcast, toEven_intCast] at h

@[simp] theorem nearest_nearest (q : ℚ) : F.nearest (F.nearest q) = F.nearest q :=
  nearest_of_representable (representable_nearest q)

/-! ## Order -/

/-- A multiple of the last place stays below what it is below. -/
theorem le_nearest {q : ℚ} {m : ℤ} (h : m * 2 ^ F.exponent q ≤ q) :
    m * 2 ^ F.exponent q ≤ F.nearest q := by
  have hquotient : (m : ℚ) ≤ q / 2 ^ F.exponent q := (le_div_iff₀ (two_zpow_pos _)).mpr h
  have hrounded := toEven_mono hquotient
  rw [toEven_intCast] at hrounded
  exact mul_le_mul_of_nonneg_right (by exact_mod_cast hrounded) (two_zpow_pos _).le

theorem nearest_le {q : ℚ} {m : ℤ} (h : q ≤ m * 2 ^ F.exponent q) :
    F.nearest q ≤ m * 2 ^ F.exponent q := by
  have hquotient : q / 2 ^ F.exponent q ≤ m := (div_le_iff₀ (two_zpow_pos _)).mpr h
  have hrounded := toEven_mono hquotient
  rw [toEven_intCast] at hrounded
  exact mul_le_mul_of_nonneg_right (by exact_mod_cast hrounded) (two_zpow_pos _).le

/-- A power of two between two positive numbers with different last places stays between them. -/
theorem nearest_le_nearest_of_pos {q q' : ℚ} (hq : 0 < q) (h : q ≤ q') :
    F.nearest q ≤ F.nearest q' := by
  have hlog : Int.log 2 q ≤ Int.log 2 q' := Int.log_mono_right hq h
  have habs : |q| = q := abs_of_pos hq
  have habs' : |q'| = q' := abs_of_pos (hq.trans_le h)
  rcases eq_or_ne (F.exponent q) (F.exponent q') with heq | hne
  · unfold nearest
    rw [heq]
    refine mul_le_mul_of_nonneg_right ?_ (two_zpow_pos _).le
    exact_mod_cast toEven_mono (div_le_div_of_nonneg_right h (two_zpow_pos _).le)
  · have hmore : Int.log 2 q + 1 ≤ Int.log 2 q' ∧ F.exponent q ≤ Int.log 2 q' ∧
        F.exponent q' ≤ Int.log 2 q' := by
      have hbits := F.precision_pos
      unfold exponent at hne ⊢
      rw [habs, habs'] at hne ⊢
      omega
    obtain ⟨hless, hplace, hplace'⟩ := hmore
    have hpower : ((1 : ℤ) : ℚ) * 2 ^ Int.log 2 q' = 2 ^ Int.log 2 q' := by simp
    have hbelow : q ≤ 2 ^ Int.log 2 q' := by
      refine (Int.lt_zpow_succ_log_self one_lt_two q).le.trans ?_
      exact_mod_cast zpow_le_zpow_right₀ (one_le_two (α := ℚ)) hless
    have habove : 2 ^ Int.log 2 q' ≤ q' := by
      exact_mod_cast Int.zpow_log_le_self one_lt_two (hq.trans_le h)
    obtain ⟨m, hm⟩ := exists_mul_zpow (m := 1) hplace
    obtain ⟨m', hm'⟩ := exists_mul_zpow (m := 1) hplace'
    rw [hpower] at hm hm'
    calc F.nearest q ≤ m * 2 ^ F.exponent q := nearest_le (hm ▸ hbelow)
      _ = m' * 2 ^ F.exponent q' := hm.symm.trans hm'
      _ ≤ F.nearest q' := le_nearest (hm' ▸ habove)

theorem nearest_mono {q q' : ℚ} (h : q ≤ q') : F.nearest q ≤ F.nearest q' := by
  rcases lt_or_ge 0 q with hq | hq
  · exact nearest_le_nearest_of_pos hq h
  · have hnonpos : F.nearest q ≤ 0 := by
      rw [← neg_nonneg, ← nearest_neg]
      exact nearest_nonneg (neg_nonneg.mpr hq)
    rcases le_or_gt 0 q' with hq' | hq'
    · exact hnonpos.trans (nearest_nonneg hq')
    · rw [← neg_le_neg_iff, ← nearest_neg, ← nearest_neg]
      exact nearest_le_nearest_of_pos (neg_pos.mpr hq') (neg_le_neg h)

/-! ## A known last place -/

/-- The last place of a number between two neighbouring powers of two. -/
theorem exponent_eq {q : ℚ} {e : ℤ} (he : F.emin ≤ e) (h : 2 ^ (e + F.precision - 1) ≤ |q|)
    (h' : |q| < 2 ^ (e + F.precision)) : F.exponent q = e := by
  have hpos : 0 < |q| := (two_zpow_pos _).trans_le h
  have hlow : e + F.precision - 1 ≤ Int.log 2 |q| :=
    (Int.zpow_le_iff_le_log one_lt_two hpos).mp (by exact_mod_cast h)
  have hhigh : Int.log 2 |q| < e + F.precision :=
    (Int.lt_zpow_iff_log_lt one_lt_two hpos).mp (by exact_mod_cast h')
  unfold exponent
  omega

/-- Rounding to a known last place; at the power of two above it nothing is left to round. -/
theorem nearest_eq {q : ℚ} {e : ℤ} (he : F.emin ≤ e) (h : 2 ^ (e + F.precision - 1) ≤ |q|)
    (h' : |q| ≤ 2 ^ (e + F.precision)) : F.nearest q = toEven (q / 2 ^ e) * 2 ^ e := by
  rcases h'.lt_or_eq with hlt | heq
  · unfold nearest
    rw [exponent_eq he h hlt]
  · obtain ⟨m, hm, hq⟩ : ∃ m : ℤ, |m| = 2 ^ F.precision ∧ q = m * 2 ^ e := by
      rw [add_comm, zpow_add₀ two_ne_zero, zpow_natCast] at heq
      rcases abs_choice q with hself | hneg
      · exact ⟨2 ^ F.precision, by simp, by rw [← hself, heq]; push_cast; rfl⟩
      · refine ⟨-2 ^ F.precision, by simp, ?_⟩
        rw [← neg_neg q, ← hneg, heq]
        push_cast
        ring
    have hquotient : q / 2 ^ e = m := by
      rw [hq, mul_div_assoc, div_self (two_zpow_pos e).ne', mul_one]
    rw [nearest_of_representable ⟨m, e, he, hm.le, hq⟩, hquotient, toEven_intCast]
    exact hq

/-! ## Distance -/

theorem abs_sub_toEven_le (q : ℚ) : |q - toEven q| ≤ 1 / 2 := by
  rw [abs_le]
  constructor
  · rcases le_toEven_iff.mp (le_refl (toEven q)) with h | ⟨h, -⟩
    · linarith
    · linarith
  · have hnot : ¬ toEven q + 1 ≤ toEven q := by omega
    rw [le_toEven_iff] at hnot
    push_cast at hnot
    have hle := not_lt.mp fun h => hnot (.inl h)
    linarith

/-- Rounding moves a number by at most half of its last place. -/
theorem abs_sub_nearest_le (q : ℚ) : |q - F.nearest q| ≤ 2 ^ F.exponent q / 2 := by
  have hpos := two_zpow_pos (F.exponent q)
  have hscaled := abs_sub_toEven_le (q / 2 ^ F.exponent q)
  have hfactor : q - F.nearest q =
      (q / 2 ^ F.exponent q - toEven (q / 2 ^ F.exponent q)) * 2 ^ F.exponent q := by
    unfold nearest
    rw [sub_mul, div_mul_cancel₀ _ hpos.ne']
  rw [hfactor, abs_mul, abs_of_pos hpos]
  linarith [mul_le_mul_of_nonneg_right hscaled hpos.le]

/-- A number is rounded to a natural number if one is at most half of the last place away. -/
theorem exists_nearest_eq_natCast_iff {q : ℚ} :
    (∃ n : ℕ, F.nearest q = n) ↔ ∃ n : ℕ, |q - n| ≤ 2 ^ F.exponent q / 2 := by
  have hpos := two_zpow_pos (F.exponent q)
  constructor
  · rintro ⟨n, hn⟩
    exact ⟨n, hn ▸ abs_sub_nearest_le q⟩
  · rintro ⟨n, hn⟩
    unfold nearest
    generalize F.exponent q = e at hn hpos
    rcases lt_or_ge e 0 with hneg | hnonneg
    · -- a natural number is an even multiple of a smaller last place
      obtain ⟨k, hk⟩ : ∃ k : ℕ, -e = (k + 1 : ℕ) := ⟨(-e - 1).toNat, by omega⟩
      have hscale : (2 : ℚ) ^ e * 2 ^ (k + 1) = 1 := by
        rw [← zpow_natCast, ← hk, ← zpow_add₀ two_ne_zero, add_neg_cancel, zpow_zero]
      have heven : Even ((n * 2 ^ (k + 1) : ℕ) : ℤ) := by
        refine ⟨n * 2 ^ k, ?_⟩
        push_cast
        rw [pow_succ]
        ring
      have hself : (((n * 2 ^ (k + 1) : ℕ) : ℤ) : ℚ) * 2 ^ e = n := by
        push_cast
        rw [mul_assoc, mul_comm (2 ^ (k + 1)), hscale, mul_one]
      refine ⟨n, ?_⟩
      rw [toEven_eq_of_even heven, hself]
      have hfactor : q - n = (q / 2 ^ e - ((n * 2 ^ (k + 1) : ℕ) : ℤ)) * 2 ^ e := by
        rw [sub_mul, div_mul_cancel₀ _ hpos.ne', hself]
      rw [hfactor, abs_mul, abs_of_pos hpos] at hn
      exact le_of_mul_le_mul_right (by linarith) hpos
    · obtain ⟨k, rfl⟩ := Int.eq_ofNat_of_zero_le hnonneg
      have hlow : -(2 ^ (k : ℤ) / 2) ≤ q := by
        have hn' := (abs_le.mp hn).1
        have hcast : (0 : ℚ) ≤ n := Nat.cast_nonneg n
        linarith
      have hscaled : (0 : ℤ) ≤ toEven (q / 2 ^ (k : ℤ)) := by
        rw [le_toEven_iff]
        rcases hlow.lt_or_eq with hlt | heq
        · refine .inl ?_
          rw [lt_div_iff₀ hpos]
          push_cast
          linarith
        · refine .inr ⟨?_, Even.zero⟩
          rw [eq_div_iff hpos.ne', ← heq]
          push_cast
          ring
      obtain ⟨m, hm⟩ := Int.eq_ofNat_of_zero_le hscaled
      refine ⟨m * 2 ^ k, ?_⟩
      rw [hm]
      push_cast
      rw [zpow_natCast]

/-- A power of two is reached from half of the last place below it. -/
theorem zpow_le_nearest_iff {q : ℚ} {e : ℤ} (he : F.emin ≤ e) :
    2 ^ (e + F.precision) ≤ F.nearest q ↔ 2 ^ (e + F.precision) - 2 ^ e / 2 ≤ q := by
  have hpos := two_zpow_pos e
  have hprecision := F.precision_pos
  have hsplit : (2 : ℚ) ^ (e + F.precision) = ((2 ^ F.precision : ℤ) : ℚ) * 2 ^ e := by
    rw [add_comm, zpow_add₀ two_ne_zero]
    push_cast
    rw [zpow_natCast]
  have heven : Even ((2 : ℤ) ^ F.precision) := Even.pow_of_ne_zero even_two hprecision.ne'
  have hhalf : (2 : ℚ) ^ (e + F.precision - 1) = 2 ^ (e + F.precision) / 2 := by
    rw [zpow_sub_one₀ two_ne_zero, div_eq_mul_inv]
  have hroom : (2 : ℚ) ^ e ≤ 2 ^ (e + F.precision - 1) :=
    zpow_le_zpow_right₀ one_le_two (by omega)
  have hself : F.nearest (2 ^ (e + F.precision)) = 2 ^ (e + F.precision) :=
    nearest_of_representable ⟨2 ^ F.precision, e, he, by simp, by rw [hsplit]⟩
  rcases lt_or_ge q (2 ^ (e + F.precision - 1)) with hlow | hlow
  · refine iff_of_false (fun h => ?_) (by rw [hhalf] at hlow hroom; linarith)
    have hself' : F.nearest (2 ^ (e + F.precision - 1)) = 2 ^ (e + F.precision - 1) :=
      nearest_of_representable
        ⟨1, e + F.precision - 1, by omega, by simpa using one_le_pow₀ one_le_two, by simp⟩
    have hmono := @nearest_mono F _ _ hlow.le
    have hstrict : (2 : ℚ) ^ (e + F.precision - 1) < 2 ^ (e + F.precision) :=
      zpow_lt_zpow_right₀ one_lt_two (by omega)
    linarith
  · rcases lt_or_ge (2 ^ (e + F.precision)) q with hhigh | hhigh
    · refine iff_of_true ?_ (by linarith)
      rw [← hself]
      exact nearest_mono hhigh.le
    · have hq : 0 < q := (two_zpow_pos _).trans_le hlow
      rw [nearest_eq he (by rwa [abs_of_pos hq]) (by rwa [abs_of_pos hq]), hsplit,
        mul_le_mul_iff_left₀ hpos, Int.cast_le, le_toEven_iff, and_iff_left heven,
        ← le_iff_lt_or_eq, le_div_iff₀ hpos, sub_mul]
      rw [one_div_mul_eq_div]

end Format
end Rounding
