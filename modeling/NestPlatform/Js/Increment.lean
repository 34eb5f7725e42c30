-- SUMMARY: Adding one to a double over and over: when it reaches as much as it has been added.
import Mathlib.Data.Nat.Log
import NestPlatform.Js.Double

/-!
# Counting in doubles

A counter that starts at zero or above has reached `n` after `n` additions, as long as `n` is no
more than `2 ^ 53`, where counting stops. A counter that starts a little below zero loses what is
missing to rounding, half of it at every power of two that it passes.
-/
namespace Js.Number

open Rounding

/-- `a + 1` -/
def increment (a : Number) : Number := rounded (a + (1 : ℕ))

/-! ## One addition -/

@[simp] theorem increment_nan : increment .nan = .nan := rfl
@[simp] theorem increment_posInf : increment .posInf = .posInf := rfl
@[simp] theorem increment_negInf : increment .negInf = .negInf := rfl

theorem increment_fin (q : ℚ) : increment (.fin q) = rounded (.fin (q + 1)) := by
  unfold increment
  rw [natCast_def, fin_add_fin, Nat.cast_one]

theorem increment_mono {a b : Number} (h : a ≤ b) : increment a ≤ increment b := by
  apply rounded_mono
  rw [natCast_def]
  cases a with
  | nan => exact absurd h (not_nan_le b)
  | posInf | negInf =>
    cases b with
    | nan => cases h
    | posInf | negInf | fin r => exact h
  | fin q =>
    cases b with
    | nan | negInf => cases h
    | posInf => trivial
    | fin r =>
      have hqr : q ≤ r := h
      rw [fin_add_fin, fin_add_fin, fin_le_fin]
      linarith

theorem iterate_increment_mono {a b : Number} (h : a ≤ b) (n : ℕ) :
    increment^[n] a ≤ increment^[n] b := by
  induction n with
  | zero => exact h
  | succ n ih =>
    rw [Function.iterate_succ_apply', Function.iterate_succ_apply']
    exact increment_mono ih

theorem increment_natCast {n : ℕ} (h : n < 2 ^ 53) : increment n = (n + 1 : ℕ) := by
  have hsum : (n : Number) + (1 : ℕ) = (n + 1 : ℕ) := by
    rw [natCast_def, natCast_def, fin_add_fin, natCast_def]
    push_cast
    rfl
  unfold increment
  rw [hsum, rounded_natCast h]

/-- Counting goes on up to `2 ^ 53`. -/
theorem iterate_increment_natCast {k n : ℕ} (h : k + n ≤ 2 ^ 53) :
    increment^[n] k = (k + n : ℕ) := by
  induction n with
  | zero => rfl
  | succ n ih =>
    rw [Function.iterate_succ_apply', ih (by omega), increment_natCast (by omega)]
    rfl

/-- Of two doubles around `2 ^ 53 + 1` the lower one is even. -/
theorem increment_limit : increment (2 ^ 53 : ℕ) = (2 ^ 53 : ℕ) := by
  have hquotient : ((2 : ℚ) ^ 53 + 1) / 2 ^ (1 : ℤ) = (2 ^ 52 : ℤ) + 1 / 2 := by norm_num
  have heven : Even ((2 : ℤ) ^ 52) := by decide
  have hnearest : binary64.nearest (2 ^ 53 + 1) = 2 ^ 53 := by
    rw [Format.nearest_eq (e := 1) (by decide), hquotient, toEven_add_half, if_pos heven]
    · norm_num
    · norm_num [binary64]
    · norm_num [binary64]
  rw [natCast_def, increment_fin, Nat.cast_pow, Nat.cast_ofNat]
  rw [rounded_fin (n := 54) (by norm_num) (by norm_num), hnearest]

/-- A double does not become less. -/
theorem le_increment {a : Number} (ha : rounded a = a) (hnan : a ≠ .nan) : a ≤ increment a := by
  have h : a ≤ a + (1 : ℕ) := by
    rw [natCast_def]
    cases a with
    | nan => exact absurd rfl hnan
    | posInf | negInf => trivial
    | fin q =>
      rw [fin_add_fin, fin_le_fin, Nat.cast_one]
      linarith
  have hrounded := rounded_mono h
  rwa [ha] at hrounded

@[simp] theorem rounded_increment (a : Number) : rounded (increment a) = increment a :=
  rounded_rounded _

/-! ## Losing what is missing -/

/-- Half of `h`, of two nearest integers the even one. -/
def halve (h : ℕ) : ℕ := (h + h / 2 % 2) / 2

theorem toEven_half (h : ℕ) : toEven ((h : ℚ) / 2) = halve h := by
  unfold halve
  obtain ⟨m, rfl | rfl⟩ := Nat.even_or_odd' h
  · have hquotient : ((2 * m : ℕ) : ℚ) / 2 = (m : ℤ) := by
      push_cast
      ring
    rw [hquotient, toEven_intCast]
    omega
  · have hquotient : ((2 * m + 1 : ℕ) : ℚ) / 2 = (m : ℤ) + 1 / 2 := by
      push_cast
      ring
    rw [hquotient, toEven_add_half]
    split
    · rename_i heven
      obtain ⟨t, ht⟩ := heven
      omega
    · rename_i hodd
      obtain ⟨t, ht⟩ := Int.not_even_iff_odd.mp hodd
      omega

theorem halve_le {h s t : ℕ} (hs : s = t + 1) (hh : h ≤ 2 ^ s) : halve h ≤ 2 ^ t := by
  rw [hs, Nat.pow_succ] at hh
  unfold halve
  omega

theorem two_pow_mod_six (n : ℕ) : 2 ^ (n + 1) % 6 = 2 ∨ 2 ^ (n + 1) % 6 = 4 := by
  induction n with
  | zero => exact .inl rfl
  | succ n ih =>
    rw [Nat.pow_succ 2 (n + 1)]
    omega

/-- Halving is over after `n` steps if no more than a third of a power of two was left. -/
theorem iterate_halve_eq_zero_iff (n d : ℕ) : halve^[n] d = 0 ↔ 3 * d ≤ 2 ^ (n + 1) := by
  induction n generalizing d with
  | zero =>
    rw [Function.iterate_zero_apply]
    omega
  | succ n ih =>
    rw [Function.iterate_succ_apply, ih, Nat.pow_succ 2 (n + 1)]
    -- what is added for the even neighbour is less than what a third misses
    have hmod := two_pow_mod_six n
    have hrest : d % 4 = 0 ∨ d % 4 = 1 ∨ d % 4 = 2 ∨ d % 4 = 3 := by omega
    have hdivision : d = 4 * (d / 4) + d % 4 := by omega
    unfold halve
    rcases hrest with hr | hr | hr | hr
    all_goals
      rw [hr] at hdivision
      rw [hdivision]
      omega

/-- The next number, as long as it has no more bits than the missing part. -/
theorem increment_within {k s h : ℕ} (hs : s ≤ 53) (hk : (k + 1) * 2 ^ s ≤ 2 ^ 53)
    (hh : h ≤ (k + 1) * 2 ^ s) :
    increment (.fin (k - h / 2 ^ s)) = .fin ((k + 1 : ℕ) - h / 2 ^ s) := by
  have hpow : (1 : ℚ) ≤ 2 ^ s := one_le_pow₀ one_le_two
  have hvalue : ((k + 1 : ℕ) : ℚ) - h / 2 ^ s = ((k + 1) * 2 ^ s - h : ℕ) / 2 ^ s := by
    rw [Nat.cast_sub hh]
    push_cast
    field_simp
  have hbits : (((k + 1) * 2 ^ s - h : ℕ) : ℤ) ≤ 2 ^ 53 := by
    have hle : (k + 1) * 2 ^ s - h ≤ 2 ^ 53 := (Nat.sub_le _ _).trans hk
    exact_mod_cast hle
  have hrepresentable : binary64.Representable ((k + 1 : ℕ) - h / 2 ^ s) := by
    refine ⟨((k + 1) * 2 ^ s - h : ℕ), -s, ?_, ?_, ?_⟩
    · have hemin : binary64.emin = -1074 := rfl
      omega
    · rw [Nat.abs_cast]
      exact hbits
    · rw [hvalue, zpow_neg, zpow_natCast, Int.cast_natCast, div_eq_mul_inv]
  have habs : |((k + 1 : ℕ) : ℚ) - h / 2 ^ s| ≤ 2 ^ 53 := by
    rw [hvalue, abs_of_nonneg (by positivity)]
    exact (div_le_self (Nat.cast_nonneg _) hpow).trans (by exact_mod_cast hbits)
  have hsum : (k : ℚ) - h / 2 ^ s + 1 = (k + 1 : ℕ) - h / 2 ^ s := by
    push_cast
    ring
  rw [increment_fin, hsum, rounded_fin (by norm_num) habs,
    Format.nearest_of_representable hrepresentable]

/-- Beyond a power of two the last place is twice as large, and half of the missing part goes. -/
theorem increment_across {r s h : ℕ} (hs : 1 ≤ s) (hr : r + s = 52) (hh : h ≤ 2 ^ (s + 1)) :
    increment (.fin ((2 ^ r : ℕ) - h / 2 ^ (s + 1))) =
      .fin ((2 ^ r + 1 : ℕ) - halve h / 2 ^ s) := by
  have hpow : (0 : ℚ) < 2 ^ s := by positivity
  have hrange : (1 : ℚ) ≤ 2 ^ r := one_le_pow₀ one_le_two
  have hmissing : (h : ℚ) / 2 ^ (s + 1) ≤ 1 := by
    rw [div_le_one (by positivity)]
    exact_mod_cast hh
  have hmissing' : (0 : ℚ) ≤ h / 2 ^ (s + 1) := by positivity
  have hplace : (2 : ℚ) ^ (-(s : ℤ)) = (2 ^ s)⁻¹ := by rw [zpow_neg, zpow_natCast]
  have hbelow : (2 : ℚ) ^ (-(s : ℤ) + binary64.precision - 1) = 2 ^ r := by
    have hexponent : -(s : ℤ) + binary64.precision - 1 = r := by
      have hprecision : (binary64.precision : ℤ) = 53 := rfl
      omega
    rw [hexponent, zpow_natCast]
  have habove : (2 : ℚ) ^ (-(s : ℤ) + binary64.precision) = 2 * 2 ^ r := by
    have hexponent : -(s : ℤ) + binary64.precision = (r + 1 : ℕ) := by
      have hprecision : (binary64.precision : ℤ) = 53 := rfl
      push_cast
      omega
    rw [hexponent, zpow_natCast, pow_succ, mul_comm]
  have hemin : binary64.emin ≤ -(s : ℤ) := by
    have hemin : binary64.emin = -1074 := rfl
    omega
  -- in places of the larger binade: an even number less half of what is missing
  have hquotient : ((2 : ℚ) ^ r + 1 - h / 2 ^ (s + 1)) / 2 ^ (-(s : ℤ)) =
      -((h : ℚ) / 2) + ((2 ^ r + 1) * 2 ^ s : ℤ) := by
    rw [hplace, div_inv_eq_mul]
    push_cast
    field_simp
    ring
  have heven : Even (((2 : ℤ) ^ r + 1) * 2 ^ s) :=
    (Even.pow_of_ne_zero even_two (by omega)).mul_left _
  have hnearest : binary64.nearest (2 ^ r + 1 - h / 2 ^ (s + 1)) =
      2 ^ r + 1 - halve h / 2 ^ s := by
    rw [Format.nearest_eq hemin, hquotient, toEven_add_of_even heven, toEven_neg, toEven_half,
      hplace]
    · push_cast
      field_simp
      ring
    · rw [hbelow, abs_of_nonneg (by linarith)]
      linarith
    · rw [habove, abs_of_nonneg (by linarith)]
      linarith
  have hsum : ((2 ^ r : ℕ) : ℚ) - h / 2 ^ (s + 1) + 1 = 2 ^ r + 1 - h / 2 ^ (s + 1) := by
    push_cast
    ring
  have habs : |(2 : ℚ) ^ r + 1 - h / 2 ^ (s + 1)| ≤ 2 ^ 53 := by
    have hmax : (2 : ℚ) ^ r ≤ 2 ^ 52 := pow_le_pow_right₀ one_le_two (by omega)
    have hdouble : (2 : ℚ) ^ 53 = 2 * 2 ^ 52 := by norm_num
    rw [abs_of_nonneg (by linarith), hdouble]
    linarith
  rw [increment_fin, hsum, rounded_fin (by norm_num) habs, hnearest]
  push_cast
  rfl

/-- What is missing to `n` after `n` additions. -/
def missing (d n : ℕ) : ℚ := (halve^[Nat.clog 2 n] d : ℕ) / 2 ^ (53 - Nat.clog 2 n)

theorem clog_le_of_le {n : ℕ} (h : n ≤ 2 ^ 52) : Nat.clog 2 n ≤ 52 := Nat.clog_le_of_le_pow h

theorem iterate_halve_le {d c : ℕ} (hd : d ≤ 2 ^ 52) (hc : c ≤ 52) : halve^[c] d ≤ 2 ^ (52 - c) := by
  induction c with
  | zero => exact hd
  | succ c ih =>
    rw [Function.iterate_succ_apply']
    exact halve_le (by omega) (ih (by omega))

/-- One more addition within the numbers of at most 52 bits. -/
theorem increment_missing {d n : ℕ} (hd : d ≤ 2 ^ 52) (hn : 1 ≤ n) (hn' : n < 2 ^ 52) :
    increment (.fin (n - missing d n)) = .fin ((n + 1 : ℕ) - missing d (n + 1)) := by
  have hclog : Nat.clog 2 n ≤ 52 := clog_le_of_le hn'.le
  have hleft := iterate_halve_le hd hclog
  unfold missing
  -- the sum leaves the binade exactly if `n` is a power of two
  by_cases hpow : 2 ^ Nat.clog 2 n = n
  · have hless : Nat.clog 2 n < 52 := by
      rw [← Nat.pow_lt_pow_iff_right one_lt_two, hpow]
      exact hn'
    have hnext : Nat.clog 2 (n + 1) = Nat.clog 2 n + 1 := by
      apply le_antisymm
      · apply Nat.clog_le_of_le_pow
        rw [Nat.pow_succ]
        omega
      · exact (Nat.clog_lt_clog_succ_iff one_lt_two).mpr hpow
    obtain ⟨s, hs⟩ : ∃ s, Nat.clog 2 n + s = 52 := ⟨52 - Nat.clog 2 n, by omega⟩
    have hplace : 53 - Nat.clog 2 n = s + 1 := by omega
    have hplace' : 53 - (Nat.clog 2 n + 1) = s := by omega
    have hleft' : halve^[Nat.clog 2 n] d ≤ 2 ^ (s + 1) := by
      refine hleft.trans (Nat.pow_le_pow_right (by omega) (by omega))
    have hacross := increment_across (by omega) hs hleft'
    rw [hpow] at hacross
    rw [hnext, Function.iterate_succ_apply', hplace, hplace']
    exact hacross
  · have hnext : Nat.clog 2 (n + 1) = Nat.clog 2 n :=
      ((Nat.clog_eq_clog_succ_iff one_lt_two).mpr hpow).symm
    have hless : n + 1 ≤ 2 ^ Nat.clog 2 n :=
      lt_of_le_of_ne (Nat.le_pow_clog one_lt_two n) (Ne.symm hpow)
    have hbits : (n + 1) * 2 ^ (53 - Nat.clog 2 n) ≤ 2 ^ 53 := by
      calc (n + 1) * 2 ^ (53 - Nat.clog 2 n)
          ≤ 2 ^ Nat.clog 2 n * 2 ^ (53 - Nat.clog 2 n) := Nat.mul_le_mul_right _ hless
        _ = 2 ^ 53 := by rw [← pow_add, Nat.add_sub_cancel' (by omega)]
    have hleft' : halve^[Nat.clog 2 n] d ≤ (n + 1) * 2 ^ (53 - Nat.clog 2 n) := by
      calc halve^[Nat.clog 2 n] d ≤ 2 ^ (52 - Nat.clog 2 n) := hleft
        _ ≤ 2 ^ (53 - Nat.clog 2 n) := Nat.pow_le_pow_right (by omega) (by omega)
        _ ≤ (n + 1) * 2 ^ (53 - Nat.clog 2 n) := Nat.le_mul_of_pos_left _ (by omega)
    rw [hnext]
    exact increment_within (by omega) hbits hleft'

/-- A counter that starts `d` places below one. -/
theorem iterate_increment {d n : ℕ} (hd : d ≤ 2 ^ 52) (hn : n < 2 ^ 52) :
    increment^[n] (.fin (1 - d / 2 ^ 53)) = .fin ((n + 1 : ℕ) - missing d (n + 1)) := by
  induction n with
  | zero => simp [missing]
  | succ n ih =>
    rw [Function.iterate_succ_apply', ih (by omega)]
    exact increment_missing hd (by omega) (by omega)

theorem missing_eq_zero_iff {d n : ℕ} : missing d n = 0 ↔ 3 * d ≤ 2 ^ (Nat.clog 2 n + 1) := by
  have hpow : (2 : ℚ) ^ (53 - Nat.clog 2 n) ≠ 0 := by positivity
  rw [missing, div_eq_zero_iff, or_iff_left hpow, Nat.cast_eq_zero, iterate_halve_eq_zero_iff]

theorem missing_nonneg (d n : ℕ) : 0 ≤ missing d n := by
  unfold missing
  positivity

/-- At `2 ^ 52` the last place is a half. -/
theorem half_le_missing {d : ℕ} (h : missing d (2 ^ 52) ≠ 0) : 1 / 2 ≤ missing d (2 ^ 52) := by
  unfold missing at h ⊢
  rw [Nat.clog_pow 2 52 one_lt_two] at h ⊢
  generalize halve^[52] d = left at h ⊢
  have hpos : 0 < left := by
    apply Nat.pos_of_ne_zero
    rintro rfl
    simp at h
  have hcast : (1 : ℚ) ≤ left := by exact_mod_cast hpos
  norm_num
  linarith

/-- The last place that is still missing at `2 ^ 52` goes for good. -/
theorem increment_half : increment (.fin (2 ^ 52 - 1 / 2)) = (2 ^ 52 : ℕ) := by
  have hsum : (2 : ℚ) ^ 52 - 1 / 2 + 1 = (2 ^ 52 : ℤ) + 1 / 2 := by
    push_cast
    ring
  have heven : Even ((2 : ℤ) ^ 52) := by decide
  have hnearest : binary64.nearest ((2 ^ 52 : ℤ) + 1 / 2) = (2 ^ 52 : ℕ) := by
    rw [Format.nearest_eq (e := 0) (by decide), zpow_zero, div_one, toEven_add_half, if_pos heven]
    · norm_num
    · norm_num [binary64]
    · norm_num [binary64]
  rw [increment_fin, hsum, rounded_fin (n := 53) (by norm_num) (by norm_num), hnearest]
  rfl

/-- A counter that starts `d` places below one reaches `n + 1` in time if nothing is missing at
`n + 1`, or at `2 ^ 52` on the way to it. -/
theorem le_iterate_increment_iff {d n : ℕ} (hd : d ≤ 2 ^ 52) (hn : n + 1 ≤ 2 ^ 53) :
    ((n + 1 : ℕ) : Number) ≤ increment^[n] (.fin (1 - d / 2 ^ 53)) ↔
      3 * d ≤ 2 ^ (Nat.clog 2 (Min.min (n + 1) (2 ^ 52)) + 1) := by
  rw [← missing_eq_zero_iff]
  by_cases hsmall : n + 1 ≤ 2 ^ 52
  · rw [min_eq_left hsmall, iterate_increment hd (by omega), natCast_def, fin_le_fin]
    constructor
    · intro h
      exact le_antisymm (by linarith) (missing_nonneg d _)
    · intro h
      rw [h, sub_zero]
  · obtain ⟨m, rfl⟩ : ∃ m, n = m + 1 + (2 ^ 52 - 1) := ⟨n - 2 ^ 52, by omega⟩
    have hmin : Min.min (m + 1 + (2 ^ 52 - 1) + 1) (2 ^ 52) = 2 ^ 52 := by omega
    have hhalfway := iterate_increment (n := 2 ^ 52 - 1) hd (by omega)
    rw [Nat.sub_add_cancel (by norm_num)] at hhalfway
    rw [hmin, Function.iterate_add_apply, hhalfway]
    constructor
    · intro h
      by_contra hmissing
      have hplace : (1 : ℚ) / 2 ≤ missing d (2 ^ 52) := half_le_missing hmissing
      have hlow : increment (.fin ((2 ^ 52 : ℕ) - missing d (2 ^ 52))) ≤ (2 ^ 52 : ℕ) := by
        rw [← increment_half]
        apply increment_mono
        rw [fin_le_fin]
        push_cast
        linarith
      have hlater := iterate_increment_mono hlow m
      rw [iterate_increment_natCast (by omega), ← Function.iterate_succ_apply] at hlater
      have hbetween := le_trans h hlater
      rw [natCast_def, natCast_def, fin_le_fin, Nat.cast_le] at hbetween
      omega
    · intro h
      rw [h, sub_zero, ← natCast_def, iterate_increment_natCast (by omega)]
      rw [natCast_def, natCast_def, fin_le_fin, Nat.cast_le]
      omega

/-- A double between a half and one is some places below one. -/
theorem exists_places {q : ℚ} (hq : rounded (.fin q) = .fin q) (hlow : 1 / 2 ≤ q) (hhigh : q < 1) :
    ∃ d : ℕ, d ≤ 2 ^ 52 ∧ q = 1 - d / 2 ^ 53 := by
  have hnearest : q = binary64.nearest q := (eq_of_rounded_eq_fin hq).1
  have hpos : 0 ≤ q := by linarith
  rw [Format.nearest_eq (e := -53) (by decide)] at hnearest
  rotate_left
  · rw [abs_of_nonneg hpos]
    norm_num [binary64]
    linarith
  · rw [abs_of_nonneg hpos]
    norm_num [binary64]
    exact hhigh.le
  generalize toEven (q / 2 ^ (-53 : ℤ)) = m at hnearest
  have hm : q = m / 2 ^ 53 := by
    rw [hnearest, zpow_neg, div_eq_mul_inv]
    norm_cast
  have hmlow : (2 : ℤ) ^ 52 ≤ m := by
    have h : (2 : ℚ) ^ 52 ≤ m := by
      rw [hm] at hlow
      norm_num at hlow ⊢
      linarith
    exact_mod_cast h
  have hmhigh : m ≤ (2 : ℤ) ^ 53 := by
    have h : (m : ℚ) ≤ 2 ^ 53 := by
      rw [hm] at hhigh
      norm_num at hhigh ⊢
      linarith
    exact_mod_cast h
  refine ⟨(2 ^ 53 - m).toNat, by omega, ?_⟩
  have hcast : (((2 ^ 53 - m).toNat : ℕ) : ℚ) = 2 ^ 53 - m := by
    have h : ((2 ^ 53 - m).toNat : ℤ) = 2 ^ 53 - m := Int.toNat_of_nonneg (by omega)
    exact_mod_cast h
  rw [hcast, hm]
  ring

/-- What a counter may lack of one if it is to reach `n` in time. -/
def tolerance (n : ℕ) : ℚ := 2 ^ Nat.clog 2 (Min.min n (2 ^ 52)) / (3 * 2 ^ 52)

theorem tolerance_nonneg (n : ℕ) : 0 ≤ tolerance n := by
  unfold tolerance
  positivity

theorem tolerance_le (n : ℕ) : tolerance n ≤ 1 / 3 := by
  have hclog : Nat.clog 2 (Min.min n (2 ^ 52)) ≤ 52 := clog_le_of_le (min_le_right _ _)
  have hpow : (2 : ℚ) ^ Nat.clog 2 (Min.min n (2 ^ 52)) ≤ 2 ^ 52 := pow_le_pow_right₀ one_le_two hclog
  unfold tolerance
  rw [div_le_div_iff₀ (by norm_num) (by norm_num)]
  linarith

theorem places_le_tolerance_iff (d n : ℕ) :
    (d : ℚ) / 2 ^ 53 ≤ tolerance n ↔ 3 * d ≤ 2 ^ (Nat.clog 2 (Min.min n (2 ^ 52)) + 1) := by
  unfold tolerance
  generalize Nat.clog 2 (Min.min n (2 ^ 52)) = c
  have hcast : 3 * d ≤ 2 ^ (c + 1) ↔ 3 * (d : ℚ) ≤ 2 * 2 ^ c := by
    rw [pow_succ']
    exact_mod_cast Iff.rfl
  rw [hcast, div_le_div_iff₀ (by norm_num) (by norm_num)]
  constructor
  · intro h
    norm_num at h
    linarith
  · intro h
    norm_num
    linarith

/-- Which doubles reach a number of at most 53 bits in as many additions as it takes from one. -/
theorem natCast_le_iterate_increment_iff {y : Number} (hy : rounded y = y) {n : ℕ}
    (hn : n + 1 ≤ 2 ^ 53) :
    ((n + 1 : ℕ) : Number) ≤ increment^[n] y ↔ .fin (1 - tolerance (n + 1)) ≤ y := by
  have hnonneg := tolerance_nonneg (n + 1)
  have hle := tolerance_le (n + 1)
  cases y with
  | nan =>
    rw [Function.iterate_fixed increment_nan]
    exact iff_of_false (not_le_nan _) (not_le_nan _)
  | posInf =>
    rw [Function.iterate_fixed increment_posInf]
    exact iff_of_true trivial trivial
  | negInf =>
    rw [Function.iterate_fixed increment_negInf]
    exact iff_of_false id id
  | fin q =>
    rw [fin_le_fin]
    rcases lt_or_ge q 1 with hless | hone
    · rcases lt_or_ge q (1 / 2) with hlow | hlow
      · -- already a half does not reach it
        have hhalf : Number.fin q ≤ .fin (1 - (2 ^ 52 : ℕ) / 2 ^ 53) := by
          rw [fin_le_fin]
          norm_num
          linarith
        refine iff_of_false (fun h => ?_) (by linarith)
        have hreached := le_trans h (iterate_increment_mono hhalf n)
        rw [le_iterate_increment_iff (le_refl _) hn, ← places_le_tolerance_iff] at hreached
        norm_num at hreached
        linarith
      · obtain ⟨d, hd, rfl⟩ := exists_places hy hlow hless
        rw [le_iterate_increment_iff hd hn, ← places_le_tolerance_iff]
        constructor
        · intro h
          linarith
        · intro h
          linarith
    · have hstart : ((1 : ℕ) : Number) ≤ .fin q := by
        rw [natCast_def, fin_le_fin, Nat.cast_one]
        exact hone
      have hreached := iterate_increment_mono hstart n
      rw [iterate_increment_natCast (by omega), add_comm] at hreached
      exact iff_of_true hreached (by linarith)

/-! ## Beyond `2 ^ 53` -/

/-- From `2 ^ 54` on one is less than half of the last place. -/
theorem nearest_add_one {q : ℚ} (hq : binary64.nearest q = q) (h : 2 ^ 54 ≤ q) :
    binary64.nearest (q + 1) = q := by
  have hpos : 0 < q := lt_of_lt_of_le (by positivity) h
  have hbound := @Format.lt_zpow_exponent binary64 q
  rw [abs_of_pos hpos] at hbound
  have hprecision : (binary64.precision : ℤ) = 53 := rfl
  have hemin : binary64.emin = -1074 := rfl
  have hplace : 2 ≤ binary64.exponent q := by
    have hlt : (2 : ℚ) ^ (54 : ℤ) < 2 ^ (binary64.exponent q + binary64.precision) :=
      lt_of_le_of_lt (by exact_mod_cast h) hbound
    have hexponent := (zpow_lt_zpow_iff_right₀ one_lt_two).mp hlt
    omega
  have hlow := @Format.zpow_le_of_emin_lt binary64 q hpos.ne' (by omega)
  rw [abs_of_pos hpos] at hlow
  have hself : (toEven (q / 2 ^ binary64.exponent q) : ℚ) * 2 ^ binary64.exponent q = q := hq
  generalize binary64.exponent q = e at hself hbound hplace hlow
  generalize toEven (q / 2 ^ e) = m at hself
  have hpow : (0 : ℚ) < 2 ^ e := Format.two_zpow_pos e
  have hfour : (4 : ℚ) ≤ 2 ^ e := by
    calc (4 : ℚ) = 2 ^ (2 : ℤ) := by norm_num
      _ ≤ 2 ^ e := zpow_le_zpow_right₀ one_le_two hplace
  have hsplit : (2 : ℚ) ^ (e + binary64.precision) = 2 ^ 53 * 2 ^ e := by
    rw [add_comm, zpow_add₀ two_ne_zero]
    rfl
  have hm : m + 1 ≤ (2 : ℤ) ^ 53 := by
    rw [hsplit, ← hself] at hbound
    have hlt : (m : ℚ) < 2 ^ 53 := lt_of_mul_lt_mul_right hbound hpow.le
    exact_mod_cast hlt
  -- the next double is in the same binade, so `q + 1` has the places of `q`
  have hroom : q + 2 ^ e ≤ 2 ^ (e + binary64.precision) := by
    have hcast : (m : ℚ) + 1 ≤ 2 ^ 53 := by exact_mod_cast hm
    rw [hsplit, ← hself, ← add_one_mul]
    exact mul_le_mul_of_nonneg_right hcast hpow.le
  have hquotient : toEven ((q + 1) / 2 ^ e) = m := by
    apply toEven_eq_of_abs_lt
    have hrest : (q + 1) / 2 ^ e - m = 1 / 2 ^ e := by
      rw [← hself]
      field_simp
      ring
    rw [hrest, abs_of_pos (by positivity), div_lt_div_iff₀ hpow two_pos]
    linarith
  rw [Format.nearest_eq (e := e) (by omega), hquotient]
  · exact hself
  · rw [abs_of_pos (by linarith)]
    linarith
  · rw [abs_of_pos (by linarith)]
    linarith

/-- A double between `2 ^ 53` and `2 ^ 54` is even. -/
theorem nearest_binade {p : ℚ} (hlow : 2 ^ 53 ≤ p) (hhigh : p ≤ 2 ^ 54) :
    binary64.nearest p = toEven (p / 2) * 2 := by
  have hpos : 0 ≤ p := le_of_lt (lt_of_lt_of_le (by positivity) hlow)
  rw [Format.nearest_eq (e := 1) (by decide), zpow_one]
  · rw [abs_of_nonneg hpos]
    exact_mod_cast hlow
  · rw [abs_of_nonneg hpos]
    exact_mod_cast hhigh

/-- Between `2 ^ 53` and `2 ^ 54` the next double is a multiple of four, where counting stops. -/
theorem nearest_add_one_add_one {p : ℚ} (hp : binary64.nearest p = p) (hlow : 2 ^ 53 ≤ p)
    (hhigh : p < 2 ^ 54) :
    binary64.nearest (binary64.nearest (p + 1) + 1) = binary64.nearest (p + 1) := by
  obtain ⟨m, rfl⟩ : ∃ m : ℤ, p = m * 2 := by
    rw [nearest_binade hlow hhigh.le] at hp
    exact ⟨_, hp.symm⟩
  have hm : m + 1 ≤ (2 : ℤ) ^ 53 := by
    have hlt : (m : ℚ) < 2 ^ 53 := by linarith
    exact_mod_cast hlt
  have hm' : (m : ℚ) + 1 ≤ 2 ^ 53 := by exact_mod_cast hm
  have hquotient : ((m : ℚ) * 2 + 1) / 2 = m + 1 / 2 := by ring
  have hnext : binary64.nearest (m * 2 + 1) = toEven (m + 1 / 2) * 2 := by
    rw [nearest_binade (by linarith) (by linarith), hquotient]
  have heven : Even (toEven ((m : ℚ) + 1 / 2)) := even_toEven_add_half m
  have hmono : m ≤ toEven ((m : ℚ) + 1 / 2) := le_toEven_iff.mpr (.inl (by linarith))
  have hmono' : (m : ℚ) ≤ toEven ((m : ℚ) + 1 / 2) := by exact_mod_cast hmono
  have hself := @Format.nearest_nearest binary64 ((m : ℚ) * 2 + 1)
  rw [hnext] at hself ⊢
  generalize toEven ((m : ℚ) + 1 / 2) = n at heven hmono hmono' hself
  rcases le_or_gt (2 ^ 54) ((n : ℚ) * 2) with hbeyond | hwithin
  · exact nearest_add_one hself hbeyond
  · have hn : n + 1 ≤ (2 : ℤ) ^ 53 := by
      have hlt : (n : ℚ) < 2 ^ 53 := by linarith
      exact_mod_cast hlt
    have hn' : (n : ℚ) + 1 ≤ 2 ^ 53 := by exact_mod_cast hn
    have hquotient' : ((n : ℚ) * 2 + 1) / 2 = n + 1 / 2 := by ring
    rw [nearest_binade (by linarith) (by linarith), hquotient', toEven_add_half, if_pos heven]

/-- A counter that has come beyond `2 ^ 53` by an addition stays where it is. -/
theorem increment_increment {a : Number} (ha : rounded a = a)
    (h : ¬ increment a ≤ (2 ^ 53 : ℕ)) : increment (increment a) = increment a := by
  cases a with
  | nan | posInf | negInf => rfl
  | fin p =>
    have hp := (eq_of_rounded_eq_fin ha).1.symm
    have hlow : (2 : ℚ) ^ 53 ≤ p := by
      by_contra hless
      have hle : Number.fin p ≤ (2 ^ 53 : ℕ) := by
        rw [natCast_def, fin_le_fin]
        push_cast
        exact (not_le.mp hless).le
      have hmono := increment_mono hle
      rw [increment_limit] at hmono
      exact h hmono
    rw [increment_fin]
    cases hnext : rounded (.fin (p + 1)) with
    | nan | posInf | negInf => rfl
    | fin q =>
      obtain ⟨rfl, hqlow, hqhigh⟩ := eq_of_rounded_eq_fin hnext
      rw [increment_fin]
      refine rounded_of_nearest ?_ hqlow hqhigh
      rcases lt_or_ge p (2 ^ 54) with hwithin | hbeyond
      · exact nearest_add_one_add_one hp hlow hwithin
      · rw [nearest_add_one hp hbeyond]
        exact nearest_add_one hp hbeyond

/-- A number of more than 53 bits is reached by the first addition or never. -/
theorem natCast_le_iterate_increment_iff_le {a : Number} (ha : rounded a = a) {n : ℕ}
    (hn : 2 ^ 53 < n + 1) :
    ((n + 1 : ℕ) : Number) ≤ increment^[n] (increment a) ↔
      ((n + 1 : ℕ) : Number) ≤ increment a := by
  by_cases hle : increment a ≤ (2 ^ 53 : ℕ)
  · have hlater := iterate_increment_mono hle n
    rw [Function.iterate_fixed increment_limit] at hlater
    have hless : ¬ ((n + 1 : ℕ) : Number) ≤ (2 ^ 53 : ℕ) := by
      rw [natCast_def, natCast_def, fin_le_fin, Nat.cast_le]
      omega
    exact iff_of_false (fun h => hless (le_trans h hlater)) fun h => hless (le_trans h hle)
  · rw [Function.iterate_fixed (increment_increment ha hle)]

/-- The counter `a` reaches `n` in `n` additions. -/
def ReachesInTime (n : ℕ) (a : Number) : Prop :=
  if n ≤ 2 ^ 53 then .fin (1 - tolerance n) ≤ increment a else n ≤ increment a

instance (n : ℕ) (a : Number) : Decidable (ReachesInTime n a) :=
  inferInstanceAs (Decidable (if n ≤ 2 ^ 53 then .fin (1 - tolerance n) ≤ increment a
    else n ≤ increment a))

theorem reachesInTime_iff {a : Number} (ha : rounded a = a) {n : ℕ} (hn : 1 ≤ n) :
    ReachesInTime n a ↔ n ≤ increment^[n] a := by
  obtain ⟨n, rfl⟩ : ∃ k, n = k + 1 := ⟨n - 1, by omega⟩
  unfold ReachesInTime
  rw [Function.iterate_succ_apply]
  split
  · rename_i hle
    exact (natCast_le_iterate_increment_iff (rounded_increment a) hle).symm
  · rename_i hbeyond
    exact (natCast_le_iterate_increment_iff_le ha (by omega)).symm

end Js.Number
