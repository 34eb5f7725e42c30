-- SUMMARY: Numbers as doubles: the exact results of conversions and operations, rounded.
import NestPlatform.Js.ToNumber
import NestPlatform.Lib.Rounding

/-!
# Doubles

A number of the language is a double: every conversion and every operation gives the double
nearest to the exact result, or an infinity beyond the largest one. There is one zero.
-/
namespace Js

open Rounding

def binary64 : Format where
  precision := 53
  emin := -1074
  precision_pos := by decide

namespace Number

/-- The largest double is just below. -/
@[irreducible] def overflow : ℚ := 2 ^ 1024

/-- The double nearest to an exact result. -/
def rounded : Number → Number
  | .fin q =>
    if overflow ≤ binary64.nearest q then .posInf
    else if binary64.nearest q ≤ -overflow then .negInf
    else .fin (binary64.nearest q)
  | n => n

/-- `a - b` -/
def minus (a b : Number) : Number := rounded (a - b)

/-- `a * b` -/
def times (a b : Number) : Number := rounded (a * b)

end Number

/-- `Number(v)`, as the double that it is. -/
def Value.toDouble (v : Value) : Option Number := v.toNumber.map Number.rounded

/-- `n | 0` -/
def Number.toInt32 : Number → ℤ
  | .fin q => Int.bmod (q.num.tdiv q.den) (2 ^ 32)
  | _ => 0

namespace Number

@[simp] theorem rounded_nan : rounded .nan = .nan := rfl
@[simp] theorem rounded_posInf : rounded .posInf = .posInf := rfl
@[simp] theorem rounded_negInf : rounded .negInf = .negInf := rfl

/-! ## What rounding keeps -/

theorem rounded_of_nearest {q r : ℚ} (h : binary64.nearest q = r) (hlow : -overflow < r)
    (hhigh : r < overflow) : rounded (.fin q) = .fin r := by
  unfold rounded
  dsimp only
  rw [h, if_neg (not_le.mpr hhigh), if_neg (not_le.mpr hlow)]

theorem rounded_of_representable {q : ℚ} (h : binary64.Representable q) (hlow : -overflow < q)
    (hhigh : q < overflow) : rounded (.fin q) = .fin q :=
  rounded_of_nearest (Format.nearest_of_representable h) hlow hhigh

/-- What is left finite is the nearest number of the format, and a double. -/
theorem eq_of_rounded_eq_fin {q r : ℚ} (h : rounded (.fin q) = .fin r) :
    r = binary64.nearest q ∧ -overflow < r ∧ r < overflow := by
  unfold rounded at h
  dsimp only at h
  split at h
  · cases h
  · rename_i hhigh
    split at h
    · cases h
    · rename_i hlow
      cases h
      exact ⟨rfl, not_le.mp hlow, not_le.mp hhigh⟩

@[simp] theorem rounded_rounded (n : Number) : rounded (rounded n) = rounded n := by
  cases n with
  | nan | posInf | negInf => rfl
  | fin q =>
    cases h : rounded (.fin q) with
    | nan | posInf | negInf => rfl
    | fin r =>
      obtain ⟨rfl, hlow, hhigh⟩ := eq_of_rounded_eq_fin h
      exact rounded_of_representable (Format.representable_nearest q) hlow hhigh

/-- Integers of at most 53 bits are doubles. -/
theorem representable_intCast {m : ℤ} (h : |m| ≤ 2 ^ 53) : binary64.Representable m :=
  ⟨m, 0, by decide, h, by simp⟩

theorem two_pow_lt_overflow {n : ℕ} (h : n < 1024) : (2 : ℚ) ^ n < overflow := by
  unfold overflow
  exact pow_lt_pow_right₀ one_lt_two h

/-- Far from the largest double there is no infinity. -/
theorem rounded_fin {q : ℚ} {n : ℕ} (hn : n < 1024) (h : |q| ≤ 2 ^ n) :
    rounded (.fin q) = .fin (binary64.nearest q) := by
  have hpow : binary64.nearest (2 ^ n) = 2 ^ n := by
    refine Format.nearest_of_representable ⟨1, n, ?_, ?_, by simp⟩
    · exact (by decide : (-1074 : ℤ) ≤ 0).trans (Int.natCast_nonneg n)
    · norm_num [binary64]
  obtain ⟨hlow, hhigh⟩ := abs_le.mp h
  have hlow' := @Format.nearest_mono binary64 _ _ hlow
  have hhigh' := @Format.nearest_mono binary64 _ _ hhigh
  rw [Format.nearest_neg, hpow] at hlow'
  rw [hpow] at hhigh'
  have hoverflow := two_pow_lt_overflow hn
  unfold rounded
  dsimp only
  rw [if_neg (by linarith), if_neg (by linarith)]

theorem rounded_natCast {n : ℕ} (h : n ≤ 2 ^ 53) : rounded (n : Number) = n := by
  have hcast : ((n : ℤ) : ℚ) = n := Int.cast_natCast n
  have habs : |(n : ℚ)| ≤ 2 ^ 53 := by
    rw [Nat.abs_cast]
    exact_mod_cast h
  rw [natCast_def, rounded_fin (by norm_num) habs, ← hcast, Format.nearest_of_representable]
  apply representable_intCast
  rw [Nat.abs_cast]
  exact_mod_cast h

theorem rounded_zero : rounded (.fin 0) = .fin 0 := by
  have h := rounded_natCast (n := 0) (by norm_num)
  rwa [natCast_def, Nat.cast_zero] at h

/-! ## Order -/

theorem le_trans {a b c : Number} (h : a ≤ b) (h' : b ≤ c) : a ≤ c := by
  cases a <;> cases b <;> cases c <;> first | trivial | cases h | cases h' | skip
  exact Rat.le_trans h h'

/-- A finite result is no `NaN`. -/
theorem rounded_fin_cases (q : ℚ) :
    rounded (.fin q) = .posInf ∨ rounded (.fin q) = .negInf ∨
      rounded (.fin q) = .fin (binary64.nearest q) := by
  unfold rounded
  dsimp only
  split
  · exact .inl rfl
  · split
    · exact .inr (.inl rfl)
    · exact .inr (.inr rfl)

theorem rounded_fin_mono {q r : ℚ} (h : q ≤ r) : rounded (.fin q) ≤ rounded (.fin r) := by
  have hnearest := @Format.nearest_mono binary64 _ _ h
  have hoverflow : 2 ^ 0 < overflow := two_pow_lt_overflow (by norm_num)
  unfold rounded
  dsimp only
  split
  · rw [if_pos (by linarith)]
    trivial
  · split
    · split
      · trivial
      · split <;> trivial
    · split
      · trivial
      · rw [if_neg (by linarith)]
        exact hnearest

theorem rounded_mono {a b : Number} (h : a ≤ b) : rounded a ≤ rounded b := by
  cases a with
  | nan => exact absurd h (not_nan_le b)
  | posInf =>
    cases b with
    | posInf => trivial
    | nan | negInf | fin r => cases h
  | negInf =>
    cases b with
    | nan => cases h
    | posInf | negInf => trivial
    | fin r =>
      rcases rounded_fin_cases r with hr | hr | hr
      all_goals
        rw [hr]
        trivial
  | fin q =>
    cases b with
    | nan | negInf => cases h
    | posInf =>
      rcases rounded_fin_cases q with hq | hq | hq
      all_goals
        rw [hq]
        trivial
    | fin r => exact rounded_fin_mono h

/-! ## Overflow and natural results -/

/-- The exact result is beyond the largest double, by half of its last place or more. -/
def Overflows (q : ℚ) : Prop := overflow - 2 ^ 970 ≤ |q|

theorem overflow_le_nearest_iff (q : ℚ) :
    overflow ≤ binary64.nearest q ↔ overflow - 2 ^ 970 ≤ q := by
  have hpower : overflow = 2 ^ ((971 : ℤ) + binary64.precision) := by
    unfold overflow
    rw [← zpow_natCast]
    rfl
  have hhalf : (2 : ℚ) ^ (971 : ℤ) / 2 = 2 ^ 970 := by
    rw [div_eq_iff two_ne_zero, ← pow_succ, ← zpow_natCast]
    rfl
  rw [hpower, Format.zpow_le_nearest_iff (by decide), hhalf]

theorem rounded_of_overflows {q : ℚ} (h : Overflows q) (r : ℚ) : rounded (.fin q) ≠ .fin r := by
  intro hr
  obtain ⟨rfl, hlow, hhigh⟩ := eq_of_rounded_eq_fin hr
  unfold Overflows at h
  rcases abs_choice q with hself | hneg
  · rw [hself, ← overflow_le_nearest_iff] at h
    exact absurd h (not_le.mpr hhigh)
  · rw [hneg, ← overflow_le_nearest_iff, Format.nearest_neg] at h
    linarith

theorem rounded_of_not_overflows {q : ℚ} (h : ¬ Overflows q) :
    rounded (.fin q) = .fin (binary64.nearest q) := by
  unfold Overflows at h
  refine rounded_of_nearest rfl ?_ ?_
  · rw [neg_lt, ← Format.nearest_neg, ← not_le, overflow_le_nearest_iff]
    exact fun hle => h (hle.trans (neg_le_abs q))
  · rw [← not_le, overflow_le_nearest_iff]
    exact fun hle => h (hle.trans (le_abs_self q))

/-- Some natural number is at most half of the last place of `q` away. -/
def NearNatural (q : ℚ) : Prop := ∃ n : ℕ, |q - n| ≤ 2 ^ binary64.exponent q / 2

/-- Which exact results are rounded to a natural number. -/
theorem exists_rounded_eq_natCast_iff {q : ℚ} :
    (∃ n : ℕ, rounded (.fin q) = .fin n) ↔ ¬ Overflows q ∧ NearNatural q := by
  by_cases h : Overflows q
  · exact iff_of_false (fun ⟨n, hn⟩ => rounded_of_overflows h n hn) fun hq => hq.1 h
  · rw [rounded_of_not_overflows h, and_iff_right h]
    simp only [fin.injEq]
    exact Format.exists_nearest_eq_natCast_iff

end Number

theorem Value.toDouble_nat {n : ℕ} (h : n ≤ 2 ^ 53) : (Value.nat n).toDouble = some (.fin n) := by
  unfold toDouble
  rw [toNumber_nat, Option.map_some]
  exact congrArg some (Number.rounded_natCast h)

end Js
