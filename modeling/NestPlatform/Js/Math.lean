-- SUMMARY: Division, the strict order and the functions of `Math` on numbers.
import Mathlib.Algebra.Field.Rat
import Mathlib.Data.Rat.Floor
import NestPlatform.Js.Value

/-!
# Arithmetic on numbers

The operators and the functions of `Math` that the pagination helpers use, with the exact
arithmetic of `Number`: there is one zero, and dividing by it has the sign of the dividend.
-/
namespace Js.Number

/-- `a < b`. Every comparison with `NaN` is false. -/
def lt : Number → Number → Prop
  | .nan, _ | _, .nan => False
  | .posInf, _ | _, .negInf => False
  | .negInf, _ | _, .posInf => True
  | .fin a, .fin b => a < b

instance : LT Number := ⟨lt⟩

instance decidableLT : (a b : Number) → Decidable (a < b)
  | .fin a, .fin b => inferInstanceAs (Decidable (a < b))
  | .negInf, .fin _ | .negInf, .posInf | .fin _, .posInf => .isTrue trivial
  | .nan, .nan | .nan, .posInf | .nan, .negInf | .nan, .fin _ | .posInf, .nan | .negInf, .nan
  | .fin _, .nan | .posInf, .posInf | .posInf, .negInf | .posInf, .fin _ | .negInf, .negInf
  | .fin _, .negInf => .isFalse id

/-- `a / b` -/
def div : Number → Number → Number
  | .nan, _ | _, .nan => .nan
  | .posInf, .fin b => if 0 ≤ b then .posInf else .negInf
  | .negInf, .fin b => if 0 ≤ b then .negInf else .posInf
  | .posInf, _ | .negInf, _ => .nan
  | .fin a, .fin b => if b = 0 then infinity a else .fin (a / b)
  | .fin _, _ => .fin 0

instance : Div Number := ⟨div⟩

/-- `a || b` -/
def or (a b : Number) : Number := if a = .nan ∨ a = .fin 0 then b else a

/-- `Math.max(a, b)` -/
def max : Number → Number → Number
  | .nan, _ | _, .nan => .nan
  | a, b => if a ≤ b then b else a

/-- `Math.min(a, b)` -/
def min : Number → Number → Number
  | .nan, _ | _, .nan => .nan
  | a, b => if a ≤ b then a else b

/-- `Math.min(...xs)` -/
def minimum (xs : List Number) : Number := xs.foldr min .posInf

/-- `Math.ceil(a)` -/
def ceil : Number → Number
  | .fin a => .fin ⌈a⌉
  | a => a

@[simp] theorem fin_lt_fin {a b : ℚ} : Number.fin a < .fin b ↔ a < b := Iff.rfl

@[simp] theorem fin_sub_fin (a b : ℚ) : Number.fin a - .fin b = .fin (a - b) := by
  rw [sub_eq_add_neg]
  rfl

@[simp] theorem fin_mul_fin (a b : ℚ) : Number.fin a * .fin b = .fin (a * b) := rfl

theorem fin_div_fin (a : ℚ) {b : ℚ} (hb : b ≠ 0) : Number.fin a / .fin b = .fin (a / b) := if_neg hb

@[simp] theorem ceil_fin (a : ℚ) : ceil (.fin a) = .fin ⌈a⌉ := rfl

@[simp] theorem max_fin (a b : ℚ) : max (.fin a) (.fin b) = .fin (Max.max a b) := by
  rw [max_def, apply_ite Number.fin]
  rfl

@[simp] theorem min_fin (a b : ℚ) : min (.fin a) (.fin b) = .fin (Min.min a b) := by
  rw [min_def, apply_ite Number.fin]
  rfl

@[simp] theorem max_fin_posInf (a : ℚ) : max (.fin a) .posInf = .posInf := rfl
@[simp] theorem max_fin_negInf (a : ℚ) : max (.fin a) .negInf = .fin a := rfl
@[simp] theorem min_fin_posInf (a : ℚ) : min (.fin a) .posInf = .fin a := rfl

theorem fin_lt_min (a : ℚ) (x y : Number) : .fin a < min x y ↔ .fin a < x ∧ .fin a < y := by
  have hnan : ¬ Number.fin a < .nan := id
  have hposInf : Number.fin a < .posInf := trivial
  have hnegInf : ¬ Number.fin a < .negInf := id
  cases x with
  | nan => simp [min, hnan]
  | posInf => cases y <;> simp [min, hposInf, hnan, hnegInf, LE.le, le]
  | negInf => cases y <;> simp [min, hnan, hnegInf, LE.le, le]
  | fin q =>
    cases y with
    | nan => simp [min, hnan]
    | posInf => simp [hposInf]
    | negInf => simp [min, hnegInf]
    | fin r => simp

/-- A number is below the least of a list if it is below all of it; nothing is below `NaN`. -/
theorem fin_lt_minimum (a : ℚ) (xs : List Number) :
    .fin a < minimum xs ↔ ∀ x ∈ xs, .fin a < x := by
  induction xs with
  | nil => exact ⟨fun _ _ hx => absurd hx List.not_mem_nil, fun _ => trivial⟩
  | cons x xs ih =>
    change .fin a < min x (minimum xs) ↔ _
    rw [fin_lt_min, ih, List.forall_mem_cons]

@[simp] theorem nan_or (b : Number) : or .nan b = b := if_pos (.inl rfl)
@[simp] theorem posInf_or (b : Number) : or .posInf b = .posInf := rfl
@[simp] theorem negInf_or (b : Number) : or .negInf b = .negInf := rfl

theorem fin_or {a : ℚ} (ha : a ≠ 0) (b : Number) : or (.fin a) b = .fin a :=
  if_neg (by simp [ha])

@[simp] theorem fin_zero_or (b : Number) : or (.fin 0) b = b := if_pos (.inr rfl)

end Js.Number
