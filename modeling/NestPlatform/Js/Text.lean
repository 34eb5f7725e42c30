-- SUMMARY: What a value is as text, in a template literal.
import NestPlatform.Js.Tokens

/-!
# Template literals

Different values can have one text: a number and its digits, a list of one and its element.
-/
namespace Js

variable (N : Spelling)

def Number.text : Number → String
  | .nan => "NaN"
  | .posInf => "Infinity"
  | .negInf => "-Infinity"
  | .fin q => N.number q

namespace Value

mutual
/-- `${v}`, for a value that JSON can hold; `none` is a `TypeError`. -/
def text : Value → Option String
  | .undefined => some "undefined"
  | .null => some "null"
  | .bool b => some (if b then "true" else "false")
  | .num n => some (n.text N)
  | .str s => some s
  | .date ms => some (N.date ms)
  | .arr xs => (elementTexts xs).map (String.intercalate ",")
  | .obj es => if stringThrows (.obj es) then none else some "[object Object]"

/-- What is missing in an array has no text. -/
def elementTexts : List Value → Option (List String)
  | [] => some []
  | x :: xs =>
    match text x, elementTexts xs with
    | some s, some texts => some ((if x.nullish then "" else s) :: texts)
    | _, _ => none
end

mutual
/-- A value has a text unless printing it throws. -/
theorem text_isSome (v : Value) : (text N v).isSome = ! stringThrows v := by
  cases v with
  | arr xs =>
    rw [text, stringThrows, Option.isSome_map]
    exact elementTexts_isSome xs
  | obj es =>
    rw [text]
    cases stringThrows (.obj es) <;> rfl
  | _ => simp [text, stringThrows]

theorem elementTexts_isSome (xs : List Value) :
    (elementTexts N xs).isSome = ! stringThrowsList xs := by
  cases xs with
  | nil => rfl
  | cons x xs =>
    rw [elementTexts, stringThrowsList, Bool.not_or, ← text_isSome x, ← elementTexts_isSome xs]
    cases text N x <;> cases elementTexts N xs <;> rfl
end

end Value
end Js
