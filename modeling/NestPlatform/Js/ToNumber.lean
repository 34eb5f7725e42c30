-- SUMMARY: The conversion `Number(v)`, with the numeric literal grammar of strings.
import Mathlib.Algebra.Field.Rat
import Mathlib.Data.List.DropRight
import NestPlatform.Js.Value

/-!
# `Number(v)`

A string is trimmed and read as a numeric literal; the empty string is `0` and
anything else is `NaN`. Objects and arrays go through their string form. The
conversion throws a `TypeError` when an object has an own property `toString`:
a decoded value is never callable, so no primitive can be obtained.
-/
namespace Js

/-! ## Numeric literals -/

/-- White space and line terminators. -/
def isSpace (c : Char) : Bool :=
  c.toNat ∈ [9, 10, 11, 12, 13, 32, 0xa0, 0x1680, 0x2028, 0x2029, 0x202f, 0x205f, 0x3000, 0xfeff]
    || (0x2000 ≤ c.toNat && c.toNat ≤ 0x200a)

def trim (cs : List Char) : List Char :=
  ((cs.dropWhile isSpace).reverse.dropWhile isSpace).reverse

def digit (c : Char) : Option ℕ :=
  if '0' ≤ c ∧ c ≤ '9' then some (c.toNat - '0'.toNat)
  else if 'a' ≤ c ∧ c ≤ 'f' then some (c.toNat - 'a'.toNat + 10)
  else if 'A' ≤ c ∧ c ≤ 'F' then some (c.toNat - 'A'.toNat + 10)
  else none

def digits (base : ℕ) (cs : List Char) : Option ℕ :=
  cs.foldlM (fun n c => do
    let d ← digit c
    if d < base then some (base * n + d) else none) 0

/-- At least one digit. -/
def digits1 (base : ℕ) (cs : List Char) : Option ℕ :=
  if cs = [] then none else digits base cs

/-- `12`, `12.`, `.5` or `12.5`. -/
def mantissa (cs : List Char) : Option ℚ :=
  let int := cs.takeWhile (· ≠ '.')
  match cs.dropWhile (· ≠ '.') with
  | [] => do
    let i ← digits1 10 int
    some i
  | _ :: frac =>
    if int = [] ∧ frac = [] then none
    else do
      let i ← digits 10 int
      let f ← digits 10 frac
      some (i + f / 10 ^ frac.length)

def exponent : List Char → Option ℤ
  | '+' :: cs => (digits1 10 cs).map (↑)
  | '-' :: cs => (digits1 10 cs).map fun (n : ℕ) => -(n : ℤ)
  | cs => (digits1 10 cs).map (↑)

def isExponentMark (c : Char) : Bool := c = 'e' ∨ c = 'E'

/-- A decimal literal without its sign, times `sign`. -/
def decimalLiteral (sign : ℚ) (cs : List Char) : Number :=
  if cs = ['I', 'n', 'f', 'i', 'n', 'i', 't', 'y'] then
    if sign < 0 then .negInf else .posInf
  else
    let m := mantissa (cs.takeWhile (! isExponentMark ·))
    let e := match cs.dropWhile (! isExponentMark ·) with
      | [] => some 0
      | _ :: ds => exponent ds
    match m, e with
    | some m, some e => .fin (sign * m * 10 ^ e)
    | _, _ => .nan

def radixLiteral (base : ℕ) (cs : List Char) : Number :=
  match digits1 base cs with
  | some n => .fin n
  | none => .nan

def stringToNumber (s : String) : Number :=
  match trim s.toList with
  | [] => .fin 0
  | '0' :: 'x' :: ds | '0' :: 'X' :: ds => radixLiteral 16 ds
  | '0' :: 'o' :: ds | '0' :: 'O' :: ds => radixLiteral 8 ds
  | '0' :: 'b' :: ds | '0' :: 'B' :: ds => radixLiteral 2 ds
  | '+' :: cs => decimalLiteral 1 cs
  | '-' :: cs => decimalLiteral (-1) cs
  | cs => decimalLiteral 1 cs

/-! ## Values -/

namespace Value

mutual
/-- `String(v)` throws. -/
def stringThrows : Value → Bool
  | .arr xs => stringThrowsList xs
  | .obj es => Entries.keys es |>.contains "toString"
  | _ => false

def stringThrowsList : List Value → Bool
  | [] => false
  | x :: xs => stringThrows x || stringThrowsList xs
end

mutual
/-- `Number(v)`; `none` is a thrown `TypeError`. -/
def toNumber : Value → Option Number
  | .undefined => some .nan
  | .null => some (.fin 0)
  | .bool b => some (.fin (if b then 1 else 0))
  | .num n => some n
  | .str s => some (stringToNumber s)
  | .date ms => some (.fin ms)
  | .arr xs => arrayToNumber xs
  | .obj es => if stringThrows (.obj es) then none else some .nan

/-- The string form of an array joins its elements with commas, which no numeric
literal contains; one element alone is converted through its own string form. -/
def arrayToNumber : List Value → Option Number
  | [] => some (.fin 0)
  | [x] =>
    match x with
    | .undefined | .null => some (.fin 0)
    | .bool _ | .date _ => some .nan
    | x => toNumber x
  | x :: y :: xs => if stringThrowsList (x :: y :: xs) then none else some .nan
end

@[simp] theorem toNumber_num (n : Number) : toNumber (.num n) = some n := by simp [toNumber]

@[simp] theorem toNumber_nat (n : ℕ) : toNumber (nat n) = some (.fin n) := by
  simp [nat, Number.natCast_def]

end Value

/-! ## Trimming and lower case -/

theorem dropWhile_isSpace_eq_self {cs : List Char} (h : ∀ c ∈ cs, isSpace c = false) :
    cs.dropWhile isSpace = cs := by
  cases cs with
  | nil => rfl
  | cons c cs => exact List.dropWhile_cons_of_neg (by simp [h c List.mem_cons_self])

theorem trim_eq_self {cs : List Char} (h : ∀ c ∈ cs, isSpace c = false) : trim cs = cs := by
  have hreverse : ∀ c ∈ cs.reverse, isSpace c = false := fun c hc => h c (List.mem_reverse.mp hc)
  rw [trim, dropWhile_isSpace_eq_self h, dropWhile_isSpace_eq_self hreverse, List.reverse_reverse]

theorem trim_map {f : Char → Char} (hf : ∀ c, isSpace (f c) = isSpace c) (cs : List Char) :
    trim (cs.map f) = (trim cs).map f := by
  have hcomp : isSpace ∘ f = isSpace := funext hf
  simp only [trim, List.dropWhile_map, hcomp, ← List.map_reverse]

theorem trim_trim (cs : List Char) : trim (trim cs) = trim cs := by
  change List.rdropWhile isSpace ((trim cs).dropWhile isSpace) = trim cs
  have hprefix : trim cs <+: cs.dropWhile isSpace := List.rdropWhile_prefix isSpace _
  have hleft : (trim cs).dropWhile isSpace = trim cs := by
    rw [List.dropWhile_eq_self_iff]
    intro hl
    have hself := List.dropWhile_eq_self_iff.mp (List.dropWhile_idempotent (p := isSpace) cs)
    rw [List.IsPrefix.getElem hprefix]
    exact hself _
  rw [hleft]
  exact List.rdropWhile_idempotent isSpace _

theorem isSpace_eq_false {c : Char} (h : 32 < c.toNat) (h' : c.toNat < 128) : isSpace c = false := by
  unfold isSpace
  simp
  omega

/-- A letter in upper case is moved by 32, any other character is kept. -/
theorem toLower_cases (c : Char) :
    c.toLower = c ∨ 65 ≤ c.toNat ∧ c.toNat ≤ 90 ∧ c.toLower.toNat = c.toNat + 32 := by
  unfold Char.toLower
  split
  · rename_i h
    have hlow : 65 ≤ c.toNat := UInt32.le_iff_toNat_le.mp h.1
    have hhigh : c.toNat ≤ 90 := UInt32.le_iff_toNat_le.mp h.2
    refine .inr ⟨hlow, hhigh, ?_⟩
    change (c.val + 32).toNat = c.toNat + 32
    rw [UInt32.toNat_add]
    change (c.toNat + 32) % 2 ^ 32 = c.toNat + 32
    omega
  · exact .inl rfl

theorem isSpace_toLower (c : Char) : isSpace c.toLower = isSpace c := by
  rcases toLower_cases c with hsame | ⟨hlow, hhigh, hmoved⟩
  · rw [hsame]
  · rw [isSpace_eq_false (by omega) (by omega), isSpace_eq_false (by omega) (by omega)]

theorem toLower_toLower (c : Char) : c.toLower.toLower = c.toLower := by
  rcases toLower_cases c with hsame | ⟨hlow, hhigh, hmoved⟩
  · rw [hsame, hsame]
  · rcases toLower_cases c.toLower with hsame | ⟨-, hhigh', -⟩
    · exact hsame
    · omega

end Js
