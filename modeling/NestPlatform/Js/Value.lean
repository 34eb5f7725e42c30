-- SUMMARY: JavaScript values as the services compute with them: exact numbers, objects, truthiness, spreading.
import Mathlib.Algebra.Order.Ring.Rat
import Mathlib.Data.List.Nodup

/-!
# JavaScript values

The value domain that bodies, message payloads, header tables and stored
documents share. Numbers are exact rationals together with `NaN` and the two
infinities; where rounding matters, the results of conversions and operations
are rounded to doubles. An object is the list of its own properties in insertion
order.
-/
namespace Js

/-! ## Numbers -/

inductive Number where
  | nan
  | posInf
  | negInf
  | fin (q : ℚ)
  deriving DecidableEq

namespace Number

instance : NatCast Number := ⟨fun n => .fin n⟩

def add : Number → Number → Number
  | .nan, _ | _, .nan => .nan
  | .posInf, .negInf | .negInf, .posInf => .nan
  | .posInf, _ | _, .posInf => .posInf
  | .negInf, _ | _, .negInf => .negInf
  | .fin a, .fin b => .fin (a + b)

def neg : Number → Number
  | .nan => .nan
  | .posInf => .negInf
  | .negInf => .posInf
  | .fin a => .fin (-a)

/-- An infinity with the sign of `a`; `NaN` for zero. -/
def infinity (a : ℚ) : Number := if 0 < a then .posInf else if a < 0 then .negInf else .nan

def mul : Number → Number → Number
  | .nan, _ | _, .nan => .nan
  | .fin a, .fin b => .fin (a * b)
  | .posInf, .posInf | .negInf, .negInf => .posInf
  | .posInf, .negInf | .negInf, .posInf => .negInf
  | .posInf, .fin a | .fin a, .posInf => infinity a
  | .negInf, .fin a | .fin a, .negInf => infinity (-a)

/-- `a <= b`. Every comparison with `NaN` is false. -/
def le : Number → Number → Prop
  | .nan, _ | _, .nan => False
  | .negInf, _ | _, .posInf => True
  | .fin a, .fin b => a ≤ b
  | .posInf, _ | _, .negInf => False

instance : Add Number := ⟨add⟩
instance : Sub Number := ⟨fun a b => add a (neg b)⟩
instance : Mul Number := ⟨mul⟩
instance : LE Number := ⟨le⟩

instance decidableLE (a b : Number) : Decidable (a ≤ b) := by
  change Decidable (le a b)
  cases a <;> cases b <;> unfold le <;> infer_instance

theorem natCast_def (n : ℕ) : (n : Number) = .fin n := rfl

@[simp] theorem nan_add (a : Number) : Number.nan + a = .nan := by cases a <;> rfl
@[simp] theorem fin_add_fin (a b : ℚ) : Number.fin a + .fin b = .fin (a + b) := rfl
@[simp] theorem posInf_add_fin (a : ℚ) : Number.posInf + .fin a = .posInf := rfl
@[simp] theorem negInf_add_fin (a : ℚ) : Number.negInf + .fin a = .negInf := rfl

@[simp] theorem not_nan_le (a : Number) : ¬ Number.nan ≤ a := by cases a <;> exact id
@[simp] theorem not_le_nan (a : Number) : ¬ a ≤ Number.nan := by cases a <;> exact id
@[simp] theorem fin_le_fin {a b : ℚ} : Number.fin a ≤ .fin b ↔ a ≤ b := Iff.rfl
@[simp] theorem fin_le_posInf (a : ℚ) : Number.fin a ≤ .posInf := trivial
@[simp] theorem not_fin_le_negInf (a : ℚ) : ¬ Number.fin a ≤ .negInf := id

end Number

/-! ## Values -/

inductive Value where
  | undefined
  | null
  | bool (b : Bool)
  | num (n : Number)
  | str (s : String)
  /-- A `Date`, in milliseconds. -/
  | date (ms : ℤ)
  | arr (xs : List Value)
  | obj (entries : List (String × Value))

/-- The own properties of an object. -/
abbrev Entries := List (String × Value)

namespace Value

mutual
private def beq : Value → Value → Bool
  | .undefined, .undefined | .null, .null => true
  | .bool a, .bool b => a == b
  | .num a, .num b => a == b
  | .str a, .str b => a == b
  | .date a, .date b => a == b
  | .arr a, .arr b => beqList a b
  | .obj a, .obj b => beqEntries a b
  | _, _ => false

private def beqList : List Value → List Value → Bool
  | [], [] => true
  | a :: as, b :: bs => beq a b && beqList as bs
  | _, _ => false

private def beqEntries : List (String × Value) → List (String × Value) → Bool
  | [], [] => true
  | (k, a) :: as, (l, b) :: bs => k == l && beq a b && beqEntries as bs
  | _, _ => false
end

mutual
private theorem beq_iff : (a b : Value) → (beq a b = true ↔ a = b)
  | .arr a, b => by cases b <;> simp [beq, beqList_iff a]
  | .obj a, b => by cases b <;> simp [beq, beqEntries_iff a]
  | .undefined, b | .null, b => by cases b <;> simp [beq]
  | .bool a, b | .num a, b | .str a, b | .date a, b => by cases b <;> simp [beq]

private theorem beqList_iff : (a b : List Value) → (beqList a b = true ↔ a = b)
  | [], b => by cases b <;> simp [beqList]
  | a :: as, b => by cases b <;> simp [beqList, beq_iff a, beqList_iff as]

private theorem beqEntries_iff :
    (a b : List (String × Value)) → (beqEntries a b = true ↔ a = b)
  | [], b => by cases b <;> simp [beqEntries]
  | (k, a) :: as, b => by
      cases b <;> simp [beqEntries, beq_iff a, beqEntries_iff as, Prod.ext_iff]
end

instance : DecidableEq Value := fun a b => decidable_of_iff _ (beq_iff a b)

instance : Inhabited Value := ⟨.undefined⟩

/-- A natural number as a value. -/
def nat (n : ℕ) : Value := .num n

/-- `v === undefined || v === null`. -/
def nullish : Value → Bool
  | .undefined | .null => true
  | _ => false

def truthy : Value → Bool
  | .undefined | .null => false
  | .bool b => b
  | .num n => n ≠ .nan ∧ n ≠ .fin 0
  | .str s => s ≠ ""
  | .date _ | .arr _ | .obj _ => true

/-- `a || b`. -/
def or (a b : Value) : Value := if a.truthy then a else b

/-- `a ?? b`. -/
def coalesce (a b : Value) : Value := if a.nullish then b else a

end Value

/-! ## Objects -/

namespace Entries

/-- `o[k]`. -/
def get : Entries → String → Value
  | [], _ => .undefined
  | (k', v) :: o, k => if k' = k then v else get o k

/-- `o[k] = v`. -/
def set : Entries → String → Value → Entries
  | [], k, v => [(k, v)]
  | (k', v') :: o, k, v => if k' = k then (k, v) :: o else (k', v') :: set o k v

/-- The object `{ ...o, ...entries }`. -/
def assign (o entries : Entries) : Entries :=
  entries.foldl (fun o e => o.set e.1 e.2) o

def keys (o : Entries) : List String := o.map Prod.fst

@[simp] theorem get_nil (k : String) : get [] k = .undefined := rfl

@[simp] theorem get_cons_self (o : Entries) (k : String) (v : Value) :
    get ((k, v) :: o) k = v := if_pos rfl

theorem get_cons_ne {o : Entries} {k k' : String} {v : Value} (h : k' ≠ k) :
    get ((k', v) :: o) k = get o k := if_neg h

@[simp] theorem get_set_self (o : Entries) (k : String) (v : Value) : (o.set k v).get k = v := by
  induction o with
  | nil => simp [set]
  | cons e o ih =>
    obtain ⟨k', v'⟩ := e
    by_cases h : k' = k
    · simp [set, h]
    · simp [set, h, get_cons_ne h, ih]

theorem get_set_ne {o : Entries} {k l : String} {v : Value} (h : l ≠ k) :
    (o.set k v).get l = o.get l := by
  induction o with
  | nil => simp [set, get_cons_ne h.symm]
  | cons e o ih =>
    obtain ⟨k', v'⟩ := e
    by_cases hk : k' = k
    · subst hk; simp [set, get_cons_ne h.symm]
    · by_cases hl : k' = l
      · subst hl; simp [set, hk]
      · simp [set, hk, get_cons_ne hl, ih]

/-- Spreading an object that has no property `k` keeps `k`. -/
theorem get_assign_of_notMem {o es : Entries} {k : String} (h : k ∉ keys es) :
    (o.assign es).get k = o.get k := by
  induction es generalizing o with
  | nil => rfl
  | cons e es ih =>
    simp only [keys, List.map_cons, List.mem_cons, not_or] at h
    exact (ih h.2).trans (get_set_ne h.1)

theorem get_of_mem {o : Entries} {k : String} {v : Value} (hnodup : (keys o).Nodup)
    (h : (k, v) ∈ o) : o.get k = v := by
  induction o with
  | nil => cases h
  | cons e o ih =>
    obtain ⟨k', v'⟩ := e
    obtain ⟨hnew, hnodup⟩ := List.nodup_cons.mp hnodup
    rcases List.mem_cons.mp h with heq | hmem
    · cases heq
      exact get_cons_self _ _ _
    · have hne : k' ≠ k := by
        rintro rfl
        exact hnew (List.mem_map.mpr ⟨_, hmem, rfl⟩)
      rw [get_cons_ne hne]
      exact ih hnodup hmem

theorem mem_keys_set {o : Entries} {k l : String} {v : Value} :
    l ∈ keys (o.set k v) ↔ l = k ∨ l ∈ keys o := by
  induction o with
  | nil => simp [set, keys]
  | cons e o ih =>
    obtain ⟨k', v'⟩ := e
    by_cases h : k' = k
    · subst h; simp [set, keys]
    · simp only [keys] at ih
      simp only [set, h, if_false, keys, List.map_cons, List.mem_cons, ih]
      tauto

theorem nodup_keys_set {o : Entries} (h : (keys o).Nodup) (k : String) (v : Value) :
    (keys (o.set k v)).Nodup := by
  induction o with
  | nil => exact List.nodup_singleton _
  | cons e o ih =>
    obtain ⟨k', v'⟩ := e
    obtain ⟨hnew, hnodup⟩ := List.nodup_cons.mp h
    by_cases hk : k' = k
    · subst hk
      rw [set, if_pos rfl]
      exact List.nodup_cons.mpr ⟨hnew, hnodup⟩
    · rw [set, if_neg hk]
      refine List.nodup_cons.mpr ⟨?_, ih hnodup⟩
      intro hmem
      rcases mem_keys_set.mp hmem with heq | hold
      · exact hk heq
      · exact hnew hold

/-- A spread object has each key once. -/
theorem nodup_keys_assign {o : Entries} (h : (keys o).Nodup) (es : Entries) :
    (keys (o.assign es)).Nodup := by
  induction es generalizing o with
  | nil => exact h
  | cons e es ih => exact ih (nodup_keys_set h e.1 e.2)

theorem mem_of_get {o : Entries} {k : String} (h : o.get k ≠ .undefined) : (k, o.get k) ∈ o := by
  induction o with
  | nil => exact absurd rfl h
  | cons e o ih =>
    obtain ⟨k', v'⟩ := e
    by_cases hk : k' = k
    · subst hk
      rw [get_cons_self]
      exact List.mem_cons_self
    · rw [get_cons_ne hk] at h ⊢
      exact List.mem_cons_of_mem _ (ih h)

theorem mem_set {o : Entries} {k : String} {v : Value} {e : String × Value}
    (h : e ∈ o.set k v) : e = (k, v) ∨ e ∈ o := by
  induction o with
  | nil => exact .inl (List.mem_singleton.mp h)
  | cons e' o ih =>
    obtain ⟨k', v'⟩ := e'
    unfold set at h
    split at h
    · rcases List.mem_cons.mp h with heq | hmem
      · exact .inl heq
      · exact .inr (List.mem_cons_of_mem _ hmem)
    · rcases List.mem_cons.mp h with heq | hmem
      · exact .inr (heq ▸ List.mem_cons_self)
      · exact (ih hmem).imp_right (List.mem_cons_of_mem _)

/-- The properties of a spread object come from its two parts. -/
theorem mem_assign {o es : Entries} {e : String × Value} (h : e ∈ o.assign es) :
    e ∈ o ∨ e ∈ es := by
  induction es generalizing o with
  | nil => exact .inl h
  | cons e' es ih =>
    rcases ih h with hset | hmem
    · rcases mem_set hset with rfl | hold
      · exact .inr List.mem_cons_self
      · exact .inl hold
    · exact .inr (List.mem_cons_of_mem _ hmem)

theorem mem_keys_assign {o es : Entries} {k : String} :
    k ∈ keys (o.assign es) ↔ k ∈ keys o ∨ k ∈ keys es := by
  induction es generalizing o with
  | nil => simp [assign, keys]
  | cons e es ih =>
    rw [show o.assign (e :: es) = (o.set e.1 e.2).assign es from rfl, ih, mem_keys_set]
    simp only [keys, List.map_cons, List.mem_cons]
    tauto

end Entries

namespace Value

/-- The own enumerable properties, as a spread copies them. -/
def entries : Value → Entries
  | .obj es => es
  | .arr xs => xs.mapIdx fun i x => (toString i, x)
  | .str s => s.toList.mapIdx fun i c => (toString i, .str (String.singleton c))
  | _ => []

/-- `v.k`; `none` is the `TypeError` of `undefined.k` and `null.k`. -/
def prop (v : Value) (k : String) : Option Value :=
  match v with
  | .undefined | .null => none
  | .obj es => some (Entries.get es k)
  | _ => some .undefined

@[simp] theorem entries_obj (es : Entries) : (Value.obj es).entries = es := rfl

end Value
end Js
