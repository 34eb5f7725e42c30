-- SUMMARY: Schemas, and the parts of Mongoose and the server that the development takes as given.
import NestPlatform.Mongo.Collection

/-!
# Schemas and Mongoose

A schema lists the paths of a model with their casts, setters, defaults and
validators. `Mongoose` gathers the behaviour that is not modelled further (casts
between types, update and query operators, positional paths, aggregation
pipelines, the order of a scan, skip and limit) with what the development relies on.
-/
namespace Mongo

open Js

/-! ## Schemas -/

inductive SchemaType where
  | string
  | number
  | boolean
  | date
  | stringArray
  deriving DecidableEq

structure SchemaPath where
  name : String
  type : SchemaType
  required : Bool := false
  default : Value := .undefined
  /-- The accepted strings; empty when the path has no `enum`. -/
  enum : List String := []
  min : Option ℚ := none
  max : Option ℚ := none
  minlength : Option ℕ := none
  lowercase : Bool := false
  trim : Bool := false
  unique : Bool := false
  select : Bool := true

abbrev Schema := List SchemaPath

namespace Schema

def path (S : Schema) (k : String) : Option SchemaPath := S.find? (·.name = k)

end Schema

/-- The path that Mongoose adds to every schema. -/
def versionKey : SchemaPath := { name := "__v", type := .number }

namespace SchemaType

/-- The values that are stored under the type as they are. -/
def accepts : SchemaType → Value → Bool
  | .string, .str _ | .number, .num (.fin _) | .boolean, .bool _ | .date, .date _ => true
  | .stringArray, .arr xs =>
    xs.all fun x =>
      match x with
      | .str _ => true
      | _ => false
  | _, _ => false

end SchemaType

/-! ## Keys -/

/-- `k.startsWith('$')`. -/
def isOperatorKey (k : String) : Bool := k.toList.head? = some '$'

def isDottedKey (k : String) : Bool := k.toList.contains '.'

/-- The first segment of a dotted path. -/
def root (k : String) : String := String.ofList (k.toList.takeWhile (· ≠ '.'))

/-- A key that names a path by itself. -/
def isPlainKey (k : String) : Bool := ! isOperatorKey k && ! isDottedKey k

/-- The paths that an update object writes to. -/
def mentions (update : Entries) : List String :=
  update.flatMap fun (k, v) =>
    if isOperatorKey k then
      v.entries.flatMap fun (k', v') =>
        match k, v' with
        | "$rename", .str target => [root k', root target]
        | _, _ => [root k']
    else [root k]

/-- The entries of an update object that are operators or positional. -/
def operatorEntries (update : Entries) : Entries := update.filter fun e => ! isPlainKey e.1

theorem mentions_operatorEntries (update : Entries) :
    mentions (operatorEntries update) ⊆ mentions update := by
  intro k hk
  obtain ⟨e, he, hke⟩ := List.mem_flatMap.mp hk
  exact List.mem_flatMap.mpr ⟨e, (List.mem_filter.mp he).1, hke⟩

/-- The paths that the dotted keys of an object lead into. -/
def dottedRoots (o : Entries) : List String :=
  ((Entries.keys o).filter fun k => isDottedKey k && ! isOperatorKey k).map root

theorem dottedRoots_subset (o : Entries) : dottedRoots o ⊆ mentions (operatorEntries o) := by
  intro k hk
  simp only [dottedRoots, Entries.keys, List.mem_map, List.mem_filter, Bool.and_eq_true,
    Bool.not_eq_true'] at hk
  obtain ⟨_, ⟨⟨e, he, rfl⟩, hdot, hop⟩, rfl⟩ := hk
  refine List.mem_flatMap.mpr ⟨e, List.mem_filter.mpr ⟨he, ?_⟩, by simp [hop]⟩
  simp [isPlainKey, hdot]

theorem dottedRoots_assign (o es : Entries) :
    dottedRoots (o.assign es) ⊆ dottedRoots o ++ dottedRoots es := by
  intro k hk
  obtain ⟨l, hl, rfl⟩ := List.mem_map.mp hk
  obtain ⟨hkey, hdot⟩ := List.mem_filter.mp hl
  apply List.mem_append.mpr
  rcases Entries.mem_keys_assign.mp hkey with hold | hnew
  · exact .inl (List.mem_map_of_mem (List.mem_filter.mpr ⟨hold, hdot⟩))
  · exact .inr (List.mem_map_of_mem (List.mem_filter.mpr ⟨hnew, hdot⟩))

/-! ## Mongoose -/

structure QueryOptions where
  skip : Value := .undefined
  limit : Value := .undefined
  /-- Sort keys, with `true` for descending. -/
  sort : List (String × Bool) := []

structure Mongoose where
  /-- The cast of a value that is neither `null` nor `undefined`; `none` is a `CastError`. -/
  cast : SchemaType → Value → Option Value
  castId : Value → Option ObjectId
  /-- `String.prototype.toLowerCase`. -/
  toLowerCase : String → String
  /-- The text of a value in a template string. -/
  text : Value → String
  /-- A condition object such as `{ $ne: v }` on a path. -/
  operatorCondition : SchemaPath → Entries → Option (Value → Bool)
  idCondition : Entries → Option (ObjectId → Bool)
  /-- The operator and dotted keys of an update: `none` is a `CastError`, and the
  inner `none` an update that the server refuses. -/
  operators : Schema → Entries → Option (Fields → Option Fields)
  /-- An array of stages as the update. -/
  pipeline : Schema → List Value → Option (Fields → Option Fields)
  /-- The dotted keys of an object given to the constructor of a model. -/
  positional : Schema → Entries → Fields → Option Fields
  /-- Whether the virtual `id` has a setter, which writes `_id`. -/
  idSetter : Bool
  /-- The order in which one query visits the documents, which may differ from
  query to query. -/
  scan : ℕ → List Doc → List Doc
  /-- Sort, skip and limit; `none` is an option the server refuses. -/
  window : QueryOptions → List Doc → Option (List Doc)
  text_str : ∀ s, text (.str s) = s
  cast_accepts : ∀ {t v}, t.accepts v = true → cast t v = some v
  castId_toString : ∀ id : ObjectId, castId (.str id.toString) = some id
  operators_frame : ∀ {S es f x y}, operators S es = some f → f x = some y →
    ∀ k, k ∉ mentions (operatorEntries es) → y k = x k
  positional_frame : ∀ {S es x y}, positional S es x = some y →
    ∀ k, k ∉ dottedRoots es → y k = x k
  scan_perm : ∀ seed docs, (scan seed docs).Perm docs
  window_subset : ∀ {o docs out}, window o docs = some out → ∀ d ∈ out, d ∈ docs

/-- An object id from its string form. -/
def ObjectId.ofString (s : String) : Option ObjectId :=
  if h : s.toList.length = 24 ∧ s.toList.all isHexDigit then some ⟨s, h⟩ else none

theorem ObjectId.ofString_toString (id : ObjectId) : ofString id.toString = some id :=
  dif_pos id.property

/-- Mongoose on values that need no cast, plain keys and queries without options. -/
def Mongoose.plain : Mongoose where
  cast t v := if t.accepts v then some v else none
  castId
    | .str s => ObjectId.ofString s
    | _ => none
  toLowerCase s := String.ofList (s.toList.map Char.toLower)
  text
    | .str s => s
    | _ => ""
  operatorCondition _ _ := none
  idCondition _ := none
  operators _ _ := none
  pipeline _ _ := none
  positional _ _ _ := none
  idSetter := true
  scan _ docs := docs
  window o docs := if o.skip = .undefined ∧ o.limit = .undefined ∧ o.sort = [] then some docs else none
  text_str _ := rfl
  cast_accepts h := if_pos h
  castId_toString := ObjectId.ofString_toString
  operators_frame h := by cases h
  positional_frame h := by cases h
  scan_perm _ docs := .refl docs
  window_subset h d hd := by
    split at h
    · cases h
      exact hd
    · cases h

end Mongo
