-- SUMMARY: Filters, and what a query of a model returns.
import NestPlatform.Js.ToNumber
import NestPlatform.Mongo.Schema

/-!
# Queries

The conditions of a filter are cast to the types of their paths before the query
is sent; a condition that cannot be cast fails the query. A hydrated result has
the defaults of missing paths and lacks the paths with `select: false`.
-/
namespace Mongo

open Js

/-- What one operation takes from its surroundings. -/
structure Env where
  now : ℤ
  newId : ObjectId
  seed : ℕ

/-- The errors of Mongoose and of the server. -/
inductive Fault where
  | cast
  | validation
  | duplicateKey
  | refused
  deriving DecidableEq

variable (M : Mongoose)

/-! ## Conditions -/

namespace SchemaPath

def setters (p : SchemaPath) : Value → Value
  | .str s =>
    let s := if p.trim then String.ofList (Js.trim s.toList) else s
    .str (if p.lowercase then M.toLowerCase s else s)
  | v => v

/-- The value that `v` is stored as, or compared as. -/
def set (p : SchemaPath) (v : Value) : Option Value :=
  if v.nullish then some v else (M.cast p.type v).map (p.setters M)

end SchemaPath

/-- Equality in a query: `null` also matches a missing field. -/
def same (w x : Value) : Bool := (w.nullish && x.nullish) || w = x

def isOperatorObject : Value → Bool
  | .obj es => (Entries.keys es).any isOperatorKey
  | _ => false

namespace SchemaPath

def elements : Value → List Value
  | .arr xs => xs
  | _ => []

/-- The predicate on stored values that the condition `v` stands for. -/
def condition (p : SchemaPath) (v : Value) : Option (Value → Bool) :=
  if isOperatorObject v then M.operatorCondition p v.entries
  else
    match p.type, v with
    | .stringArray, .arr vs => (M.cast .stringArray (.arr vs)).map same
    | .stringArray, v =>
      if v.nullish then some (same v)
      else (M.cast .string v).map fun w x => (elements x).contains w
    | _, .arr vs => (vs.mapM (p.set M)).map fun ws x => ws.any (same · x)
    | _, v => (p.set M v).map same

end SchemaPath

/-- The predicate on ids that the condition `v` on `_id` stands for. -/
def idMatcher (v : Value) : Option (ObjectId → Bool) :=
  if v.nullish then some fun _ => false
  else if isOperatorObject v then M.idCondition v.entries
  else
    match v with
    | .arr vs => ((vs.filter (! ·.nullish)).mapM M.castId).map fun ids id => ids.contains id
    | v => (M.castId v).map fun id' id => decide (id = id')

/-! ## Filters -/

abbrev Filter := List (String × Value)

def fieldMatcher (S : Schema) (k : String) (v : Value) : Option (Value → Bool) :=
  match S.path k with
  | some p => p.condition M v
  | none => some fun x => decide (x = v)

namespace Filter

/-- The documents a filter selects; `none` is a `CastError`. -/
def matcher (S : Schema) : Filter → Option (Doc → Bool)
  | [] => some fun _ => true
  | (k, v) :: filter => do
    let rest ← matcher S filter
    if k = "_id" then
      let here ← idMatcher M v
      some fun d => here d.id && rest d
    else
      let here ← fieldMatcher M S k v
      some fun d => here (d.fields k) && rest d

end Filter

/-- The filter `{ _id: v }`. -/
def byId (v : Value) : Filter := [("_id", v)]

/-! ## Results -/

/-- The document as a query returns it; `plus` are the hidden paths it selects. -/
def hydrate (S : Schema) (plus : List String) (d : Doc) : Doc where
  id := d.id
  fields k :=
    match S.path k with
    | some p =>
      if p.select || plus.contains k then
        if d.fields k = .undefined then p.default else d.fields k
      else .undefined
    | none => d.fields k

/-- `doc.toObject()` -/
def toObject (S : Schema) (d : Doc) : Value :=
  let fields := (S.map SchemaPath.name ++ ["createdAt", "updatedAt"]).map fun k => (k, d.fields k)
  .obj (("_id", .str d.id.toString) :: fields.filter fun e => decide (e.2 ≠ .undefined))

def findOne (S : Schema) (env : Env) (filter : Filter) (plus : List String) (c : Collection) :
    Except Fault (Option Doc) :=
  match filter.matcher M S with
  | none => .error .cast
  | some p => .ok (((M.scan env.seed c.docs).find? p).map (hydrate S plus))

def find (S : Schema) (env : Env) (filter : Filter) (options : QueryOptions) (c : Collection) :
    Except Fault (List Doc) :=
  match filter.matcher M S with
  | none => .error .cast
  | some p =>
    match M.window options (M.scan env.seed (c.docs.filter p)) with
    | none => .error .refused
    | some docs => .ok (docs.map (hydrate S []))

def countDocuments (S : Schema) (filter : Filter) (c : Collection) : Except Fault ℕ :=
  match filter.matcher M S with
  | none => .error .cast
  | some p => .ok (c.docs.countP p)

/-! ## Facts -/

variable {M}

/-- A shown path without a default is shown as it is stored. -/
theorem hydrate_of_noDefault {S : Schema} {plus : List String} {k : String} {p : SchemaPath}
    (hp : S.path k = some p) (hshown : (p.select || plus.contains k) = true)
    (hdefault : p.default = .undefined) (d : Doc) : (hydrate S plus d).fields k = d.fields k := by
  simp only [hydrate, hp, hshown, if_true, hdefault]
  split
  · rename_i hmissing
    exact hmissing.symm
  · rfl

/-- A field of a result depends on the stored field alone. -/
theorem hydrate_congr {S : Schema} {plus : List String} {d e : Doc} {k : String}
    (h : d.fields k = e.fields k) : (hydrate S plus d).fields k = (hydrate S plus e).fields k := by
  simp only [hydrate, h]

/-- `{ _id: s }` selects by the id that `s` is cast to. -/
theorem matcher_byId_eq (S : Schema) (s : String) :
    (byId (.str s)).matcher M S =
      (M.castId (.str s)).map fun id d => decide (d.id = id) && true := by
  have hmatch : idMatcher M (.str s) = (M.castId (.str s)).map fun id' id => decide (id = id') := rfl
  simp only [byId, Filter.matcher, if_true, hmatch, Option.bind_eq_bind, Option.bind_some]
  cases M.castId (.str s) <;> rfl

theorem castId_of_byId {S : Schema} {s : String} {p : Doc → Bool} {d : Doc}
    (hp : (byId (.str s)).matcher M S = some p) (hd : p d = true) :
    M.castId (.str s) = some d.id := by
  rw [matcher_byId_eq, Option.map_eq_some_iff] at hp
  obtain ⟨id, hid, rfl⟩ := hp
  obtain rfl : d.id = id := by simpa using hd
  exact hid

theorem matcher_byId {S : Schema} {s : String} {id : ObjectId} (h : M.castId (.str s) = some id) :
    ∃ p, (byId (.str s)).matcher M S = some p ∧ ∀ d, p d = decide (d.id = id) := by
  rw [matcher_byId_eq, h]
  exact ⟨_, rfl, fun d => Bool.and_true _⟩

/-- The first condition of a filter is on the id or on the field that it names. -/
theorem matcher_cons {S : Schema} {k : String} {v : Value} {filter : Filter} {p : Doc → Bool}
    (hp : Filter.matcher M S ((k, v) :: filter) = some p) :
    ∃ rest, filter.matcher M S = some rest ∧
      ((k = "_id" ∧ ∃ here : ObjectId → Bool, ∀ d, p d = (here d.id && rest d)) ∨
        ∃ here, fieldMatcher M S k v = some here ∧ ∀ d, p d = (here (d.fields k) && rest d)) := by
  simp only [Filter.matcher, Option.bind_eq_bind, Option.bind_eq_some_iff] at hp
  obtain ⟨rest, hrest, hp⟩ := hp
  refine ⟨rest, hrest, ?_⟩
  split at hp
  · rename_i hk
    obtain ⟨here, -, hp⟩ := Option.bind_eq_some_iff.mp hp
    cases hp
    exact .inl ⟨hk, here, fun _ => rfl⟩
  · obtain ⟨here, hhere, hp⟩ := Option.bind_eq_some_iff.mp hp
    cases hp
    exact .inr ⟨here, hhere, fun _ => rfl⟩

/-- A selected document meets each condition of the filter. -/
theorem matcher_mem {S : Schema} {filter : Filter} {p : Doc → Bool} {d : Doc}
    (hp : filter.matcher M S = some p) (hd : p d = true) {k : String} {v : Value}
    (hmem : (k, v) ∈ filter) (hk : k ≠ "_id") :
    ∃ here, fieldMatcher M S k v = some here ∧ here (d.fields k) = true := by
  induction filter generalizing p with
  | nil => cases hmem
  | cons e filter ih =>
    obtain ⟨k', v'⟩ := e
    obtain ⟨rest, hrest, hcons⟩ := matcher_cons hp
    rcases hcons with ⟨hid, here, hp⟩ | ⟨here, hhere, hp⟩
    · obtain ⟨-, hd⟩ := Bool.and_eq_true_iff.mp ((hp d).symm.trans hd)
      cases List.mem_cons.mp hmem with
      | inl heq =>
        cases heq
        contradiction
      | inr hlater => exact ih hrest hd hlater
    · obtain ⟨hhit, hd⟩ := Bool.and_eq_true_iff.mp ((hp d).symm.trans hd)
      cases List.mem_cons.mp hmem with
      | inl heq =>
        cases heq
        exact ⟨here, hhere, hhit⟩
      | inr hlater => exact ih hrest hd hlater

/-- A scan finds a document exactly when the collection has one. -/
theorem find?_scan_eq_none {seed : ℕ} {docs : List Doc} {p : Doc → Bool} :
    (M.scan seed docs).find? p = none ↔ ∀ d ∈ docs, p d = false := by
  simp only [List.find?_eq_none, (M.scan_perm seed docs).mem_iff, Bool.not_eq_true]

theorem find?_scan_eq_some {seed : ℕ} {docs : List Doc} {p : Doc → Bool} {d : Doc}
    (h : (M.scan seed docs).find? p = some d) : d ∈ docs ∧ p d = true :=
  ⟨(M.scan_perm seed docs).mem_iff.mp (List.mem_of_find?_eq_some h), List.find?_some h⟩

/-- Whatever the order of a scan, an id selects the one document that has it. -/
theorem find?_scan_of_id {seed : ℕ} {c : Collection} {p : Doc → Bool} {id : ObjectId}
    (hp : ∀ d, p d = decide (d.id = id)) : (M.scan seed c.docs).find? p = c.get id := by
  cases h : c.get id with
  | none =>
    refine find?_scan_eq_none.mpr fun d hd => ?_
    rw [hp d]
    simpa using List.find?_eq_none.mp h d hd
  | some d =>
    cases hfind : (M.scan seed c.docs).find? p with
    | none =>
      have hd := find?_scan_eq_none.mp hfind d (Collection.mem_of_get h)
      simp [hp, Collection.id_of_get h] at hd
    | some e =>
      obtain ⟨hmem, he⟩ := find?_scan_eq_some hfind
      have hid : e.id = id := by simpa [hp] using he
      rw [← h, ← hid, Collection.get_of_mem hmem]

/-- A document that a query returns is a hydrated document that its filter selects. -/
theorem findOne_eq_some {S : Schema} {env : Env} {filter : Filter} {plus : List String}
    {c : Collection} {r : Doc} (h : findOne M S env filter plus c = .ok (some r)) :
    ∃ p d, filter.matcher M S = some p ∧ (M.scan env.seed c.docs).find? p = some d ∧
      r = hydrate S plus d := by
  unfold findOne at h
  cases hp : filter.matcher M S with
  | none => simp [hp] at h
  | some p =>
    simp only [hp, Except.ok.injEq, Option.map_eq_some_iff] at h
    obtain ⟨d, hd, rfl⟩ := h
    exact ⟨p, d, rfl, hd, rfl⟩

theorem find_eq_ok {S : Schema} {env : Env} {filter : Filter} {options : QueryOptions}
    {c : Collection} {items : List Doc} (h : find M S env filter options c = .ok items) :
    ∃ p, filter.matcher M S = some p ∧
      ∀ r ∈ items, ∃ d ∈ c.docs, p d = true ∧ r = hydrate S [] d := by
  unfold find at h
  cases hp : filter.matcher M S with
  | none => simp [hp] at h
  | some p =>
    simp only [hp] at h
    cases hw : M.window options (M.scan env.seed (c.docs.filter p)) with
    | none => simp [hw] at h
    | some docs =>
      simp only [hw, Except.ok.injEq] at h
      subst h
      refine ⟨p, rfl, ?_⟩
      intro r hr
      obtain ⟨d, hd, rfl⟩ := List.mem_map.mp hr
      have hmem := (M.scan_perm _ _).mem_iff.mp (M.window_subset hw d hd)
      exact ⟨d, (List.mem_filter.mp hmem).1, (List.mem_filter.mp hmem).2, rfl⟩

end Mongo
