-- SUMMARY: `AbstractRepository`: the operations every service has on its collection.
import NestPlatform.Lib.Effect
import NestPlatform.Mongo.Update
import NestPlatform.Nest.Exception

/-!
# `AbstractRepository`

The operations as effects on one collection. A fault of Mongoose is thrown as it
is; a document that is not found is a `NotFoundException`.
-/
namespace Database

open Js Mongo Nest

abbrev Store := Effect Collection Thrown

/-- The name of the error that a fault is. -/
def faultName : Fault → String
  | .cast => "CastError"
  | .validation => "ValidationError"
  | .duplicateKey | .refused => "MongoServerError"

variable {α : Type}

def query (f : Collection → Except Fault α) : Store α := do
  match f (← get) with
  | .ok a => pure a
  | .error fault => throw (.error (faultName fault))

def command (f : Collection → Except Fault (α × Collection)) : Store α := do
  match f (← get) with
  | .ok (a, c) =>
    set c
    pure a
  | .error fault => throw (.error (faultName fault))

/-- What a list query of a repository returns. -/
structure Page where
  items : List Doc
  total : ℕ

/-- The page as a reply carries it. -/
def Page.toObject (S : Schema) (page : Page) : Value :=
  .obj [("items", .arr (page.items.map (Mongo.toObject S))), ("total", .nat page.total)]

namespace AbstractRepository

variable (M : Mongoose) (S : Schema) (env : Env)

def create (createDto : Entries) : Store Doc := command (Mongo.create M S env createDto)

def findOne (filterQuery : Filter) : Store (Option Doc) :=
  query (Mongo.findOne M S env filterQuery [])

def find (filterQuery : Filter) (options : QueryOptions) : Store (List Doc) :=
  query (Mongo.find M S env filterQuery options)

def findById (id : Value) : Store Doc := do
  match ← findOne M S env (byId id) with
  | none => throw (.http (NotFoundException ("Document with id " ++ M.text id ++ " not found")))
  | some doc => pure doc

def findOneAndUpdate (filterQuery : Filter) (updateQuery : Update) : Store Doc := do
  match ← command (Mongo.findOneAndUpdate M S env filterQuery updateQuery) with
  | none => throw (.http (NotFoundException "Document not found"))
  | some doc => pure doc

def softDelete (filterQuery : Filter) : Store Doc :=
  findOneAndUpdate M S env filterQuery (.body (.obj [("deletedAt", .date env.now)]))

def countDocuments (filterQuery : Filter) : Store ℕ := query (Mongo.countDocuments M S filterQuery)

/-- The repositories' lists: the items of one page with the number of all. -/
def findPage (filterQuery : Filter) (options : QueryOptions) : Store Page := do
  let items ← find M S env filterQuery options
  let total ← countDocuments M S filterQuery
  return { items, total }

/-- The lists of todos, books and posts: `deletedAt: null` is spelt out in each. -/
def findLive (filterQuery : Filter) (sort : List (String × Bool)) (skip limit : Value) :
    Store Page :=
  findPage M S env (filterQuery ++ [("deletedAt", .null)]) { skip, limit, sort }

end AbstractRepository

/-! ## How the operations run -/

open Effect

theorem exec_query (f : Collection → Except Fault α) (c : Collection) :
    (query f).exec c =
      match f c with
      | .ok a => (.ok a, c)
      | .error fault => (.error (.error (faultName fault)), c) := by
  unfold query
  rw [exec_bind_ok (exec_get c)]
  cases f c <;> rfl

theorem exec_command (f : Collection → Except Fault (α × Collection)) (c : Collection) :
    (command f).exec c =
      match f c with
      | .ok (a, c') => (.ok a, c')
      | .error fault => (.error (.error (faultName fault)), c) := by
  unfold command
  rw [exec_bind_ok (exec_get c)]
  rcases f c with fault | ⟨a, c'⟩ <;> rfl

namespace AbstractRepository

variable {M : Mongoose} {S : Schema} {env : Env}

theorem exec_findOne (filterQuery : Filter) (c : Collection) :
    ((findOne M S env filterQuery).exec c).2 = c := by
  unfold findOne
  rw [exec_query]
  split <;> rfl

theorem exec_findById (id : Value) (c : Collection) :
    ((findById M S env id).exec c).2 = c := by
  unfold findById
  have hkeep : ((findOne M S env (byId id)).exec c).2 = c := exec_findOne _ _
  cases h : (findOne M S env (byId id)).exec c with
  | mk r c' =>
    rw [h] at hkeep
    obtain rfl : c' = c := hkeep
    cases r with
    | error e => rw [exec_bind_error h]
    | ok doc =>
      rw [exec_bind_ok h]
      cases doc <;> rfl

theorem exec_findPage (filterQuery : Filter) (options : QueryOptions) (c : Collection) :
    ((findPage M S env filterQuery options).exec c).2 = c := by
  unfold findPage find countDocuments
  rw [exec_bind, exec_query]
  cases Mongo.find M S env filterQuery options c with
  | error fault => rfl
  | ok items =>
    dsimp only
    rw [exec_bind, exec_query]
    cases Mongo.countDocuments M S filterQuery c <;> rfl

/-- A page depends on the documents that its filter selects. -/
theorem exec_findPage_congr {filterQuery : Filter} {options : QueryOptions} {c c' : Collection}
    (h : ∀ p, filterQuery.matcher M S = some p → c.docs.filter p = c'.docs.filter p) :
    ((findPage M S env filterQuery options).exec c).1 =
      ((findPage M S env filterQuery options).exec c').1 := by
  unfold findPage find countDocuments
  rw [exec_bind, exec_bind, exec_query, exec_query]
  cases hp : filterQuery.matcher M S with
  | none => simp only [Mongo.find, hp]
  | some p =>
    have hfilter := h p hp
    have hcount : c.docs.countP p = c'.docs.countP p := by
      rw [List.countP_eq_length_filter, List.countP_eq_length_filter, hfilter]
    simp only [Mongo.find, hp, hfilter]
    cases M.window options (M.scan env.seed (c'.docs.filter p)) with
    | none => rfl
    | some docs =>
      dsimp only
      rw [exec_bind, exec_bind, exec_query, exec_query]
      simp only [Mongo.countDocuments, hp, hcount]
      rfl

/-- Creating throws and changes nothing, or inserts the constructed document and
returns it. -/
theorem exec_create {createDto : Entries} {c c' : Collection} {r : Except Thrown Doc}
    (h : (create M S env createDto).exec c = (r, c')) :
    (c' = c ∧ ∃ e, r = .error e) ∨
      ∃ d, ∃ hnew : c.get d.id = none, construct M S env createDto = some d ∧
        validate S d.fields = true ∧ r = .ok d ∧ c' = c.insert d hnew := by
  unfold create at h
  rw [exec_command] at h
  cases hc : Mongo.create M S env createDto c with
  | error fault =>
    simp only [hc] at h
    cases h
    exact .inl ⟨rfl, _, rfl⟩
  | ok res =>
    obtain ⟨d, c₁⟩ := res
    simp only [hc] at h
    obtain ⟨hd, hvalid, hnew, rfl⟩ := create_eq_ok hc
    cases h
    exact .inr ⟨d, hnew, hd, hvalid, rfl, rfl⟩

/-- An update throws and changes nothing, or changes the one document that the
filter selects first and returns it. -/
theorem exec_findOneAndUpdate {filterQuery : Filter} {updateQuery : Update} {c c' : Collection}
    {r : Except Thrown Doc}
    (h : (findOneAndUpdate M S env filterQuery updateQuery).exec c = (r, c')) :
    (c' = c ∧ ∃ e, r = .error e) ∨
      ∃ p f d fields, filterQuery.matcher M S = some p ∧ updateQuery.compile M S = some f ∧
        (M.scan env.seed c.docs).find? p = some d ∧ f d.id d.fields = some fields ∧
        r = .ok (hydrate S [] (touch env d.id fields)) ∧ c' = c.put (touch env d.id fields) := by
  unfold findOneAndUpdate at h
  rw [exec_bind, exec_command] at h
  unfold Mongo.findOneAndUpdate at h
  cases hu : Mongo.update M S env filterQuery updateQuery c with
  | error fault =>
    simp only [hu, bind, Except.bind] at h
    cases h
    exact .inl ⟨rfl, _, rfl⟩
  | ok res =>
    obtain ⟨doc, c₁⟩ := res
    simp only [hu, bind, Except.bind, pure, Except.pure] at h
    obtain ⟨p, f, hp, hf, ⟨hnone, rfl, rfl⟩ | ⟨d, fields, hd, hfields, rfl, rfl⟩⟩ := update_eq_ok hu
    · cases h
      exact .inl ⟨rfl, _, rfl⟩
    · cases h
      exact .inr ⟨p, f, d, fields, hp, hf, hd, hfields, rfl, rfl⟩

theorem state_findOneAndUpdate (filterQuery : Filter) (updateQuery : Update) (c : Collection) :
    ((findOneAndUpdate M S env filterQuery updateQuery).exec c).2 = c ∨
      ∃ p f d fields, filterQuery.matcher M S = some p ∧ updateQuery.compile M S = some f ∧
        (M.scan env.seed c.docs).find? p = some d ∧ f d.id d.fields = some fields ∧
        ((findOneAndUpdate M S env filterQuery updateQuery).exec c).2 =
          c.put (touch env d.id fields) := by
  cases h : (findOneAndUpdate M S env filterQuery updateQuery).exec c with
  | mk r c' =>
    rcases exec_findOneAndUpdate h with ⟨rfl, -⟩ | ⟨p, f, d, fields, hp, hf, hd, hfields, -, rfl⟩
    · exact .inl rfl
    · exact .inr ⟨p, f, d, fields, hp, hf, hd, hfields, rfl⟩

/-- A string that is cast to an id finds the document with this id, whether it is
deleted or not. -/
theorem exec_findById_str {s : String} {id : ObjectId} (hid : M.castId (.str s) = some id)
    {c : Collection} {d : Doc} (hd : c.get id = some d) :
    (findById M S env (.str s)).exec c = (.ok (hydrate S [] d), c) := by
  obtain ⟨p, hp, hsel⟩ := matcher_byId (S := S) hid
  have hfind : (M.scan env.seed c.docs).find? p = some d := (find?_scan_of_id hsel).trans hd
  have hone : (findOne M S env (byId (.str s))).exec c = (.ok (some (hydrate S [] d)), c) := by
    unfold findOne
    rw [exec_query]
    simp only [Mongo.findOne, hp, hfind, Option.map_some]
  unfold findById
  rw [exec_bind_ok hone]
  rfl

/-- An id that no document can have is refused before the collection is read. -/
theorem exec_findById_uncastable {s : String} (hid : M.castId (.str s) = none) (c : Collection) :
    (findById M S env (.str s)).exec c = (.error (.error "CastError"), c) := by
  have hp : (byId (.str s)).matcher M S = none := by
    rw [matcher_byId_eq, hid]
    rfl
  have hfault : (findOne M S env (byId (.str s))).exec c = (.error (.error "CastError"), c) := by
    unfold findOne
    rw [exec_query]
    simp only [Mongo.findOne, hp]
    rfl
  exact exec_bind_error hfault

theorem exec_findById_missing {s : String} {id : ObjectId} (hid : M.castId (.str s) = some id)
    {c : Collection} (hmissing : c.get id = none) :
    (findById M S env (.str s)).exec c =
      (.error (.http (NotFoundException ("Document with id " ++ M.text (.str s) ++ " not found"))),
        c) := by
  obtain ⟨p, hp, hsel⟩ := matcher_byId (S := S) hid
  have hfind : (M.scan env.seed c.docs).find? p = none := (find?_scan_of_id hsel).trans hmissing
  have hnone : (findOne M S env (byId (.str s))).exec c = (.ok none, c) := by
    unfold findOne
    rw [exec_query]
    simp only [Mongo.findOne, hp, hfind, Option.map_none]
  unfold findById
  rw [exec_bind_ok hnone]
  rfl

/-- A document found by a string has the id that the string is cast to. -/
theorem exec_findById_eq_ok {s : String} {c c' : Collection} {r : Doc}
    (h : (findById M S env (.str s)).exec c = (.ok r, c')) :
    c' = c ∧ ∃ d, M.castId (.str s) = some d.id ∧ c.get d.id = some d ∧ r = hydrate S [] d := by
  unfold findById findOne at h
  rw [exec_bind, exec_query] at h
  cases hfound : Mongo.findOne M S env (byId (.str s)) [] c with
  | error fault =>
    rw [hfound] at h
    cases h
  | ok found =>
    rw [hfound] at h
    cases found with
    | none => cases h
    | some doc =>
      cases h
      obtain ⟨p, d, hp, hd, rfl⟩ := findOne_eq_some hfound
      obtain ⟨hmem, hsel⟩ := find?_scan_eq_some hd
      exact ⟨rfl, d, castId_of_byId hp hsel, Collection.get_of_mem hmem, rfl⟩

theorem exec_findOneAndUpdate_of_find (hS : ∀ p ∈ S, p.unique = false) {filterQuery : Filter}
    {u : Update} {c : Collection} {p : Doc → Bool} {f : ObjectId → Fields → Option Fields} {d : Doc}
    {fields : Fields} (hp : filterQuery.matcher M S = some p) (hf : u.compile M S = some f)
    (hd : (M.scan env.seed c.docs).find? p = some d) (hfields : f d.id d.fields = some fields) :
    (findOneAndUpdate M S env filterQuery u).exec c =
      (.ok (hydrate S [] (touch env d.id fields)), c.put (touch env d.id fields)) := by
  unfold findOneAndUpdate
  rw [exec_bind, exec_command, Mongo.findOneAndUpdate_of_find hS hp hf hd hfields]
  rfl

theorem exec_findOneAndUpdate_str (hS : ∀ p ∈ S, p.unique = false) {s : String} {id : ObjectId}
    (hid : M.castId (.str s) = some id) {u : Update} {f : ObjectId → Fields → Option Fields}
    (hf : u.compile M S = some f) {c : Collection} {d : Doc} (hd : c.get id = some d)
    {fields : Fields} (hfields : f id d.fields = some fields) :
    (findOneAndUpdate M S env (byId (.str s)) u).exec c =
      (.ok (hydrate S [] (touch env id fields)), c.put (touch env id fields)) := by
  obtain ⟨p, hp, hsel⟩ := matcher_byId (S := S) hid
  obtain rfl : d.id = id := Collection.id_of_get hd
  exact exec_findOneAndUpdate_of_find hS hp hf ((find?_scan_of_id hsel).trans hd) hfields

theorem state_findOneAndUpdate_str (hS : ∀ p ∈ S, p.unique = false) {s : String} {id : ObjectId}
    (hid : M.castId (.str s) = some id) (u : Update) {c : Collection} {d : Doc}
    (hd : c.get id = some d) :
    ((findOneAndUpdate M S env (byId (.str s)) u).exec c).2 =
      match (u.compile M S).bind fun f => f id d.fields with
      | some fields => c.put (touch env id fields)
      | none => c := by
  cases hf : u.compile M S with
  | none =>
    rcases @state_findOneAndUpdate M S env (byId (.str s)) u c with
      hkeep | ⟨_, f, _, _, _, hf', _⟩
    · exact hkeep
    · rw [hf] at hf'
      cases hf'
  | some f =>
    rw [Option.bind_some]
    cases hfields : f id d.fields with
    | some fields => rw [exec_findOneAndUpdate_str hS hid hf hd hfields]
    | none =>
      rcases @state_findOneAndUpdate M S env (byId (.str s)) u c with
        hkeep | ⟨p, f', d', fields, hp, hf', hd', hfields', _⟩
      · exact hkeep
      · obtain rfl := Option.some.inj (hf.symm.trans hf')
        obtain ⟨p', hp', hsel⟩ := matcher_byId (S := S) hid
        obtain rfl := Option.some.inj (hp.symm.trans hp')
        obtain rfl := Option.some.inj (hd.symm.trans ((find?_scan_of_id hsel).symm.trans hd'))
        rw [Collection.id_of_get hd, hfields] at hfields'
        cases hfields'

end AbstractRepository
end Database
