-- SUMMARY: Creating and updating documents of a model: casts, validators, unique indexes and timestamps.
import Mathlib.Data.List.TakeWhile
import NestPlatform.Mongo.Query

/-!
# Writes

`create` builds a document from an object, validates it and inserts it.
`findOneAndUpdate` changes the first document a filter selects and runs no
validators. An update is a JSON value (an object of paths and operators, or an
array of pipeline stages) or a document that was read before.
-/
namespace Mongo

open Js

variable (M : Mongoose)

/-! ## Casting the keys of an object -/

/-- The plain keys that name a path, with their values cast; other keys are dropped. -/
def castSets (S : Schema) : Entries → Option Entries
  | [] => some []
  | (k, v) :: es => do
    let sets ← castSets S es
    match if isPlainKey k then S.path k else none with
    | some p => do
      let w ← p.set M v
      some ((k, w) :: sets)
    | none => some sets

/-! ## Validation and indexes -/

namespace SchemaPath

def validNumber (p : SchemaPath) (n : Number) : Bool :=
  (p.min.all fun q => decide (Number.fin q ≤ n)) && p.max.all fun q => decide (n ≤ Number.fin q)

/-- The validators of the path accept the value. -/
def valid (p : SchemaPath) (x : Value) : Bool :=
  (! p.required || (! x.nullish && x ≠ .str "")) &&
    match x with
    | .undefined | .null => true
    | .str s => (p.enum = [] || p.enum.contains s) && p.minlength.all fun n => decide (n ≤ s.length)
    | .num n => p.validNumber n
    | .arr xs => p.enum = [] || xs.all fun v => v.nullish || p.enum.any fun s => v = .str s
    | _ => true

end SchemaPath

def validate (S : Schema) (fields : Fields) : Bool := S.all fun p => p.valid (fields p.name)

/-- No other document has the same value at a unique path. -/
def uniqueOk (S : Schema) (c : Collection) (d : Doc) : Bool :=
  c.docs.all fun e => decide (e.id = d.id) ||
    S.all fun p => ! p.unique || ! same (e.fields p.name) (d.fields p.name)

/-! ## Creating -/

/-- The fields of a new document before the timestamps are set. -/
def constructFields (S : Schema) (dto : Entries) : Option Fields := do
  let sets ← castSets M S dto
  let defaults : Fields := fun k => ((S.path k).map SchemaPath.default).getD .undefined
  let fields := defaults.assign (sets.filter fun e => decide (e.2 ≠ .undefined))
  if dottedRoots dto = [] then some fields else M.positional S dto fields

/-- `createdAt` as given, unless it is missing. -/
def createdAt (env : Env) (dto : Entries) : Option Value :=
  let v := dto.get "createdAt"
  if v.nullish then some (.date env.now) else M.cast .date v

/-- The id of a new document; with a setter, `id` comes after `_id`. -/
def constructId (env : Env) (dto : Entries) : Option ObjectId :=
  let v := if M.idSetter ∧ dto.get "id" ≠ .undefined then dto.get "id" else dto.get "_id"
  if v = .undefined then some env.newId else M.castId v

/-- The document that `new Model(dto)` is saved as. -/
def construct (S : Schema) (env : Env) (dto : Entries) : Option Doc := do
  let id ← constructId M env dto
  let fields ← constructFields M S dto
  let created ← createdAt M env dto
  some ⟨id, fields.assign [("createdAt", created), ("updatedAt", created), ("__v", .nat 0)]⟩

def create (S : Schema) (env : Env) (dto : Entries) (c : Collection) :
    Except Fault (Doc × Collection) :=
  match construct M S env dto with
  | none => .error .validation
  | some d =>
    if validate S d.fields then
      if h : c.get d.id = none then
        if uniqueOk S c d then .ok (d, c.insert d h) else .error .duplicateKey
      else .error .duplicateKey
    else .error .validation

/-! ## Updating -/

inductive Update where
  | body (v : Value)
  /-- A document returned by a query, possibly modified since. -/
  | document (d : Doc)

/-- What an update of `_id` requires of the document's id. -/
def idCheck (body : Entries) : Option (ObjectId → Bool) :=
  if "_id" ∈ Entries.keys body then
    let v := body.get "_id"
    if v.nullish then some fun _ => false else (M.castId v).map fun id' id => decide (id = id')
  else some fun _ => true

/-- The effect of the keys that are not plain. -/
def compileOperators (S : Schema) (body : Entries) : Option (Fields → Option Fields) :=
  if (Entries.keys body).all isPlainKey then some some else M.operators S body

/-- The effect of an object of paths and operators. -/
def compileObject (S : Schema) (body : Entries) :
    Option (ObjectId → Fields → Option Fields) := do
  let sets ← castSets M S body
  let idOk ← idCheck M body
  let operators ← compileOperators M S body
  some fun id fields => if idOk id then operators (fields.assign sets) else none

/-- All fields of the schema are set as the document has them, `createdAt` excepted. -/
def overwrite (S : Schema) (d : Doc) (fields : Fields) : Fields := fun k =>
  if (S.path k).isSome ∧ d.fields k ≠ .undefined then d.fields k else fields k

/-- The effect of an update; `none` is a `CastError`, and an inner `none` a refusal
of the server. -/
def Update.compile (S : Schema) : Update → Option (ObjectId → Fields → Option Fields)
  | .body (.arr stages) => (M.pipeline S stages).map fun f _ fields => f fields
  | .body v => compileObject M S v.entries
  | .document d => some fun _ fields => some (overwrite S d fields)

/-- The document after an update has been applied to it. -/
def touch (env : Env) (id : ObjectId) (fields : Fields) : Doc :=
  ⟨id, Function.update fields "updatedAt" (.date env.now)⟩

/-- The updated document, when the filter selects one, and the collection after the
update. -/
def update (S : Schema) (env : Env) (filter : Filter) (u : Update) (c : Collection) :
    Except Fault (Option Doc × Collection) :=
  match filter.matcher M S, u.compile M S with
  | some p, some f =>
    match (M.scan env.seed c.docs).find? p with
    | none => .ok (none, c)
    | some d =>
      match f d.id d.fields with
      | none => .error .refused
      | some fields =>
        let d' := touch env d.id fields
        if uniqueOk S c d' then .ok (some d', c.put d') else .error .duplicateKey
  | _, _ => .error .cast

/-- `findOneAndUpdate` with `new: true`. -/
def findOneAndUpdate (S : Schema) (env : Env) (filter : Filter) (u : Update) (c : Collection) :
    Except Fault (Option Doc × Collection) := do
  let (d, c') ← update M S env filter u c
  return (d.map (hydrate S []), c')

/-! ## What a write can do -/

variable {M}

/-- A created document is new, valid and the only change. -/
theorem create_eq_ok {S : Schema} {env : Env} {dto : Entries} {c c' : Collection} {d : Doc}
    (h : create M S env dto c = .ok (d, c')) :
    construct M S env dto = some d ∧ validate S d.fields = true ∧
      ∃ hnew : c.get d.id = none, c' = c.insert d hnew := by
  unfold create at h
  cases hd : construct M S env dto with
  | none => simp [hd] at h
  | some d₀ =>
    simp only [hd] at h
    split at h
    case isFalse => cases h
    rename_i hvalid
    split at h
    case isFalse => cases h
    rename_i hnew
    split at h
    case isFalse => cases h
    cases h
    exact ⟨rfl, hvalid, hnew, rfl⟩

/-- An update changes nothing or the one document its filter selects first. -/
theorem update_eq_ok {S : Schema} {env : Env} {filter : Filter} {u : Update} {c c' : Collection}
    {r : Option Doc} (h : update M S env filter u c = .ok (r, c')) :
    ∃ p f, filter.matcher M S = some p ∧ u.compile M S = some f ∧
      (((M.scan env.seed c.docs).find? p = none ∧ r = none ∧ c' = c) ∨
        ∃ d fields, (M.scan env.seed c.docs).find? p = some d ∧ f d.id d.fields = some fields ∧
          r = some (touch env d.id fields) ∧ c' = c.put (touch env d.id fields)) := by
  unfold update at h
  cases hp : filter.matcher M S with
  | none => simp [hp] at h
  | some p =>
    cases hf : u.compile M S with
    | none => simp [hp, hf] at h
    | some f =>
      simp only [hp, hf] at h
      refine ⟨p, f, rfl, rfl, ?_⟩
      cases hd : (M.scan env.seed c.docs).find? p with
      | none =>
        simp only [hd, Except.ok.injEq, Prod.mk.injEq] at h
        exact .inl ⟨rfl, h.1.symm, h.2.symm⟩
      | some d =>
        simp only [hd] at h
        cases hfields : f d.id d.fields with
        | none => simp [hfields] at h
        | some fields =>
          simp only [hfields] at h
          split at h
          case isFalse => cases h
          cases h
          exact .inr ⟨d, fields, rfl, hfields, rfl, rfl⟩

theorem update_of_find {S : Schema} {env : Env} {filter : Filter} {u : Update} {c : Collection}
    {p : Doc → Bool} {f : ObjectId → Fields → Option Fields} {d : Doc} {fields : Fields}
    (hp : filter.matcher M S = some p) (hf : u.compile M S = some f)
    (hd : (M.scan env.seed c.docs).find? p = some d) (hfields : f d.id d.fields = some fields)
    (hunique : uniqueOk S c (touch env d.id fields) = true) :
    update M S env filter u c =
      .ok (some (touch env d.id fields), c.put (touch env d.id fields)) := by
  simp only [update, hp, hf, hd, hfields, hunique, if_true]

/-- An update of an existing document succeeds when its effect is defined and clashes with no
other document. -/
theorem update_str_eq_ok {S : Schema} {env : Env} {s : String} {id : ObjectId}
    (hid : M.castId (.str s) = some id) {u : Update} {f : ObjectId → Fields → Option Fields}
    (hf : u.compile M S = some f) {c : Collection} {d : Doc} (hd : c.get id = some d)
    {fields : Fields} (hfields : f id d.fields = some fields)
    (hunique : uniqueOk S c (touch env id fields) = true) :
    update M S env (byId (.str s)) u c =
      .ok (some (touch env id fields), c.put (touch env id fields)) := by
  obtain ⟨p, hp, hsel⟩ := matcher_byId (S := S) hid
  obtain rfl : d.id = id := Collection.id_of_get hd
  exact update_of_find hp hf ((find?_scan_of_id hsel).trans hd) hfields hunique

theorem uniqueOk_of_noUnique {S : Schema} (hS : ∀ p ∈ S, p.unique = false) (c : Collection)
    (d : Doc) : uniqueOk S c d = true := by
  refine List.all_eq_true.mpr fun e _ => ?_
  rw [Bool.or_eq_true]
  refine .inr (List.all_eq_true.mpr fun q hq => ?_)
  simp [hS q hq]

/-- Without unique paths an update whose effect on the selected document is defined succeeds. -/
theorem findOneAndUpdate_of_find {S : Schema} (hS : ∀ p ∈ S, p.unique = false) {env : Env}
    {filter : Filter} {u : Update} {c : Collection} {p : Doc → Bool}
    {f : ObjectId → Fields → Option Fields} {d : Doc} {fields : Fields}
    (hp : filter.matcher M S = some p) (hf : u.compile M S = some f)
    (hd : (M.scan env.seed c.docs).find? p = some d) (hfields : f d.id d.fields = some fields) :
    findOneAndUpdate M S env filter u c =
      .ok (some (hydrate S [] (touch env d.id fields)), c.put (touch env d.id fields)) := by
  unfold findOneAndUpdate
  rw [update_of_find hp hf hd hfields (uniqueOk_of_noUnique hS c _)]
  rfl

/-- The effect of an update of one path. -/
theorem compile_single {S : Schema} {k : String} {v w : Value} {p : SchemaPath}
    (hplain : isPlainKey k = true) (hid : k ≠ "_id") (hp : S.path k = some p)
    (hset : p.set M v = some w) :
    (Update.body (.obj [(k, v)])).compile M S = some fun _ fields => some (fields.assign [(k, w)]) := by
  have hsets : castSets M S [(k, v)] = some [(k, w)] := by
    simp [castSets, hplain, hp, hset]
  have hcheck : idCheck M [(k, v)] = some fun _ => true := by
    simp [idCheck, Entries.keys, hid.symm]
  have hoperators : compileOperators M S [(k, v)] = some some := by
    simp [compileOperators, Entries.keys, hplain]
  simp [Update.compile, compileObject, hsets, hcheck, hoperators]

/-! ## Frames -/

theorem keys_castSets {S : Schema} {es sets : Entries} (h : castSets M S es = some sets) :
    ∀ k w, (k, w) ∈ sets →
      isPlainKey k = true ∧ ∃ v p, (k, v) ∈ es ∧ S.path k = some p ∧ p.set M v = some w := by
  induction es generalizing sets with
  | nil =>
    obtain rfl : [] = sets := by simpa [castSets] using h
    simp
  | cons e es ih =>
    obtain ⟨k', v'⟩ := e
    simp only [castSets, Option.bind_eq_bind, Option.bind_eq_some_iff] at h
    obtain ⟨rest, hrest, h⟩ := h
    intro k w hmem
    have hold : (k, w) ∈ rest → isPlainKey k = true ∧
        ∃ v p, (k, v) ∈ (k', v') :: es ∧ S.path k = some p ∧ p.set M v = some w := by
      intro hk
      obtain ⟨hplain, v, p, hv, hp, hw⟩ := ih hrest k w hk
      exact ⟨hplain, v, p, List.mem_cons_of_mem _ hv, hp, hw⟩
    by_cases hplain : isPlainKey k' = true
    · cases hp : S.path k' with
      | none =>
        simp only [hplain, hp, if_true, Option.some.injEq] at h
        exact hold (h ▸ hmem)
      | some p =>
        simp only [hplain, hp, if_true, Option.bind_eq_some_iff, Option.some.injEq] at h
        obtain ⟨w', hw', rfl⟩ := h
        rcases List.mem_cons.mp hmem with heq | hk
        · cases heq
          exact ⟨hplain, v', p, List.mem_cons_self, hp, hw'⟩
        · exact hold hk
    · simp only [hplain, Bool.false_eq_true, if_false, Option.some.injEq] at h
      exact hold (h ▸ hmem)

/-- A plain key that names a path is set to its cast value and to nothing else. -/
theorem castSets_unique {S : Schema} {es sets : Entries} (h : castSets M S es = some sets)
    (hnodup : (Entries.keys es).Nodup) {k : String} {v : Value} {p : SchemaPath}
    (hmem : (k, v) ∈ es) (hplain : isPlainKey k = true) (hp : S.path k = some p) :
    ∃ w, p.set M v = some w ∧ (k, w) ∈ sets ∧ ∀ w', (k, w') ∈ sets → w' = w := by
  induction es generalizing sets with
  | nil => cases hmem
  | cons e es ih =>
    obtain ⟨k', v'⟩ := e
    obtain ⟨hnew, hnodup⟩ := List.nodup_cons.mp hnodup
    simp only [castSets, Option.bind_eq_bind, Option.bind_eq_some_iff] at h
    obtain ⟨rest, hrest, h⟩ := h
    rcases List.mem_cons.mp hmem with heq | hmem
    · cases heq
      simp only [hplain, hp, if_true, Option.bind_eq_some_iff, Option.some.injEq] at h
      obtain ⟨w, hw, rfl⟩ := h
      refine ⟨w, hw, List.mem_cons_self, ?_⟩
      intro w' hw'
      rcases List.mem_cons.mp hw' with heq | hlater
      · exact (Prod.ext_iff.mp heq).2
      · obtain ⟨-, v', -, hv', -⟩ := keys_castSets hrest _ _ hlater
        exact absurd (List.mem_map.mpr ⟨_, hv', rfl⟩) hnew
    · obtain ⟨w, hw, hin, hunique⟩ := ih hrest hnodup hmem
      have hne : k' ≠ k := by
        rintro rfl
        exact hnew (List.mem_map.mpr ⟨_, hmem, rfl⟩)
      cases hp' : (if isPlainKey k' then S.path k' else none) with
      | none =>
        simp only [hp', Option.some.injEq] at h
        exact ⟨w, hw, h ▸ hin, fun w' hw' => hunique w' (h ▸ hw')⟩
      | some p' =>
        simp only [hp', Option.bind_eq_some_iff, Option.some.injEq] at h
        obtain ⟨w₀, -, rfl⟩ := h
        refine ⟨w, hw, List.mem_cons_of_mem _ hin, ?_⟩
        intro w' hw'
        rcases List.mem_cons.mp hw' with heq | hlater
        · exact absurd (Prod.ext_iff.mp heq).1.symm hne
        · exact hunique w' hlater

theorem root_of_isPlainKey {k : String} (h : isPlainKey k = true) : root k = k := by
  simp only [isPlainKey, isDottedKey, Bool.and_eq_true, Bool.not_eq_true'] at h
  have hall : k.toList.takeWhile (· ≠ '.') = k.toList := by
    apply List.takeWhile_eq_self_iff.mpr
    intro c hc
    have hne : c ≠ '.' := by
      rintro rfl
      simp [hc] at h
    simpa using hne
  rw [root, hall, String.ofList_toList]

theorem mem_mentions_of_isPlainKey {es : Entries} {k : String} {v : Value} (hmem : (k, v) ∈ es)
    (h : isPlainKey k = true) : k ∈ mentions es := by
  have hop : isOperatorKey k = false := by
    simp only [isPlainKey, Bool.and_eq_true, Bool.not_eq_true'] at h
    exact h.1
  refine List.mem_flatMap.mpr ⟨(k, v), hmem, ?_⟩
  simp [hop, root_of_isPlainKey h]

theorem compileOperators_frame {S : Schema} {body : Entries} {f : Fields → Option Fields}
    (hf : compileOperators M S body = some f) {x y : Fields} (hy : f x = some y) {k : String}
    (hk : k ∉ mentions (operatorEntries body)) : y k = x k := by
  unfold compileOperators at hf
  split at hf
  · cases hf
    cases hy
    rfl
  · exact M.operators_frame hf hy k hk

/-- An update by an object assigns the cast values and then applies the operators. -/
theorem compileObject_eq_some {S : Schema} {body : Entries}
    {f : ObjectId → Fields → Option Fields} (hf : compileObject M S body = some f) {id : ObjectId}
    {x y : Fields} (hy : f id x = some y) :
    ∃ sets operators, castSets M S body = some sets ∧ compileOperators M S body = some operators ∧
      operators (x.assign sets) = some y := by
  unfold compileObject at hf
  simp only [Option.bind_eq_bind, Option.bind_eq_some_iff, Option.some.injEq] at hf
  obtain ⟨sets, hsets, idOk, -, operators, hops, rfl⟩ := hf
  dsimp only at hy
  split at hy
  · exact ⟨sets, operators, hsets, hops, hy⟩
  · cases hy

/-- The paths that an update by an object does not mention keep their values. -/
theorem compileObject_frame {S : Schema} {body : Entries}
    {f : ObjectId → Fields → Option Fields} (hf : compileObject M S body = some f) {id : ObjectId}
    {x y : Fields} (hy : f id x = some y) {k : String} (hk : k ∉ mentions body) : y k = x k := by
  obtain ⟨sets, operators, hsets, hops, hy⟩ := compileObject_eq_some hf hy
  have hassign : Fields.assign x sets k = x k := by
    apply Fields.assign_of_notMem
    intro hmem
    obtain ⟨⟨_, w⟩, hw, rfl⟩ := List.mem_map.mp hmem
    obtain ⟨hplain, v, -, hv, -⟩ := keys_castSets hsets _ _ hw
    exact hk (mem_mentions_of_isPlainKey hv hplain)
  rw [compileOperators_frame hops hy (fun h => hk (mentions_operatorEntries body h)), hassign]

/-- A plain key that no operator mentions is updated to its cast value. -/
theorem compileObject_plain {S : Schema} {body : Entries}
    {f : ObjectId → Fields → Option Fields} (hf : compileObject M S body = some f) {id : ObjectId}
    {x y : Fields} (hy : f id x = some y) (hnodup : (Entries.keys body).Nodup) {k : String}
    {v : Value} {p : SchemaPath} (hmem : (k, v) ∈ body) (hplain : isPlainKey k = true)
    (hp : S.path k = some p) (hk : k ∉ mentions (operatorEntries body)) :
    p.set M v = some (y k) := by
  obtain ⟨sets, operators, hsets, hops, hy⟩ := compileObject_eq_some hf hy
  obtain ⟨w, hw, hin, hunique⟩ := castSets_unique hsets hnodup hmem hplain hp
  rw [compileOperators_frame hops hy hk, Fields.assign_of_unique hin hunique, hw]

/-- A new document has the defaults with the cast values assigned over them, except in the fields
that the model itself sets. -/
theorem construct_fields {S : Schema} {env : Env} {dto : Entries} {d : Doc}
    (hd : construct M S env dto = some d) : ∃ sets, castSets M S dto = some sets ∧
      ∀ k, k ∉ dottedRoots dto → k ∉ ["createdAt", "updatedAt", "__v"] →
        d.fields k = Fields.assign (fun k => ((S.path k).map SchemaPath.default).getD .undefined)
          (sets.filter fun e => decide (e.2 ≠ .undefined)) k := by
  unfold construct at hd
  simp only [Option.bind_eq_bind, Option.bind_eq_some_iff, Option.some.injEq] at hd
  obtain ⟨id, -, fields, hfields, created, -, rfl⟩ := hd
  unfold constructFields at hfields
  simp only [Option.bind_eq_bind, Option.bind_eq_some_iff] at hfields
  obtain ⟨sets, hsets, hfields⟩ := hfields
  refine ⟨sets, hsets, fun k hk hmeta => (Fields.assign_of_notMem hmeta).trans ?_⟩
  split at hfields
  · cases hfields
    rfl
  · exact M.positional_frame hfields k hk

/-- A plain key of the object that a document is created from is stored as its cast
value. -/
theorem construct_plain {S : Schema} {env : Env} {dto : Entries} {d : Doc}
    (hd : construct M S env dto = some d) (hnodup : (Entries.keys dto).Nodup) {k : String}
    {v w : Value} {p : SchemaPath} (hmem : (k, v) ∈ dto) (hplain : isPlainKey k = true)
    (hp : S.path k = some p) (hk : k ∉ dottedRoots dto) (hw : p.set M v = some w)
    (hdefined : w ≠ .undefined) (hmeta : k ∉ ["createdAt", "updatedAt", "__v"]) :
    d.fields k = w := by
  obtain ⟨sets, hsets, hfields⟩ := construct_fields hd
  obtain ⟨w', hw', hin, hunique⟩ := castSets_unique hsets hnodup hmem hplain hp
  obtain rfl : w = w' := Option.some.inj (hw.symm.trans hw')
  rw [hfields k hk hmeta]
  refine Fields.assign_of_unique (List.mem_filter.mpr ⟨hin, by simpa using hdefined⟩) ?_
  intro w' hw'
  exact hunique w' (List.mem_filter.mp hw').1

/-- A path that no operator mentions keeps its value or takes a cast value of the object. -/
theorem compileObject_cases {S : Schema} {body : Entries}
    {f : ObjectId → Fields → Option Fields} (hf : compileObject M S body = some f) {id : ObjectId}
    {x y : Fields} (hy : f id x = some y) {k : String}
    (hk : k ∉ mentions (operatorEntries body)) :
    y k = x k ∨ ∃ v p, (k, v) ∈ body ∧ S.path k = some p ∧ p.set M v = some (y k) := by
  obtain ⟨sets, operators, hsets, hops, hy⟩ := compileObject_eq_some hf hy
  rw [compileOperators_frame hops hy hk]
  refine (Fields.assign_cases x sets k).imp_right fun hmem => ?_
  obtain ⟨-, v, p, hv, hp, hw⟩ := keys_castSets hsets _ _ hmem
  exact ⟨v, p, hv, hp, hw⟩

/-- A path of a new document has its default or a cast value of the object. -/
theorem construct_cases {S : Schema} {env : Env} {dto : Entries} {d : Doc}
    (hd : construct M S env dto = some d) {k : String} {p : SchemaPath} (hp : S.path k = some p)
    (hk : k ∉ dottedRoots dto) (hmeta : k ∉ ["createdAt", "updatedAt", "__v"]) :
    d.fields k = p.default ∨
      ∃ v, (k, v) ∈ dto ∧ p.set M v = some (d.fields k) ∧ d.fields k ≠ .undefined := by
  obtain ⟨sets, hsets, hfields⟩ := construct_fields hd
  rw [hfields k hk hmeta]
  cases Fields.assign_cases (fun k => ((S.path k).map SchemaPath.default).getD .undefined)
    (sets.filter fun e => decide (e.2 ≠ .undefined)) k with
  | inl hdefault =>
    refine .inl (hdefault.trans ?_)
    rw [hp]
    rfl
  | inr hmem =>
    obtain ⟨hin, hdefined⟩ := List.mem_filter.mp hmem
    obtain ⟨-, v, p', hv, hp', hw⟩ := keys_castSets hsets _ _ hin
    obtain rfl := Option.some.inj (hp.symm.trans hp')
    exact .inr ⟨v, hv, hw, by simpa using hdefined⟩

/-- An update object leaves the paths it does not mention alone. -/
theorem Update.compile_frame {S : Schema} {v : Value} (harr : ∀ stages, v ≠ .arr stages)
    {f : ObjectId → Fields → Option Fields} (hf : (Update.body v).compile M S = some f)
    {id : ObjectId} {x y : Fields} (hy : f id x = some y) {k : String}
    (hk : k ∉ mentions v.entries) : y k = x k := by
  have hobj : (Update.body v).compile M S = compileObject M S v.entries := by
    cases v
    case arr stages => exact absurd rfl (harr stages)
    all_goals rfl
  exact compileObject_frame (hobj ▸ hf) hy hk

theorem touch_of_ne {env : Env} {id : ObjectId} {fields : Fields} {k : String}
    (h : k ≠ "updatedAt") : (touch env id fields).fields k = fields k :=
  Function.update_of_ne h _ _

theorem get_put_touch {c : Collection} {id : ObjectId} {d : Doc} (h : c.get id = some d)
    (env : Env) (fields : Fields) :
    (c.put (touch env id fields)).get id = some (touch env id fields) :=
  Collection.get_put_self (d := touch env id fields) h

end Mongo
