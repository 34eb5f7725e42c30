-- SUMMARY: What the declaration of a path promises of stored values, and which writes keep it.
import NestPlatform.Mongo.Update

/-!
# Validity of stored documents

Creating a document runs the validators of its schema, and updating it runs none. The
validators let `null` pass where a path has an `enum` or bounds, and an update may bring
any value that can be cast.
-/
namespace Mongo

open Js

/-! ## The promise of a declaration -/

namespace SchemaPath

/-- The path has an `enum` or a bound. -/
def restricted (p : SchemaPath) : Bool := decide (p.enum ≠ []) || p.min.isSome || p.max.isSome

/-- A value for a required path, one of the `enum`, and a number within the bounds. -/
def promises (p : SchemaPath) (x : Value) : Bool :=
  (! p.required || (! x.nullish && x ≠ .str "")) &&
    (p.enum = [] || p.enum.any fun s => x = .str s) &&
    ((p.min.isNone && p.max.isNone) ||
      match x with
      | .num n => p.validNumber n
      | _ => false)

/-- The restrictions of the path fit its type, its default meets them, and saving a document
does not set it. -/
def coherent (p : SchemaPath) : Bool :=
  (p.enum = [] || p.type = .string) &&
    ((p.min.isNone && p.max.isNone) || p.type = .number) &&
    (! p.restricted || p.promises p.default) &&
    (! (p.required || p.restricted) || ! ["createdAt", "updatedAt", "__v"].contains p.name)

end SchemaPath

/-- The fields are what the schema declares. -/
def Conforms (S : Schema) (fields : Fields) : Prop :=
  ∀ k p, S.path k = some p → p.promises (fields k) = true

/-- A cast to a string or a number has this type; the empty string is cast to `null` for a
number. -/
structure Mongoose.Typed (M : Mongoose) : Prop where
  string : ∀ {v w}, v.nullish = false → M.cast .string v = some w → ∃ s, w = .str s
  number : ∀ {v w}, v.nullish = false → M.cast .number v = some w → w = .null ∨ ∃ n, w = .num n

theorem Mongoose.plain_typed : Mongoose.plain.Typed := by
  have hcast : ∀ {t v w}, Mongoose.plain.cast t v = some w → t.accepts v = true ∧ v = w := by
    intro t v w h
    exact (Option.ite_none_right_eq_some.mp h).imp_right Option.some.inj
  constructor
  · intro v w _ h
    obtain ⟨haccepts, rfl⟩ := hcast h
    cases v with
    | str s => exact ⟨s, rfl⟩
    | undefined | null | bool | num | date | arr | obj => cases haccepts
  · intro v w _ h
    obtain ⟨haccepts, rfl⟩ := hcast h
    cases v with
    | num n => exact .inr ⟨n, rfl⟩
    | undefined | null | bool | str | date | arr | obj => cases haccepts

/-! ## The bodies that keep the promise -/

/-- The object that a document is created from has no `null` at a restricted path. -/
def CreatesWithin (M : Mongoose) (S : Schema) (dto : Entries) : Prop :=
  ∀ k p, S.path k = some p → p.restricted = true →
    k ∉ dottedRoots dto ∧ ∀ v, (k, v) ∈ dto → p.set M v ≠ some .null

/-- The update has no operator and no dotted key for a required or restricted path, and a value
that the validators of the path accept where it has a plain key. A pipeline is judged by
its effect. -/
def UpdatesWithin (M : Mongoose) (S : Schema) (d : Doc) : Value → Prop
  | .arr stages => ∀ f fields, M.pipeline S stages = some f → f d.fields = some fields →
      Conforms S fields
  | body => ∀ k p, S.path k = some p → (p.required || p.restricted) = true →
      k ∉ mentions (operatorEntries body.entries) ∧ ∀ v w, (k, v) ∈ body.entries →
        p.set M v = some w → p.valid w = true ∧ (p.restricted = true → w.nullish = false)

/-! ## Casts and validators -/

variable {M : Mongoose} {S : Schema}

namespace SchemaPath

variable {p : SchemaPath} {v w x : Value}

/-- A value that is there has been cast. -/
theorem set_eq_some (hset : p.set M v = some w) (hw : w.nullish = false) :
    v.nullish = false ∧ ∃ u, M.cast p.type v = some u ∧ w = p.setters M u := by
  unfold set at hset
  split at hset
  · rename_i hv
    cases hset
    rw [hv] at hw
    cases hw
  · rename_i hv
    obtain ⟨u, hu, rfl⟩ := Option.map_eq_some_iff.mp hset
    exact ⟨by simpa using hv, u, hu, rfl⟩

theorem set_string (hM : M.Typed) (htype : p.type = .string) (hset : p.set M v = some w)
    (hw : w.nullish = false) : ∃ s, w = .str s := by
  obtain ⟨hv, u, hu, rfl⟩ := set_eq_some hset hw
  rw [htype] at hu
  obtain ⟨s, rfl⟩ := hM.string hv hu
  exact ⟨_, rfl⟩

theorem set_number (hM : M.Typed) (htype : p.type = .number) (hset : p.set M v = some w)
    (hw : w.nullish = false) : ∃ n, w = .num n := by
  obtain ⟨hv, u, hu, rfl⟩ := set_eq_some hset hw
  rw [htype] at hu
  rcases hM.number hv hu with rfl | ⟨n, rfl⟩
  · cases hw
  · exact ⟨n, rfl⟩

theorem promises_required (h : p.promises x = true) (hrequired : p.required = true) :
    x.nullish = false ∧ x ≠ .str "" := by
  simp only [promises, hrequired, Bool.and_eq_true, Bool.not_true, Bool.false_or] at h
  simpa using h.1.1

theorem promises_enum (h : p.promises x = true) (henum : p.enum ≠ []) : ∃ s ∈ p.enum, x = .str s := by
  simp only [promises, henum, Bool.and_eq_true, decide_false, Bool.false_or] at h
  simpa using h.1.2

theorem promises_bounds (h : p.promises x = true) {lo hi : ℚ} (hmin : p.min = some lo)
    (hmax : p.max = some hi) : ∃ n, x = .num n ∧ .fin lo ≤ n ∧ n ≤ .fin hi := by
  simp only [promises, hmin, Bool.and_eq_true, Option.isNone_some, Bool.false_and,
    Bool.false_or] at h
  cases x with
  | num n =>
    refine ⟨n, rfl, ?_⟩
    simpa [validNumber, hmin, hmax] using h.2
  | undefined | null | bool | str | date | arr | obj => cases h.2

/-- A path that is not restricted promises what its validator for missing values checks. -/
theorem promises_of_free (hfree : p.restricted = false) :
    p.promises x = (! p.required || (! x.nullish && x ≠ .str "")) := by
  simp only [restricted, Bool.or_eq_false_iff, decide_eq_false_iff_not, not_not,
    Option.isSome_eq_false_iff] at hfree
  obtain ⟨⟨henum, hmin⟩, hmax⟩ := hfree
  simp [promises, henum, hmin, hmax]

/-- Values of the right type that the validators accept are what is declared. -/
theorem promises_of_valid (hvalid : p.valid x = true) (hstring : p.enum ≠ [] → ∃ s, x = .str s)
    (hnumber : p.min.isSome = true ∨ p.max.isSome = true → ∃ n, x = .num n) :
    p.promises x = true := by
  unfold valid at hvalid
  obtain ⟨hrequired, hvalue⟩ := Bool.and_eq_true_iff.mp hvalid
  unfold promises
  rw [Bool.and_eq_true, Bool.and_eq_true]
  refine ⟨⟨hrequired, ?_⟩, ?_⟩
  · by_cases henum : p.enum = []
    · simp [henum]
    · obtain ⟨s, rfl⟩ := hstring henum
      simp only [henum, decide_false, Bool.false_or, Bool.and_eq_true] at hvalue ⊢
      simpa using hvalue.1
  · by_cases hbounds : p.min.isSome = true ∨ p.max.isSome = true
    · obtain ⟨n, rfl⟩ := hnumber hbounds
      simp only [hvalue, Bool.or_true]
    · simp only [not_or, Bool.not_eq_true, Option.isSome_eq_false_iff] at hbounds
      simp [hbounds.1, hbounds.2]

/-- A cast value that the validators accept is what is declared, unless `null` is. -/
theorem promises_of_set (hM : M.Typed) (hp : p.coherent = true) (hset : p.set M v = some w)
    (hvalid : p.valid w = true) (hw : p.restricted = true → w.nullish = false) :
    p.promises w = true := by
  simp only [coherent, Bool.and_eq_true, Bool.or_eq_true, decide_eq_true_eq,
    Option.isNone_iff_eq_none] at hp
  obtain ⟨⟨⟨hstring, hnumber⟩, -⟩, -⟩ := hp
  refine promises_of_valid hvalid ?_ ?_
  · intro henum
    exact set_string hM (hstring.resolve_left henum) hset (hw (by simp [restricted, henum]))
  · intro hbounds
    have htype : p.type = .number := by
      refine hnumber.resolve_left ?_
      rintro ⟨hmin, hmax⟩
      simp [hmin, hmax] at hbounds
    exact set_number hM htype hset (hw (by rcases hbounds with h | h <;> simp [restricted, h]))

end SchemaPath

/-! ## Writes -/

theorem path_mem {k : String} {p : SchemaPath} (hp : S.path k = some p) : p ∈ S ∧ p.name = k :=
  ⟨List.mem_of_find?_eq_some hp, by simpa using List.find?_some hp⟩

/-- The timestamps and the version key are not required or restricted. -/
theorem notMeta_of_coherent (hS : S.all SchemaPath.coherent = true) {k : String} {p : SchemaPath}
    (hp : S.path k = some p) (hdeclared : (p.required || p.restricted) = true) :
    k ∉ ["createdAt", "updatedAt", "__v"] := by
  obtain ⟨hmem, rfl⟩ := path_mem hp
  have hcoherent := List.all_eq_true.mp hS p hmem
  simp only [SchemaPath.coherent, hdeclared, Bool.and_eq_true] at hcoherent
  simpa using hcoherent.2

theorem construct_conforms (hM : M.Typed) (hS : S.all SchemaPath.coherent = true) {env : Env}
    {dto : Entries} {d : Doc} (hd : construct M S env dto = some d)
    (hvalid : validate S d.fields = true) (hdto : CreatesWithin M S dto) : Conforms S d.fields := by
  intro k p hp
  obtain ⟨hmem, hname⟩ := path_mem hp
  have hcoherent := List.all_eq_true.mp hS p hmem
  have hvalidPath : p.valid (d.fields k) = true := hname ▸ List.all_eq_true.mp hvalid p hmem
  by_cases hrestricted : p.restricted = true
  · obtain ⟨hdotted, hnull⟩ := hdto k p hp hrestricted
    have hnotMeta := notMeta_of_coherent hS hp (by rw [hrestricted, Bool.or_true])
    rcases construct_cases hd hp hdotted hnotMeta with hdefault | ⟨v, hv, hset, hdefined⟩
    · rw [hdefault]
      simp only [SchemaPath.coherent, hrestricted, Bool.and_eq_true] at hcoherent
      simpa using hcoherent.1.2
    · refine SchemaPath.promises_of_set hM hcoherent hset hvalidPath fun _ => ?_
      have hne : d.fields k ≠ .null := fun heq => hnull v hv (heq ▸ hset)
      revert hdefined hne
      cases d.fields k <;> simp [Value.nullish]
  · rw [SchemaPath.promises_of_free (by simpa using hrestricted)]
    exact (Bool.and_eq_true_iff.mp hvalidPath).1

/-- A path that is neither required nor restricted promises nothing. -/
theorem SchemaPath.promises_of_undeclared {p : SchemaPath}
    (h : (p.required || p.restricted) = false) (x : Value) : p.promises x = true := by
  obtain ⟨hrequired, hfree⟩ := Bool.or_eq_false_iff.mp h
  rw [promises_of_free hfree, hrequired]
  rfl

theorem Conforms.update (hM : M.Typed) (hS : S.all SchemaPath.coherent = true) {d : Doc}
    (h : Conforms S d.fields) {body : Value} (hbody : UpdatesWithin M S d body)
    {f : ObjectId → Fields → Option Fields} (hf : (Update.body body).compile M S = some f)
    {fields : Fields} (hfields : f d.id d.fields = some fields) : Conforms S fields := by
  have hobj : ∀ es : Entries, (∀ k p, S.path k = some p → (p.required || p.restricted) = true →
      k ∉ mentions (operatorEntries es) ∧ ∀ v w, (k, v) ∈ es → p.set M v = some w →
        p.valid w = true ∧ (p.restricted = true → w.nullish = false)) →
      compileObject M S es = some f → Conforms S fields := by
    intro es hes hcompile k p hp
    cases hdeclared : p.required || p.restricted with
    | false => exact p.promises_of_undeclared hdeclared _
    | true =>
      obtain ⟨hoperators, hplain⟩ := hes k p hp hdeclared
      rcases compileObject_cases hcompile hfields hoperators with hkeep | ⟨v, p', hv, hp', hset⟩
      · rw [hkeep]
        exact h k p hp
      · obtain rfl := Option.some.inj (hp.symm.trans hp')
        obtain ⟨hvalid, hw⟩ := hplain v _ hv hset
        have hcoherent := List.all_eq_true.mp hS p (path_mem hp).1
        exact SchemaPath.promises_of_set hM hcoherent hset hvalid hw
  cases body with
  | arr stages =>
    obtain ⟨g, hg, rfl⟩ := Option.map_eq_some_iff.mp hf
    exact hbody g fields hg hfields
  | undefined | null | bool | num | str | date | obj => exact hobj _ hbody hf

theorem Conforms.touch (hS : S.all SchemaPath.coherent = true) {fields : Fields}
    (h : Conforms S fields) (env : Env) (id : ObjectId) :
    Conforms S (touch env id fields).fields := by
  intro k p hp
  cases hdeclared : p.required || p.restricted with
  | false => exact p.promises_of_undeclared hdeclared _
  | true =>
    have hnotMeta := notMeta_of_coherent hS hp hdeclared
    rw [touch_of_ne (by rintro rfl; simp at hnotMeta)]
    exact h k p hp

/-- An update of one path with a value that is stored as it is. -/
theorem updatesWithin_single {key : String} (hplain : isPlainKey key = true) (d : Doc) {v : Value}
    (hv : ∀ p, S.path key = some p → (p.required || p.restricted) = true →
      p.set M v = some v ∧ p.valid v = true ∧ v.nullish = false) :
    UpdatesWithin M S d (.obj [(key, v)]) := by
  intro k p hp hdeclared
  constructor
  · simp [operatorEntries, hplain, mentions]
  · intro v' w hmem hset
    obtain ⟨rfl, rfl⟩ : k = key ∧ v' = v := by simpa using hmem
    obtain ⟨hset', hvalid, hnotNull⟩ := hv p hp hdeclared
    obtain rfl := Option.some.inj (hset'.symm.trans hset)
    exact ⟨hvalid, fun _ => hnotNull⟩

/-! ## Collections -/

/-- Every stored document is what the schema declares. -/
def AllConform (S : Schema) (c : Collection) : Prop := ∀ d ∈ c.docs, Conforms S d.fields

theorem AllConform.insert {c : Collection} (h : AllConform S c) {d : Doc} (hnew : c.get d.id = none)
    (hd : Conforms S d.fields) : AllConform S (c.insert d hnew) := by
  intro e he
  rcases List.mem_append.mp he with hold | hself
  · exact h e hold
  · obtain rfl := List.mem_singleton.mp hself
    exact hd

theorem AllConform.put {c : Collection} (h : AllConform S c) {d : Doc} (hd : Conforms S d.fields) :
    AllConform S (c.put d) := by
  intro e he
  rcases Collection.mem_put.mp he with ⟨hold, -⟩ | ⟨rfl, -⟩
  · exact h e hold
  · exact hd

end Mongo
