-- SUMMARY: What the repository does with a soft-deleted document.
import NestPlatform.Database.AbstractRepository

/-!
# Soft deletion

A soft delete sets `deletedAt`. Lists with `deletedAt: null` answer as if the document
were gone; an operation that selects one document touches no other.
-/
namespace Database

open Js Mongo Nest Effect

variable {M : Mongoose} {S : Schema} {env : Env} {c : Collection} {d : Doc}

/-- `@Prop({ default: null }) deletedAt?: Date` -/
def HasDeletedAt (S : Schema) : Prop :=
  S.path "deletedAt" = some { name := "deletedAt", type := .date, default := .null }

/-- The collection has `d`, and it is deleted. -/
structure Deleted (c : Collection) (d : Doc) : Prop where
  stored : c.get d.id = some d
  deleted : (d.fields "deletedAt").nullish = false

/-! ## Deleting -/

theorem set_deletedAt (now : ℤ) :
    ({ name := "deletedAt", type := .date, default := .null } : SchemaPath).set M (.date now) =
      some (.date now) := by
  simp [SchemaPath.set, Value.nullish, M.cast_accepts (t := .date) (v := .date now) rfl,
    SchemaPath.setters]

/-- A soft delete that succeeds leaves a deleted document behind. -/
theorem deleted_of_softDelete (hS : HasDeletedAt S) {filterQuery : Filter} {c' : Collection}
    {r : Doc} (h : (AbstractRepository.softDelete M S env filterQuery).exec c = (.ok r, c')) :
    ∃ d, d.id = r.id ∧ Deleted c' d := by
  rcases AbstractRepository.exec_findOneAndUpdate h with
    ⟨-, e, he⟩ | ⟨p, f, d, fields, -, hf, hd, hfields, hr, rfl⟩
  · cases he
  · cases hr
    have hget := Collection.get_of_mem (find?_scan_eq_some hd).1
    refine ⟨touch env d.id fields, rfl, get_put_touch hget env fields, ?_⟩
    have hmentions : "deletedAt" ∉ mentions (operatorEntries [("deletedAt", .date env.now)]) := by
      have hempty : operatorEntries [("deletedAt", .date env.now)] = [] := by
        have hplain : isPlainKey "deletedAt" = true := by decide
        simp [operatorEntries, hplain]
      simp [hempty, mentions]
    have hset := compileObject_plain hf hfields (by simp [Entries.keys]) (List.mem_singleton_self _)
      (by decide) hS hmentions
    rw [set_deletedAt] at hset
    rw [touch_of_ne (by decide), ← Option.some.inj hset]
    rfl

/-! ## Lists of undeleted documents -/

theorem matcher_live (hS : HasDeletedAt S) {filterQuery : Filter} {p : Doc → Bool}
    (hp : Filter.matcher M S (filterQuery ++ [("deletedAt", .null)]) = some p) (h : p d = true) :
    (d.fields "deletedAt").nullish = true := by
  have hfield : fieldMatcher M S "deletedAt" .null = some (same .null) := by
    unfold fieldMatcher
    rw [hS]
    rfl
  obtain ⟨here, hhere, hmatch⟩ := matcher_mem hp h
    (List.mem_append_right filterQuery (List.mem_singleton_self _)) (by decide)
  obtain rfl := Option.some.inj (hfield.symm.trans hhere)
  cases hvalue : d.fields "deletedAt" <;> simp [hvalue, same, Value.nullish] at hmatch ⊢

/-- A predicate that rejects a document does not see whether the collection has it. -/
theorem filter_erase (h : c.get d.id = some d) {p : Doc → Bool} (hp : p d = false) :
    (c.erase d.id).docs.filter p = c.docs.filter p := by
  unfold Collection.erase
  rw [List.filter_filter]
  apply List.filter_congr
  intro e he
  by_cases hid : e.id = d.id
  · obtain rfl : e = d := Collection.eq_of_id he (Collection.mem_of_get h) hid
    simp [hp]
  · simp [hid]

/-- A list of undeleted documents answers as if a deleted document were gone. -/
theorem exec_findLive_erase (hS : HasDeletedAt S) (h : Deleted c d) (filterQuery : Filter)
    (sort : List (String × Bool)) (skip limit : Value) :
    ((AbstractRepository.findLive M S env filterQuery sort skip limit).exec (c.erase d.id)).1 =
      ((AbstractRepository.findLive M S env filterQuery sort skip limit).exec c).1 := by
  refine AbstractRepository.exec_findPage_congr fun p hp => filter_erase h.stored ?_
  apply Bool.eq_false_iff.mpr
  intro hpd
  have hlive := matcher_live hS hp hpd
  rw [h.deleted] at hlive
  cases hlive

/-- A list has only documents of the collection. -/
theorem mem_of_findPage {filterQuery : Filter} {options : QueryOptions} {page : Page}
    (h : ((AbstractRepository.findPage M S env filterQuery options).exec c).1 = .ok page) :
    ∀ r ∈ page.items, ∃ e ∈ c.docs, e.id = r.id := by
  unfold AbstractRepository.findPage AbstractRepository.find AbstractRepository.countDocuments at h
  rw [exec_bind, exec_query] at h
  cases hfind : Mongo.find M S env filterQuery options c with
  | error fault => simp [hfind] at h
  | ok items =>
    simp only [hfind] at h
    rw [exec_bind, exec_query] at h
    have hitems : page.items = items := by
      cases hcount : Mongo.countDocuments M S filterQuery c with
      | error fault => simp [hcount] at h
      | ok total =>
        simp only [hcount, exec_pure, Except.ok.injEq] at h
        rw [← h]
    intro r hr
    rw [hitems] at hr
    obtain ⟨p, -, hall⟩ := find_eq_ok hfind
    obtain ⟨e, he, -, rfl⟩ := hall r hr
    exact ⟨e, he, rfl⟩

/-- A list of undeleted documents does not have a deleted one. -/
theorem findLive_misses (hS : HasDeletedAt S) (h : Deleted c d) {filterQuery : Filter}
    {sort : List (String × Bool)} {skip limit : Value} {page : Page}
    (hpage : ((AbstractRepository.findLive M S env filterQuery sort skip limit).exec c).1 =
      .ok page) : ∀ r ∈ page.items, r.id ≠ d.id := by
  rw [← exec_findLive_erase hS h] at hpage
  intro r hr
  obtain ⟨e, he, hid⟩ := mem_of_findPage hpage r hr
  have hne := (List.mem_filter.mp he).2
  simpa [hid] using hne

/-! ## Operations on other documents -/

/-- The filter selects first no document with the given id. -/
def Misses (M : Mongoose) (S : Schema) (env : Env) (c : Collection) (filterQuery : Filter)
    (id : ObjectId) : Prop :=
  ∀ p d, filterQuery.matcher M S = some p → (M.scan env.seed c.docs).find? p = some d → d.id ≠ id

/-- Run on `c`, the action leaves the document with the given id as it is and does not
return it. -/
structure Leaves {α : Type} (c : Collection) (id : ObjectId) (docs : α → List Doc)
    (x : Store α) : Prop where
  unchanged : (x.exec c).2.get id = c.get id
  notReturned : ∀ a, (x.exec c).1 = .ok a → ∀ r ∈ docs a, r.id ≠ id

namespace Leaves

variable {α β : Type} {id : ObjectId} {docs : α → List Doc} {docs' : β → List Doc}
  {filterQuery : Filter}

theorem pure {a : α} (ha : ∀ r ∈ docs a, r.id ≠ id) : Leaves c id docs (pure a) := by
  refine ⟨rfl, ?_⟩
  intro a' ha'
  cases ha'
  exact ha

theorem throw (e : Thrown) : Leaves c id docs (throw e : Store α) := by
  refine ⟨rfl, ?_⟩
  intro a ha
  cases ha

theorem map {x : Store α} (h : Leaves c id docs x) {f : α → β}
    (hf : ∀ a, (docs' (f a)).map Doc.id ⊆ (docs a).map Doc.id) : Leaves c id docs' (f <$> x) := by
  refine ⟨?_, ?_⟩
  · rw [exec_map]
    exact h.unchanged
  · intro b hb r hr
    rw [exec_map] at hb
    cases hx : (x.exec c).1 with
    | error e =>
      rw [hx] at hb
      cases hb
    | ok a =>
      rw [hx] at hb
      cases hb
      obtain ⟨r', hr', hid⟩ := List.mem_map.mp (hf a (List.mem_map_of_mem hr))
      rw [← hid]
      exact h.notReturned a hx r' hr'

theorem findOne (h : Misses M S env c filterQuery id) :
    Leaves c id Option.toList (AbstractRepository.findOne M S env filterQuery) := by
  refine ⟨by rw [AbstractRepository.exec_findOne], ?_⟩
  intro doc hdoc r hr
  unfold AbstractRepository.findOne at hdoc
  rw [exec_query] at hdoc
  cases hone : Mongo.findOne M S env filterQuery [] c with
  | error fault => simp [hone] at hdoc
  | ok doc' =>
    simp only [hone, Except.ok.injEq] at hdoc
    obtain rfl : doc' = some r := hdoc.trans (Option.mem_toList.mp hr)
    obtain ⟨p, d, hp, hd, rfl⟩ := findOne_eq_some hone
    exact h p d hp hd

theorem findOneAndUpdate (h : Misses M S env c filterQuery id) (u : Update) :
    Leaves c id (fun d => [d]) (AbstractRepository.findOneAndUpdate M S env filterQuery u) := by
  cases hexec : (AbstractRepository.findOneAndUpdate M S env filterQuery u).exec c with
  | mk result c' =>
    rcases AbstractRepository.exec_findOneAndUpdate hexec with
      ⟨rfl, e, rfl⟩ | ⟨p, f, d, fields, hp, -, hd, -, rfl, rfl⟩
    · refine ⟨by rw [hexec], ?_⟩
      intro a ha
      rw [hexec] at ha
      cases ha
    · have hne : d.id ≠ id := h p d hp hd
      refine ⟨?_, ?_⟩
      · rw [hexec]
        exact Collection.get_put_ne (d := touch env d.id fields) hne.symm
      · intro a ha r hr
        rw [hexec] at ha
        cases ha
        obtain rfl := List.mem_singleton.mp hr
        exact hne

/-- A new document does not have the id of a stored one. -/
theorem create (h : c.get id = some d) (createDto : Entries) :
    Leaves c id (fun d => [d]) (AbstractRepository.create M S env createDto) := by
  cases hexec : (AbstractRepository.create M S env createDto).exec c with
  | mk result c' =>
    rcases AbstractRepository.exec_create hexec with ⟨rfl, e, rfl⟩ | ⟨e, hnew, -, -, rfl, rfl⟩
    · refine ⟨by rw [hexec], ?_⟩
      intro a ha
      rw [hexec] at ha
      cases ha
    · have hne : id ≠ e.id := by
        rintro rfl
        rw [h] at hnew
        cases hnew
      refine ⟨?_, ?_⟩
      · rw [hexec]
        exact Collection.get_insert_ne (h := hnew) hne
      · intro a ha r hr
        rw [hexec] at ha
        cases ha
        obtain rfl := List.mem_singleton.mp hr
        exact hne.symm

/-- After a query, the rest of the action starts where the query started. -/
theorem bind_query {x : Store β} {f : β → Store α} (hx : Leaves c id docs' x)
    (hkeep : (x.exec c).2 = c)
    (hf : ∀ b, (∀ r ∈ docs' b, r.id ≠ id) → Leaves c id docs (f b)) :
    Leaves c id docs (x >>= f) := by
  have hreturned := hx.notReturned
  cases hexec : x.exec c with
  | mk result c' =>
    rw [hexec] at hkeep hreturned
    obtain rfl : c' = c := hkeep
    cases result with
    | error e =>
      refine ⟨by rw [exec_bind_error hexec], ?_⟩
      intro a ha
      rw [exec_bind_error hexec] at ha
      cases ha
    | ok b =>
      have hrest := hf b (hreturned b rfl)
      refine ⟨by rw [exec_bind_ok hexec, hrest.unchanged], ?_⟩
      intro a ha
      rw [exec_bind_ok hexec] at ha
      exact hrest.notReturned a ha

theorem findById {v : Value} (h : Misses M S env c (byId v) id) :
    Leaves c id (fun d => [d]) (AbstractRepository.findById M S env v) := by
  unfold AbstractRepository.findById
  apply bind_query (findOne h) (AbstractRepository.exec_findOne _ _)
  intro doc hdoc
  cases doc with
  | none => exact throw _
  | some d => exact pure hdoc

theorem findLive (hS : HasDeletedAt S) (h : Deleted c d) (filterQuery : Filter)
    (sort : List (String × Bool)) (skip limit : Value) :
    Leaves c d.id Page.items (AbstractRepository.findLive M S env filterQuery sort skip limit) :=
  ⟨congrArg (·.get d.id) (AbstractRepository.exec_findPage _ _ _),
    fun _ hpage => findLive_misses hS h hpage⟩

end Leaves
end Database
