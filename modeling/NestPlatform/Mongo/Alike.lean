-- SUMMARY: Collections that are equal except in one field, and the operations that cannot tell them apart.
import Mathlib.Data.List.Forall2
import NestPlatform.Lib.Relational
import NestPlatform.Mongo.Update

/-!
# Collections alike except in one field

A field that no query selects shows in a result only if an update moves its value
elsewhere, or is refused because of it. Every other operation has the same results in two
collections that are equal except in that field.
-/
namespace Mongo

open Js Effect

/-! ## Alike except in one field -/

def AlikeFields (k : String) (x y : Fields) : Prop := ∀ l, l ≠ k → x l = y l

structure AlikeDoc (k : String) (d e : Doc) : Prop where
  id : d.id = e.id
  fields : AlikeFields k d.fields e.fields

abbrev AlikeDocs (k : String) : List Doc → List Doc → Prop := List.Forall₂ (AlikeDoc k)

def Alike (k : String) (c c' : Collection) : Prop := AlikeDocs k c.docs c'.docs

/-- The order of a scan and the window of a query without a sort do not depend on the field. -/
structure BlindTo (M : Mongoose) (k : String) : Prop where
  scan : ∀ {seed docs docs'}, AlikeDocs k docs docs' →
    AlikeDocs k (M.scan seed docs) (M.scan seed docs')
  window : ∀ {skip limit docs docs'}, AlikeDocs k docs docs' →
    Option.Rel (AlikeDocs k) (M.window { skip, limit } docs) (M.window { skip, limit } docs')

/-- Queries do not select the path, and it has no unique index. -/
structure Hides (S : Schema) (k : String) : Prop where
  unselected : ∃ p, S.path k = some p ∧ p.select = false
  unindexed : ∀ p ∈ S, p.unique = true → p.name ≠ k

/-- The update does the same to the rest of the documents that it selects, or is refused for
both. -/
def UpdatesAlike (M : Mongoose) (S : Schema) (k : String) (env : Env) (filter : Filter)
    (u : Update) (c c' : Collection) : Prop :=
  ∀ p f d e, filter.matcher M S = some p → u.compile M S = some f →
    (M.scan env.seed c.docs).find? p = some d → (M.scan env.seed c'.docs).find? p = some e →
    Option.Rel (AlikeFields k) (f d.id d.fields) (f e.id e.fields)

variable {M : Mongoose} {S : Schema} {k : String} {env : Env} {filter : Filter}
  {c c' : Collection} {d e : Doc} {docs docs' : List Doc} {p : Doc → Bool}

theorem rel_cases {α β : Type} {r : α → β → Prop} {a : Option α} {b : Option β}
    (h : Option.Rel r a b) : (a = none ∧ b = none) ∨ ∃ x y, a = some x ∧ b = some y ∧ r x y := by
  cases h with
  | none => exact .inl ⟨rfl, rfl⟩
  | some hxy => exact .inr ⟨_, _, rfl, rfl, hxy⟩

/-! ## Selecting -/

/-- A filter that does not name the field selects alike. -/
theorem matcher_alike (hp : filter.matcher M S = some p) (hk : k ∉ Entries.keys filter)
    (h : AlikeDoc k d e) : p d = p e := by
  induction filter generalizing p with
  | nil =>
    cases hp
    rfl
  | cons entry filter ih =>
    obtain ⟨l, v⟩ := entry
    simp only [Entries.keys, List.map_cons, List.mem_cons, not_or] at hk
    obtain ⟨rest, hrest, hcons⟩ := matcher_cons hp
    rcases hcons with ⟨-, here, hp⟩ | ⟨here, -, hp⟩
    · rw [hp, hp, h.id, ih hrest hk.2]
    · rw [hp, hp, h.fields l (Ne.symm hk.1), ih hrest hk.2]

theorem find?_alike (hp : ∀ {d e}, AlikeDoc k d e → p d = p e) (h : AlikeDocs k docs docs') :
    Option.Rel (AlikeDoc k) (docs.find? p) (docs'.find? p) := by
  induction h with
  | nil => exact .none
  | @cons d e docs docs' hde _ ih =>
    cases hd : p d with
    | true =>
      rw [List.find?_cons_of_pos hd, List.find?_cons_of_pos ((hp hde).symm.trans hd)]
      exact .some hde
    | false =>
      rw [List.find?_cons_of_neg (by simp [hd]), List.find?_cons_of_neg (by simp [← hp hde, hd])]
      exact ih

theorem filter_alike (hp : ∀ {d e}, AlikeDoc k d e → p d = p e) (h : AlikeDocs k docs docs') :
    AlikeDocs k (docs.filter p) (docs'.filter p) :=
  List.rel_filter (fun _ _ hde => iff_of_eq (congrArg (· = true) (hp hde))) h

theorem get_alike (h : Alike k c c') (id : ObjectId) :
    Option.Rel (AlikeDoc k) (c.get id) (c'.get id) :=
  find?_alike (fun hde => by rw [hde.id]) h

/-- A scan finds alike documents. -/
theorem scan_alike (hM : BlindTo M k) (hp : filter.matcher M S = some p)
    (hk : k ∉ Entries.keys filter) (h : Alike k c c') (seed : ℕ) :
    Option.Rel (AlikeDoc k) ((M.scan seed c.docs).find? p) ((M.scan seed c'.docs).find? p) :=
  find?_alike (matcher_alike hp hk) (hM.scan h)

/-! ## Results -/

theorem hydrate_alike (plus : List String) (h : AlikeDoc k d e) :
    AlikeDoc k (hydrate S plus d) (hydrate S plus e) :=
  ⟨h.id, fun l hl => hydrate_congr (h.fields l hl)⟩

/-- A result does not have the field. -/
theorem hydrate_eq (hS : Hides S k) (h : AlikeDoc k d e) : hydrate S [] d = hydrate S [] e := by
  have hfields : (hydrate S [] d).fields = (hydrate S [] e).fields := by
    funext l
    by_cases hl : l = k
    · subst hl
      obtain ⟨q, hq, hselect⟩ := hS.unselected
      simp [hydrate, hq, hselect]
    · exact (hydrate_alike [] h).fields l hl
  calc hydrate S [] d = ⟨d.id, (hydrate S [] d).fields⟩ := rfl
    _ = ⟨e.id, (hydrate S [] e).fields⟩ := by rw [h.id, hfields]
    _ = hydrate S [] e := rfl

theorem findOne_alike (hM : BlindTo M k) (hk : k ∉ Entries.keys filter) (plus : List String)
    (h : Alike k c c') :
    Outcomes (Option.Rel (AlikeDoc k)) (findOne M S env filter plus c)
      (findOne M S env filter plus c') := by
  unfold findOne
  cases hp : filter.matcher M S with
  | none => exact .error _
  | some p =>
    dsimp only
    refine .ok ?_
    rcases rel_cases (scan_alike hM hp hk h env.seed) with ⟨hc, hc'⟩ | ⟨d, e, hc, hc', hde⟩
    · rw [hc, hc']
      exact .none
    · rw [hc, hc']
      exact .some (hydrate_alike plus hde)

theorem findOne_eq (hM : BlindTo M k) (hS : Hides S k) (hk : k ∉ Entries.keys filter)
    (h : Alike k c c') : findOne M S env filter [] c = findOne M S env filter [] c' := by
  unfold findOne
  cases hp : filter.matcher M S with
  | none => rfl
  | some p =>
    dsimp only
    rcases rel_cases (scan_alike hM hp hk h env.seed) with ⟨hc, hc'⟩ | ⟨d, e, hc, hc', hde⟩
    · rw [hc, hc']
    · rw [hc, hc', Option.map_some, Option.map_some, hydrate_eq hS hde]

theorem map_hydrate_eq (hS : Hides S k) (h : AlikeDocs k docs docs') :
    docs.map (hydrate S []) = docs'.map (hydrate S []) := by
  induction h with
  | nil => rfl
  | cons hde _ ih => rw [List.map_cons, List.map_cons, hydrate_eq hS hde, ih]

theorem find_eq (hM : BlindTo M k) (hS : Hides S k) (hk : k ∉ Entries.keys filter)
    (h : Alike k c c') (skip limit : Value) :
    find M S env filter { skip, limit } c = find M S env filter { skip, limit } c' := by
  unfold find
  cases hp : filter.matcher M S with
  | none => rfl
  | some p =>
    dsimp only
    have hscan : AlikeDocs k (M.scan env.seed (c.docs.filter p)) (M.scan env.seed (c'.docs.filter p)) :=
      hM.scan (filter_alike (matcher_alike hp hk) h)
    rcases rel_cases (hM.window hscan) with ⟨hc, hc'⟩ | ⟨docs, docs', hc, hc', hdocs⟩
    · rw [hc, hc']
    · rw [hc, hc']
      exact congrArg Except.ok (map_hydrate_eq hS hdocs)

theorem countDocuments_eq (hk : k ∉ Entries.keys filter) (h : Alike k c c') :
    countDocuments M S filter c = countDocuments M S filter c' := by
  unfold countDocuments
  cases hp : filter.matcher M S with
  | none => rfl
  | some p =>
    have hlength := (filter_alike (matcher_alike hp hk) h).length_eq
    simp only [List.countP_eq_length_filter, hlength]

/-! ## Writes -/

theorem uniqueOk_alike (hS : Hides S k) (h : Alike k c c') (hde : AlikeDoc k d e) :
    uniqueOk S c d = uniqueOk S c' e := by
  have hclash : ∀ {x y : Doc}, AlikeDoc k x y →
      (S.all fun p => ! p.unique || ! same (x.fields p.name) (d.fields p.name)) =
        S.all fun p => ! p.unique || ! same (y.fields p.name) (e.fields p.name) := by
    intro x y hxy
    rw [Bool.eq_iff_iff, List.all_eq_true, List.all_eq_true]
    refine forall₂_congr fun p hp => ?_
    cases hunique : p.unique with
    | false => exact Iff.rfl
    | true =>
      have hname := hS.unindexed p hp hunique
      rw [hxy.fields _ hname, hde.fields _ hname]
  have hall : ∀ {docs docs' : List Doc}, AlikeDocs k docs docs' →
      (docs.all fun x => decide (x.id = d.id) ||
          S.all fun p => ! p.unique || ! same (x.fields p.name) (d.fields p.name)) =
        docs'.all fun y => decide (y.id = e.id) ||
          S.all fun p => ! p.unique || ! same (y.fields p.name) (e.fields p.name) := by
    intro docs docs' hdocs
    induction hdocs with
    | nil => rfl
    | cons hxy _ ih => rw [List.all_cons, List.all_cons, hclash hxy, hxy.id, hde.id, ← ih, hde.id]
  exact hall h

theorem put_alike (h : Alike k c c') (hde : AlikeDoc k d e) : Alike k (c.put d) (c'.put e) := by
  refine List.rel_map (fun x y hxy => ?_) h
  rw [hxy.id, hde.id]
  split
  · exact hde
  · exact hxy

theorem insert_alike (h : Alike k c c') (hnew : c.get d.id = none) (hnew' : c'.get d.id = none) :
    Alike k (c.insert d hnew) (c'.insert d hnew') :=
  List.rel_append h (.cons ⟨rfl, fun _ _ => rfl⟩ .nil)

theorem touch_alike {id : ObjectId} {x y : Fields} (h : AlikeFields k x y) :
    AlikeDoc k (touch env id x) (touch env id y) := by
  refine ⟨rfl, fun l hl => ?_⟩
  by_cases hl' : l = "updatedAt"
  · subst hl'
    rfl
  · change Function.update x "updatedAt" _ l = Function.update y "updatedAt" _ l
    rw [Function.update_of_ne hl', Function.update_of_ne hl']
    exact h l hl

/-- A document that is created does not depend on what is stored. -/
theorem create_alike (hS : Hides S k) (dto : Entries) (h : Alike k c c') :
    Outcomes (fun r r' => r.1 = r'.1 ∧ Alike k r.2 r'.2) (create M S env dto c)
      (create M S env dto c') := by
  unfold create
  cases construct M S env dto with
  | none => exact .error _
  | some d =>
    dsimp only
    have hunique : uniqueOk S c d = uniqueOk S c' d := uniqueOk_alike hS h ⟨rfl, fun _ _ => rfl⟩
    rw [hunique]
    split
    · rcases rel_cases (get_alike h d.id) with ⟨hc, hc'⟩ | ⟨x, y, hc, hc', -⟩
      · rw [dif_pos hc, dif_pos hc']
        split
        · exact .ok ⟨rfl, insert_alike h hc hc'⟩
        · exact .error _
      · rw [dif_neg (by simp [hc]), dif_neg (by simp [hc'])]
        exact .error _
    · exact .error _

/-- What an update leaves is alike, if it updates alike. -/
theorem update_alike (hM : BlindTo M k) (hS : Hides S k) (hk : k ∉ Entries.keys filter)
    {u : Update} (h : Alike k c c') (hu : UpdatesAlike M S k env filter u c c') :
    Outcomes (fun r r' => Option.Rel (AlikeDoc k) r.1 r'.1 ∧ Alike k r.2 r'.2)
      (update M S env filter u c) (update M S env filter u c') := by
  unfold update
  cases hp : filter.matcher M S with
  | none => exact .error _
  | some p =>
    cases hf : u.compile M S with
    | none => exact .error _
    | some f =>
      dsimp only
      rcases rel_cases (scan_alike hM hp hk h env.seed) with ⟨hc, hc'⟩ | ⟨d, e, hc, hc', hde⟩
      · rw [hc, hc']
        exact .ok ⟨.none, h⟩
      · rw [hc, hc']
        dsimp only
        rcases rel_cases (hu p f d e hp hf hc hc') with ⟨hd, he⟩ | ⟨x, y, hd, he, hxy⟩
        · rw [hd, he]
          exact .error _
        · rw [hd, he, hde.id]
          dsimp only
          have htouch : AlikeDoc k (touch env e.id x) (touch env e.id y) := touch_alike hxy
          rw [uniqueOk_alike hS h htouch]
          split
          · exact .ok ⟨.some htouch, put_alike h htouch⟩
          · exact .error _

/-- The document that an update returns is the same. -/
theorem findOneAndUpdate_alike (hM : BlindTo M k) (hS : Hides S k) (hk : k ∉ Entries.keys filter)
    {u : Update} (h : Alike k c c') (hu : UpdatesAlike M S k env filter u c c') :
    Outcomes (fun r r' => r.1 = r'.1 ∧ Alike k r.2 r'.2) (findOneAndUpdate M S env filter u c)
      (findOneAndUpdate M S env filter u c') := by
  refine (update_alike hM hS hk h hu).map ?_
  rintro ⟨r, c₁⟩ ⟨r', c₁'⟩ ⟨hr, hc₁⟩
  refine ⟨?_, hc₁⟩
  cases hr with
  | none => rfl
  | some hde => exact congrArg some (hydrate_eq hS hde)

/-! ## Updates that cannot move the field -/

theorem assign_alike {x y : Fields} (h : AlikeFields k x y) (sets : Entries) :
    AlikeFields k (x.assign sets) (y.assign sets) := by
  intro l hl
  by_cases hset : l ∈ Entries.keys sets
  · exact Fields.assign_congr x y hset
  · rw [Fields.assign_of_notMem hset, Fields.assign_of_notMem hset, h l hl]

/-- An object of plain keys updates alike, also when it sets the field. -/
theorem updatesAlike_of_plain (hM : BlindTo M k) (hk : k ∉ Entries.keys filter) {body : Entries}
    (hplain : (Entries.keys body).all isPlainKey = true) (h : Alike k c c') :
    UpdatesAlike M S k env filter (.body (.obj body)) c c' := by
  intro p f d e hp hf hd he
  have hfound := scan_alike hM hp hk h env.seed
  rw [hd, he] at hfound
  cases hfound with
  | some hde =>
    simp only [Update.compile, compileObject, compileOperators, Value.entries_obj, hplain, if_true,
      Option.bind_eq_bind, Option.bind_eq_some_iff, Option.some.injEq, exists_eq_left'] at hf
    obtain ⟨sets, -, idOk, -, rfl⟩ := hf
    dsimp only
    rw [hde.id]
    by_cases hid : idOk e.id = true
    · rw [if_pos hid, if_pos hid]
      exact .some (assign_alike hde.fields sets)
    · rw [if_neg hid, if_neg hid]
      exact .none

end Mongo
