-- SUMMARY: Updates that can be made again: collections that differ only in when something was done.
import NestPlatform.Database.SoftDelete
import NestPlatform.Lib.Retry

/-!
# Repeated updates

An update of plain paths sets them to the same values whenever it is made, and only the times that
it leaves behind differ. `Repeats` says so of a family of edits, one for each time; it carries over
to the collection that the edited document is in, unique paths included.
-/
namespace Database

open Js Mongo Effect Transition

/-! ## Up to the time -/

/-- The same value, but for the time of the last update and that of a deletion. -/
inductive SameStamp (k : String) : Value → Value → Prop where
  | same (v : Value) : SameStamp k v v
  | updated (v w : Value) : k = "updatedAt" → SameStamp k v w
  | deleted (m n : ℤ) : k = "deletedAt" → SameStamp k (.date m) (.date n)

def SameButStamps (x y : Fields) : Prop := ∀ k, SameStamp k (x k) (y k)

/-- The same documents, up to the times in them. -/
def SameDocs (c c' : Collection) : Prop :=
  ∀ id, Option.Rel (fun d d' => SameButStamps d.fields d'.fields) (c.get id) (c'.get id)

theorem SameStamp.symm {k : String} {v w : Value} (h : SameStamp k v w) : SameStamp k w v := by
  cases h with
  | same => exact .same _
  | updated v w hk => exact .updated w v hk
  | deleted m n hk => exact .deleted n m hk

theorem SameStamp.trans {k : String} {u v w : Value} (h : SameStamp k u v) (h' : SameStamp k v w) :
    SameStamp k u w := by
  cases h with
  | same => exact h'
  | updated u v hk => exact .updated u w hk
  | deleted m n hk =>
    cases h' with
    | same => exact .deleted m n hk
    | updated v w hk' => exact .updated _ w hk'
    | deleted _ l _ => exact .deleted m l hk

/-- Other paths have the same values. -/
theorem SameStamp.eq {k : String} {v w : Value} (h : SameStamp k v w)
    (hk : k ∉ ["updatedAt", "deletedAt"]) : v = w := by
  cases h with
  | same => rfl
  | updated v w hupdated => simp [hupdated] at hk
  | deleted m n hdeleted => simp [hdeleted] at hk

namespace SameButStamps

variable {x y z : Fields}

theorem refl (x : Fields) : SameButStamps x x := fun _ => .same _

theorem symm (h : SameButStamps x y) : SameButStamps y x := fun k => (h k).symm

theorem trans (h : SameButStamps x y) (h' : SameButStamps y z) : SameButStamps x z :=
  fun k => (h k).trans (h' k)

theorem assign (h : SameButStamps x y) (sets : Entries) :
    SameButStamps (Fields.assign x sets) (Fields.assign y sets) := by
  intro k
  by_cases hk : k ∈ Entries.keys sets
  · rw [Fields.assign_congr x y hk]
    exact .same _
  · rw [Fields.assign_of_notMem hk, Fields.assign_of_notMem hk]
    exact h k

/-- Assigning the same once more changes nothing. -/
theorem assign_again {sets : Entries} (h : SameButStamps z (Fields.assign x sets)) :
    SameButStamps (Fields.assign z sets) (Fields.assign x sets) := by
  intro k
  by_cases hk : k ∈ Entries.keys sets
  · rw [Fields.assign_congr z x hk]
    exact .same _
  · rw [Fields.assign_of_notMem hk]
    exact h k

/-- A document that is written gets a time, and no more. -/
theorem touch (x : Fields) (env : Env) (id : ObjectId) :
    SameButStamps (Mongo.touch env id x).fields x := by
  intro k
  by_cases hk : k = "updatedAt"
  · exact .updated _ _ hk
  · rw [touch_of_ne hk]
    exact .same _

theorem assign_deletedAt (x : Fields) (m n : ℤ) :
    SameButStamps (Fields.assign x [("deletedAt", .date m)])
      (Fields.assign x [("deletedAt", .date n)]) := by
  intro k
  by_cases hk : k = "deletedAt"
  · subst hk
    exact .deleted m n rfl
  · have hother : k ∉ ["deletedAt"] := by simpa using hk
    rw [Fields.assign_of_notMem hother, Fields.assign_of_notMem hother]
    exact .same _

end SameButStamps

namespace SameDocs

variable {c c' c'' : Collection}

theorem refl (c : Collection) : SameDocs c c := by
  intro id
  cases c.get id with
  | none => exact .none
  | some d => exact .some (.refl _)

theorem symm (h : SameDocs c c') : SameDocs c' c := by
  intro id
  have hid := h id
  generalize c.get id = x at hid ⊢
  generalize c'.get id = y at hid ⊢
  cases hid with
  | none => exact .none
  | some hfields => exact .some hfields.symm

theorem trans (h : SameDocs c c') (h' : SameDocs c' c'') : SameDocs c c'' := by
  intro id
  have hid := h id
  have hid' := h' id
  generalize c.get id = x at hid ⊢
  generalize c'.get id = y at hid hid'
  generalize c''.get id = z at hid' ⊢
  cases hid with
  | none => exact hid'
  | some hfields =>
    cases hid' with
    | some hfields' => exact .some (hfields.trans hfields')

end SameDocs

theorem SameDocs.equivalence : Equivalence SameDocs := ⟨.refl, .symm, .trans⟩

/-- A document on one side has its like on the other. -/
theorem SameDocs.like {c c' : Collection} (h : SameDocs c c') {id : ObjectId} {d' : Doc}
    (hd' : c'.get id = some d') : ∃ d, c.get id = some d ∧ SameButStamps d.fields d'.fields := by
  have hid := h id
  rw [hd'] at hid
  generalize c.get id = x at hid ⊢
  cases hid with
  | some hfields => exact ⟨_, rfl, hfields⟩

/-! ## Unique paths -/

/-- No unique path is a time. -/
def UniqueAside (S : Schema) : Prop :=
  ∀ p ∈ S, p.unique = true → p.name ∉ ["updatedAt", "deletedAt"]

theorem uniqueOk_congr {S : Schema} (hS : UniqueAside S) {c c' : Collection} (hc : SameDocs c c')
    {d d' : Doc} (hid : d.id = d'.id) (hfields : SameButStamps d.fields d'.fields)
    (h : uniqueOk S c d = true) : uniqueOk S c' d' = true := by
  refine List.all_eq_true.mpr fun e' he' => ?_
  obtain ⟨e, he, hlike⟩ := hc.like (Collection.get_of_mem he')
  have hclash := List.all_eq_true.mp h e (Collection.mem_of_get he)
  rw [Collection.id_of_get he, hid] at hclash
  rw [Bool.or_eq_true] at hclash ⊢
  cases hclash with
  | inl hsame => exact .inl hsame
  | inr hother =>
    refine .inr (List.all_eq_true.mpr fun p hp => ?_)
    have hpath := List.all_eq_true.mp hother p hp
    cases hunique : p.unique with
    | false => rfl
    | true =>
      have haside := hS p hp hunique
      rw [hunique, (hlike p.name).eq haside, (hfields p.name).eq haside] at hpath
      exact hpath

/-! ## Edits -/

/-- An edit of one document, made at the time of `env`, unless it is refused. -/
def rewrite (S : Schema) (env : Env) (id : ObjectId) (edit : Fields → Option Fields)
    (c : Collection) : Collection :=
  match (c.get id).bind fun d => edit d.fields with
  | some fields => if uniqueOk S c (touch env id fields) then c.put (touch env id fields) else c
  | none => c

/-- Whenever the edit is made, it does the same, and made again it does no more. -/
structure Repeats (edit : Env → Fields → Option Fields) : Prop where
  congr : ∀ i j x y, SameButStamps x y → Option.Rel SameButStamps (edit i x) (edit j y)
  absorb : ∀ i j x y z, edit i x = some y → SameButStamps z y →
    edit j z = none ∨ ∃ w, edit j z = some w ∧ SameButStamps w y

section

variable {S : Schema} {env env' : Env} {id : ObjectId} {edit : Fields → Option Fields}
variable {c c' : Collection} {d d' : Doc} {x y : Fields}

theorem rewrite_of_none (h : c.get id = none) : rewrite S env id edit c = c := by
  unfold rewrite
  rw [h]
  rfl

theorem rewrite_of_refused (hd : c.get id = some d) (h : edit d.fields = none) :
    rewrite S env id edit c = c := by
  unfold rewrite
  rw [hd, Option.bind_some, h]

theorem rewrite_of_edited (hd : c.get id = some d) (h : edit d.fields = some x) :
    rewrite S env id edit c =
      if uniqueOk S c (touch env id x) then c.put (touch env id x) else c := by
  unfold rewrite
  rw [hd, Option.bind_some, h]

/-- Two versions of a document that differ in their times. -/
theorem touch_like (h : SameButStamps x y) (env env' : Env) :
    SameButStamps (touch env id x).fields (touch env' id y).fields :=
  (SameButStamps.touch x env id).trans (h.trans (SameButStamps.touch y env' id).symm)

theorem uniqueOk_touch (hS : UniqueAside S) (hc : SameDocs c c') (hxy : SameButStamps x y) :
    uniqueOk S c (touch env id x) = uniqueOk S c' (touch env' id y) := by
  rw [Bool.eq_iff_iff]
  constructor
  · exact uniqueOk_congr hS hc rfl (touch_like hxy env env')
  · exact uniqueOk_congr hS hc.symm rfl (touch_like hxy.symm env' env)

theorem SameDocs.put (h : SameDocs c c') (hd : c.get id = some d) (hd' : c'.get id = some d')
    (hxy : SameButStamps x y) :
    SameDocs (c.put (touch env id x)) (c'.put (touch env' id y)) := by
  intro id'
  by_cases hid : id' = id
  · subst hid
    rw [get_put_touch hd env x, get_put_touch hd' env' y]
    exact .some (touch_like hxy env env')
  · rw [Collection.get_put_ne (d := touch env id x) hid,
      Collection.get_put_ne (d := touch env' id y) hid]
    exact h id'

/-- A document is written over with its like. -/
theorem SameDocs.put_again (hd : c.get id = some d) (h : SameButStamps x d.fields) :
    SameDocs (c.put (touch env id x)) c := by
  intro id'
  by_cases hid : id' = id
  · subst hid
    rw [get_put_touch hd env x, hd]
    exact .some ((SameButStamps.touch x env id').trans h)
  · rw [Collection.get_put_ne (d := touch env id x) hid]
    exact SameDocs.refl c id'

end

namespace Repeats

variable {S : Schema} {edit : Env → Fields → Option Fields} {c c' : Collection}

theorem rewrite_congr (h : Repeats edit) (hS : UniqueAside S) (hc : SameDocs c c') (env env' : Env)
    (id : ObjectId) :
    SameDocs (rewrite S env id (edit env) c) (rewrite S env' id (edit env') c') := by
  cases hd' : c'.get id with
  | none =>
    have hd : c.get id = none := by
      have hid := hc id
      rw [hd'] at hid
      generalize c.get id = x at hid ⊢
      cases hid
      rfl
    rw [rewrite_of_none hd, rewrite_of_none hd']
    exact hc
  | some d' =>
    obtain ⟨d, hd, hlike⟩ := hc.like hd'
    have hedit := h.congr env env' _ _ hlike
    cases hx : edit env d.fields with
    | none =>
      rw [hx] at hedit
      cases hy : edit env' d'.fields with
      | none =>
        rw [rewrite_of_refused hd hx, rewrite_of_refused hd' hy]
        exact hc
      | some y =>
        rw [hy] at hedit
        cases hedit
    | some x =>
      rw [hx] at hedit
      cases hy : edit env' d'.fields with
      | none =>
        rw [hy] at hedit
        cases hedit
      | some y =>
        rw [hy] at hedit
        cases hedit with
        | some hxy =>
          have hunique : uniqueOk S c (touch env id x) = uniqueOk S c' (touch env' id y) :=
            uniqueOk_touch hS hc hxy
          rw [rewrite_of_edited hd hx, rewrite_of_edited hd' hy, hunique]
          split
          · exact hc.put hd hd' hxy
          · exact hc

theorem rewrite_absorb (h : Repeats edit) (hS : UniqueAside S) (c : Collection) (env env' : Env)
    (id : ObjectId) :
    SameDocs (rewrite S env' id (edit env') (rewrite S env id (edit env) c))
      (rewrite S env id (edit env) c) := by
  cases hd : c.get id with
  | none =>
    rw [rewrite_of_none hd, rewrite_of_none hd]
    exact .refl c
  | some d =>
    have hsame := h.rewrite_congr hS (SameDocs.refl c) env' env id
    cases hx : edit env d.fields with
    | none =>
      rw [rewrite_of_refused hd hx] at hsame ⊢
      exact hsame
    | some x =>
      rw [rewrite_of_edited hd hx] at hsame ⊢
      split
      case isFalse hclash =>
        rw [if_neg hclash] at hsame
        exact hsame
      -- the document is there as it was edited, and the edit adds nothing
      have hwritten := get_put_touch hd env x
      rcases h.absorb env env' _ _ _ hx (SameButStamps.touch x env id) with hnone | ⟨w, hw, hwx⟩
      · rw [rewrite_of_refused hwritten hnone]
        exact .refl _
      · rw [rewrite_of_edited hwritten hw]
        split
        · exact .put_again hwritten (hwx.trans (SameButStamps.touch x env id).symm)
        · exact .refl _

theorem settles (h : Repeats edit) (hS : UniqueAside S) (id : ObjectId) :
    Settles SameDocs fun env c => rewrite S env id (edit env) c where
  congr i j _ _ hc := h.rewrite_congr hS hc i j id
  absorb i j c := h.rewrite_absorb hS c i j id

/-- An assignment that sets the same paths at every time, to values that are alike. -/
theorem of_assign (idOk : Bool) (sets : Env → Entries)
    (hsets : ∀ i j x, SameButStamps (Fields.assign x (sets i)) (Fields.assign x (sets j))) :
    Repeats fun env x => if idOk then some (Fields.assign x (sets env)) else none where
  congr i j x y hxy := by
    cases idOk with
    | false => exact .none
    | true => exact .some ((hxy.assign (sets i)).trans (hsets i j y))
  absorb i j x y z hx hzy := by
    cases idOk with
    | false => cases hx
    | true =>
      obtain rfl := Option.some.inj hx
      exact .inr ⟨_, rfl, (hsets j i z).trans hzy.assign_again⟩

theorem none : Repeats fun _ _ => none where
  congr _ _ _ _ _ := .none
  absorb _ _ _ _ _ h := by cases h

/-- An edit of the documents that a check lets through, whatever their times. -/
theorem guard (h : Repeats edit) {allowed : Fields → Bool}
    (hallowed : ∀ x y, SameButStamps x y → allowed x = allowed y) :
    Repeats fun env x => if allowed x then edit env x else Option.none where
  congr i j x y hxy := by
    rw [hallowed x y hxy]
    split
    · exact h.congr i j x y hxy
    · exact .none
  absorb i j x y z hx hzy := by
    split at hx
    · split
      · exact h.absorb i j x y z hx hzy
      · exact .inl rfl
    · cases hx

end Repeats

/-! ## Updates by id -/

variable {M : Mongoose} {S : Schema}

theorem state_eq_update (env : Env) (filterQuery : Filter) (u : Update) (c : Collection) :
    ((AbstractRepository.findOneAndUpdate M S env filterQuery u).exec c).2 =
      match Mongo.update M S env filterQuery u c with
      | .ok (_, c') => c'
      | .error _ => c := by
  unfold AbstractRepository.findOneAndUpdate
  rw [exec_bind, exec_command]
  unfold Mongo.findOneAndUpdate
  cases Mongo.update M S env filterQuery u c with
  | error fault => rfl
  | ok res =>
    obtain ⟨doc, c'⟩ := res
    cases doc <;> rfl

/-- An update by the text of an id edits the document that the text names. -/
theorem state_eq_rewrite (env : Env) (s : String) (u : Update) (c : Collection) :
    ((AbstractRepository.findOneAndUpdate M S env (byId (.str s)) u).exec c).2 =
      match M.castId (.str s) with
      | none => c
      | some id => rewrite S env id (fun x => (u.compile M S).bind fun f => f id x) c := by
  rw [state_eq_update]
  unfold Mongo.update
  rw [matcher_byId_eq]
  cases hid : M.castId (.str s) with
  | none => rfl
  | some id =>
    rw [Option.map_some]
    have hfind : (M.scan env.seed c.docs).find? (fun d => decide (d.id = id) && true) = c.get id :=
      find?_scan_of_id fun d => Bool.and_true _
    unfold rewrite
    dsimp only
    cases hf : u.compile M S with
    | none => cases c.get id <;> rfl
    | some f =>
      dsimp only
      rw [hfind]
      cases hd : c.get id with
      | none => rfl
      | some d =>
        obtain rfl := Collection.id_of_get hd
        simp only [Option.bind_some]
        cases f d.id d.fields with
        | none => rfl
        | some fields =>
          dsimp only
          cases uniqueOk S c (touch env d.id fields) <;> rfl

theorem settles_findOneAndUpdate (hS : UniqueAside S) (s : String) {u : Env → Update}
    (h : ∀ id, Repeats fun env x => ((u env).compile M S).bind fun f => f id x) :
    Settles SameDocs fun env c =>
      ((AbstractRepository.findOneAndUpdate M S env (byId (.str s)) (u env)).exec c).2 := by
  cases hid : M.castId (.str s) with
  | none =>
    apply Settles.of_keeps SameDocs.refl
    intro env c
    rw [state_eq_rewrite, hid]
  | some id =>
    apply ((h id).settles hS id).reindex fun env => env
    intro env c
    rw [state_eq_rewrite, hid]

/-- A body that sets plain paths. -/
structure PlainBody (body : Value) : Prop where
  object : ∀ xs, body ≠ .arr xs
  plain : (Entries.keys body.entries).all isPlainKey

theorem PlainBody.compile {body : Value} (h : PlainBody body) :
    (Update.body body).compile M S = compileObject M S body.entries := by
  cases body with
  | arr xs => exact absurd rfl (h.object xs)
  | _ => rfl

theorem PlainBody.repeats {body : Value} (h : PlainBody body) (id : ObjectId) :
    Repeats fun _ x => ((Update.body body).compile M S).bind fun f => f id x := by
  have hoperators : compileOperators M S body.entries = some some := by
    unfold compileOperators
    rw [if_pos h.plain]
  rw [h.compile]
  unfold compileObject
  rw [hoperators]
  cases castSets M S body.entries with
  | none => exact .none
  | some sets =>
    cases idCheck M body.entries with
    | none => exact .none
    | some idOk =>
      exact .of_assign (idOk id) (fun _ => sets) fun _ _ _ => SameButStamps.refl _

/-- A soft deletion leaves its own time behind. -/
theorem repeats_softDelete (hS : HasDeletedAt S) (id : ObjectId) :
    Repeats fun env x =>
      ((Update.body (.obj [("deletedAt", .date env.now)])).compile M S).bind fun f => f id x := by
  have hcompile : ∀ env : Env, (Update.body (.obj [("deletedAt", .date env.now)])).compile M S =
      some fun _ fields => some (fields.assign [("deletedAt", .date env.now)]) := fun env =>
    compile_single (by decide) (by decide) hS (set_deletedAt env.now)
  have hassign : Repeats fun env x =>
      if true then some (Fields.assign x [("deletedAt", .date env.now)]) else none :=
    .of_assign true (fun env => [("deletedAt", .date env.now)]) fun i j x =>
      SameButStamps.assign_deletedAt x i.now j.now
  simp only [hcompile, Option.bind_some]
  exact hassign

end Database
