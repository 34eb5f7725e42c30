-- SUMMARY: Operations of the repository on one document: they depend on it and change it alone.
import NestPlatform.Database.AbstractRepository
import NestPlatform.Lib.Local

/-!
# One document

Without unique paths, what finds, changes or creates the document with one id takes no notice of the
others and leaves them as they are.
-/
namespace Database

open Js Mongo Nest Effect

variable {M : Mongoose} {S : Schema} {env : Env} {id : ObjectId}

/-- The effect is at the document with the id. -/
abbrev AtDoc {ε α : Type} (id : ObjectId) (x : Effect Collection ε α) : Prop :=
  At (fun id (c : Collection) => c.get id) id x

namespace AbstractRepository

theorem exec_findOneAndUpdate_id (hS : ∀ p ∈ S, p.unique = false) {s : String}
    (hid : M.castId (.str s) = some id) (u : Update) (c : Collection) :
    (findOneAndUpdate M S env (byId (.str s)) u).exec c =
      match u.compile M S, c.get id with
      | none, _ => (.error (.error (faultName .cast)), c)
      | some _, none => (.error (.http (NotFoundException "Document not found")), c)
      | some f, some d =>
        match f id d.fields with
        | none => (.error (.error (faultName .refused)), c)
        | some fields => (.ok (hydrate S [] (touch env id fields)), c.put (touch env id fields)) := by
  have hfind : (M.scan env.seed c.docs).find? (fun d => decide (d.id = id) && true) = c.get id :=
    find?_scan_of_id fun d => Bool.and_true _
  unfold findOneAndUpdate
  rw [exec_bind, exec_command]
  unfold Mongo.findOneAndUpdate Mongo.update
  rw [matcher_byId_eq, hid, Option.map_some]
  cases u.compile M S with
  | none => rfl
  | some f =>
    dsimp only
    rw [hfind]
    cases hd : c.get id with
    | none => rfl
    | some d =>
      obtain rfl := Collection.id_of_get hd
      dsimp only
      cases f d.id d.fields with
      | none => rfl
      | some fields =>
        dsimp only
        rw [uniqueOk_of_noUnique hS]
        rfl

theorem atDoc_findById {s : String} (hid : M.castId (.str s) = some id) :
    AtDoc id (findById M S env (.str s)) where
  outcome c c' hview := by
    cases hd : c.get id with
    | none =>
      have hd' : c'.get id = none := hview.symm.trans hd
      rw [exec_findById_missing hid hd, exec_findById_missing hid hd']
    | some d =>
      have hd' : c'.get id = some d := hview.symm.trans hd
      rw [exec_findById_str hid hd, exec_findById_str hid hd']
  part c c' hview := by
    rw [exec_findById, exec_findById]
    exact hview
  others c k _ := by
    rw [exec_findById]

theorem atDoc_findOneAndUpdate (hS : ∀ p ∈ S, p.unique = false) {s : String}
    (hid : M.castId (.str s) = some id) (u : Update) :
    AtDoc id (findOneAndUpdate M S env (byId (.str s)) u) where
  outcome c c' hview := by
    -- the result is made of the document alone
    rw [exec_findOneAndUpdate_id hS hid, exec_findOneAndUpdate_id hS hid]
    have hsame : c.get id = c'.get id := hview
    rw [hsame]
    cases u.compile M S with
    | none => rfl
    | some f =>
      cases c'.get id with
      | none => rfl
      | some d =>
        dsimp only
        cases f id d.fields <;> rfl
  part c c' hview := by
    rw [exec_findOneAndUpdate_id hS hid, exec_findOneAndUpdate_id hS hid]
    have hsame : c.get id = c'.get id := hview
    cases hcompile : u.compile M S with
    | none => exact hview
    | some f =>
      cases hd' : c'.get id with
      | none =>
        rw [hsame.trans hd']
        exact hview
      | some d =>
        rw [hsame.trans hd']
        dsimp only
        cases f id d.fields with
        | none => exact hview
        | some fields =>
          dsimp only
          rw [get_put_touch (hsame.trans hd') env fields, get_put_touch hd' env fields]
  others c k hk := by
    rw [exec_findOneAndUpdate_id hS hid]
    cases u.compile M S with
    | none => rfl
    | some f =>
      cases c.get id with
      | none => rfl
      | some d =>
        dsimp only
        cases f id d.fields with
        | none => rfl
        | some fields => exact Collection.get_put_ne (d := touch env id fields) hk

/-- An id that no document can have selects none. -/
theorem exec_findOneAndUpdate_uncastable {s : String} (hid : M.castId (.str s) = none) (u : Update)
    (c : Collection) :
    (findOneAndUpdate M S env (byId (.str s)) u).exec c = (.error (.error (faultName .cast)), c) := by
  unfold findOneAndUpdate
  rw [exec_bind, exec_command]
  unfold Mongo.findOneAndUpdate Mongo.update
  rw [matcher_byId_eq, hid]
  rfl

theorem exec_create_refused {dto : Entries} (hd : construct M S env dto = none) (c : Collection) :
    (create M S env dto).exec c = (.error (.error (faultName .validation)), c) := by
  unfold create
  rw [exec_command]
  unfold Mongo.create
  rw [hd]

/-- The id of a document decides whether it can be created. -/
theorem exec_create_id (hS : ∀ p ∈ S, p.unique = false) {dto : Entries} {d : Doc}
    (hd : construct M S env dto = some d) (c : Collection) :
    (create M S env dto).exec c =
      if validate S d.fields then
        if h : c.get d.id = none then (.ok d, c.insert d h)
        else (.error (.error (faultName .duplicateKey)), c)
      else (.error (.error (faultName .validation)), c) := by
  unfold create
  rw [exec_command]
  unfold Mongo.create
  rw [hd]
  dsimp only
  rw [uniqueOk_of_noUnique hS]
  cases validate S d.fields with
  | false => rfl
  | true =>
    rw [if_pos rfl, if_pos rfl]
    by_cases h : c.get d.id = none
    · rw [dif_pos h, dif_pos h]
      rfl
    · rw [dif_neg h, dif_neg h]

theorem atDoc_create (hS : ∀ p ∈ S, p.unique = false) {dto : Entries} {d : Doc}
    (hd : construct M S env dto = some d) : AtDoc d.id (create M S env dto) := by
  cases hvalid : validate S d.fields with
  | false =>
    apply At.const
    intro c
    rw [exec_create_id hS hd, hvalid]
    rfl
  | true =>
    have hfree : ∀ c : Collection, ∀ h : c.get d.id = none,
        (create M S env dto).exec c = (.ok d, c.insert d h) := by
      intro c h
      rw [exec_create_id hS hd, hvalid, if_pos rfl, dif_pos h]
    have htaken : ∀ c : Collection, c.get d.id ≠ none →
        (create M S env dto).exec c = (.error (.error (faultName .duplicateKey)), c) := by
      intro c h
      rw [exec_create_id hS hd, hvalid, if_pos rfl, dif_neg h]
    constructor
    · intro c c' hview
      have hsame : c.get d.id = c'.get d.id := hview
      by_cases h : c.get d.id = none
      · rw [hfree c h, hfree c' (hsame ▸ h)]
      · rw [htaken c h, htaken c' (hsame ▸ h)]
    · intro c c' hview
      have hsame : c.get d.id = c'.get d.id := hview
      by_cases h : c.get d.id = none
      · rw [hfree c h, hfree c' (hsame ▸ h)]
        exact (Collection.get_insert_self h).trans (Collection.get_insert_self (hsame ▸ h)).symm
      · rw [htaken c h, htaken c' (hsame ▸ h)]
        exact hview
    · intro c k hk
      by_cases h : c.get d.id = none
      · rw [hfree c h]
        exact Collection.get_insert_ne (h := h) hk
      · rw [htaken c h]

end AbstractRepository
end Database
