-- SUMMARY: When a soft delete is final for the clients of the four services.
import NestPlatform.Database.SoftDelete
import NestPlatform.Lib.Transition
import NestPlatform.Services.Operations

/-!
# Soft deletion in the services

The lists of todos, books and posts leave deleted documents out. The operations that
select a document by its id or its email do not, and neither does the list of users.
-/
namespace Services

open Js Mongo Nest Common Database Effect Transition

theorem Service.hasDeletedAt (service : Service) : HasDeletedAt service.schema := by
  cases service <;> rfl

/-- A `NotFoundException` was thrown. -/
def NotFound {α : Type} (result : Except Thrown α) : Prop :=
  ∃ e, result = .error (.http e) ∧ e.status = .nat 404

variable {M : Mongoose} {env : Env} {c : Collection} {d : Doc}

/-- The operation treats `d` as a document that does not exist: it leaves it as it is,
does not return it, does not count it and does not find it under its id. -/
structure Final (M : Mongoose) (env : Env) (c : Collection) (d : Doc) (op : Operation) : Prop where
  unchanged : ((op.run M env).exec c).2.get d.id = some d
  notReturned : ∀ a, ((op.run M env).exec c).1 = .ok a → ∀ r ∈ a.docs, r.id ≠ d.id
  notCounted : ∀ a, ((op.run M env).exec c).1 = .ok a → a.total ≠ none →
    ((op.run M env).exec (c.erase d.id)).1 = .ok a
  notFound : ∀ s, op.addressee = some (.str s) → M.castId (.str s) = some d.id →
    NotFound ((op.run M env).exec c).1

/-- The operation is not addressed to the document by its id, does not meet it by its
email, and is not the list of users. -/
structure Operation.Spares (M : Mongoose) (env : Env) (c : Collection) (id : ObjectId)
    (op : Operation) : Prop where
  byId : ∀ v, op.addressee = some v → Misses M op.service.schema env c (Mongo.byId v) id
  byEmail : ∀ email, op = .users (.findByEmail email) →
    Misses M UserSchema env c [("email", email)] id
  noUsersList : ∀ skip limit, op ≠ .users (.list skip limit)

/-! ## Operations leave a deleted document alone -/

section

variable {α : Type} {id : ObjectId}

theorem leaves_one {x : Store Doc} (h : Leaves c id (fun d => [d]) x) :
    Leaves c id Answer.docs (.one <$> x) := h.map fun _ => List.Subset.refl _

theorem leaves_page {x : Store Page} (h : Leaves c id Page.items x) :
    Leaves c id Answer.docs (.page <$> x) := h.map fun _ => List.Subset.refl _

/-- The password is left out of a user, not the id. -/
theorem leaves_sanitizeUser {x : Store Doc} (h : Leaves c id (fun d => [d]) x) :
    Leaves c id (fun d => [d]) (Users.UsersService.sanitizeUser <$> x) :=
  h.map fun _ => List.Subset.refl _

theorem UsersOperation.leaves {op : UsersOperation}
    (h : (Operation.users op).Spares M env c id) : Leaves c id Answer.docs (op.run M env) := by
  cases op with
  | findById v => exact leaves_one (leaves_sanitizeUser (.findById (h.byId v rfl)))
  | findByEmail email =>
    refine Leaves.map (Leaves.map (Leaves.findOne (h.byEmail email rfl)) fun doc => ?_)
      fun _ => List.Subset.refl _
    cases doc <;> exact List.Subset.refl _
  | list skip limit => exact absurd rfl (h.noUsersList skip limit)
  | update v updates =>
    exact leaves_one (leaves_sanitizeUser (.findOneAndUpdate (h.byId v rfl) _))
  | delete v => exact leaves_one (leaves_sanitizeUser (.findOneAndUpdate (h.byId v rfl) _))

theorem ItemsOperation.leaves {S : Schema} (hS : HasDeletedAt S) (hd : Deleted c d)
    {op : ItemsOperation} (h : ∀ v, op.addressee = some v → Misses M S env c (byId v) d.id) :
    Leaves c d.id Answer.docs (op.run M env S) := by
  cases op with
  | create userId data => exact leaves_one (.create hd.stored _)
  | findById v => exact leaves_one (.findById (h v rfl))
  | findByUser userId skip limit => exact leaves_page (.findLive hS hd _ _ _ _)
  | update v data => exact leaves_one (.findOneAndUpdate (h v rfl) _)
  | delete v => exact leaves_one (.findOneAndUpdate (h v rfl) _)
  | list userId skip limit => exact leaves_page (.findLive hS hd _ _ _ _)

/-- A post is found before it is edited, and then updated. -/
theorem leaves_editLikes {v : Value} (h : Misses M PostSchema env c (byId v) id)
    (edit : Doc → Except Thrown (Option Doc)) :
    Leaves c id (fun d => [d]) (Posts.PostsService.editLikes M env edit v) := by
  refine .bind_query (.findById h) (AbstractRepository.exec_findById _ _) ?_
  intro post hpost
  cases edit post with
  | error e => exact .throw e
  | ok edited =>
    cases edited with
    | none => exact .pure hpost
    | some post' => exact .findOneAndUpdate h _

theorem leaves_asOwner {s : String} (h : Misses M PostSchema env c (byId (.str s)) id)
    (user : JwtPayload) {go : Store Doc} (hgo : Leaves c id (fun d => [d]) go) :
    Leaves c id (fun d => [d]) (Posts.PostsController.asOwner M env s user go) := by
  refine .bind_query (.findById h) (AbstractRepository.exec_findById _ _) ?_
  intro post _
  split
  · exact .throw _
  · exact hgo

theorem PostsOperation.leaves (hd : Deleted c d) {op : PostsOperation}
    (h : ∀ v, op.addressee = some v → Misses M PostSchema env c (byId v) d.id) :
    Leaves c d.id Answer.docs (op.run M env) := by
  have hS : HasDeletedAt PostSchema := Service.hasDeletedAt .posts
  cases op with
  | create user dto => exact leaves_one (.create hd.stored _)
  | list page limit tag =>
    apply leaves_page
    unfold Posts.PostsController.list Posts.PostsController.paged
    split
    · split <;> exact .findLive hS hd _ _ _ _
    · exact .throw _
  | getUserPosts userId page limit user =>
    apply leaves_page
    unfold Posts.PostsController.getUserPosts
    split
    · exact .throw _
    · unfold Posts.PostsController.paged
      split
      · exact .findLive hS hd _ _ _ _
      · exact .throw _
  | findById s => exact leaves_one (.findById (h _ rfl))
  | update s user dto =>
    exact leaves_one (leaves_asOwner (h _ rfl) user (.findOneAndUpdate (h _ rfl) _))
  | delete s user =>
    exact leaves_one (leaves_asOwner (h _ rfl) user (.findOneAndUpdate (h _ rfl) _))
  | like s user => exact leaves_one (leaves_editLikes (h _ rfl) _)
  | unlike s user => exact leaves_one (leaves_editLikes (h _ rfl) _)
  | publish s user =>
    exact leaves_one (leaves_asOwner (h _ rfl) user (.findOneAndUpdate (h _ rfl) _))

theorem Operation.leaves {op : Operation} (hd : Deleted c d) (h : op.Spares M env c d.id) :
    Leaves c d.id Answer.docs (op.run M env) := by
  cases op with
  | users op => exact UsersOperation.leaves h
  | todos op => exact ItemsOperation.leaves (Service.hasDeletedAt .todos) hd h.byId
  | todosByStatus userId status skip limit =>
    exact leaves_page (.findLive (Service.hasDeletedAt .todos) hd _ _ _ _)
  | books op => exact ItemsOperation.leaves (Service.hasDeletedAt .books) hd h.byId
  | booksByReadStatus userId isRead skip limit =>
    exact leaves_page (.findLive (Service.hasDeletedAt .books) hd _ _ _ _)
  | booksByGenre userId genre skip limit =>
    exact leaves_page (.findLive (Service.hasDeletedAt .books) hd _ _ _ _)
  | posts op => exact PostsOperation.leaves hd h.byId

end

/-! ## Lists do not count a deleted document -/

/-- If the answer has a total, it is the same without the document. -/
def Uncounted (c : Collection) (id : ObjectId) (x : Store Answer) : Prop :=
  ∀ a, (x.exec c).1 = .ok a → a.total ≠ none → (x.exec (c.erase id)).1 = .ok a

namespace Uncounted

variable {id : ObjectId}

/-- An answer without a total counts nothing. -/
theorem of_total {α : Type} {x : Store α} {f : α → Answer} (hf : ∀ a, (f a).total = none) :
    Uncounted c id (f <$> x) := by
  intro a ha htotal
  rw [exec_map] at ha
  cases hx : (x.exec c).1 with
  | error e =>
    rw [hx] at ha
    cases ha
  | ok b =>
    rw [hx] at ha
    cases ha
    exact absurd (hf b) htotal

theorem page {x : Store Page} (h : (x.exec (c.erase id)).1 = (x.exec c).1) :
    Uncounted c id (.page <$> x) := by
  intro a ha _
  rw [exec_map] at ha ⊢
  rw [h]
  exact ha

theorem one {x : Store Doc} : Uncounted c id (.one <$> x) := of_total fun _ => rfl

end Uncounted

theorem ItemsOperation.uncounted {S : Schema} (hS : HasDeletedAt S) (hd : Deleted c d)
    (op : ItemsOperation) : Uncounted c d.id (op.run M env S) := by
  cases op with
  | findByUser userId skip limit => exact .page (exec_findLive_erase hS hd _ _ _ _)
  | list userId skip limit => exact .page (exec_findLive_erase hS hd _ _ _ _)
  | _ => exact .one

theorem PostsOperation.uncounted (hd : Deleted c d) (op : PostsOperation) :
    Uncounted c d.id (op.run M env) := by
  have hS : HasDeletedAt PostSchema := Service.hasDeletedAt .posts
  cases op with
  | list page limit tag =>
    refine .page ?_
    unfold Posts.PostsController.list Posts.PostsController.paged
    split
    · split <;> exact exec_findLive_erase hS hd _ _ _ _
    · rfl
  | getUserPosts userId page limit user =>
    refine .page ?_
    unfold Posts.PostsController.getUserPosts
    split
    · rfl
    · unfold Posts.PostsController.paged
      split
      · exact exec_findLive_erase hS hd _ _ _ _
      · rfl
  | _ => exact .one

theorem Operation.uncounted {op : Operation} (hd : Deleted c d) (h : op.Spares M env c d.id) :
    Uncounted c d.id (op.run M env) := by
  cases op with
  | users op =>
    cases op with
    | list skip limit => exact absurd rfl (h.noUsersList skip limit)
    | findByEmail email => exact .of_total fun _ => rfl
    | _ => exact .one
  | todos op => exact op.uncounted (Service.hasDeletedAt .todos) hd
  | todosByStatus userId status skip limit =>
    exact .page (exec_findLive_erase (Service.hasDeletedAt .todos) hd _ _ _ _)
  | books op => exact op.uncounted (Service.hasDeletedAt .books) hd
  | booksByReadStatus userId isRead skip limit =>
    exact .page (exec_findLive_erase (Service.hasDeletedAt .books) hd _ _ _ _)
  | booksByGenre userId genre skip limit =>
    exact .page (exec_findLive_erase (Service.hasDeletedAt .books) hd _ _ _ _)
  | posts op => exact op.uncounted hd

/-! ## Runs -/

/-- A stored document is not missed by its id. -/
theorem not_misses_byId {S : Schema} (hd : c.get d.id = some d) {s : String}
    (hid : M.castId (.str s) = some d.id) : ¬ Misses M S env c (byId (.str s)) d.id := by
  intro h
  obtain ⟨p, hp, hsel⟩ := matcher_byId (S := S) hid
  exact h p d hp ((find?_scan_of_id hsel).trans hd) rfl

theorem Operation.Spares.final {op : Operation} (h : op.Spares M env c d.id) (hd : Deleted c d) :
    Final M env c d op where
  unchanged := (op.leaves hd h).unchanged.trans hd.stored
  notReturned := (op.leaves hd h).notReturned
  notCounted := op.uncounted hd h
  notFound _ haddressee hid := absurd (h.byId _ haddressee) (not_misses_byId hd.stored hid)

/-- Where the call runs on the collection of `service`, it spares the document. -/
def Call.Spares (M : Mongoose) (service : Service) (id : ObjectId) (db : Collections)
    (call : Call) : Prop :=
  call.op.service = service → call.op.Spares M call.env (db service) id

theorem Call.deleted_after {service : Service} {db : Collections} {call : Call}
    (hd : Deleted (db service) d) (h : call.Spares M service d.id db) :
    Deleted (call.after M db service) d := by
  refine ⟨?_, hd.deleted⟩
  unfold Call.after
  by_cases hservice : service = call.op.service
  · subst hservice
    rw [Function.update_self]
    exact ((h rfl).final hd).unchanged
  · rw [Function.update_of_ne hservice]
    exact hd.stored

/-- Once a soft delete has succeeded, in every later run whose operations spare the
document it stays as it is, and the next such operation treats it as not existing. -/
theorem run_final {service : Service} {db db' : Collections} {calls : List Call}
    {filterQuery : Filter} {r : Doc} {c' : Collection}
    (hdelete : (AbstractRepository.softDelete M service.schema env filterQuery).exec (db service) =
      (.ok r, c'))
    (h : Run (Meeting (Step M) fun db call => call.Spares M service r.id db)
      (Function.update db service c') calls db') :
    ∃ d, d.id = r.id ∧ c'.get r.id = some d ∧ (db' service).get r.id = some d ∧
      ∀ call : Call, call.op.service = service → call.Spares M service r.id db' →
        Final M call.env (db' service) d call.op := by
  obtain ⟨d, hid, hd⟩ := deleted_of_softDelete service.hasDeletedAt hdelete
  rw [← hid] at h ⊢
  have hstep : ∀ db call db', Deleted (db service) d →
      Meeting (Step M) (fun db call => Call.Spares M service d.id db call) db call db' →
      Deleted (db' service) d := by
    intro db call db' hdb hcall
    rw [hcall.1]
    exact Call.deleted_after hdb hcall.2
  have hlater : Deleted (db' service) d := by
    refine h.invariant (fun db call db' => hstep db call db') ?_
    rw [Function.update_self]
    exact hd
  exact ⟨d, rfl, hd.stored, hlater.stored, fun call hservice hspares =>
    (hspares hservice).final hlater⟩

/-! ### One todo -/

def milkId : ObjectId := ⟨"0000000000000000000000d1", by decide⟩

def milkOnly : Collection where
  docs := [⟨milkId, Fields.assign (fun _ => .undefined)
    [("userId", .str "0000000000000000000000a1"), ("title", .str "Milk"), ("status", .str "pending"),
     ("dueDate", .null), ("priority", .nat 0), ("deletedAt", .null), ("createdAt", .date 0),
     ("updatedAt", .date 0), ("__v", .nat 0)]⟩]
  nodup := List.nodup_singleton _

def milkDb : Collections := fun _ => milkOnly

/-- The todo is deleted. -/
def deleteMilk : Except Thrown Doc × Collection :=
  (AbstractRepository.softDelete .plain TodoSchema ⟨1, milkId, 0⟩ (byId (.str milkId.toString))).exec
    (milkDb .todos)

theorem deleteMilk_eq : ∃ r c', deleteMilk = (.ok r, c') := by
  have hok : deleteMilk.1.isOk = true := by decide
  cases h : deleteMilk with
  | mk result c' =>
    rw [h] at hok
    cases result with
    | error e => cases hok
    | ok r => exact ⟨r, c', rfl⟩

def listTodos : Call :=
  ⟨⟨2, milkId, 0⟩, .todos (.list (.str "0000000000000000000000a1") (.nat 0) (.nat 10))⟩

theorem listTodos_spares (id : ObjectId) (db : Collections) :
    listTodos.Spares .plain .todos id db := by
  refine fun _ => ⟨?_, ?_, ?_⟩
  · intro v hv
    cases hv
  · intro email hemail
    cases hemail
  · intro skip limit hlist
    cases hlist

/-- The todo is deleted and its owner lists todos. -/
theorem run_final_list : ∃ r c', deleteMilk = (.ok r, c') ∧ ∃ d, d.id = r.id ∧
    c'.get r.id = some d ∧
    (listTodos.after .plain (Function.update milkDb .todos c') .todos).get r.id = some d ∧
      ∀ call : Call, call.op.service = .todos →
        call.Spares .plain .todos r.id
          (listTodos.after .plain (Function.update milkDb .todos c')) →
        Final .plain call.env
          (listTodos.after .plain (Function.update milkDb .todos c') .todos) d call.op := by
  obtain ⟨r, c', hdelete⟩ := deleteMilk_eq
  exact ⟨r, c', hdelete, run_final hdelete
    (.snoc (.nil _) ⟨rfl, listTodos_spares r.id _⟩)⟩

/-- A deleted todo is still found by its id. -/
theorem found_after_delete :
    deleteMilk.1.isOk = true ∧ ∀ d, d.id = milkId →
      ¬ Final .plain ⟨2, milkId, 0⟩ deleteMilk.2 d (.todos (.findById (.str milkId.toString))) := by
  refine ⟨by decide, ?_⟩
  intro d hid hfinal
  obtain ⟨e, he, -⟩ := hfinal.notFound milkId.toString rfl
    (hid ▸ Mongoose.plain.castId_toString milkId)
  have hok : (((Operation.todos (.findById (.str milkId.toString))).run .plain ⟨2, milkId, 0⟩).exec
      deleteMilk.2).1.isOk = true := by decide
  rw [he] at hok
  cases hok

end Services
