-- SUMMARY: What anonymous callers of the posts service can learn about drafts and deleted posts.
import NestPlatform.Database.Shown
import NestPlatform.Database.SoftDelete
import NestPlatform.Posts.Http

/-!
# What everybody sees

Two collections that differ in hidden posts only. The lists filter by status and deletion;
a post that is asked for by its id is returned whatever its state.
-/
namespace Posts

open Js Mongo Nest Common Database Services Effect

/-! ## The property -/

/-- The requests without a token. -/
inductive PublicRequest where
  | list (page limit tag : Value)
  | findById (id : String)

def PublicRequest.handle (M : Mongoose) (env : Env) : PublicRequest → Store Answer
  | list page limit tag => .page <$> PostsController.list M env page limit tag
  | findById id => .one <$> PostsController.findById M env id

/-- The post is published and not deleted. -/
def visible (post : Doc) : Bool :=
  decide (post.fields "status" = .str "published") && (post.fields "deletedAt").nullish

def SameVisible (c c' : Collection) : Prop := c.docs.filter visible = c'.docs.filter visible

/-- The answer does not depend on drafts, archived and deleted posts. -/
def Noninterfering (M : Mongoose) (request : PublicRequest) : Prop :=
  ∀ env c c', SameVisible c c' →
    ((request.handle M env).exec c).1 = ((request.handle M env).exec c').1

/-- The data of the response, as it is printed. -/
def PublicRequest.data (M : Mongoose) (env : Env) (request : PublicRequest) (c : Collection) :
    Except Thrown Value := ((json <$> request.handle M env).exec c).1

/-- The request has an id under which the two collections do not show the same. -/
def PublicRequest.TellsApart (M : Mongoose) (c c' : Collection) : PublicRequest → Prop
  | .list _ _ _ => False
  | .findById id => ∃ postId, M.castId (.str id) = some postId ∧
      reading PostSchema c postId ≠ reading PostSchema c' postId

/-- The request lists posts, or its id is that of no post. -/
def NamesNoPost (M : Mongoose) : PublicRequest → Prop
  | .list _ _ _ => True
  | .findById id => M.castId (.str id) = none

/-! ## Lists -/

variable {M : Mongoose} {env : Env} {c c' : Collection}

theorem fieldMatcher_status (status : String) :
    fieldMatcher M PostSchema "status" (.str status) = some (same (.str status)) := by
  have hpath : PostSchema.path "status" =
      some { name := "status", type := .string, enum := ["draft", "published", "archived"],
             default := .str "draft" } := rfl
  simp [fieldMatcher, hpath, SchemaPath.condition, isOperatorObject, SchemaPath.set, Value.nullish,
    M.cast_accepts (t := .string) (v := .str status) rfl, SchemaPath.setters]

/-- A filter of the public lists selects visible posts only. -/
theorem visible_of_matcher {filterQuery : Filter} (hmem : ("status", .str "published") ∈ filterQuery)
    {p : Doc → Bool} {post : Doc}
    (hp : Filter.matcher M PostSchema (filterQuery ++ [("deletedAt", .null)]) = some p)
    (h : p post = true) : visible post = true := by
  have hS : HasDeletedAt PostSchema := rfl
  have hlive : (post.fields "deletedAt").nullish = true := matcher_live hS hp h
  obtain ⟨here, hhere, hmatch⟩ := matcher_mem hp h (List.mem_append_left _ hmem) (by decide)
  obtain rfl := Option.some.inj ((fieldMatcher_status "published").symm.trans hhere)
  have hstatus : Value.str "published" = post.fields "status" := by
    simpa [same, Value.nullish] using hmatch
  simp [visible, ← hstatus, hlive]

/-- A list of published posts answers the same on both collections. -/
theorem findLive_congr (h : SameVisible c c') {filterQuery : Filter}
    (hmem : ("status", .str "published") ∈ filterQuery) (sort : List (String × Bool))
    (skip limit : Value) :
    ((AbstractRepository.findLive M PostSchema env filterQuery sort skip limit).exec c).1 =
      ((AbstractRepository.findLive M PostSchema env filterQuery sort skip limit).exec c').1 := by
  refine AbstractRepository.exec_findPage_congr fun p hp => ?_
  have hfilter : ∀ docs : List Doc, docs.filter p = (docs.filter visible).filter p := by
    intro docs
    rw [List.filter_filter]
    apply List.filter_congr
    intro post _
    cases hpost : p post with
    | false => rfl
    | true => rw [visible_of_matcher hmem hp hpost, Bool.and_true]
  calc c.docs.filter p = (c.docs.filter visible).filter p := hfilter _
    _ = (c'.docs.filter visible).filter p := congrArg (List.filter p) h
    _ = c'.docs.filter p := (hfilter _).symm

theorem list_congr (h : SameVisible c c') (page limit tag : Value) :
    ((PostsController.list M env page limit tag).exec c).1 =
      ((PostsController.list M env page limit tag).exec c').1 := by
  unfold PostsController.list PostsController.paged
  split
  · split
    · exact findLive_congr h (by simp) _ _ _
    · exact findLive_congr h (by simp) _ _ _
  · rfl

/-! ## Posts by id -/

/-- A post that nobody has published. -/
def draft (id : ObjectId) : Doc where
  id := id
  fields := Fields.assign (fun _ => .undefined)
    [("userId", .str "0000000000000000000000a1"), ("title", .str "Draft"), ("content", .str "..."),
      ("status", .str "draft"), ("deletedAt", .null)]

def onlyDraft (id : ObjectId) : Collection := ⟨[draft id], List.nodup_singleton _⟩

theorem sameVisible_draft (id : ObjectId) : SameVisible (onlyDraft id) .empty := rfl

/-- A draft is returned by its id, and its absence is told. -/
theorem findById_draft {id : String} {postId : ObjectId} (hid : M.castId (.str id) = some postId) :
    (((PublicRequest.findById id).handle M env).exec (onlyDraft postId)).1 ≠
      (((PublicRequest.findById id).handle M env).exec .empty).1 := by
  have hget : (onlyDraft postId).get postId = some (draft postId) :=
    Collection.get_of_mem (c := onlyDraft postId) (d := draft postId) (List.mem_singleton_self _)
  have hfound : (PostsController.findById M env id).exec (onlyDraft postId) =
      (.ok (hydrate PostSchema [] (draft postId)), onlyDraft postId) :=
    AbstractRepository.exec_findById_str hid hget
  have hempty := @AbstractRepository.exec_findById_missing M PostSchema env id postId hid .empty rfl
  change (PostsController.findById M env id).exec .empty = _ at hempty
  simp only [PublicRequest.handle, exec_map, hfound, hempty]
  intro h
  cases h

/-- The response to a post's id is what the collection shows under it, or that there is nothing. -/
theorem data_findById {id : String} {postId : ObjectId} (hid : M.castId (.str id) = some postId) :
    ∃ e, ∀ c, (PublicRequest.findById id).data M env c =
      match reading PostSchema c postId with
      | some v => .ok v
      | none => .error e := by
  refine ⟨.http (NotFoundException ("Document with id " ++ M.text (.str id) ++ " not found")),
    fun c => ?_⟩
  unfold PublicRequest.data PublicRequest.handle reading PostsController.findById PostsService.findById
  rw [exec_map, exec_map]
  cases hget : c.get postId with
  | none =>
    rw [AbstractRepository.exec_findById_missing hid hget]
    rfl
  | some d =>
    rw [AbstractRepository.exec_findById_str hid hget]
    rfl

theorem data_eq_iff (h : SameVisible c c') (request : PublicRequest) :
    request.data M env c = request.data M env c' ↔ ¬ request.TellsApart M c c' := by
  cases request with
  | list page limit tag =>
    refine iff_of_true ?_ id
    unfold PublicRequest.data PublicRequest.handle
    rw [exec_map, exec_map, exec_map, exec_map, list_congr h]
  | findById id =>
    cases hid : M.castId (.str id) with
    | none =>
      refine iff_of_true ?_ (by simp [PublicRequest.TellsApart, hid])
      have hrefused : ∀ c, (PostsController.findById M env id).exec c = _ :=
        AbstractRepository.exec_findById_uncastable hid
      unfold PublicRequest.data PublicRequest.handle
      rw [exec_map, exec_map, exec_map, exec_map, hrefused, hrefused]
    | some postId =>
      obtain ⟨e, hdata⟩ := @data_findById M env id postId hid
      rw [hdata, hdata]
      simp only [PublicRequest.TellsApart, hid, Option.some.injEq, exists_eq_left', not_not]
      cases reading PostSchema c postId <;> cases reading PostSchema c' postId <;> simp

/-- A visible post is shown alike by both collections. -/
theorem get_visible (h : SameVisible c c') {d : Doc} (hget : c.get d.id = some d)
    (hvisible : visible d = true) : c'.get d.id = some d := by
  apply Collection.get_of_mem
  have hmem : d ∈ c'.docs.filter visible := by
    rw [← h]
    exact List.mem_filter.mpr ⟨Collection.mem_of_get hget, hvisible⟩
  exact List.mem_of_mem_filter hmem

/-- The id of a published post does not tell the collections apart. -/
theorem not_tellsApart_of_visible (h : SameVisible c c') {id : String} {postId : ObjectId} {d : Doc}
    (hid : M.castId (.str id) = some postId) (hget : c.get postId = some d)
    (hvisible : visible d = true) : ¬ (PublicRequest.findById id).TellsApart M c c' := by
  rintro ⟨_, hid', hne⟩
  obtain rfl := Option.some.inj (hid.symm.trans hid')
  obtain rfl := Collection.id_of_get hget
  apply hne
  rw [reading, reading, hget, get_visible h hget hvisible]

/-- Only requests that name no post are answered alike on all collections with the same visible
posts. -/
theorem noninterfering_iff_namesNoPost {request : PublicRequest} :
    Noninterfering M request ↔ NamesNoPost M request := by
  cases request with
  | list page limit tag =>
    refine ⟨fun _ => trivial, fun _ env c c' h => ?_⟩
    simp only [PublicRequest.handle, exec_map, list_congr h]
  | findById id =>
    constructor
    · intro h
      cases hid : M.castId (.str id) with
      | none => exact hid
      | some postId => exact absurd (h noon _ _ (sameVisible_draft postId)) (findById_draft hid)
    · intro hid env c c' _
      have hrefused : ∀ c, (PostsController.findById M env id).exec c = _ :=
        AbstractRepository.exec_findById_uncastable hid
      simp only [PublicRequest.handle, exec_map, hrefused]

/-- Two collections with the same visible posts give the same response to an anonymous request
exactly if it does not ask for a post, by its id, that they show differently. On all such
collections only the lists and the ids of no post do. -/
theorem noninterfering_iff (M : Mongoose) (request : PublicRequest) :
    (∀ env c c', SameVisible c c' →
      (request.data M env c = request.data M env c' ↔ ¬ request.TellsApart M c c')) ∧
      (Noninterfering M request ↔ NamesNoPost M request) :=
  ⟨fun _ _ _ h => data_eq_iff h request, noninterfering_iff_namesNoPost⟩

/-- Whether there is a draft with a given id is shown to anybody. -/
theorem draft_shown :
    SameVisible (onlyDraft helloId) .empty ∧
      (((PublicRequest.findById helloId.toString).handle .plain noon).exec (onlyDraft helloId)).1 ≠
        (((PublicRequest.findById helloId.toString).handle .plain noon).exec .empty).1 :=
  ⟨sameVisible_draft helloId, findById_draft (Mongoose.plain.castId_toString helloId)⟩

end Posts
