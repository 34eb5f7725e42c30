-- SUMMARY: Posts do not touch one another: what a run makes of a post is what the requests that name it make of it.
import NestPlatform.Database.Local
import NestPlatform.Posts.Answers

/-!
# Independent posts

A request names one post at most: the one it creates, or the one of the path. What it does to this
post and what it answers depend on no other post, and it leaves the others as they are. The lists
name no post.
-/
namespace Posts

open Js Mongo Nest Common Database Services Effect Transition

variable {M : Mongoose} {env : Env} {jwt : Auth.Jwt} {config : Auth.AuthConfig}

/-! ## Operations -/

/-- The post that a call names, if it names one. -/
def namedBy (M : Mongoose) (env : Env) : PostsOperation → Option ObjectId
  | .create user dto =>
    (construct M PostSchema env (Entries.assign [("userId", .str user.sub)] dto.entries)).map Doc.id
  | .findById id | .update id _ _ | .delete id _ | .like id _ | .unlike id _ | .publish id _ =>
    M.castId (.str id)
  | .list _ _ _ | .getUserPosts _ _ _ _ => none

theorem atDoc_asOwner {id : String} {postId : ObjectId} (hid : M.castId (.str id) = some postId)
    (user : JwtPayload) {go : Store Doc} (hgo : AtDoc postId go) :
    AtDoc postId (PostsController.asOwner M env id user go) := by
  apply At.bind (AbstractRepository.atDoc_findById hid)
  intro post
  split
  · exact At.throw _
  · exact hgo

theorem atDoc_editLikes {id : String} {postId : ObjectId} (hid : M.castId (.str id) = some postId)
    (edit : Doc → Except Thrown (Option Doc)) :
    AtDoc postId (PostsService.editLikes M env edit (.str id)) := by
  apply At.bind (AbstractRepository.atDoc_findById hid)
  intro post
  cases edit post with
  | error e => exact At.throw e
  | ok edited =>
    cases edited with
    | none => exact At.pure post
    | some post' => exact AbstractRepository.atDoc_findOneAndUpdate PostSchema_unique hid _

/-- A call reads and writes the post that it names. -/
theorem atDoc_run {op : PostsOperation} {id : ObjectId} (h : namedBy M env op = some id) :
    AtDoc id (op.run M env) := by
  cases op with
  | create user dto =>
    obtain ⟨d, hd, rfl⟩ := Option.map_eq_some_iff.mp h
    exact (AbstractRepository.atDoc_create PostSchema_unique hd).map _
  | findById postId => exact (AbstractRepository.atDoc_findById h).map _
  | update postId user dto =>
    exact (atDoc_asOwner h user (AbstractRepository.atDoc_findOneAndUpdate PostSchema_unique h _)).map _
  | delete postId user =>
    exact (atDoc_asOwner h user (AbstractRepository.atDoc_findOneAndUpdate PostSchema_unique h _)).map _
  | publish postId user =>
    exact (atDoc_asOwner h user (AbstractRepository.atDoc_findOneAndUpdate PostSchema_unique h _)).map _
  | like postId user => exact (atDoc_editLikes h _).map _
  | unlike postId user => exact (atDoc_editLikes h _).map _
  | list page limit tag => cases h
  | getUserPosts userId page limit user => cases h

/-- A text that is no id is noticed before anything is written. -/
theorem exec_after_findById {id : String} (hid : M.castId (.str id) = none) {α : Type}
    (go : Doc → Store α) (posts : Collection) :
    ((PostsService.findById M env (.str id) >>= go).exec posts).2 = posts := by
  have hrefused : (PostsService.findById M env (.str id)).exec posts =
      (.error (.error "CastError"), posts) := AbstractRepository.exec_findById_uncastable hid posts
  rw [exec_bind_error hrefused]

/-- A call that names no post leaves all of them alone. -/
theorem exec_unnamed {op : PostsOperation} (h : namedBy M env op = none) (posts : Collection) :
    ((op.run M env).exec posts).2 = posts := by
  cases op with
  | create user dto =>
    have hnone := Option.map_eq_none_iff.mp h
    have hrefused : (PostsController.create M env user dto).exec posts =
        (.error (.error (faultName .validation)), posts) :=
      AbstractRepository.exec_create_refused hnone posts
    unfold PostsOperation.run
    rw [exec_map, hrefused]
  | list page limit tag =>
    exact (apiEffect (.list page limit tag)).eq_of_read (fun _ _ => PostsOperation.noConfusion) rfl rfl
  | getUserPosts userId page limit user =>
    exact (apiEffect (.getUserPosts userId page limit user)).eq_of_read
      (fun _ _ => PostsOperation.noConfusion) rfl rfl
  | findById id =>
    exact (apiEffect (.findById id)).eq_of_read (fun _ _ => PostsOperation.noConfusion) rfl rfl
  | update id user dto | delete id user | publish id user | like id user | unlike id user =>
    unfold PostsOperation.run
    rw [exec_map]
    exact exec_after_findById h _ posts

/-! ## Requests -/

namespace Exchange

section

variable (M : Mongoose) (jwt : Auth.Jwt) (config : Auth.AuthConfig) (x : Exchange)

/-- The post that the request names once it has passed the guards. -/
def names : Option ObjectId := (x.operation jwt config).bind (namedBy M x.env)

/-- The answer and the posts after it. -/
def act (posts : Collection) : HttpResponse × Collection :=
  (x.response M jwt config posts, x.after M jwt config posts)

end

variable {x : Exchange}

/-- A request that comes to a call is answered with what the call returns. -/
theorem exec_handle_operation {op : PostsOperation} (h : x.operation jwt config = some op) :
    ∃ n : ℕ, ∀ posts, (x.handle M jwt config).exec posts =
      (((x.serve M op).exec posts).1.map (n, ·), ((x.serve M op).exec posts).2) := by
  unfold operation at h
  split at h
  · rename_i e hroute hthrottled
    refine ⟨Endpoint.statusCode (.anyone e), fun posts => ?_⟩
    rw [exec_handle_opens ⟨hroute, hthrottled⟩]
    cases e <;> cases h <;> rfl
  · rename_i e hroute hthrottled
    obtain ⟨user, huser, rfl⟩ := Option.map_eq_some_iff.mp h
    refine ⟨Endpoint.statusCode (.member e), fun posts => ?_⟩
    exact exec_handle_admits ⟨hroute, hthrottled, huser⟩ posts
  · cases h

theorem atDoc_serve {op : PostsOperation} {id : ObjectId} (h : namedBy M x.env op = some id) :
    AtDoc id (x.serve M op) :=
  (atDoc_run h).map json

/-- Each request is for one post at most. -/
theorem keyed : Keyed (fun id (posts : Collection) => posts.get id) (Exchange.act M jwt config)
    (fun _ => True) (Exchange.names M jwt config) where
  answer x id posts posts' _ hnames hview := by
    obtain ⟨op, hop, hnamed⟩ := Option.bind_eq_some_iff.mp hnames
    obtain ⟨n, hhandle⟩ := exec_handle_operation (M := M) hop
    unfold act response
    rw [hhandle, hhandle, (atDoc_serve hnamed).outcome posts posts' hview]
  part x id posts posts' _ hnames hview := by
    obtain ⟨op, hop, hnamed⟩ := Option.bind_eq_some_iff.mp hnames
    obtain ⟨n, hhandle⟩ := exec_handle_operation (M := M) hop
    unfold act after
    rw [hhandle, hhandle]
    exact (atDoc_serve hnamed).part posts posts' hview
  others x id posts _ hnames := by
    unfold act
    cases hop : x.operation jwt config with
    | none =>
      have hidle : x.call jwt config = none := by
        unfold call
        rw [hop]
        rfl
      rw [after_idle hidle]
    | some op =>
      obtain ⟨n, hhandle⟩ := exec_handle_operation (M := M) hop
      unfold after
      rw [hhandle]
      cases hnamed : namedBy M x.env op with
      | none =>
        have hkeep : ((x.serve M op).exec posts).2 = posts := by
          unfold serve
          rw [exec_map]
          exact exec_unnamed hnamed posts
        dsimp only
        rw [hkeep]
      | some id' =>
        have hne : id ≠ id' := by
          rintro rfl
          apply hnames
          unfold names
          rw [hop, Option.bind_some, hnamed]
        exact (atDoc_serve hnamed).others posts id hne

end Exchange

/-- In two runs of HTTP requests from collections that agree on a post, if the requests that name
this post are the same and in the same order, then they are answered alike and the post ends up
alike, whatever the other requests of the two runs are. -/
theorem run_posts_apart {posts posts' others others' : Collection}
    {xs ys : List (Exchange × HttpResponse)}
    (hxs : Run (Answered (Exchange.act M jwt config)) posts xs posts')
    (hys : Run (Answered (Exchange.act M jwt config)) others ys others') {id : ObjectId}
    (hpost : posts.get id = others.get id)
    (hasked : asked (Exchange.names M jwt config) id xs = asked (Exchange.names M jwt config) id ys) :
    exchanged (Exchange.names M jwt config) id xs = exchanged (Exchange.names M jwt config) id ys ∧
      posts'.get id = others'.get id :=
  Exchange.keyed.run_agree hxs hys (fun _ _ => trivial) (fun _ _ => trivial) hpost hasked

/-! ### Two posts -/

def otherId : ObjectId := ⟨"0000000000000000000000a7", by decide⟩

/-- Ann posts once more. -/
def annPostsMore : Exchange := { annPosts with env := { noon with newId := otherId } }

/-- Ann deletes the post. -/
def annDeletes (id : ObjectId) : Exchange :=
  arriving .DELETE ["posts", id.toString] (some "Bearer access") []

def answered (posts : Collection) (x : Exchange) : HttpResponse × Collection :=
  x.act .plain (.single annPayload) Auth.accessOnly posts

/-- The deletion of her first post does not reach the second. -/
theorem run_posts_apart_ann :
    let first := answered .empty annPosts
    let second := answered first.2 annPostsMore
    let third := answered second.2 (annDeletes helloId)
    let alone := answered .empty annPostsMore
    second.1 = alone.1 ∧ third.2.get otherId = alone.2.get otherId := by
  intro first second third alone
  have hstep : ∀ posts x, Answered (Exchange.act .plain (.single annPayload) Auth.accessOnly) posts
      (x, (answered posts x).1) (answered posts x).2 := fun _ _ => rfl
  have hrun : Run (Answered (Exchange.act .plain (.single annPayload) Auth.accessOnly)) .empty
      [(annPosts, first.1), (annPostsMore, second.1), (annDeletes helloId, third.1)] third.2 :=
    .snoc (.snoc (.snoc (.nil _) (hstep _ _)) (hstep _ _)) (hstep _ _)
  have halone : Run (Answered (Exchange.act .plain (.single annPayload) Auth.accessOnly)) .empty
      [(annPostsMore, alone.1)] alone.2 := .snoc (.nil _) (hstep _ _)
  have hfirst : annPosts.names .plain (.single annPayload) Auth.accessOnly = some helloId := by
    decide +kernel
  have hsecond : annPostsMore.names .plain (.single annPayload) Auth.accessOnly = some otherId := by
    decide +kernel
  have hthird : (annDeletes helloId).names .plain (.single annPayload) Auth.accessOnly =
      some helloId := by decide +kernel
  have hne : helloId ≠ otherId := by decide
  have hpost : Collection.empty.get otherId = Collection.empty.get otherId := rfl
  have hboth := run_posts_apart hrun halone hpost
    (by simp [asked, hfirst, hsecond, hthird, hne])
  refine ⟨?_, hboth.2⟩
  have hexchanged := hboth.1
  simp only [exchanged, List.filter_cons, List.filter_nil, hfirst, hsecond, hthird] at hexchanged
  simpa [hne] using hexchanged

end Posts
