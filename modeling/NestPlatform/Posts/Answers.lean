-- SUMMARY: What the answers of the posts service tell, and the runs of its API that runs of HTTP requests come to.
import NestPlatform.Common.Express
import NestPlatform.Posts.Api
import NestPlatform.Posts.Http

/-!
# Answers of the posts service

A request that is not answered with success has changed nothing, and neither has one that only
reads. The others are calls of the API by users whose token was verified.
-/
namespace Posts

open Js Mongo Nest Common Database Services Effect Transition

variable {M : Mongoose} {env : Env} {jwt : Auth.Jwt} {config : Auth.AuthConfig}

/-! ## The operations -/

theorem clean_paged (page limit : Value) {go : Value → Value → Store Page}
    (hgo : ∀ skip limit, Clean (go skip limit)) : Clean (PostsController.paged page limit go) := by
  unfold PostsController.paged PostsController.skip
  split
  · exact hgo _ _
  · rename_i e herror
    split at herror
    · cases herror
    · cases herror
      exact Clean.throw _

theorem clean_asOwner (id : String) (user : JwtPayload) {go : Store Doc} (hgo : Clean go) :
    Clean (PostsController.asOwner M env id user go) := by
  apply Clean.bind_silent (throws_findById _) (AbstractRepository.exec_findById _)
  intro post
  split
  · exact Clean.throw _
  · exact hgo

/-- A like that cannot read or edit the post does not write it. -/
theorem clean_editLikes {edit : Doc → Except Thrown (Option Doc)} {postId : Value}
    (hedit : ∀ post e, edit post = .error e → e = .error "TypeError") :
    Clean (PostsService.editLikes M env edit postId) := by
  apply Clean.bind_silent (throws_findById _) (AbstractRepository.exec_findById _)
  intro post
  cases hpost : edit post with
  | error e =>
    obtain rfl := hedit post e hpost
    exact Clean.throw _
  | ok edited =>
    cases edited with
    | none => exact Clean.pure post
    | some post' => exact Clean.findOneAndUpdate _ _

theorem clean_operation (op : PostsOperation) : Clean (op.run M env) := by
  cases op with
  | create user dto => exact (Clean.create _).map _
  | list page limit tag =>
    apply Clean.map
    apply clean_paged
    intro skip limit
    split
    · exact Clean.findPage _ _
    · exact Clean.findPage _ _
  | getUserPosts userId page limit user =>
    apply Clean.map
    unfold PostsController.getUserPosts
    split
    · exact Clean.throw _
    · exact clean_paged _ _ fun _ _ => Clean.findPage _ _
  | findById id => exact (Clean.findById _).map _
  | update id user dto => exact (clean_asOwner id user (Clean.findOneAndUpdate _ _)).map _
  | delete id user => exact (clean_asOwner id user (Clean.findOneAndUpdate _ _)).map _
  | publish id user => exact (clean_asOwner id user (Clean.findOneAndUpdate _ _)).map _
  | like postId user =>
    apply Clean.map
    apply clean_editLikes
    intro post e he
    unfold addLike at he
    split at he
    · split at he <;> cases he
    · cases he
      rfl
  | unlike postId user =>
    apply Clean.map
    apply clean_editLikes
    intro post e he
    unfold dropLike at he
    split at he
    · cases he
    · cases he
      rfl

/-- An operation that neither creates a post nor changes nor likes one changes nothing. -/
theorem ApiEffect.eq_of_read {posts posts' : Collection} {op : PostsOperation}
    {event : Option PostsEvent} (h : ApiEffect M env posts op event posts')
    (hcreate : ∀ user dto, op ≠ .create user dto) (hchange : changeOf env op = none)
    (hreaction : reactionOf op = none) : posts' = posts := by
  cases h with
  | idle => rfl
  | created => exact absurd rfl (hcreate _ _)
  | changed hchanges => simp [hchange] at hchanges
  | reacted hreacts => simp [hreaction] at hreacts

/-! ## Answers -/

namespace Exchange

section

variable (M : Mongoose) (jwt : Auth.Jwt) (config : Auth.AuthConfig) (x : Exchange)

/-- What is to be sent for a request, and the posts after it. -/
inductive Outcome (posts : Collection) : HttpResponse → Collection → Prop where
  | shown {e : PublicEndpoint} {response : HttpResponse} : x.Opens e → response.status = .nat 200 →
      response.body.get "success" = .bool true → Outcome posts response posts
  | served {user : JwtPayload} {e : UserEndpoint} {response : HttpResponse} {posts' : Collection} :
      x.Admits jwt config user e → response.status = .nat (Endpoint.statusCode (.member e)) →
      response.body.get "success" =
        (if Endpoint.statusCode (.member e) = 204 then .undefined else .bool true) →
      (Endpoint.statusCode (.member e) = 204 → response.body = []) →
      e.Writes ∨ posts' = posts → Outcome posts response posts'
  | refused {n : ℕ} {response : HttpResponse} : n ∈ [400, 401, 403, 404, 429] →
      response.status = .nat n → response.body.get "success" = .bool false →
      Outcome posts response posts
  | failed {response : HttpResponse} : response.status = .nat INTERNAL_SERVER_ERROR →
      response.body.get "success" = .undefined → Outcome posts response posts

end

variable {x : Exchange} {posts : Collection}

theorem status_respond (n : ℕ) (data : Value) : (x.respond (.ok (n, data))).status = .nat n := by
  unfold respond
  split
  · rename_i heq
    cases heq
    rfl
  · rename_i heq
    cases heq
    rfl
  · rename_i heq
    cases heq
  · rename_i heq
    cases heq

theorem success_respond (n : ℕ) (data : Value) :
    (x.respond (.ok (n, data))).body.get "success" =
      if n = 204 then .undefined else .bool true := by
  by_cases hn : n = 204
  · subst hn
    rfl
  · rw [if_neg hn]
    unfold respond
    split
    · rename_i heq
      cases heq
      exact absurd rfl hn
    · rfl
    · rename_i heq
      cases heq
    · rename_i heq
      cases heq

theorem outcome_of_error {α : Type} {y : Store α} (hy : Clean y) {t : Thrown} {posts' : Collection}
    (hexec : y.exec posts = (.error t, posts')) :
    x.Outcome jwt config posts (x.respond (.error t)) posts' := by
  obtain rfl : posts' = posts := hy.atomic _ _ _ hexec
  cases hy.throws _ _ _ hexec with
  | notFound message => exact .refused (n := 404) (by decide) rfl rfl
  | other name => exact .failed rfl rfl

/-- What a handler of anyone does changes nothing. -/
theorem clean_handlePublic (e : PublicEndpoint) : Clean (x.handlePublic M e) := by
  cases e with
  | health => exact Clean.pure _
  | list page limit tag => exact (clean_operation _).map _
  | findById id => exact (clean_operation _).map _

theorem silent_handlePublic (e : PublicEndpoint) : Silent (x.handlePublic M e) := by
  intro posts
  have hread : ∀ op : PostsOperation, (∀ user dto, op ≠ .create user dto) →
      changeOf x.env op = none → reactionOf op = none →
      ((x.serve M op).exec posts).2 = posts := by
    intro op hcreate hchange hreaction
    unfold serve
    rw [exec_map]
    exact (apiEffect op).eq_of_read hcreate hchange hreaction
  cases e with
  | health => rfl
  | list page limit tag => exact hread _ (fun _ _ => PostsOperation.noConfusion) rfl rfl
  | findById id => exact hread _ (fun _ _ => PostsOperation.noConfusion) rfl rfl

theorem writes_or_silent (user : JwtPayload) (e : UserEndpoint) :
    e.Writes ∨ Silent (x.serve M (e.operation user)) := by
  cases e with
  | getUserPosts userId page limit =>
    right
    intro posts
    unfold serve
    rw [exec_map]
    exact (apiEffect _).eq_of_read (fun _ _ => PostsOperation.noConfusion) rfl rfl
  | create | update | delete | like | unlike | publish => exact .inl trivial

/-- No handler that writes is behind a route for `GET` or `HEAD`. -/
theorem not_safe_of_writes {route : Route HttpRequest Endpoint} (h : route ∈ routes) {req : HttpRequest}
    {ids : List String} {e : UserEndpoint} (hendpoint : .member e = route.endpoint req ids)
    (hwrites : e.Writes) : route.method ∉ [.GET, .HEAD] := by
  simp only [routes, HealthController.routes, PostsController.routes, List.cons_append,
    List.nil_append, List.mem_cons, List.not_mem_nil, or_false] at h
  rcases h with rfl | rfl | rfl | rfl | rfl | h
  case inr.inr.inr.inl =>
    cases hendpoint
    cases hwrites
  case inr.inl => simp
  case inr.inr.inr.inr.inr => rcases h with rfl | rfl | rfl | rfl | rfl <;> simp
  all_goals cases hendpoint

theorem method_of_writes {e : UserEndpoint} (hroute : x.request.route = .ok (.member e))
    (hwrites : e.Writes) : x.request.method ∉ [.GET, .HEAD] := by
  obtain ⟨route, hmem, ids, hserves, hendpoint⟩ := endpoint_of_dispatch hroute
  exact Method.not_safe_of_serves (not_safe_of_writes hmem hendpoint hwrites) hserves

theorem outcome_response (x : Exchange) (posts : Collection) :
    x.Outcome jwt config posts (x.response M jwt config posts) (x.after M jwt config posts) := by
  unfold response after
  rcases @exec_handle_cases M jwt config x posts with
    ⟨e, hopens⟩ | ⟨user, e, hadmits⟩ | ⟨-, e, ⟨n, hn, hstatus⟩, hrefused⟩
  · rw [exec_handle_opens hopens]
    cases hexec : (x.handlePublic M e).exec posts with
    | mk result posts' =>
      cases result with
      | error t => exact outcome_of_error (clean_handlePublic e) hexec
      | ok data =>
        have hkeep := silent_handlePublic (M := M) (x := x) e posts
        rw [hexec] at hkeep
        obtain rfl : posts' = posts := hkeep
        exact .shown hopens rfl rfl
  · rw [exec_handle_admits hadmits]
    cases hexec : (x.serve M (e.operation user)).exec posts with
    | mk result posts' =>
      cases result with
      | error t => exact outcome_of_error ((clean_operation (e.operation user)).map json) hexec
      | ok data =>
        have hempty : Endpoint.statusCode (.member e) = 204 →
            (x.respond (.ok (Endpoint.statusCode (.member e), data))).body = [] := by
          intro hdeleted
          rw [hdeleted]
          rfl
        refine .served hadmits (status_respond _ _) (success_respond _ _) hempty ?_
        rcases writes_or_silent (M := M) (x := x) user e with hwrites | hsilent
        · exact .inl hwrites
        · right
          have hkeep := hsilent posts
          rwa [hexec] at hkeep
  · rw [hrefused]
    exact .refused hn hstatus rfl

end Exchange

/-! ## Replies -/

/-- A request as it arrives at the service. Without a body that can be parsed it is no more than a
method and a url. -/
structure Arrival where
  exchange : Exchange
  express : Express

namespace Arrival

section

variable (M : Mongoose) (jwt : Auth.Jwt) (config : Auth.AuthConfig) (a : Arrival) (posts : Collection)

/-- What the client gets. -/
def reply : Option Reply :=
  a.express.reply a.exchange.request.method a.exchange.request.url a.exchange.timestamp
    (a.exchange.response M jwt config posts)

/-- The posts after the request. -/
def after : Collection :=
  match a.express.bodyError with
  | none => a.exchange.after M jwt config posts
  | some _ => posts

/-- The reply to a request and the posts after it. -/
inductive Outcome : Reply → Collection → Prop where
  | unparsed {e : BodyError} {success : Value} {r : Reply} : a.express.bodyError = some e →
      success ≠ .bool true → Told a.exchange.request.method e.statusCode success r →
      Outcome r posts
  | shown {e : PublicEndpoint} {r : Reply} : a.express.bodyError = none → a.exchange.Opens e →
      Told a.exchange.request.method 200 (.bool true) r → Outcome r posts
  | served {user : JwtPayload} {e : UserEndpoint} {r : Reply} {posts' : Collection} :
      a.express.bodyError = none → a.exchange.Admits jwt config user e →
      Told a.exchange.request.method (Endpoint.statusCode (.member e))
        (if Endpoint.statusCode (.member e) = 204 then .undefined else .bool true) r →
      e.Writes ∨ posts' = posts → Outcome r posts'
  | refused {n : ℕ} {r : Reply} : n ∈ [400, 401, 403, 404, 429] →
      Told a.exchange.request.method n (.bool false) r → Outcome r posts
  | failed {r : Reply} : Told a.exchange.request.method INTERNAL_SERVER_ERROR .undefined r →
      Outcome r posts

end

variable {a : Arrival} {posts : Collection}

end Arrival

/-! ## Runs -/

section

variable (M : Mongoose) (jwt : Auth.Jwt) (config : Auth.AuthConfig)

def HttpStep (posts : Collection) (x : Exchange) (posts' : Collection) : Prop :=
  posts' = x.after M jwt config posts

/-- A user is admitted to a handler that writes, by a method that is not safe, and is told of
success. -/
def Effective (posts : Collection) (x : Exchange) : Prop :=
  x.request.method ∉ [.GET, .HEAD] ∧ ∃ user e, x.Admits jwt config user e ∧ e.Writes ∧
    (x.response M jwt config posts).status = .nat (Endpoint.statusCode (.member e))

/-- The call of the API that the request comes to. -/
def Exchange.call (x : Exchange) : Option PostsCall := (x.operation jwt config).map (⟨x.env, ·⟩)

end

theorem Exchange.effective_or_idle (x : Exchange) (posts : Collection) :
    Effective M jwt config posts x ∨ x.after M jwt config posts = posts := by
  have h := @outcome_response M jwt config x posts
  unfold Effective
  generalize x.response M jwt config posts = response at h ⊢
  generalize x.after M jwt config posts = posts' at h ⊢
  cases h with
  | shown | refused | failed => exact .inr rfl
  | served hadmits hstatus _ _ hwrites =>
    rcases hwrites with hwrites | rfl
    · exact .inl ⟨method_of_writes hadmits.1 hwrites, _, _, hadmits, hwrites, hstatus⟩
    · exact .inr rfl

/-- The posts are what the call makes of them. -/
theorem Exchange.after_call {x : Exchange} {call : PostsCall} (h : x.call jwt config = some call)
    (w : PostsWorld) : (call.after M w).posts = x.after M jwt config w.posts := by
  obtain ⟨op, hop, rfl⟩ := Option.map_eq_some_iff.mp h
  have hserve : ((x.serve M op).exec w.posts).2 = ((op.run M x.env).exec w.posts).2 :=
    congrArg Prod.snd (exec_map json (op.run M x.env) w.posts)
  unfold after
  rcases @exec_handle_cases M jwt config x w.posts with
    ⟨e, hopens⟩ | ⟨user, e, hadmits⟩ | ⟨hnone, -⟩
  · rw [operation_opens hopens] at hop
    rw [exec_handle_opens hopens]
    cases e <;> cases hop <;> exact hserve.symm
  · rw [operation_admits hadmits] at hop
    cases hop
    rw [exec_handle_admits hadmits]
    exact hserve.symm
  · rw [hnone] at hop
    cases hop

/-- A request that comes to no call changes nothing. -/
theorem Exchange.after_idle {x : Exchange} (h : x.call jwt config = none) (posts : Collection) :
    x.after M jwt config posts = posts := by
  have hop : x.operation jwt config = none := Option.map_eq_none_iff.mp h
  unfold after
  rcases @exec_handle_cases M jwt config x posts with
    ⟨e, hopens⟩ | ⟨user, e, hadmits⟩ | ⟨-, e, -, hrefused⟩
  · rw [exec_handle_opens hopens]
    exact silent_handlePublic e posts
  · rw [operation_admits hadmits] at hop
    cases hop
  · rw [hrefused]

/-- The request in the world of the API, which keeps a history. -/
def Exchange.next (M : Mongoose) (jwt : Auth.Jwt) (config : Auth.AuthConfig) (x : Exchange)
    (w : PostsWorld) : PostsWorld :=
  match x.call jwt config with
  | some call => call.after M w
  | none => w

theorem Exchange.next_call {x : Exchange} {call : PostsCall} (h : x.call jwt config = some call)
    (w : PostsWorld) : x.next M jwt config w = call.after M w := by
  unfold next
  rw [h]

theorem Exchange.next_idle {x : Exchange} (h : x.call jwt config = none) (w : PostsWorld) :
    x.next M jwt config w = w := by
  unfold next
  rw [h]

theorem Effective.call {x : Exchange} {posts : Collection} (h : Effective M jwt config posts x) :
    ∃ call, x.call jwt config = some call := by
  obtain ⟨-, user, e, hadmits, -⟩ := h
  unfold Exchange.call
  rw [Exchange.operation_admits hadmits]
  exact ⟨_, rfl⟩

/-- A run of HTTP requests comes to the run of those of them that are effective, and this is a run
of the API. -/
theorem run_api {posts posts' : Collection} {xs : List Exchange}
    (h : Run (HttpStep M jwt config) posts xs posts') :
    ∃ ys calls w, ys.Sublist xs ∧
      Run (Meeting (HttpStep M jwt config) (Effective M jwt config)) posts ys posts' ∧
      ys.map (Exchange.call jwt config) = calls.map some ∧ Run (ApiStep M) ⟨posts, []⟩ calls w ∧
      w.posts = posts' := by
  have hidle : ∀ posts x posts', HttpStep M jwt config posts x posts' →
      Effective M jwt config posts x ∨ posts' = posts := by
    rintro posts x posts' rfl
    exact x.effective_or_idle posts
  obtain ⟨ys, hsub, hrun⟩ := h.without_idle hidle
  suffices hcalls : ∃ calls w, ys.map (Exchange.call jwt config) = calls.map some ∧
      Run (ApiStep M) ⟨posts, []⟩ calls w ∧ w.posts = posts' by
    obtain ⟨calls, w, hcalls, hapi, hposts⟩ := hcalls
    exact ⟨ys, calls, w, hsub, hrun, hcalls, hapi, hposts⟩
  clear h hsub
  induction hrun with
  | nil => exact ⟨[], _, rfl, .nil _, rfl⟩
  | snoc _ hlast ih =>
    obtain ⟨calls, w, hcalls, hapi, rfl⟩ := ih
    obtain ⟨rfl, heffective⟩ := hlast
    obtain ⟨call, hcall⟩ := heffective.call
    refine ⟨calls ++ [call], call.after M w, ?_, hapi.snoc rfl, Exchange.after_call hcall w⟩
    rw [List.map_append, List.map_append, hcalls]
    simp [hcall]

/-! ### One post -/

def annPayload : Entries :=
  [("sub", .str ann.sub), ("email", .str ann.email), ("role", .str ann.role)]

/-- A request at time 0. -/
def arriving (method : Method) (path : List String) (authorization : Option String)
    (body : Entries) : Exchange where
  request := ⟨method, path, .undefined, .undefined, .undefined, authorization, .obj body, "/"⟩
  throttled := false
  clock := 0
  timestamp := "1970-01-01T00:00:00.000Z"
  env := noon

def annPosts : Exchange :=
  arriving .POST ["posts"] (some "Bearer access") [("title", .str "Hello"), ("content", .str "World")]

/-- The posts after an exchange, with one key and one payload. -/
def postsAfter (x : Exchange) (posts : Collection) : Collection :=
  x.after .plain (.single annPayload) Auth.accessOnly posts

/-- Ann posts, and a stranger asks for the deletion of her post. -/
theorem run_api_ann :
    let stranger := arriving .DELETE ["posts", helloId.toString] none []
    ((postsAfter annPosts .empty).get helloId).isSome = true ∧
      ∃ ys calls w, ys.Sublist [annPosts, stranger] ∧
        Run (Meeting (HttpStep .plain (.single annPayload) Auth.accessOnly)
          (Effective .plain (.single annPayload) Auth.accessOnly)) .empty ys
          (postsAfter stranger (postsAfter annPosts .empty)) ∧
        ys.map (Exchange.call (.single annPayload) Auth.accessOnly) = calls.map some ∧
        Run (ApiStep .plain) ⟨.empty, []⟩ calls w ∧
        w.posts = postsAfter stranger (postsAfter annPosts .empty) := by
  intro stranger
  refine ⟨by decide +kernel, ?_⟩
  exact run_api (.snoc (.snoc (.nil _) rfl) rfl)

end Posts
