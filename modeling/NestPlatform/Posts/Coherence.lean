-- SUMMARY: Posts as registers: answers agree on a post until a request that may change it.
import NestPlatform.Database.Shown
import NestPlatform.Lib.Register
import NestPlatform.Posts.Independence

/-!
# Coherent answers of the posts service

An answer has a post by itself or in a list. What one answer has, every later one has and everyone
reads, until a request that is not a read names the post.
-/
namespace Posts

open Js Mongo Nest Common Database Services Effect Transition

variable {M : Mongoose} {env : Env} {jwt : Auth.Jwt} {config : Auth.AuthConfig}

/-! ## Operations -/

theorem displayed : Displayed PostSchema := ⟨by decide, by decide⟩

/-- A post is created from a body without dotted keys. -/
def Undotted : PostsOperation → Prop
  | .create _ dto => dottedRoots dto.entries = []
  | _ => True

theorem shows_paged (page limit : Value) {go : Value → Value → Store Page}
    (hgo : ∀ skip limit, Shows PostSchema Page.items (go skip limit)) :
    Shows PostSchema Page.items (PostsController.paged page limit go) := by
  unfold PostsController.paged
  split
  · exact hgo _ _
  · exact Shows.throw _

theorem shows_asOwner (id : String) (user : JwtPayload) {go : Store Doc}
    (hgo : Shows PostSchema (fun r => [r]) go) :
    Shows PostSchema (fun r => [r]) (PostsController.asOwner M env id user go) := by
  apply Shows.bind
  intro post
  split
  · exact Shows.throw _
  · exact hgo

/-- A like that changes nothing returns the post as it was read. -/
theorem shows_editLikes (edit : Doc → Except Thrown (Option Doc)) (id : String) :
    Shows PostSchema (fun r => [r]) (PostsService.editLikes M env edit (.str id)) := by
  intro posts posts' r h
  obtain ⟨post, found, hfound, hrest⟩ := exec_bind_eq_ok.mp h
  cases hedit : edit post with
  | error e =>
    rw [hedit] at hrest
    cases hrest
  | ok edited =>
    rw [hedit] at hrest
    cases edited with
    | none =>
      cases hrest
      exact Shows.findById id _ _ _ hfound
    | some post' => exact Shows.findOneAndUpdate _ _ _ _ _ hrest

theorem shows_operation {op : PostsOperation} (h : Undotted op) :
    Shows PostSchema Answer.docs (op.run M env) := by
  cases op with
  | create user dto => exact (Shows.create displayed (dottedRoots_userId _ h)).map
  | list page limit tag =>
    apply Shows.map
    apply shows_paged
    intro skip limit
    split
    · exact Shows.findPage _ _
    · exact Shows.findPage _ _
  | getUserPosts userId page limit user =>
    apply Shows.map
    unfold PostsController.getUserPosts
    split
    · exact Shows.throw _
    · exact shows_paged _ _ fun _ _ => Shows.findPage _ _
  | findById id => exact (Shows.findById id).map
  | update id user dto => exact (shows_asOwner id user (Shows.findOneAndUpdate _ _)).map
  | delete id user => exact (shows_asOwner id user (Shows.findOneAndUpdate _ _)).map
  | publish id user => exact (shows_asOwner id user (Shows.findOneAndUpdate _ _)).map
  | like id user => exact (shows_editLikes _ id).map
  | unlike id user => exact (shows_editLikes _ id).map

theorem has_json {answer : Answer} {id : ObjectId} {v : Value} (h : Has (json answer) id v) :
    ∃ r ∈ answer.docs, v = toObject PostSchema r ∧ r.id = id := by
  cases answer with
  | one d => exact has_toObject displayed h
  | page p => exact has_page h
  | optional d =>
    cases d with
    | some d => exact has_toObject displayed h
    | none => exact absurd h (not_has rfl)

/-! ## Requests -/

namespace Exchange

section

variable (M : Mongoose) (jwt : Auth.Jwt) (config : Auth.AuthConfig) (x : Exchange)

/-- If the request names the post, then only to read it. -/
def Spares (id : ObjectId) : Prop :=
  ∀ op, x.operation jwt config = some op → namedBy M x.env op = some id → ∃ s, op = .findById s

/-- The answer has the post as `v`, by itself or in a list. -/
structure Tells (id : ObjectId) (posts : Collection) (v : Value) : Prop where
  operation : ∃ op, x.operation jwt config = some op ∧ Undotted op
  has : Has ((x.response M jwt config posts).body.get "data") id v

end

variable {x : Exchange} {posts : Collection} {id : ObjectId} {v : Value}

/-- Only the answer of a call has data. -/
theorem has_respond {r : Except Thrown (ℕ × Value)} (h : Has ((x.respond r).body.get "data") id v) :
    ∃ n data, r = .ok (n, data) ∧ Has data id v := by
  unfold respond at h
  split at h
  · exact absurd h (not_has rfl)
  · exact ⟨_, _, rfl, h⟩
  · exact absurd h (not_has rfl)
  · exact absurd h (not_has rfl)

/-- What an answer tells of the post is what a read gets afterwards. -/
theorem Tells.reading (h : x.Tells M jwt config id posts v) :
    Database.reading PostSchema (x.after M jwt config posts) id = some v := by
  obtain ⟨⟨op, hop, hundotted⟩, hhas⟩ := h
  obtain ⟨n, hhandle⟩ := exec_handle_operation (M := M) hop
  cases hserve : (x.serve M op).exec posts with
  | mk r posts' =>
    unfold response at hhas
    obtain ⟨m, data, hok, hdata⟩ := has_respond hhas
    unfold after
    rw [hhandle, hserve] at hok ⊢
    cases r with
    | error e => cases hok
    | ok data' =>
      cases hok
      exact (shows_operation hundotted).reading (fun _ => has_json) hserve hdata

theorem Spares.reading (h : x.Spares M jwt config id) (posts : Collection) :
    Database.reading PostSchema (x.after M jwt config posts) id =
      Database.reading PostSchema posts id := by
  have hkeep : (x.after M jwt config posts).get id = posts.get id := by
    by_cases hnames : x.names M jwt config = some id
    · obtain ⟨op, hop, hnamed⟩ := Option.bind_eq_some_iff.mp hnames
      obtain ⟨s, rfl⟩ := h op hop hnamed
      obtain ⟨n, hhandle⟩ := exec_handle_operation (M := M) hop
      have hsame : ((x.serve M (.findById s)).exec posts).2 = posts := by
        unfold serve
        rw [exec_map]
        exact (apiEffect (.findById s)).eq_of_read (fun _ _ => PostsOperation.noConfusion) rfl rfl
      unfold after
      rw [hhandle]
      exact congrArg (fun c : Collection => c.get id) hsame
    · exact keyed.others x id posts trivial hnames
  exact congrArg (Option.map _) hkeep

/-- A read that is answered gets what there is. -/
theorem response_read {s : String} (hopens : x.Opens (.findById s))
    (hid : M.castId (.str s) = some id)
    (hreading : Database.reading PostSchema posts id = some v) :
    x.response M jwt config posts = x.respond (.ok (200, v)) := by
  obtain ⟨d, hd, rfl⟩ := Option.map_eq_some_iff.mp hreading
  have hfound : (PostsController.findById M x.env s).exec posts =
      (.ok (hydrate PostSchema [] d), posts) := AbstractRepository.exec_findById_str hid hd
  have hserved : (x.handlePublic M (.findById s)).exec posts =
      (.ok (toObject PostSchema (hydrate PostSchema [] d)), posts) := by
    unfold handlePublic serve PostsOperation.run
    rw [exec_map, exec_map, hfound]
    rfl
  unfold response
  rw [exec_handle_opens hopens, hserved]
  rfl

end Exchange

/-- Each post is a register: answers show what it holds. -/
theorem register (id : ObjectId) :
    Register (Exchange.after M jwt config) (fun posts => Database.reading PostSchema posts id)
      (fun x posts v => x.Tells M jwt config id posts v) fun x => x.Spares M jwt config id where
  shown _ _ _ h := h.reading
  spared _ posts h := h.reading posts

/-- What an answer has of a post, every later answer has and everyone reads, as long as the requests
that name the post only read it. -/
theorem run_posts_coherent {posts posts' : Collection} {x : Exchange} {between : List Exchange}
    {id : ObjectId} {v : Value} (htells : x.Tells M jwt config id posts v)
    (h : Run (Meeting (HttpStep M jwt config) fun _ z => z.Spares M jwt config id)
      (x.after M jwt config posts) between posts') (y : Exchange) :
    (∀ w, y.Spares M jwt config id → y.Tells M jwt config id posts' w → w = v) ∧
      ∀ s, y.Opens (.findById s) → M.castId (.str s) = some id →
        y.response M jwt config posts' = y.respond (.ok (200, v)) := by
  constructor
  · intro w hspares hagain
    exact (register id).coherent htells h hspares hagain
  · intro s hopens hid
    exact Exchange.response_read hopens hid ((register id).holds_of_shown htells h)

/-! ### One post -/

/-- Anyone reads Ann's first post. -/
def helloReads : Exchange := arriving .GET ["posts", helloId.toString] none []

/-- Another post does not change what is read of the first one. -/
theorem run_posts_coherent_ann :
    let created := answered .empty annPosts
    let later := answered created.2 annPostsMore
    Entries.get (created.1.body.get "data").entries "title" = .str "Hello" ∧
      (answered later.2 helloReads).1 =
        helloReads.respond (.ok (200, created.1.body.get "data")) := by
  intro created later
  have htitle : Entries.get (created.1.body.get "data").entries "title" = .str "Hello" := by
    decide +kernel
  have hid : Entries.get (created.1.body.get "data").entries "_id" = .str helloId.toString := by
    decide +kernel
  let body : Value := .obj [("title", .str "Hello"), ("content", .str "World")]
  have hop : annPosts.operation (.single annPayload) Auth.accessOnly = some (.create ann body) := rfl
  have hundotted : Undotted (.create ann body) := by
    unfold Undotted
    decide
  have htells : annPosts.Tells .plain (.single annPayload) Auth.accessOnly helloId .empty
      (created.1.body.get "data") := ⟨⟨_, hop, hundotted⟩, hid, .inl rfl⟩
  have hspares : annPostsMore.Spares .plain (.single annPayload) Auth.accessOnly helloId := by
    intro op hmore hnamed
    have hother : annPostsMore.names .plain (.single annPayload) Auth.accessOnly = some otherId := by
      decide +kernel
    unfold Exchange.names at hother
    rw [hmore, Option.bind_some, hnamed] at hother
    exact absurd hother (by decide)
  have hrun : Run (Meeting (HttpStep .plain (.single annPayload) Auth.accessOnly)
      fun _ z => z.Spares .plain (.single annPayload) Auth.accessOnly helloId)
      (annPosts.after .plain (.single annPayload) Auth.accessOnly .empty)
      [annPostsMore] later.2 := .snoc (.nil _) ⟨rfl, hspares⟩
  have hopens : helloReads.Opens (.findById helloId.toString) := ⟨rfl, rfl⟩
  have hread := (run_posts_coherent htells hrun helloReads).2 _ hopens
    (Mongoose.plain.castId_toString helloId)
  have hresponse : ∀ posts x, (answered posts x).1 =
      x.response .plain (.single annPayload) Auth.accessOnly posts := fun _ _ => rfl
  exact ⟨htitle, (hresponse later.2 helloReads).trans hread⟩

end Posts
