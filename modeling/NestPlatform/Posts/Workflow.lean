-- SUMMARY: When the status of every post goes from draft over published to archived, over whole runs of the posts API.
import NestPlatform.Posts.Api

/-!
# The publishing workflow

A post has its status from the body of the create request or by default, from the bodies of
updates and from `publish`. None of the three looks at the status that is stored.
-/
namespace Posts

open Js Mongo Nest Common Database Services Effect Transition

/-! ## The property -/

inductive PostStatus where
  | DRAFT
  | PUBLISHED
  | ARCHIVED

namespace PostStatus

def value : PostStatus → Value
  | DRAFT => .str "draft"
  | PUBLISHED => .str "published"
  | ARCHIVED => .str "archived"

def rank : PostStatus → ℕ
  | DRAFT => 0
  | PUBLISHED => 1
  | ARCHIVED => 2

end PostStatus

/-- Both are statuses, and the second is not before the first. -/
def Forward (v v' : Value) : Prop :=
  ∃ status status' : PostStatus, v = status.value ∧ v' = status'.value ∧ status.rank ≤ status'.rank

/-- A request from `w` to `w'` starts new posts as drafts, and if it publishes a post, the post
was a draft and not deleted. -/
structure StartsAndPublishes (w : PostsWorld) (op : PostsOperation) (w' : PostsWorld) : Prop where
  starts : ∀ id post, w.posts.get id = none → w'.posts.get id = some post →
    post.fields "status" = PostStatus.DRAFT.value
  publishes : ∀ postId user, op = .publish postId user → ∀ id post post',
    w.posts.get id = some post → w'.posts.get id = some post' → post' ≠ post →
      post.fields "status" = PostStatus.DRAFT.value ∧
        (post.fields "deletedAt").nullish = true ∧
        post'.fields "status" = PostStatus.PUBLISHED.value

/-- Every post of `w` is still there in `w'`, with a status that is not before the one it had. -/
def MovedForward (w w' : PostsWorld) : Prop :=
  ∀ id post, w.posts.get id = some post → ∃ post', w'.posts.get id = some post' ∧
    Forward (post.fields "status") (post'.fields "status")

/-- The world after the requests, one after the other. -/
def worldAfter (M : Mongoose) (calls : List PostsCall) : PostsWorld :=
  calls.foldl (fun w call => call.after M w) .initial

/-- The requests keep to the workflow: each of them, and every post from any time to any later. -/
structure Workflow (M : Mongoose) (calls : List PostsCall) : Prop where
  request : ∀ before call after, calls = before ++ call :: after →
    StartsAndPublishes (worldAfter M before) call.op (worldAfter M (before ++ [call]))
  history : ∀ before between after, calls = before ++ between ++ after →
    MovedForward (worldAfter M before) (worldAfter M (before ++ between))

/-! ## The condition -/

/-- The update is applied to the post: nothing in it is refused. -/
def Applies (M : Mongoose) (post : Doc) (body : Value) : Prop :=
  ∃ f fields, (Update.body body).compile M PostSchema = some f ∧ f post.id post.fields = some fields

/-- The object leaves the status as it is or moves it forward. Operators that lead to the status
are judged by their effect. -/
def ObjectMovesForward (M : Mongoose) (post : Doc) (body : Entries) : Prop :=
  if "status" ∈ mentions (operatorEntries body) then
    ∀ f fields, compileObject M PostSchema body = some f → f post.id post.fields = some fields →
      Forward (post.fields "status") (fields "status")
  else ∀ v p x, ("status", v) ∈ body → PostSchema.path "status" = some p → p.set M v = some x →
    Forward (post.fields "status") x

/-- The update leaves the status as it is or moves it forward. A pipeline is judged by its
effect. -/
def BodyMovesForward (M : Mongoose) (post : Doc) : Value → Prop
  | .arr stages => ∀ f fields, M.pipeline PostSchema stages = some f →
      f post.fields = some fields → Forward (post.fields "status") (fields "status")
  | body => ObjectMovesForward M post body.entries

/-- The body of a create request gives no status, or `draft`. -/
def BodyStartsDraft (M : Mongoose) (dto : Entries) : Prop :=
  "status" ∉ dottedRoots dto ∧ ∀ v p x, ("status", v) ∈ dto → PostSchema.path "status" = some p →
    p.set M v = some x → x = .undefined ∨ x = PostStatus.DRAFT.value

/-- A post that is stored starts as a draft, an update that the controller lets through moves the
status forward, and a post that it lets publish is a draft and not deleted. -/
def FollowsWorkflow (M : Mongoose) (w : PostsWorld) (call : PostsCall) : Prop :=
  match call.op with
  | .create user dto => ∀ post, construct M PostSchema call.env
      (Entries.assign [("userId", .str user.sub)] dto.entries) = some post →
      validate PostSchema post.fields = true → w.posts.get post.id = none →
      BodyStartsDraft M dto.entries
  | .update id user dto => ∀ post, M.castId (.str id) = some post.id →
      w.posts.get post.id = some post → MayChange user post → Applies M post dto →
      BodyMovesForward M post dto
  | .publish id user => ∀ post, M.castId (.str id) = some post.id →
      w.posts.get post.id = some post → MayChange user post →
        post.fields "status" = PostStatus.DRAFT.value ∧ (post.fields "deletedAt").nullish = true
  | _ => True

/-! ## Statuses -/

variable {M : Mongoose} {w : PostsWorld}

theorem PostStatus.value_injective {status status' : PostStatus}
    (h : status.value = status'.value) : status = status' := by
  cases status <;> cases status' <;> first | rfl | exact absurd h (by decide)

theorem Forward.trans {u v v' : Value} (h : Forward u v) (h' : Forward v v') : Forward u v' := by
  obtain ⟨first, second, rfl, rfl, hle⟩ := h
  obtain ⟨second', third, hsame, rfl, hle'⟩ := h'
  obtain rfl := PostStatus.value_injective hsame
  exact ⟨first, third, rfl, rfl, hle.trans hle'⟩

theorem Forward.refl (status : PostStatus) : Forward status.value status.value :=
  ⟨status, status, rfl, rfl, le_rfl⟩

/-- Every stored post has one of the statuses. -/
def Declared (w : PostsWorld) : Prop :=
  ∀ id post, w.posts.get id = some post → ∃ status : PostStatus, post.fields "status" = status.value

theorem Declared.forward (h : Declared w) {id : ObjectId} {post : Doc}
    (hpost : w.posts.get id = some post) : Forward (post.fields "status") (post.fields "status") := by
  obtain ⟨status, hstatus⟩ := h id post hpost
  rw [hstatus]
  exact .refl status

/-! ## One request -/

/-- What a request keeps to. -/
structure InWorkflow (w : PostsWorld) (op : PostsOperation) (w' : PostsWorld) : Prop where
  own : StartsAndPublishes w op w'
  moved : MovedForward w w'

theorem MovedForward.declared {w' : PostsWorld} (h : MovedForward w w')
    (hstarts : ∀ id post, w.posts.get id = none → w'.posts.get id = some post →
      post.fields "status" = PostStatus.DRAFT.value) : Declared w' := by
  intro id post' hpost'
  cases hpost : w.posts.get id with
  | none => exact ⟨.DRAFT, hstarts id post' hpost hpost'⟩
  | some post =>
    obtain ⟨post'', hsame, status, status', -, hstatus', -⟩ := h id post hpost
    rw [hpost'] at hsame
    obtain rfl := Option.some.inj hsame
    exact ⟨status', hstatus'⟩

/-- A request that leaves every post as it is. -/
theorem InWorkflow.keep (h : Declared w) (op : PostsOperation) (history : List PostsEvent) :
    InWorkflow w op ⟨w.posts, history⟩ := by
  refine ⟨⟨?_, ?_⟩, ?_⟩
  · intro id post hnone hsome
    exact absurd (hnone.symm.trans hsome) (by simp)
  · intro postId user _ id post post' hpost hpost' hne
    exact absurd (Option.some.inj (hpost'.symm.trans hpost)) hne
  · intro id post hpost
    exact ⟨post, hpost, h.forward hpost⟩

/-- A request that stores a new draft. -/
theorem InWorkflow.insert (h : Declared w) {op : PostsOperation} {d : Doc}
    (hnew : w.posts.get d.id = none) (hop : ∀ postId user, op ≠ .publish postId user)
    (hstatus : d.fields "status" = PostStatus.DRAFT.value) (history : List PostsEvent) :
    InWorkflow w op ⟨w.posts.insert d hnew, history⟩ := by
  refine ⟨⟨?_, ?_⟩, ?_⟩
  · intro id post hnone hsome
    by_cases hself : id = d.id
    · subst hself
      rw [Collection.get_insert_self hnew] at hsome
      obtain rfl := Option.some.inj hsome
      exact hstatus
    · rw [Collection.get_insert_ne hself, hnone] at hsome
      cases hsome
  · intro postId user heq
    exact absurd heq (hop postId user)
  · intro id post hpost
    have hne : id ≠ d.id := by
      rintro rfl
      rw [hnew] at hpost
      cases hpost
    exact ⟨post, (Collection.get_insert_ne (h := hnew) hne).trans hpost, h.forward hpost⟩

/-- A request that writes one post. -/
theorem InWorkflow.put (h : Declared w) {op : PostsOperation} {d : Doc}
    (hd : w.posts.get d.id = some d) (env : Env) {fields : Fields}
    (hforward : Forward (d.fields "status") (fields "status"))
    (hpublish : ∀ postId user, op = .publish postId user →
      d.fields "status" = PostStatus.DRAFT.value ∧ (d.fields "deletedAt").nullish = true ∧
        fields "status" = PostStatus.PUBLISHED.value)
    (history : List PostsEvent) :
    InWorkflow w op ⟨w.posts.put (touch env d.id fields), history⟩ := by
  have hself : (w.posts.put (touch env d.id fields)).get d.id = some (touch env d.id fields) :=
    get_put_touch hd env fields
  have hother : ∀ id ≠ d.id, (w.posts.put (touch env d.id fields)).get id = w.posts.get id :=
    fun id hne => Collection.get_put_ne (d := touch env d.id fields) hne
  have hstatus : (touch env d.id fields).fields "status" = fields "status" :=
    touch_of_ne (by decide)
  refine ⟨⟨?_, ?_⟩, ?_⟩
  · intro id post hnone hsome
    have hne : id ≠ d.id := by
      rintro rfl
      rw [hd] at hnone
      cases hnone
    rw [hother id hne, hnone] at hsome
    cases hsome
  · intro postId user hop id post post' hpost hpost' hchanged
    by_cases hid : id = d.id
    · subst hid
      obtain rfl := Option.some.inj (hd.symm.trans hpost)
      obtain rfl := Option.some.inj (hself.symm.trans hpost')
      rw [hstatus]
      exact hpublish postId user hop
    · rw [hother id hid, hpost] at hpost'
      exact absurd (Option.some.inj hpost').symm hchanged
  · intro id post hpost
    by_cases hid : id = d.id
    · subst hid
      obtain rfl := Option.some.inj (hd.symm.trans hpost)
      exact ⟨_, hself, hstatus ▸ hforward⟩
    · exact ⟨post, (hother id hid).trans hpost, h.forward hpost⟩

/-! ## What the requests write -/

def statusPath : SchemaPath :=
  { name := "status", type := .string, enum := ["draft", "published", "archived"],
    default := .str "draft" }

theorem path_status : PostSchema.path "status" = some statusPath := rfl

theorem construct_status {env : Env} {user : JwtPayload} {dto : Value} {d : Doc}
    (hd : construct M PostSchema env (Entries.assign [("userId", .str user.sub)] dto.entries) = some d)
    (hdto : BodyStartsDraft M dto.entries) : d.fields "status" = PostStatus.DRAFT.value := by
  rcases construct_cases hd path_status (notMem_dottedRoots_spread hdto.1) (by decide) with
    hdefault | ⟨v, hv, hset, hdefined⟩
  · exact hdefault
  · rcases Entries.mem_assign hv with hbase | hbody
    · simp at hbase
    · exact (hdto.2 v _ _ hbody path_status hset).resolve_left hdefined

theorem ObjectMovesForward.forward {d : Doc} {body : Entries} (h : ObjectMovesForward M d body)
    (hself : Forward (d.fields "status") (d.fields "status"))
    {f : ObjectId → Fields → Option Fields} (hf : compileObject M PostSchema body = some f)
    {fields : Fields} (hfields : f d.id d.fields = some fields) :
    Forward (d.fields "status") (fields "status") := by
  unfold ObjectMovesForward at h
  split at h
  case isTrue => exact h f fields hf hfields
  case isFalse hplain =>
    rcases compileObject_cases hf hfields hplain with hkeep | ⟨v, p, hv, hp, hset⟩
    · rw [hkeep]
      exact hself
    · exact h v p _ hv hp hset

theorem BodyMovesForward.forward {d : Doc} {body : Value} (h : BodyMovesForward M d body)
    (hself : Forward (d.fields "status") (d.fields "status"))
    {f : ObjectId → Fields → Option Fields} (hf : (Update.body body).compile M PostSchema = some f)
    {fields : Fields} (hfields : f d.id d.fields = some fields) :
    Forward (d.fields "status") (fields "status") := by
  cases body with
  | arr stages =>
    obtain ⟨g, hg, rfl⟩ := Option.map_eq_some_iff.mp hf
    exact h g fields hg hfields
  | undefined | null | bool | num | str | date | obj =>
    exact ObjectMovesForward.forward h hself hf hfields

theorem publish_status {d : Doc} {f : ObjectId → Fields → Option Fields}
    (hf : (Update.body (.obj [("status", .str "published")])).compile M PostSchema = some f)
    {fields : Fields} (hfields : f d.id d.fields = some fields) :
    fields "status" = PostStatus.PUBLISHED.value := by
  have hcast : M.cast .string (.str "published") = some (.str "published") := M.cast_accepts rfl
  have hset : statusPath.set M (.str "published") = some (.str "published") := by
    simp [SchemaPath.set, statusPath, Value.nullish, hcast, SchemaPath.setters]
  rw [compile_single (by decide) (by decide) path_status hset] at hf
  obtain rfl := Option.some.inj hf
  obtain rfl := Option.some.inj hfields
  simp [Fields.assign, PostStatus.value]

/-- An update that meets the condition moves the status forward, and one that publishes finds a
draft that is not deleted. -/
theorem changed_status (h : Declared w) {env : Env} {op : PostsOperation}
    (hop : FollowsWorkflow M w ⟨env, op⟩) {id : String} {user : JwtPayload} {body : Value}
    (hchange : changeOf env op = some (id, user, body)) {d : Doc}
    (hid : M.castId (.str id) = some d.id) (hd : w.posts.get d.id = some d)
    (howner : MayChange user d) {f : ObjectId → Fields → Option Fields}
    (hf : (Update.body body).compile M PostSchema = some f) {fields : Fields}
    (hfields : f d.id d.fields = some fields) :
    Forward (d.fields "status") (fields "status") ∧
      ∀ postId user, op = .publish postId user →
        d.fields "status" = PostStatus.DRAFT.value ∧ (d.fields "deletedAt").nullish = true ∧
          fields "status" = PostStatus.PUBLISHED.value := by
  cases op with
  | update postId user' dto =>
    cases hchange
    have hbody := hop d hid hd howner ⟨f, fields, hf, hfields⟩
    exact ⟨hbody.forward (h.forward hd) hf hfields, by simp⟩
  | publish postId user' =>
    cases hchange
    obtain ⟨hdraft, hlive⟩ := hop d hid hd howner
    have hpublished := publish_status hf hfields
    refine ⟨?_, fun _ _ _ => ⟨hdraft, hlive, hpublished⟩⟩
    rw [hdraft, hpublished]
    exact ⟨.DRAFT, .PUBLISHED, rfl, rfl, Nat.zero_le _⟩
  | delete postId user' =>
    cases hchange
    have hkeep : fields "status" = d.fields "status" :=
      (keepsPath_single d (by decide) (by decide) _).fields_eq hf hfields
    rw [hkeep]
    exact ⟨h.forward hd, by simp⟩
  | create | list | getUserPosts | findById | like | unlike => cases hchange

/-- A like or unlike writes the status back as it is stored. -/
theorem reacted_status (h : Declared w) {d : Doc} (hd : w.posts.get d.id = some d)
    (r : LikeRequest M d.id) {post : Doc}
    (hedit : r.edit (hydrate PostSchema [] d) = .ok (some post)) :
    overwrite PostSchema post d.fields "status" = d.fields "status" := by
  apply overwrite_edited r hedit (by decide)
  apply hydrate_defined
  obtain ⟨status, hstatus⟩ := h d.id d hd
  rw [hstatus]
  cases status <;> simp [PostStatus.value]

/-- A request that meets the condition keeps to the workflow. -/
theorem inWorkflow_after (h : Declared w) {call : PostsCall} (hcall : FollowsWorkflow M w call) :
    InWorkflow w call.op (call.after M w) := by
  obtain ⟨env, op⟩ := call
  obtain ⟨event, posts, heffect, hafter⟩ := PostsCall.after_eq M ⟨env, op⟩ w
  rw [hafter]
  cases heffect with
  | idle => exact .keep h _ _
  | created hnew hd hvalid =>
    exact .insert h hnew (by simp) (construct_status hd (hcall _ hd hvalid hnew)) _
  | changed hchange hid hd howner hf hfields =>
    obtain ⟨hforward, hpublish⟩ := changed_status h hcall hchange hid hd howner hf hfields
    exact .put h hd env hforward hpublish _
  | @reacted op d r edited hreaction hd hedit =>
    have hop : ∀ postId user, op ≠ .publish postId user := by
      rintro postId user rfl
      cases hreaction
    cases edited with
    | none => exact .keep h _ _
    | some post =>
      refine .put h hd env ?_ (fun postId user heq => absurd heq (hop postId user)) _
      rw [reacted_status h hd r hedit]
      exact h.forward hd

/-! ## Runs -/

theorem MovedForward.refl (h : Declared w) : MovedForward w w := by
  intro id post hpost
  exact ⟨post, hpost, h.forward hpost⟩

theorem MovedForward.trans {w' w'' : PostsWorld} (h : MovedForward w w') (h' : MovedForward w' w'') :
    MovedForward w w'' := by
  intro id post hpost
  obtain ⟨post', hpost', hforward⟩ := h id post hpost
  obtain ⟨post'', hpost'', hforward'⟩ := h' id post' hpost'
  exact ⟨post'', hpost'', hforward.trans hforward'⟩

theorem eq_foldl_of_run {calls : List PostsCall} {w' : PostsWorld} (h : Run (ApiStep M) w calls w') :
    w' = calls.foldl (fun w call => call.after M w) w := by
  induction h with
  | nil => rfl
  | snoc _ hlast ih =>
    rw [List.foldl_append, ← ih]
    exact hlast

theorem worldAfter_snoc (calls : List PostsCall) (call : PostsCall) :
    worldAfter M (calls ++ [call]) = call.after M (worldAfter M calls) := List.foldl_concat _ _ _ _

theorem worldAfter_append (calls calls' : List PostsCall) :
    worldAfter M (calls ++ calls') =
      calls'.foldl (fun w call => call.after M w) (worldAfter M calls) := List.foldl_append

/-- Steps that meet the condition keep the statuses and move them forward. -/
theorem run_moved {calls : List PostsCall} {w' : PostsWorld}
    (h : Run (Meeting (ApiStep M) (FollowsWorkflow M)) w calls w') (hw : Declared w) :
    Declared w' ∧ MovedForward w w' := by
  have hstep : ∀ v call v', (Declared v ∧ MovedForward w v) →
      Meeting (ApiStep M) (FollowsWorkflow M) v call v' → Declared v' ∧ MovedForward w v' := by
    rintro v call _ ⟨hv, hmoved⟩ ⟨rfl, hcall⟩
    have hafter := inWorkflow_after hv hcall
    exact ⟨hafter.moved.declared hafter.own.starts, hmoved.trans hafter.moved⟩
  exact h.invariant hstep ⟨hw, .refl hw⟩

/-- In every run of the posts API whose requests all meet the condition, posts start as drafts,
only drafts that are not deleted are published, and every status moves forward. -/
theorem run_workflow {calls : List PostsCall} {w : PostsWorld}
    (h : Run (Meeting (ApiStep M) (FollowsWorkflow M)) .initial calls w) : Workflow M calls := by
  have hinit : Declared .initial := by
    intro id post hpost
    cases hpost
  constructor
  · rintro before call after rfl
    obtain ⟨v, hbefore, hrest⟩ := h.append_inv
    obtain ⟨v', ⟨rfl, hcondition⟩, -⟩ := hrest.cons_inv
    obtain rfl : v = worldAfter M before := eq_foldl_of_run hbefore.unmeet
    rw [worldAfter_snoc]
    exact (inWorkflow_after (run_moved hbefore hinit).1 hcondition).own
  · rintro before between after rfl
    obtain ⟨v', hto, -⟩ := h.append_inv
    obtain ⟨v, hbefore, hbetween⟩ := hto.append_inv
    obtain rfl : v = worldAfter M before := eq_foldl_of_run hbefore.unmeet
    rw [worldAfter_append, ← eq_foldl_of_run hbetween.unmeet]
    exact (run_moved hbetween (run_moved hbefore hinit).1).2

/-! ### One post -/

def annPublishes : PostsCall := ⟨noon, .publish helloId.toString ann⟩

/-- Ann publishes her draft, and Bob likes it. -/
theorem run_workflow_published : Workflow .plain [creates [], annPublishes, bobLikes] := by
  have hcreate : FollowsWorkflow .plain .initial (creates []) := by
    intro post _ _ _
    constructor
    · decide
    · intro v p x hmem
      have hkey : "status" ∉ ["title", "content"] := by decide
      exact absurd (List.mem_map_of_mem (f := Prod.fst) hmem) hkey
  have hpublish : FollowsWorkflow .plain ((creates []).after .plain .initial) annPublishes := by
    intro post hid hpost _
    have hself : helloId = post.id :=
      Option.some.inj ((Mongoose.plain.castId_toString helloId).symm.trans hid)
    have hfields : (((creates []).after .plain .initial).posts.get helloId).map
        (fun post => (post.fields "status", post.fields "deletedAt")) =
          some (.str "draft", .null) := by decide
    rw [hself, hpost] at hfields
    obtain ⟨hstatus, hdeletedAt⟩ := Prod.mk.inj (Option.some.inj hfields)
    exact ⟨hstatus, by rw [hdeletedAt]; rfl⟩
  exact run_workflow (.snoc (.snoc (.snoc (.nil _) ⟨rfl, hcreate⟩) ⟨rfl, hpublish⟩) ⟨rfl, trivial⟩)

/-- Ann creates an archived post and publishes it. -/
theorem archived_published :
    Run (ApiStep .plain) .initial [creates [("status", .str "archived")], annPublishes]
        (worldAfter .plain [creates [("status", .str "archived")], annPublishes]) ∧
      field helloId (worldAfter .plain [creates [("status", .str "archived")]]).posts "status" =
        .str "archived" ∧
      field helloId (worldAfter .plain [creates [("status", .str "archived")], annPublishes]).posts
        "status" = .str "published" ∧
      ¬ Workflow .plain [creates [("status", .str "archived")], annPublishes] := by
  refine ⟨.snoc (.snoc (.nil _) rfl) rfl, by decide, by decide, ?_⟩
  intro h
  have hcreated : ((worldAfter .plain [creates [("status", .str "archived")]]).posts.get helloId).map
      (fun post => post.fields "status") = some (.str "archived") := by decide
  obtain ⟨post, hpost, hstatus⟩ := Option.map_eq_some_iff.mp hcreated
  have hdraft := (h.request [] _ _ rfl).starts helloId post rfl hpost
  rw [hstatus] at hdraft
  exact absurd hdraft (by decide)

end Posts
