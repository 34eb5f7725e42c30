-- SUMMARY: Runs of the posts API, one request after the other, with the history of posts and likes.
import NestPlatform.Posts.Requests
import NestPlatform.Services.Operations

/-!
# The posts API

Requests that do not overlap, by any users and with any bodies. The history keeps who
created each post and the likes and unlikes that the service has answered; the code never
reads it.
-/
namespace Posts

open Js Mongo Nest Common Database Services Effect

/-! ## History -/

inductive PostsEvent where
  /-- With the `sub` of the token. -/
  | created (id : ObjectId) (sub : String)
  | reacted (action : LikeAction) (id : ObjectId) (userId : String)

/-- The event that an answered request is. -/
def eventOf (op : PostsOperation) (result : Except Thrown Answer) : Option PostsEvent :=
  match op, result with
  | .create user _, .ok (.one post) => some (.created post.id user.sub)
  | .like _ user, .ok (.one post) => some (.reacted .like post.id user.sub)
  | .unlike _ user, .ok (.one post) => some (.reacted .unlike post.id user.sub)
  | _, _ => none

structure PostsWorld where
  posts : Collection
  history : List PostsEvent

namespace PostsWorld

def initial : PostsWorld := ⟨.empty, []⟩

def IsInitial (w : PostsWorld) : Prop := w = initial

end PostsWorld

structure PostsCall where
  env : Env
  op : PostsOperation

variable (M : Mongoose)

def PostsCall.after (call : PostsCall) (w : PostsWorld) : PostsWorld where
  posts := ((call.op.run M call.env).exec w.posts).2
  history := w.history ++ (eventOf call.op ((call.op.run M call.env).exec w.posts).1).toList

def ApiStep (w : PostsWorld) (call : PostsCall) (w' : PostsWorld) : Prop := w' = call.after M w

/-! ## What a request can do -/

/-- The post, the caller and the body of a request that updates a post. -/
def changeOf (env : Env) : PostsOperation → Option (String × JwtPayload × Value)
  | .update id user dto => some (id, user, dto)
  | .publish id user => some (id, user, .obj [("status", .str "published")])
  | .delete id user => some (id, user, .obj [("deletedAt", .date env.now)])
  | _ => none

/-- The action, the post and the user of a like or unlike. -/
def reactionOf : PostsOperation → Option (LikeAction × String × String)
  | .like id user => some (.like, id, user.sub)
  | .unlike id user => some (.unlike, id, user.sub)
  | _ => none

/-- The controller lets the caller change the post. -/
def MayChange (user : JwtPayload) (post : Doc) : Prop :=
  post.fields "userId" = .str user.sub ∨ user.role = Constants.UserRole.ADMIN

/-- The collection after a like or unlike of the post `d` that has come to `edited`. -/
def rewritten (env : Env) (c : Collection) (d : Doc) : Option Doc → Collection
  | some post => c.put (touch env d.id (overwrite PostSchema post d.fields))
  | none => c

/-- What an answered or refused request leaves in the history and in the collection. -/
inductive ApiEffect (env : Env) (c : Collection) :
    PostsOperation → Option PostsEvent → Collection → Prop where
  | idle {op : PostsOperation} : ApiEffect env c op none c
  | created {user : JwtPayload} {dto : Value} {d : Doc} (hnew : c.get d.id = none) :
      construct M PostSchema env (Entries.assign [("userId", .str user.sub)] dto.entries) = some d →
      validate PostSchema d.fields = true →
      ApiEffect env c (.create user dto) (some (.created d.id user.sub)) (c.insert d hnew)
  | changed {op : PostsOperation} {id : String} {user : JwtPayload} {body : Value} {d : Doc}
      {f : ObjectId → Fields → Option Fields} {fields : Fields} :
      changeOf env op = some (id, user, body) → M.castId (.str id) = some d.id →
      c.get d.id = some d → MayChange user d → (Update.body body).compile M PostSchema = some f →
      f d.id d.fields = some fields → ApiEffect env c op none (c.put (touch env d.id fields))
  | reacted {op : PostsOperation} {d : Doc} {r : LikeRequest M d.id} {edited : Option Doc} :
      reactionOf op = some (r.action, r.postId, r.userId) → c.get d.id = some d →
      r.edit (hydrate PostSchema [] d) = .ok edited →
      ApiEffect env c op (some (.reacted r.action d.id r.userId))
        (rewritten env c d edited)

variable {M} {env : Env} {c : Collection}

/-- A check that fails changes nothing, and one that succeeds has found a post that the
caller may change. -/
theorem asOwner_cases (id : String) (user : JwtPayload) (go : Store Doc) :
    ((PostsController.asOwner M env id user go).exec c).2 = c ∨
      ∃ d, M.castId (.str id) = some d.id ∧ c.get d.id = some d ∧ MayChange user d ∧
        ((PostsController.asOwner M env id user go).exec c).2 = (go.exec c).2 := by
  unfold PostsController.asOwner
  rw [exec_bind]
  have hkeep : ((PostsService.findById M env (.str id)).exec c).2 = c :=
    AbstractRepository.exec_findById _ _
  cases hfound : (PostsService.findById M env (.str id)).exec c with
  | mk result c' =>
    rw [hfound] at hkeep
    cases result with
    | error e => exact .inl hkeep
    | ok post =>
      obtain ⟨rfl, d, hid, hd, rfl⟩ := AbstractRepository.exec_findById_eq_ok hfound
      dsimp only
      split
      · exact .inl rfl
      · rename_i howner
        refine .inr ⟨d, hid, hd, ?_, rfl⟩
        rw [userId_hydrate] at howner
        unfold MayChange
        tauto

/-- A request that updates a post changes nothing or makes its update. -/
theorem apiEffect_change {op : PostsOperation} {id : String} {user : JwtPayload} {body : Value}
    (hchange : changeOf env op = some (id, user, body))
    (hrun : (op.run M env) = .one <$> PostsController.asOwner M env id user
      (AbstractRepository.findOneAndUpdate M PostSchema env (byId (.str id)) (.body body))) :
    ApiEffect M env c op none ((op.run M env).exec c).2 := by
  rw [hrun, exec_map]
  dsimp only
  rcases asOwner_cases id user (AbstractRepository.findOneAndUpdate M PostSchema env (byId (.str id))
    (.body body)) with hkeep | ⟨d, hid, hd, howner, hgo⟩
  · rw [hkeep]
    exact .idle
  · rw [hgo, AbstractRepository.state_findOneAndUpdate_str PostSchema_unique hid _ hd]
    cases hf : (Update.body body).compile M PostSchema with
    | none => exact .idle
    | some f =>
      rw [Option.bind_some]
      cases hfields : f d.id d.fields with
      | none => exact .idle
      | some fields => exact .changed hchange hid hd howner hf hfields

/-- A like or unlike is refused, or it has found its post and written what it made of it. -/
theorem apiEffect_reaction {op : PostsOperation} {action : LikeAction} {id userId : String}
    (hreaction : reactionOf op = some (action, id, userId))
    {edit : Doc → Except Thrown (Option Doc)}
    (hedit : ∀ (d : Doc) (hid : M.castId (.str id) = some d.id),
      edit = (⟨action, id, userId, hid⟩ : LikeRequest M d.id).edit)
    (hrun : op.run M env = .one <$> PostsService.editLikes M env edit (.str id))
    (hevent : ∀ post, eventOf op (.ok (.one post)) = some (.reacted action post.id userId))
    (hrefused : ∀ e, eventOf op (.error e) = none) :
    ApiEffect M env c op (eventOf op ((op.run M env).exec c).1) ((op.run M env).exec c).2 := by
  rw [hrun, exec_map]
  unfold PostsService.editLikes
  rw [exec_bind]
  have hkeep : ((AbstractRepository.findById M PostSchema env (.str id)).exec c).2 = c :=
    AbstractRepository.exec_findById _ _
  cases hfound : (AbstractRepository.findById M PostSchema env (.str id)).exec c with
  | mk result c' =>
    rw [hfound] at hkeep
    cases result with
    | error e =>
      obtain rfl : c' = c := hkeep
      change ApiEffect M env c' op (eventOf op (.error e)) c'
      rw [hrefused]
      exact .idle
    | ok post =>
      -- the edit is made on what was found, and the whole document is written back
      obtain ⟨rfl, d, hid, hd, rfl⟩ := AbstractRepository.exec_findById_eq_ok hfound
      dsimp only
      cases hpost : edit (hydrate PostSchema [] d) with
      | error e =>
        change ApiEffect M env c' op (eventOf op (.error e)) c'
        rw [hrefused]
        exact .idle
      | ok edited =>
        rw [hedit d hid] at hpost
        cases edited with
        | none =>
          change ApiEffect M env c' op (eventOf op (.ok (.one (hydrate PostSchema [] d)))) c'
          rw [hevent]
          exact .reacted hreaction hd hpost
        | some post' =>
          have hcompile : (Update.document post').compile M PostSchema =
              some fun _ fields => some (overwrite PostSchema post' fields) := rfl
          dsimp only
          rw [AbstractRepository.exec_findOneAndUpdate_str PostSchema_unique hid hcompile hd rfl]
          change ApiEffect M env c' op (eventOf op (.ok (.one _))) _
          rw [hevent]
          exact .reacted hreaction hd hpost

theorem apiEffect_create (user : JwtPayload) (dto : Value) :
    ApiEffect M env c (.create user dto)
      (eventOf (.create user dto) (((PostsOperation.create user dto).run M env).exec c).1)
      (((PostsOperation.create user dto).run M env).exec c).2 := by
  have hrun : (PostsOperation.create user dto).run M env = .one <$> AbstractRepository.create M
      PostSchema env (Entries.assign [("userId", .str user.sub)] dto.entries) := rfl
  rw [hrun, exec_map]
  cases hcreate : (AbstractRepository.create M PostSchema env
      (Entries.assign [("userId", .str user.sub)] dto.entries)).exec c with
  | mk result c' =>
    rcases AbstractRepository.exec_create hcreate with
      ⟨rfl, e, rfl⟩ | ⟨d, hnew, hd, hvalid, rfl, rfl⟩
    · exact .idle
    · exact .created hnew hd hvalid

/-- Every request has one of these effects. -/
theorem apiEffect (op : PostsOperation) :
    ApiEffect M env c op (eventOf op ((op.run M env).exec c).1) ((op.run M env).exec c).2 := by
  -- reading operations have no event and write nothing
  have hread : ∀ {op : PostsOperation}, (∀ r, eventOf op r = none) → ((op.run M env).exec c).2 = c →
      ApiEffect M env c op (eventOf op ((op.run M env).exec c).1) ((op.run M env).exec c).2 := by
    intro op hevent hkeep
    rw [hevent, hkeep]
    exact .idle
  have hpaged : ∀ (page limit : Value) (go : Value → Value → Store Page),
      (∀ skip limit, ((go skip limit).exec c).2 = c) →
      ((PostsController.paged page limit go).exec c).2 = c := by
    intro page limit go hgo
    unfold PostsController.paged
    split
    · exact hgo _ _
    · rfl
  cases op with
  | create user dto => exact apiEffect_create user dto
  | list page limit tag =>
    refine hread (fun r => by cases r <;> rfl) ?_
    change (exec (Answer.page <$> PostsController.list M env page limit tag) c).2 = c
    rw [exec_map]
    refine hpaged page limit _ fun skip limit => ?_
    split <;> exact AbstractRepository.exec_findPage _ _ _
  | getUserPosts userId page limit user =>
    refine hread (fun r => by cases r <;> rfl) ?_
    change (exec (Answer.page <$> PostsController.getUserPosts M env userId page limit user) c).2 = c
    rw [exec_map]
    unfold PostsController.getUserPosts
    dsimp only
    split
    · rfl
    · exact hpaged page limit _ fun skip limit => AbstractRepository.exec_findPage _ _ _
  | findById id =>
    refine hread (fun r => by cases r <;> rfl) ?_
    change (exec (Answer.one <$> PostsController.findById M env id) c).2 = c
    rw [exec_map]
    exact AbstractRepository.exec_findById _ _
  | update id user dto => exact apiEffect_change rfl rfl
  | delete id user => exact apiEffect_change rfl rfl
  | publish id user => exact apiEffect_change rfl rfl
  | like id user =>
    exact apiEffect_reaction rfl (fun _ _ => rfl) rfl (fun _ => rfl) fun _ => rfl
  | unlike id user =>
    exact apiEffect_reaction rfl (fun _ _ => rfl) rfl (fun _ => rfl) fun _ => rfl

/-- A request appends the event of what it does. -/
theorem PostsCall.after_eq (M : Mongoose) (call : PostsCall) (w : PostsWorld) :
    ∃ event posts, ApiEffect M call.env w.posts call.op event posts ∧
      call.after M w = { posts := posts, history := w.history ++ event.toList } :=
  ⟨_, _, apiEffect call.op, rfl⟩

/-- A like writes back the other fields as it has read them. -/
theorem overwrite_edited {d : Doc} (r : LikeRequest M d.id) {post : Doc}
    (hedit : r.edit (hydrate PostSchema [] d) = .ok (some post)) {k : String}
    (hk : k ∉ ["likedBy", "likesCount"])
    (hread : (hydrate PostSchema [] d).fields k = d.fields k) :
    overwrite PostSchema post d.fields k = d.fields k := by
  rcases r.edit_cases (hydrate PostSchema [] d) with ⟨likedBy, hsome, -⟩ | ⟨hnone, -⟩
  · obtain rfl := Option.some.inj (Except.ok.inj (hedit.symm.trans hsome))
    have hother : (withLikes (hydrate PostSchema [] d) likedBy).fields k = d.fields k :=
      (Fields.assign_of_notMem (by simpa [Entries.keys] using hk)).trans hread
    unfold overwrite
    rw [hother]
    exact ite_self _
  · exact absurd hedit (hnone post)

/-- The author that is spread before a body brings no dotted key. -/
theorem notMem_dottedRoots_spread {user : JwtPayload} {dto : Value} {k : String}
    (h : k ∉ dottedRoots dto.entries) :
    k ∉ dottedRoots (Entries.assign [("userId", .str user.sub)] dto.entries) := by
  intro hmem
  rcases List.mem_append.mp (dottedRoots_assign _ _ hmem) with hbase | hbody
  · revert hbase
    simp [dottedRoots, Entries.keys, show isDottedKey "userId" = false by decide]
  · exact h hbody

/-! ## Bodies that leave a path alone -/

/-- The update leaves the path of the post as it is: no operator and no dotted key leads to it,
and a plain key of this name has the value that is stored. A pipeline is judged by its
effect. -/
def KeepsPath (M : Mongoose) (post : Doc) (k : String) : Value → Prop
  | .arr stages => ∀ f fields, M.pipeline PostSchema stages = some f →
      f post.fields = some fields → fields k = post.fields k
  | body => k ∉ mentions (operatorEntries body.entries) ∧
      ∀ v p w, (k, v) ∈ body.entries → PostSchema.path k = some p → p.set M v = some w →
        w = post.fields k

/-- An update that the controller lets through leaves the paths alone. -/
def UpdateKeeps (M : Mongoose) (paths : List String) (c : Collection) : PostsOperation → Prop
  | .update id user dto => ∀ d, M.castId (.str id) = some d.id → c.get d.id = some d →
      MayChange user d → ∀ k ∈ paths, KeepsPath M d k dto
  | _ => True

theorem KeepsPath.fields_eq {d : Doc} {k : String} {body : Value} (h : KeepsPath M d k body)
    {f : ObjectId → Fields → Option Fields} (hf : (Update.body body).compile M PostSchema = some f)
    {fields : Fields} (hfields : f d.id d.fields = some fields) : fields k = d.fields k := by
  have hobj : ∀ es : Entries, (k ∉ mentions (operatorEntries es) ∧
      ∀ v p w, (k, v) ∈ es → PostSchema.path k = some p → p.set M v = some w →
        w = d.fields k) → compileObject M PostSchema es = some f → fields k = d.fields k := by
    rintro es ⟨hoperators, hplain⟩ hcompile
    rcases compileObject_cases hcompile hfields hoperators with hkeep | ⟨v, p, hv, hp, hw⟩
    · exact hkeep
    · exact hplain v p _ hv hp hw
  cases body with
  | arr stages =>
    obtain ⟨g, hg, rfl⟩ := Option.map_eq_some_iff.mp hf
    exact h g fields hg hfields
  | undefined | null | bool | num | str | date | obj => exact hobj _ h hf

/-- An update of one other path leaves the path alone. -/
theorem keepsPath_single (d : Doc) {k key : String} (hplain : isPlainKey key = true)
    (hne : k ≠ key) (v : Value) : KeepsPath M d k (.obj [(key, v)]) := by
  constructor
  · simp [operatorEntries, hplain, mentions]
  · intro v' p w hmem
    simp [hne] at hmem

/-- The requests that update a post leave the paths alone if the bodies of updates do. -/
theorem UpdateKeeps.fields_eq {paths : List String} {op : PostsOperation}
    (h : UpdateKeeps M paths c op) (hstatus : "status" ∉ paths) (hdeletedAt : "deletedAt" ∉ paths)
    {id : String} {user : JwtPayload} {body : Value} (hchange : changeOf env op = some (id, user, body))
    {d : Doc} (hid : M.castId (.str id) = some d.id) (hd : c.get d.id = some d)
    (howner : MayChange user d) {f : ObjectId → Fields → Option Fields}
    (hf : (Update.body body).compile M PostSchema = some f) {fields : Fields}
    (hfields : f d.id d.fields = some fields) {k : String} (hk : k ∈ paths) :
    fields k = d.fields k := by
  refine KeepsPath.fields_eq ?_ hf hfields
  have hne : k ≠ "status" ∧ k ≠ "deletedAt" :=
    ⟨fun heq => hstatus (heq ▸ hk), fun heq => hdeletedAt (heq ▸ hk)⟩
  cases op with
  | update id' user' dto =>
    cases hchange
    exact h d hid hd howner k hk
  | publish id' user' =>
    cases hchange
    exact keepsPath_single d (by decide) hne.1 _
  | delete id' user' =>
    cases hchange
    exact keepsPath_single d (by decide) hne.2 _
  | create | list | getUserPosts | findById | like | unlike => cases hchange

/-! ### Requests of two users -/

def ann : JwtPayload := ⟨"0000000000000000000000a1", "ann@example.com", "user"⟩

def bob : JwtPayload := ⟨"0000000000000000000000b2", "bob@example.com", "user"⟩

/-- Ann creates a post; `extra` is in the body besides title and content. -/
def creates (extra : Entries) : PostsCall :=
  ⟨noon, .create ann (.obj ([("title", .str "Hello"), ("content", .str "World")] ++ extra))⟩

def bobLikes : PostsCall := ⟨noon, .like helloId.toString bob⟩

end Posts
