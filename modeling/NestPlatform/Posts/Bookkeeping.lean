-- SUMMARY: When likes are kept correctly over whole runs of the posts API.
import NestPlatform.Posts.Api
import NestPlatform.Posts.Likes

/-!
# Bookkeeping of likes

The list of a post has the users whose last like or unlike of it was a like, and is counted.
Likes and unlikes maintain this, and every other request that leaves both paths alone.
-/
namespace Posts

open Js Mongo Nest Common Database Services Effect Transition

/-! ## The property -/

/-- The last like or unlike of the post by the user was a like. -/
def liked (history : List PostsEvent) (id : ObjectId) (userId : String) : Bool :=
  history.foldl (fun last event =>
    match event with
    | .reacted action id' userId' =>
      if id' = id ∧ userId' = userId then
        match action with
        | .like => true
        | .unlike => false
      else last
    | .created _ _ => last) false

/-- The list of the post has each of its likers once, and they are counted. -/
def LikersCounted (w : PostsWorld) (id : ObjectId) : Prop :=
  ∃ users, field id w.posts "likedBy" = .arr users ∧ users.Nodup ∧
    (∀ v, v ∈ users ↔ ∃ userId, v = .str userId ∧ liked w.history id userId = true) ∧
    field id w.posts "likesCount" = .nat users.length

def Bookkept (w : PostsWorld) : Prop := ∀ id, (w.posts.get id).isSome → LikersCounted w id

/-! ## The condition -/

def likePaths : List String := ["likedBy", "likesCount"]

/-- The body gives the new post no value at the path, or the one that is its default. -/
def StartsWithDefault (M : Mongoose) (dto : Entries) (k : String) : Prop :=
  k ∉ dottedRoots dto ∧ ∀ v p w, (k, v) ∈ dto → PostSchema.path k = some p → p.set M v = some w →
    w = .undefined ∨ w = p.default

/-- No body writes the list of likes or the count of a post: a create starts them as they are
by default, and an update that the controller lets through leaves them alone. -/
def LeavesLikes (M : Mongoose) (w : PostsWorld) (call : PostsCall) : Prop :=
  match call.op with
  | .create _ dto => ∀ k ∈ likePaths, StartsWithDefault M dto.entries k
  | op => UpdateKeeps M likePaths w.posts op

/-! ## One request -/

variable {M : Mongoose} {w : PostsWorld}

@[simp] theorem liked_snoc_created (history : List PostsEvent) (id id' : ObjectId)
    (sub userId : String) :
    liked (history ++ [.created id' sub]) id userId = liked history id userId := by
  simp [liked]

theorem liked_snoc_reacted (history : List PostsEvent) (action : LikeAction) (id id' : ObjectId)
    (userId userId' : String) :
    liked (history ++ [.reacted action id' userId']) id userId =
      if id' = id ∧ userId' = userId then
        match action with
        | .like => true
        | .unlike => false
      else liked history id userId := by
  simp [liked]

/-- Nobody has liked a post that is not stored. -/
def NoLikesElsewhere (w : PostsWorld) : Prop :=
  ∀ id, w.posts.get id = none → ∀ userId, liked w.history id userId = false

/-- What a request keeps. -/
structure LikesSound (w : PostsWorld) : Prop where
  kept : Bookkept w
  elsewhere : NoLikesElsewhere w

/-- A post with the same history, the same list and the same count is still counted. -/
theorem LikersCounted.congr {w' : PostsWorld} {id : ObjectId} (h : LikersCounted w id)
    (hfields : ∀ k ∈ likePaths, field id w'.posts k = field id w.posts k)
    (hliked : ∀ userId, liked w'.history id userId = liked w.history id userId) : LikersCounted w' id := by
  obtain ⟨users, hlist, hnodup, hmem, hcount⟩ := h
  refine ⟨users, ?_, hnodup, ?_, ?_⟩
  · rw [hfields _ (by decide), hlist]
  · simpa only [hliked] using hmem
  · rw [hfields _ (by decide), hcount]

/-- A stored like path starts with its default. -/
theorem construct_likePath {env : Env} {user : JwtPayload} {dto : Value} {d : Doc}
    (hd : construct M PostSchema env (Entries.assign [("userId", .str user.sub)] dto.entries) = some d)
    {k : String} (hk : k ∈ likePaths) (hstart : StartsWithDefault M dto.entries k)
    {p : SchemaPath} (hp : PostSchema.path k = some p) : d.fields k = p.default := by
  have hother : ∀ k ∈ likePaths, k ≠ "userId" ∧ k ∉ ["createdAt", "updatedAt", "__v"] := by decide
  have hne := hother k hk
  rcases construct_cases hd hp (notMem_dottedRoots_spread hstart.1) hne.2 with hdefault | ⟨v, hv, hw, hdefined⟩
  · exact hdefault
  · rcases Entries.mem_assign hv with hbase | hdto
    · simp [hne.1] at hbase
    · exact (hstart.2 v p _ hdto hp hw).resolve_left hdefined

/-- The list and the count of a new post, as a query returns them. -/
theorem field_created {env : Env} {user : JwtPayload} {dto : Value} {c : Collection} {d : Doc}
    (hnew : c.get d.id = none)
    (hd : construct M PostSchema env (Entries.assign [("userId", .str user.sub)] dto.entries) = some d)
    (hstart : ∀ k ∈ likePaths, StartsWithDefault M dto.entries k) :
    field d.id (c.insert d hnew) "likedBy" = .arr [] ∧
      field d.id (c.insert d hnew) "likesCount" = .nat 0 := by
  have hlist : d.fields "likedBy" = .arr [] :=
    construct_likePath hd (by decide) (hstart _ (by decide))
      (p := { name := "likedBy", type := .stringArray, default := .arr [] }) rfl
  have hcount : d.fields "likesCount" = .nat 0 :=
    construct_likePath hd (by decide) (hstart _ (by decide))
      (p := { name := "likesCount", type := .number, default := .nat 0 }) rfl
  have hget := Collection.get_insert_self hnew
  rw [field_of_get hget, field_of_get hget, hydrate_defined (by simp [hlist]),
    hydrate_defined (by simp [hcount, Value.nat])]
  exact ⟨hlist, hcount⟩

/-- The user of the request is among the likers exactly after a like, and the others stay. -/
theorem mem_likers {r : LikeAction} {history : List PostsEvent} {id : ObjectId} {userId : String}
    {users : List Value}
    (hmem : ∀ v, v ∈ users ↔ ∃ u, v = .str u ∧ liked history id u = true) (v : Value) :
    (r = .like ∧ v = .str userId) ∨ (v ∈ users ∧ v ≠ .str userId) ↔
      ∃ u, v = .str u ∧ liked (history ++ [.reacted r id userId]) id u = true := by
  simp only [hmem v, liked_snoc_reacted]
  constructor
  · rintro (⟨rfl, rfl⟩ | ⟨⟨u, rfl, hu⟩, hne⟩)
    · exact ⟨userId, rfl, by simp⟩
    · have hother : userId ≠ u := fun heq => hne (by rw [heq])
      exact ⟨u, rfl, by simp [hother, hu]⟩
  · rintro ⟨u, rfl, hu⟩
    by_cases hself : userId = u
    · subst hself
      cases r with
      | like => exact .inl ⟨rfl, rfl⟩
      | unlike => simp at hu
    · refine .inr ⟨⟨u, rfl, ?_⟩, fun heq => hself (Value.str.inj heq).symm⟩
      simpa [hself] using hu

/-- What a like or unlike writes counts the likers again. -/
theorem LikersCounted.reacted {d : Doc} (h : LikersCounted w d.id)
    (hd : w.posts.get d.id = some d) (r : LikeRequest M d.id) {edited : Option Doc}
    (hedit : r.edit (hydrate PostSchema [] d) = .ok edited) (env : Env) :
    LikersCounted ⟨rewritten env w.posts d edited,
      w.history ++ [.reacted r.action d.id r.userId]⟩ d.id := by
  obtain ⟨users, hlist, hnodup, hmem, hcount⟩ := h
  obtain ⟨zs, hzs, hkeepsNodup, hmem'⟩ := r.modify_arr users
  refine ⟨zs, ?_, hkeepsNodup hnodup, fun v => (hmem' v).trans (mem_likers hmem v), ?_⟩
  all_goals
    rw [field_of_get hd] at hlist hcount
    rcases r.edit_cases (hydrate PostSchema [] d) with ⟨likedBy, hsome, hmodify⟩ | ⟨hnone, hmodify⟩
    · obtain rfl := Except.ok.inj (hedit.symm.trans hsome)
      rw [hlist, hzs] at hmodify
      obtain rfl := Value.arr.inj hmodify
      dsimp only [rewritten]
      rw [field_overwrite hd (by decide)]
      exact if_pos ⟨rfl, by simp [withLikes, Fields.assign, Value.nat]⟩
    · cases edited with
      | some post => exact absurd hedit (hnone post)
      | none =>
        rw [hlist, hzs] at hmodify
        obtain rfl := Value.arr.inj hmodify
        dsimp only [rewritten]
        rw [field_of_get hd]
        assumption

/-- A request that leaves one counted post behind and touches no other keeps the book. -/
theorem LikesSound.one {w' : PostsWorld} (h : LikesSound w) (id : ObjectId)
    (hget : ∀ id' ≠ id, w'.posts.get id' = w.posts.get id')
    (hliked : ∀ id' ≠ id, ∀ userId, liked w'.history id' userId = liked w.history id' userId)
    (hstored : (w'.posts.get id).isSome) (hcounted : LikersCounted w' id) : LikesSound w' := by
  constructor
  · intro id' hid'
    by_cases hself : id' = id
    · rw [hself]
      exact hcounted
    · have hid : (w.posts.get id').isSome := hget id' hself ▸ hid'
      apply (h.kept id' hid).congr
      · intro k _
        unfold field
        rw [hget id' hself]
      · exact hliked id' hself
  · intro id' hid' userId
    have hne : id' ≠ id := by
      rintro rfl
      rw [hid'] at hstored
      cases hstored
    rw [hliked id' hne]
    apply h.elsewhere
    rw [← hget id' hne]
    exact hid'

/-- A like or unlike that is answered keeps the book. -/
theorem LikesSound.reacted {d : Doc} (h : LikesSound w) (hd : w.posts.get d.id = some d)
    (r : LikeRequest M d.id) {edited : Option Doc}
    (hedit : r.edit (hydrate PostSchema [] d) = .ok edited) (env : Env) :
    LikesSound ⟨rewritten env w.posts d edited,
      w.history ++ [.reacted r.action d.id r.userId]⟩ := by
  have hcounted : LikersCounted w d.id := h.kept d.id (by simp [hd])
  apply h.one d.id
  · intro id hid
    cases edited with
    | none => rfl
    | some post =>
      exact Collection.get_put_ne (d := touch env d.id (overwrite PostSchema post d.fields)) hid
  · intro id hid userId
    simp [liked_snoc_reacted, hid.symm]
  · cases edited with
    | none => simp [rewritten, hd]
    | some post => simp [rewritten, get_put_touch hd]
  · exact hcounted.reacted hd r hedit env

/-- A new post without likes keeps the book. -/
theorem LikesSound.created {env : Env} {user : JwtPayload} {dto : Value} {d : Doc}
    (h : LikesSound w) (hnew : w.posts.get d.id = none)
    (hd : construct M PostSchema env (Entries.assign [("userId", .str user.sub)] dto.entries) = some d)
    (hstart : ∀ k ∈ likePaths, StartsWithDefault M dto.entries k) :
    LikesSound ⟨w.posts.insert d hnew, w.history ++ [.created d.id user.sub]⟩ := by
  apply h.one d.id
  · intro id hid
    exact Collection.get_insert_ne (h := hnew) hid
  · intro id _ userId
    exact liked_snoc_created _ _ _ _ _
  · simp [Collection.get_insert_self hnew]
  · obtain ⟨hlist, hcount⟩ := field_created hnew hd hstart
    refine ⟨[], hlist, List.nodup_nil, ?_, hcount⟩
    intro v
    simp [h.elsewhere d.id hnew]

/-- An update that leaves the like paths alone keeps the book. -/
theorem LikesSound.changed {d : Doc} (h : LikesSound w) (hd : w.posts.get d.id = some d) (env : Env)
    {fields : Fields} (hfields : ∀ k ∈ likePaths, fields k = d.fields k) :
    LikesSound ⟨w.posts.put (touch env d.id fields), w.history⟩ := by
  have hcounted : LikersCounted w d.id := h.kept d.id (by simp [hd])
  apply h.one d.id
  · intro id hid
    exact Collection.get_put_ne (d := touch env d.id fields) hid
  · intro id _ userId
    rfl
  · simp [get_put_touch hd]
  · refine hcounted.congr ?_ fun _ => rfl
    intro k hk
    have hne : k ≠ "updatedAt" := by
      rintro rfl
      revert hk
      decide
    dsimp only
    rw [field_of_get (get_put_touch hd env fields), field_of_get hd]
    exact hydrate_congr ((touch_of_ne hne).trans (hfields k hk))

/-- A request that leaves the likes alone, or is a like or unlike, keeps the book. -/
theorem LikesSound.after (h : LikesSound w) {call : PostsCall} (hcall : LeavesLikes M w call) :
    LikesSound (call.after M w) := by
  obtain ⟨env, op⟩ := call
  obtain ⟨event, posts, heffect, hafter⟩ := PostsCall.after_eq M ⟨env, op⟩ w
  rw [hafter]
  cases heffect with
  | idle =>
    simp only [Option.toList_none, List.append_nil]
    exact h
  | created hnew hd hvalid => exact h.created hnew hd hcall
  | changed hchange hid hd howner hf hfields =>
    simp only [Option.toList_none, List.append_nil]
    have hkeeps : UpdateKeeps M likePaths w.posts op := by
      cases op with
      | create => cases hchange
      | _ => exact hcall
    exact h.changed hd env fun k hk =>
      hkeeps.fields_eq (by decide) (by decide) hchange hid hd howner hf hfields hk
  | reacted hreaction hd hedit => exact h.reacted hd _ hedit env

/-- In every run of the posts API in which no other request writes the likes, the list of every
post has exactly the users whose last like or unlike of it was a like, and they are counted. -/
theorem run_bookkept {calls : List PostsCall} {w : PostsWorld}
    (h : Run (Meeting (ApiStep M) (LeavesLikes M)) .initial calls w) : Bookkept w := by
  have hinit : LikesSound .initial := by
    constructor
    · intro id hid
      cases hid
    · intro id _ userId
      rfl
  have hstep : ∀ w call w', LikesSound w → Meeting (ApiStep M) (LeavesLikes M) w call w' →
      LikesSound w' := by
    rintro w call _ hw ⟨rfl, hcall⟩
    exact hw.after hcall
  exact (h.invariant hstep hinit).kept

/-! ### One post -/

/-- Ann's post is liked by Bob. -/
theorem run_bookkept_liked :
    Bookkept (bobLikes.after .plain ((creates []).after .plain .initial)) ∧
      field helloId (bobLikes.after .plain ((creates []).after .plain .initial)).posts "likesCount" =
        .nat 1 := by
  have hcreate : LeavesLikes .plain .initial (creates []) := by
    intro k hk
    constructor
    · revert hk
      revert k
      decide
    · intro v p w hmem
      simp only [Value.entries_obj, List.append_nil, List.mem_cons, Prod.mk.injEq,
        List.not_mem_nil, or_false] at hmem
      rcases hmem with ⟨rfl, -⟩ | ⟨rfl, -⟩
      · exact absurd hk (by decide)
      · exact absurd hk (by decide)
  refine ⟨run_bookkept (.snoc (.snoc (.nil _) ⟨rfl, hcreate⟩) ⟨rfl, trivial⟩), ?_⟩
  decide

/-- Ann's post begins with seven likes of nobody. -/
theorem created_with_likes :
    Run (ApiStep .plain) .initial [creates [("likesCount", .nat 7)]]
        ((creates [("likesCount", .nat 7)]).after .plain .initial) ∧
      ¬ Bookkept ((creates [("likesCount", .nat 7)]).after .plain .initial) := by
  refine ⟨.snoc (.nil _) rfl, ?_⟩
  intro h
  obtain ⟨users, hlist, -, -, hcount⟩ := h helloId (by decide)
  have hlist' : field helloId ((creates [("likesCount", .nat 7)]).after .plain .initial).posts
      "likedBy" = .arr [] := by decide
  have hcount' : field helloId ((creates [("likesCount", .nat 7)]).after .plain .initial).posts
      "likesCount" = .nat 7 := by decide
  obtain rfl : [] = users := Value.arr.inj (hlist'.symm.trans hlist)
  rw [hcount'] at hcount
  revert hcount
  decide

end Posts
