-- SUMMARY: Concurrent requests on one post, with likes and unlikes in their two database steps.
import NestPlatform.Lib.OrderedSet
import NestPlatform.Lib.ReadModifyWrite
import NestPlatform.Posts.Service

/-!
# Concurrent requests on a post

A like or unlike is a read and a later write of the whole post; every other write is
one atomic step of the database.
-/
namespace Posts

open Js Mongo Nest Database Effect Transition ReadModifyWrite

/-! ## Requests -/

inductive LikeAction where
  | like
  | unlike

/-- A like or unlike of the post `id`. -/
structure LikeRequest (M : Mongoose) (id : ObjectId) where
  action : LikeAction
  postId : String
  userId : String
  names : M.castId (.str postId) = some id

inductive PostEdit where
  | update (data : Value)
  | publish
  | softDelete

/-- A write to the post `id` that the database makes at once. -/
structure PostWrite (M : Mongoose) (id : ObjectId) where
  edit : PostEdit
  postId : String
  names : M.castId (.str postId) = some id

variable {M : Mongoose} {id : ObjectId}

namespace LikeRequest

variable (r : LikeRequest M id)

/-- The method of the service. -/
def run (env : Env) : Store Doc :=
  match r.action with
  | .like => PostsService.like M env (.str r.postId) r.userId
  | .unlike => PostsService.unlike M env (.str r.postId) r.userId

/-- What the method does between its two steps. -/
def edit : Doc → Except Thrown (Option Doc) :=
  match r.action with
  | .like => addLike r.userId
  | .unlike => dropLike r.userId

/-- The first step. -/
def read (env : Env) : Store Doc := PostsService.findById M env (.str r.postId)

/-- The request after its first step: only a post that is to be written is kept. -/
def afterRead : Except Thrown Doc → Stage Doc
  | .ok post =>
    match r.edit post with
    | .ok (some _) => .holding post
    | _ => .done
  | .error _ => .done

/-- The second step, of a request that has read `post`. -/
def write (env : Env) (post : Doc) : Store Doc :=
  match r.edit post with
  | .ok (some post) =>
    AbstractRepository.findOneAndUpdate M PostSchema env (byId (.str r.postId)) (.document post)
  | _ => pure post

end LikeRequest

/-- The method of the service. -/
def PostWrite.run (env : Env) (w : PostWrite M id) : Store Doc :=
  match w.edit with
  | .update data => PostsService.update M env (.str w.postId) data
  | .publish => PostsService.update M env (.str w.postId) (.obj [("status", .str "published")])
  | .softDelete => PostsService.delete M env (.str w.postId)

/-! ## Steps -/

structure PostsState (ι : Type*) where
  posts : Collection
  stage : ι → Stage Doc

inductive PostsLabel (M : Mongoose) (id : ObjectId) (ι : Type*) where
  | read (env : Env) (i : ι)
  | write (env : Env) (i : ι)
  | atomic (env : Env) (w : PostWrite M id)

variable {ι : Type*} [DecidableEq ι]

/-- The state with request `i` at the given stage. -/
def PostsState.moveTo (s : PostsState ι) (i : ι) (st : Stage Doc) : PostsState ι :=
  { s with stage := Function.update s.stage i st }

inductive PostsStep (requests : ι → LikeRequest M id) :
    PostsState ι → PostsLabel M id ι → PostsState ι → Prop where
  | read {s : PostsState ι} {env : Env} {i : ι} : s.stage i = .waiting →
      PostsStep requests s (.read env i)
        (s.moveTo i ((requests i).afterRead (((requests i).read env).exec s.posts).1))
  | write {s : PostsState ι} {env : Env} {i : ι} {post : Doc} : s.stage i = .holding post →
      PostsStep requests s (.write env i)
        (PostsState.moveTo { s with posts := (((requests i).write env post).exec s.posts).2 } i .done)
  | atomic {s : PostsState ι} {env : Env} {w : PostWrite M id} :
      PostsStep requests s (.atomic env w) { s with posts := ((w.run env).exec s.posts).2 }

/-- The steps of likes and unlikes alone. -/
def LikesStep (requests : ι → LikeRequest M id) :
    PostsState ι → PostsLabel M id ι → PostsState ι → Prop :=
  Meeting (PostsStep requests) fun _ l => ∀ env w, l ≠ .atomic env w

/-- Without a step in between, the two steps are the method of the service. -/
theorem LikeRequest.exec_run (r : LikeRequest M id) (env : Env) (c : Collection) :
    ((r.run env).exec c).2 =
      match r.afterRead ((r.read env).exec c).1 with
      | .holding post => ((r.write env post).exec c).2
      | _ => c := by
  have hrun : r.run env = PostsService.editLikes M env r.edit (.str r.postId) := by
    unfold run edit
    cases r.action <;> rfl
  have hkeep : ((r.read env).exec c).2 = c := AbstractRepository.exec_findById _ _
  rw [hrun]
  unfold PostsService.editLikes
  change (Effect.exec (r.read env >>= _) c).2 = _
  cases h : (r.read env).exec c with
  | mk result c' =>
    rw [h] at hkeep
    obtain rfl : c' = c := hkeep
    cases result with
    | error e =>
      rw [exec_bind_error h]
      rfl
    | ok post =>
      rw [exec_bind_ok h]
      dsimp only [afterRead]
      cases hedit : r.edit post with
      | error e => rfl
      | ok edited =>
        cases edited with
        | none => rfl
        | some post' =>
          dsimp only
          unfold write
          rw [hedit]

/-! ## What the steps do to the post -/

/-- A field of the post as a query returns it. -/
def field (id : ObjectId) (c : Collection) (k : String) : Value :=
  match c.get id with
  | some post => (hydrate PostSchema [] post).fields k
  | none => .undefined

theorem field_of_get {c : Collection} {d : Doc} (hd : c.get id = some d) (k : String) :
    field id c k = (hydrate PostSchema [] d).fields k := by
  unfold field
  rw [hd]

theorem exec_read (r : LikeRequest M id) (env : Env) {c : Collection} {d : Doc}
    (hd : c.get id = some d) :
    (r.read env).exec c = (.ok (hydrate PostSchema [] d), c) :=
  AbstractRepository.exec_findById_str r.names hd

theorem PostSchema_unique : ∀ p ∈ PostSchema, p.unique = false := by decide

theorem PostSchema_select : ∀ p ∈ PostSchema, p.select = true := by decide

/-- A query shows a field that is there as it is. -/
theorem hydrate_defined {d : Doc} {k : String} (h : d.fields k ≠ .undefined) :
    (hydrate PostSchema [] d).fields k = d.fields k := by
  cases hp : PostSchema.path k with
  | none => simp [hydrate, hp]
  | some p =>
    have hselect := PostSchema_select p (List.mem_of_find?_eq_some hp)
    simp [hydrate, hp, hselect, h]

/-- The author has no default. -/
theorem userId_hydrate (d : Doc) :
    (hydrate PostSchema [] d).fields "userId" = d.fields "userId" :=
  hydrate_of_noDefault (p := { name := "userId", type := .string, required := true }) rfl rfl rfl d

theorem exec_write (r : LikeRequest M id) (env : Env) {c : Collection} {d post post' : Doc}
    (hd : c.get id = some d) (hedit : r.edit post = .ok (some post')) :
    ((r.write env post).exec c).2 = c.put (touch env id (overwrite PostSchema post' d.fields)) := by
  unfold LikeRequest.write
  rw [hedit]
  have hcompile : (Update.document post').compile M PostSchema =
      some fun _ fields => some (overwrite PostSchema post' fields) := rfl
  dsimp only
  rw [AbstractRepository.exec_findOneAndUpdate_str PostSchema_unique r.names hcompile hd rfl]

/-- A document that is written back replaces the fields it has. -/
theorem field_overwrite {env : Env} {c : Collection} {d post : Doc} (hd : c.get id = some d)
    {k : String} (hk : k ≠ "updatedAt") :
    field id (c.put (touch env id (overwrite PostSchema post d.fields))) k =
      if (PostSchema.path k).isSome ∧ post.fields k ≠ .undefined then post.fields k
      else field id c k := by
  rw [field_of_get (get_put_touch hd env _), field_of_get hd]
  unfold hydrate
  dsimp only
  rw [touch_of_ne hk]
  unfold overwrite
  cases hp : PostSchema.path k with
  | none => simp
  | some p =>
    have hselect := PostSchema_select p (List.mem_of_find?_eq_some hp)
    by_cases hpost : post.fields k = .undefined <;> simp [hpost, hselect]

/-- The fields that a like changes on its own account. -/
def likeFields : List String := ["likedBy", "likesCount", "updatedAt"]

/-- What a like or unlike makes of the list of users. -/
def LikeRequest.modify (r : LikeRequest M id) : Value → Value
  | .arr likedBy =>
    match r.action with
    | .like =>
      if likedBy.contains (.str r.userId) then .arr likedBy else .arr (likedBy ++ [.str r.userId])
    | .unlike => .arr (likedBy.filter (· ≠ .str r.userId))
  | v => v

/-- A like adds its user to the list, an unlike removes the user. -/
def LikeRequest.toEdit (r : LikeRequest M id) : OrderedSet.Edit Value :=
  match r.action with
  | .like => .add (.str r.userId)
  | .unlike => .remove (.str r.userId)

theorem LikeRequest.modify_toEdit (r : LikeRequest M id) (xs : List Value) :
    r.modify (.arr xs) = .arr (r.toEdit.apply xs) := by
  unfold toEdit modify
  cases r.action with
  | like =>
    change (if xs.contains (.str r.userId) then _ else _) = Value.arr (if _ then _ else _)
    by_cases hmem : Value.str r.userId ∈ xs <;> simp [hmem]
  | unlike => rfl

/-- A request edits the list of users of the post it read, or it has nothing to write. -/
theorem LikeRequest.edit_cases (r : LikeRequest M id) (post : Doc) :
    (∃ likedBy, r.edit post = .ok (some (withLikes post likedBy)) ∧
        r.modify (post.fields "likedBy") = .arr likedBy) ∨
      (∀ post', r.edit post ≠ .ok (some post')) ∧
        r.modify (post.fields "likedBy") = post.fields "likedBy" := by
  unfold edit modify
  cases hlist : post.fields "likedBy" with
  | arr likedBy =>
    cases r.action with
    | like =>
      simp only [addLike, hlist]
      split
      · exact .inr ⟨by simp, rfl⟩
      · exact .inl ⟨_, rfl, rfl⟩
    | unlike =>
      simp only [dropLike, hlist]
      exact .inl ⟨_, rfl, rfl⟩
  | _ =>
    refine .inr ⟨?_, rfl⟩
    intro post'
    cases r.action <;> simp [addLike, dropLike, hlist]

/-- After its read a request holds the post, or it is done and had nothing to modify. -/
theorem LikeRequest.afterRead_ok (r : LikeRequest M id) (post : Doc) :
    r.afterRead (.ok post) = .holding post ∨
      r.afterRead (.ok post) = .done ∧
        r.modify (post.fields "likedBy") = post.fields "likedBy" := by
  unfold afterRead
  dsimp only
  rcases r.edit_cases post with ⟨likedBy, hedit, -⟩ | ⟨hedit, hmodify⟩
  · rw [hedit]
    exact .inl rfl
  · refine .inr ⟨?_, hmodify⟩
    split
    · rename_i post' heq
      exact absurd heq (hedit post')
    · rfl

/-- The write step replaces the list of users by the modification of the one that was
read, together with all other fields that were read, or it does nothing. -/
theorem LikeRequest.exec_write_cases (r : LikeRequest M id) (env : Env) {c : Collection} {d : Doc}
    (hd : c.get id = some d) (post : Doc) :
    (∃ likedBy, r.modify (post.fields "likedBy") = .arr likedBy ∧
        (((r.write env post).exec c).2.get id).isSome ∧
        field id ((r.write env post).exec c).2 "likedBy" = .arr likedBy ∧
        field id ((r.write env post).exec c).2 "likesCount" = .nat likedBy.length ∧
        ∀ k ∉ likeFields, field id ((r.write env post).exec c).2 k =
          if (PostSchema.path k).isSome ∧ post.fields k ≠ .undefined then post.fields k
          else field id c k) ∨
      ((r.write env post).exec c).2 = c ∧
        r.modify (post.fields "likedBy") = post.fields "likedBy" := by
  rcases r.edit_cases post with ⟨likedBy, hedit, hmodify⟩ | ⟨hedit, hmodify⟩
  · have hlikedBy : (withLikes post likedBy).fields "likedBy" = .arr likedBy := by
      simp [withLikes, Fields.assign]
    have hlikesCount : (withLikes post likedBy).fields "likesCount" = .nat likedBy.length := by
      simp [withLikes, Fields.assign]
    refine .inl ⟨likedBy, hmodify, ?_⟩
    rw [exec_write r env hd hedit]
    refine ⟨?_, ?_, ?_, ?_⟩
    · rw [get_put_touch hd]
      rfl
    · rw [field_overwrite hd (by decide), hlikedBy]
      exact if_pos ⟨rfl, by simp⟩
    · rw [field_overwrite hd (by decide), hlikesCount]
      exact if_pos ⟨rfl, by simp [Value.nat]⟩
    · intro k hk
      have hrest : (withLikes post likedBy).fields k = post.fields k := by
        apply Fields.assign_of_notMem
        intro hmem
        exact hk (List.mem_append_left ["updatedAt"] hmem)
      have hne : k ≠ "updatedAt" := by
        rintro rfl
        exact hk (by decide)
      rw [field_overwrite hd hne, hrest]
  · refine .inr ⟨?_, hmodify⟩
    unfold write
    split
    · rename_i post' heq
      exact absurd heq (hedit post')
    · rfl

/-! ### One published post -/

def helloId : ObjectId := ⟨"0000000000000000000000f0", by decide⟩

def hello : Doc := ⟨helloId, Fields.assign (fun _ => .undefined)
  [("userId", .str "0000000000000000000000a1"), ("title", .str "Hello"), ("content", .str "World"),
   ("images", .arr []), ("tags", .arr []), ("status", .str "published"), ("likesCount", .nat 0),
   ("likedBy", .arr []), ("deletedAt", .null), ("createdAt", .date 0), ("updatedAt", .date 0),
   ("__v", .nat 0)]⟩

/-- All requests on the one post are waiting. -/
def helloState (ι : Type*) : PostsState ι := ⟨⟨[hello], List.nodup_singleton _⟩, fun _ => .waiting⟩

def likeBy (userId : String) : LikeRequest .plain helloId :=
  ⟨.like, helloId.toString, userId, Mongoose.plain.castId_toString helloId⟩

def noon : Env := ⟨0, helloId, 0⟩

/-- The post as it is read before any write. -/
theorem afterRead_hello (userId : String) :
    (likeBy userId).afterRead
        (((likeBy userId).read noon).exec (helloState Unit).posts).1 =
      .holding (hydrate PostSchema [] hello) := by
  rw [exec_read (d := hello) _ _ rfl]
  rfl

end Posts
