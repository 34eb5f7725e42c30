-- SUMMARY: When concurrent likes leave the rest of a post to its other writers.
import NestPlatform.Posts.Requests

/-!
# Likes beside other writes

A like writes back all fields of the post it read. If every such write finds these
fields as they were read, the other fields are what the other writes alone make of
them.
-/
namespace Posts

open Js Mongo Nest Database Effect Transition ReadModifyWrite

variable {M : Mongoose} {id : ObjectId}

/-! ## Alike outside the like fields -/

/-- A query shows the two documents alike, except for the fields of likes. -/
def Alike (d e : Doc) : Prop :=
  ∀ k ∉ likeFields, (hydrate PostSchema [] d).fields k = (hydrate PostSchema [] e).fields k

/-- What the update makes of the other fields does not depend on the fields of likes. -/
def IgnoresLikes (M : Mongoose) (id : ObjectId) (u : Update) : Prop :=
  ∀ f, u.compile M PostSchema = some f → ∀ x y, Alike ⟨id, x⟩ ⟨id, y⟩ →
    Option.Rel (fun x' y' => Alike ⟨id, x'⟩ ⟨id, y'⟩) (f id x) (f id y)

theorem Alike.touch {x y : Fields} (h : Alike ⟨id, x⟩ ⟨id, y⟩) (env : Env) :
    Alike (touch env id x) (touch env id y) := by
  intro k hk
  have hne : k ≠ "updatedAt" := by
    rintro rfl
    exact hk (by decide)
  calc (hydrate PostSchema [] (Mongo.touch env id x)).fields k
      = (hydrate PostSchema [] ⟨id, x⟩).fields k := hydrate_congr (touch_of_ne hne)
    _ = (hydrate PostSchema [] ⟨id, y⟩).fields k := h k hk
    _ = (hydrate PostSchema [] (Mongo.touch env id y)).fields k :=
        hydrate_congr (touch_of_ne hne).symm

theorem Alike.assign {x y : Fields} (h : Alike ⟨id, x⟩ ⟨id, y⟩) (sets : Entries) :
    Alike ⟨id, Fields.assign x sets⟩ ⟨id, Fields.assign y sets⟩ := by
  intro k hk
  by_cases hmem : k ∈ Entries.keys sets
  · exact hydrate_congr (Fields.assign_congr x y hmem)
  · calc (hydrate PostSchema [] ⟨id, Fields.assign x sets⟩).fields k
        = (hydrate PostSchema [] ⟨id, x⟩).fields k := hydrate_congr (Fields.assign_of_notMem hmem)
      _ = (hydrate PostSchema [] ⟨id, y⟩).fields k := h k hk
      _ = (hydrate PostSchema [] ⟨id, Fields.assign y sets⟩).fields k :=
          hydrate_congr (Fields.assign_of_notMem hmem).symm

/-- An object without operators and dotted keys is such an update. -/
theorem ignoresLikes_of_plain {es : Entries} (hplain : (Entries.keys es).all isPlainKey) :
    IgnoresLikes M id (.body (.obj es)) := by
  intro f hf x y hxy
  change compileObject M PostSchema es = some f at hf
  unfold compileObject compileOperators at hf
  simp only [hplain, if_true, Option.bind_eq_bind, Option.bind_some, Option.bind_eq_some_iff,
    Option.some.injEq] at hf
  obtain ⟨sets, -, idOk, -, rfl⟩ := hf
  dsimp only
  split
  · exact .some (hxy.assign sets)
  · exact .none

/-! ## Atomic writes -/

/-- The update that the write makes. -/
def PostWrite.update (env : Env) (w : PostWrite M id) : Update :=
  match w.edit with
  | .update data => .body data
  | .publish => .body (.obj [("status", .str "published")])
  | .softDelete => .body (.obj [("deletedAt", .date env.now)])

theorem PostWrite.run_eq (env : Env) (w : PostWrite M id) :
    w.run env = AbstractRepository.findOneAndUpdate M PostSchema env (byId (.str w.postId))
      (w.update env) := by
  unfold run update
  cases w.edit <;> rfl

theorem PostWrite.ignoresLikes (env : Env) (w : PostWrite M id)
    (hplain : ∀ data, w.edit = .update data →
      ∃ es, data = .obj es ∧ (Entries.keys es).all isPlainKey) :
    IgnoresLikes M id (w.update env) := by
  unfold update
  cases hedit : w.edit with
  | update data =>
    obtain ⟨es, rfl, hes⟩ := hplain data hedit
    exact ignoresLikes_of_plain hes
  | publish => exact ignoresLikes_of_plain (by decide)
  | softDelete => exact ignoresLikes_of_plain (by decide : ["deletedAt"].all isPlainKey = true)

/-! ## Two collections that agree on the post -/

/-- Both collections have the post, and queries of them show it alike, except for the
fields of likes. -/
structure Agree (id : ObjectId) (c c' : Collection) : Prop where
  left : (c.get id).isSome
  right : (c'.get id).isSome
  rest : ∀ k ∉ likeFields, field id c k = field id c' k

namespace Agree

variable {c c' : Collection}

theorem refl (h : (c.get id).isSome) : Agree id c c := ⟨h, h, fun _ _ => rfl⟩

/-- An atomic write on both sides keeps them in agreement. -/
theorem atomic (h : Agree id c c') (env : Env) {w : PostWrite M id}
    (hw : IgnoresLikes M id (w.update env)) :
    Agree id ((w.run env).exec c).2 ((w.run env).exec c').2 := by
  obtain ⟨d, hd⟩ := Option.isSome_iff_exists.mp h.left
  obtain ⟨e, he⟩ := Option.isSome_iff_exists.mp h.right
  rw [w.run_eq, AbstractRepository.state_findOneAndUpdate_str PostSchema_unique w.names _ hd,
    AbstractRepository.state_findOneAndUpdate_str PostSchema_unique w.names _ he]
  cases hf : (w.update env).compile M PostSchema with
  | none => exact h
  | some f =>
    have halike : Alike ⟨id, d.fields⟩ ⟨id, e.fields⟩ := by
      intro k hk
      have hrest := h.rest k hk
      rw [field_of_get hd, field_of_get he] at hrest
      exact hrest
    have hrel := hw f hf _ _ halike
    rw [Option.bind_some, Option.bind_some]
    generalize f id d.fields = x at hrel
    generalize f id e.fields = y at hrel
    cases hrel with
    | none => exact h
    | some hxy =>
      refine ⟨?_, ?_, ?_⟩
      · simp [get_put_touch hd]
      · simp [get_put_touch he]
      · intro k hk
        rw [field_of_get (get_put_touch hd env _), field_of_get (get_put_touch he env _)]
        exact hxy.touch env k hk

/-- A like that writes back what it would still read keeps the agreement. -/
theorem write (h : Agree id c c') (env : Env) (r : LikeRequest M id) {post : Doc}
    (hpost : ∀ k ∉ likeFields, field id c k = post.fields k) :
    Agree id ((r.write env post).exec c).2 c' := by
  obtain ⟨d, hd⟩ := Option.isSome_iff_exists.mp h.left
  rcases r.exec_write_cases env hd post with ⟨_, -, hget, -, -, hrest⟩ | ⟨hkeep, -⟩
  · refine ⟨hget, h.right, ?_⟩
    intro k hk
    rw [hrest k hk, ← hpost k hk, ite_self]
    exact h.rest k hk
  · rw [hkeep]
    exact h

end Agree

/-! ## Runs -/

variable {ι : Type*} [DecidableEq ι]

/-- The effect of a step when likes are left out. -/
def PostsLabel.alone (c : Collection) : PostsLabel M id ι → Collection
  | .atomic env w => ((w.run env).exec c).2
  | _ => c

/-- The atomic writes of a run, one after the other. -/
def alone (ls : List (PostsLabel M id ι)) (c : Collection) : Collection :=
  ls.foldl PostsLabel.alone c

/-- A like that writes would still read the other fields as it did, and no atomic write
computes them from the fields of likes. -/
def Undisturbed (s : PostsState ι) : PostsLabel M id ι → Prop
  | .read _ _ => True
  | .write _ i => ∀ post, s.stage i = .holding post →
      ∀ k ∉ likeFields, field id s.posts k = post.fields k
  | .atomic env w => IgnoresLikes M id (w.update env)

theorem run_agree {requests : ι → LikeRequest M id} {s s' : PostsState ι}
    {ls : List (PostsLabel M id ι)} (hpost : (s.posts.get id).isSome)
    (h : Run (Meeting (PostsStep requests) Undisturbed) s ls s') :
    Agree id s'.posts (alone ls s.posts) := by
  induction h with
  | nil => exact .refl hpost
  | @snoc t t' ls l _ hlast ih =>
    have halone : alone (ls ++ [l]) s.posts = l.alone (alone ls s.posts) := by
      simp [alone]
    rw [halone]
    obtain ⟨hstep, hundisturbed⟩ := hlast
    cases hstep with
    | read => exact ih
    | @write env i post hholding => exact ih.write env _ (hundisturbed post hholding)
    | atomic => exact ih.atomic _ hundisturbed

/-- Likes and unlikes leave every other field of a post with the value that its atomic
writes alone give it, as long as none of them writes back a field that has changed
since it was read. -/
theorem run_rest_alone {requests : ι → LikeRequest M id} {s s' : PostsState ι}
    {ls : List (PostsLabel M id ι)} (hpost : (s.posts.get id).isSome)
    (h : Run (Meeting (PostsStep requests) Undisturbed) s ls s') {k : String}
    (hk : k ∉ likeFields) : field id s'.posts k = field id (alone ls s.posts) k :=
  (run_agree hpost h).rest k hk

/-! ### A delete inside the window -/

def deleteHello : PostWrite .plain helloId :=
  ⟨.softDelete, helloId.toString, Mongoose.plain.castId_toString helloId⟩

/-- The state in which Ann has read the post and not yet written it. -/
def annReading : PostsState Unit :=
  (helloState Unit).moveTo () (.holding (hydrate PostSchema [] hello))

theorem annReads :
    PostsStep (fun _ => likeBy "ann") (helloState Unit) (.read noon ()) annReading := by
  unfold annReading
  rw [← afterRead_hello "ann"]
  exact .read rfl

/-- Ann's like is written before the post is deleted. -/
theorem run_rest_alone_deleted :
    field helloId ((deleteHello.run noon).exec
        (((likeBy "ann").write noon (hydrate PostSchema [] hello)).exec (helloState Unit).posts).2).2
        "deletedAt" =
      field helloId ((deleteHello.run noon).exec (helloState Unit).posts).2 "deletedAt" := by
  have hwrite : PostsStep (fun _ => likeBy "ann") annReading (.write noon ()) _ := .write rfl
  have hfresh : Undisturbed annReading (.write noon () : PostsLabel .plain helloId Unit) := by
    intro post hpost k _
    obtain rfl := Stage.holding.inj hpost
    rfl
  have hignores : IgnoresLikes .plain helloId (deleteHello.update noon) := by
    apply deleteHello.ignoresLikes noon
    intro data hdata
    cases hdata
  have hrun : Run (Meeting (PostsStep fun _ => likeBy "ann") Undisturbed) (helloState Unit) _ _ :=
    .snoc (.snoc (.snoc (.nil _) ⟨annReads, trivial⟩) ⟨hwrite, hfresh⟩)
      ⟨(.atomic : PostsStep _ _ (.atomic noon deleteHello) _), hignores⟩
  have hk : "deletedAt" ∉ likeFields := by decide
  have hrest := run_rest_alone rfl hrun hk
  exact hrest

/-- Ann's like is written after the post is deleted: the post is back. -/
theorem like_undoes_delete :
    ∃ ls s', Run (PostsStep fun _ : Unit => likeBy "ann") (helloState Unit) ls s' ∧
      field helloId s'.posts "deletedAt" ≠
        field helloId (alone ls (helloState Unit).posts) "deletedAt" := by
  have hdelete : PostsStep (fun _ => likeBy "ann") annReading (.atomic noon deleteHello) _ := .atomic
  have hwrite : PostsStep (fun _ => likeBy "ann")
      { annReading with posts := ((deleteHello.run noon).exec (helloState Unit).posts).2 }
      (.write noon ()) _ := .write rfl
  refine ⟨_, _, .snoc (.snoc (.snoc (.nil _) annReads) hdelete) hwrite, ?_⟩
  decide

end Posts
