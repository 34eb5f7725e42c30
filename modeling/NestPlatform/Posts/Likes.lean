-- SUMMARY: When no concurrent like or unlike of a post is lost.
import Mathlib.Data.List.Induction
import NestPlatform.Posts.Requests

/-!
# Concurrent likes

The requests on a post share its list of users. If every write finds the list that
its request read, the run is a sequential one and no like is lost.
-/
namespace Posts

open Js Mongo Nest Database Effect Transition ReadModifyWrite

variable {M : Mongoose} {id : ObjectId} {ι : Type*}

/-! ## Sequential likes -/

/-- One request puts its user in the list or takes the user out, and touches no other. -/
theorem LikeRequest.modify_arr (r : LikeRequest M id) (ys : List Value) :
    ∃ zs, r.modify (.arr ys) = .arr zs ∧ (ys.Nodup → zs.Nodup) ∧
      ∀ v, v ∈ zs ↔ (r.action = .like ∧ v = .str r.userId) ∨ (v ∈ ys ∧ v ≠ .str r.userId) := by
  refine ⟨r.toEdit.apply ys, r.modify_toEdit ys, r.toEdit.nodup_apply, ?_⟩
  intro v
  rw [OrderedSet.Edit.mem_apply]
  unfold toEdit
  cases r.action with
  | like =>
    change v = .str r.userId ∨ v ∈ ys ↔ _
    by_cases hv : v = .str r.userId <;> simp [hv]
  | unlike =>
    change v ∈ ys ∧ v ≠ .str r.userId ↔ _
    simp

/-- After the requests in `order` one after the other, the list has the users who liked
and those who were in it and made no request. -/
structure Sequential (requests : ι → LikeRequest M id) (order : List ι) (xs ys : List Value) :
    Prop where
  mem : ∀ v, v ∈ ys ↔
    (∃ i ∈ order, (requests i).action = .like ∧ v = .str (requests i).userId) ∨
      v ∈ xs ∧ ∀ i ∈ order, v ≠ .str (requests i).userId
  nodup : xs.Nodup → ys.Nodup

theorem Sequential.snoc {requests : ι → LikeRequest M id}
    (hdistinct : Function.Injective fun i => (requests i).userId) {order : List ι} {i : ι}
    (hnew : i ∉ order) {xs ys : List Value} (h : Sequential requests order xs ys) :
    ∃ zs, (requests i).modify (.arr ys) = .arr zs ∧ Sequential requests (order ++ [i]) xs zs := by
  have hother : ∀ j ∈ order, (.str (requests j).userId : Value) ≠ .str (requests i).userId := by
    intro j hj heq
    have hij : j = i := hdistinct (Value.str.inj heq)
    exact hnew (hij ▸ hj)
  obtain ⟨zs, hzs, hnodup, hmem⟩ := (requests i).modify_arr ys
  refine ⟨zs, hzs, ?_, fun hxs => hnodup (h.nodup hxs)⟩
  intro v
  rw [hmem v, h.mem v]
  constructor
  · rintro (⟨hlike, hv⟩ | ⟨⟨j, hj, hlike, hv⟩ | ⟨hv, hrest⟩, hne⟩)
    · exact .inl ⟨i, by simp, hlike, hv⟩
    · exact .inl ⟨j, List.mem_append_left _ hj, hlike, hv⟩
    · refine .inr ⟨hv, fun j hj => ?_⟩
      rcases List.mem_append.mp hj with hj | hj
      · exact hrest j hj
      · obtain rfl := List.mem_singleton.mp hj
        exact hne
  · rintro (⟨j, hj, hlike, hv⟩ | ⟨hv, hrest⟩)
    · rcases List.mem_append.mp hj with hj | hj
      · exact .inr ⟨.inl ⟨j, hj, hlike, hv⟩, hv ▸ hother j hj⟩
      · obtain rfl := List.mem_singleton.mp hj
        exact .inl ⟨hlike, hv⟩
    · exact .inr ⟨.inr ⟨hv, fun j hj => hrest j (List.mem_append_left _ hj)⟩, hrest i (by simp)⟩

theorem Sequential.liked {requests : ι → LikeRequest M id} {order : List ι} {xs ys : List Value}
    (h : Sequential requests order xs ys) {i : ι} (hi : i ∈ order)
    (hlike : (requests i).action = .like) : .str (requests i).userId ∈ ys :=
  (h.mem _).mpr (.inl ⟨i, hi, hlike, rfl⟩)

theorem Sequential.unliked {requests : ι → LikeRequest M id}
    (hdistinct : Function.Injective fun i => (requests i).userId) {order : List ι}
    {xs ys : List Value} (h : Sequential requests order xs ys) {i : ι} (hi : i ∈ order)
    (hunlike : (requests i).action = .unlike) : .str (requests i).userId ∉ ys := by
  intro hmem
  rcases (h.mem _).mp hmem with ⟨j, -, hlike, heq⟩ | ⟨-, hrest⟩
  · obtain rfl : i = j := hdistinct (Value.str.inj heq)
    rw [hunlike] at hlike
    cases hlike
  · exact hrest i hi rfl

theorem Sequential.others {requests : ι → LikeRequest M id} {order : List ι} {xs ys : List Value}
    (h : Sequential requests order xs ys) {v : Value} (hv : ∀ i, v ≠ .str (requests i).userId) :
    v ∈ ys ↔ v ∈ xs := by
  rw [h.mem v]
  constructor
  · rintro (⟨i, -, -, heq⟩ | ⟨hmem, -⟩)
    · exact absurd heq (hv i)
    · exact hmem
  · intro hmem
    exact .inr ⟨hmem, fun i _ => hv i⟩

theorem sequential_inOrder {requests : ι → LikeRequest M id}
    (hdistinct : Function.Injective fun i => (requests i).userId) (xs : List Value)
    {order : List ι} (hnodup : order.Nodup) :
    ∃ ys, inOrder (fun i => (requests i).modify) order (.arr xs) = .arr ys ∧
      Sequential requests order xs ys := by
  induction order using List.reverseRecOn with
  | nil => exact ⟨xs, rfl, by simp, fun h => h⟩
  | append_singleton order i ih =>
    obtain ⟨hnodup, -, hnew⟩ := List.nodup_append.mp hnodup
    obtain ⟨ys, hys, h⟩ := ih hnodup
    rw [inOrder_snoc, hys]
    exact h.snoc hdistinct fun hi => hnew i hi i (by simp) rfl

/-! ## The list of users -/

/-- The users who like the post. -/
def likers (id : ObjectId) (c : Collection) : List Value :=
  SchemaPath.elements (field id c "likedBy")

/-- The list of users, and what the requests under way have read of it. -/
def PostsState.view (id : ObjectId) (s : PostsState ι) : ReadModifyWrite.State ι Value where
  value := field id s.posts "likedBy"
  stage i := (s.stage i).map fun post => post.fields "likedBy"

/-- A request that writes finds the list of users that it read. -/
def FreshLikes (s : PostsState ι) : PostsLabel M id ι → Prop
  | .write _ i => ∀ post, s.stage i = .holding post →
      field id s.posts "likedBy" = post.fields "likedBy"
  | _ => True

variable [DecidableEq ι]

theorem PostsState.view_moveTo (s : PostsState ι) (i : ι) (st : Stage Doc) :
    (s.moveTo i st).view id =
      (s.view id).moveTo i (st.map fun post => post.fields "likedBy") := by
  unfold view moveTo State.moveTo
  congr 1
  funext j
  by_cases hj : j = i
  · subst hj
    simp
  · simp [hj]

/-- A step of the requests is a step of clients that share the list of users. -/
theorem LikesStep.simulated {requests : ι → LikeRequest M id} {s s' : PostsState ι}
    {l : PostsLabel M id ι} (h : Meeting (LikesStep requests) FreshLikes s l s')
    (hpost : (s.posts.get id).isSome) :
    (s'.posts.get id).isSome ∧
      ∃ l', Meeting (Step fun i => (requests i).modify) Fresh (s.view id) l' (s'.view id) := by
  obtain ⟨⟨hstep, hlikes⟩, hfresh⟩ := h
  obtain ⟨d, hd⟩ := Option.isSome_iff_exists.mp hpost
  cases hstep with
  | @read env i hwaiting =>
    have hwaiting' : (s.view id).stage i = .waiting := by
      simp [PostsState.view, hwaiting, Stage.map]
    have hvalue : (s.view id).value = (hydrate PostSchema [] d).fields "likedBy" :=
      field_of_get hd _
    refine ⟨hpost, .read i, ?_, trivial⟩
    rw [PostsState.view_moveTo, exec_read _ _ hd]
    -- a like that is there already ends the request at its read
    rcases (requests i).afterRead_ok (hydrate PostSchema [] d) with h | ⟨h, hmodify⟩
    · rw [h, Stage.map, ← hvalue]
      exact .read hwaiting'
    · rw [h, Stage.map]
      exact .skip hwaiting' (by rw [hvalue, hmodify])
  | @write env i post hholding =>
    have hholding' : (s.view id).stage i = .holding (post.fields "likedBy") := by
      simp [PostsState.view, hholding, Stage.map]
    have hvalue : (s.view id).value = post.fields "likedBy" := hfresh post hholding
    have hmodified : field id (((requests i).write env post).exec s.posts).2 "likedBy" =
          (requests i).modify (post.fields "likedBy") ∧
        ((((requests i).write env post).exec s.posts).2.get id).isSome := by
      rcases (requests i).exec_write_cases env hd post with
        ⟨likedBy, hmodify, hget, hlikedBy, -, -⟩ | ⟨hkeep, hmodify⟩
      · exact ⟨hlikedBy.trans hmodify.symm, hget⟩
      · rw [hkeep, hmodify]
        exact ⟨hvalue, hpost⟩
    refine ⟨hmodified.2, .write i, ?_, ?_⟩
    · rw [PostsState.view_moveTo]
      have hview : PostsState.view id
            { s with posts := (((requests i).write env post).exec s.posts).2 } =
          { s.view id with value := (requests i).modify (post.fields "likedBy") } := by
        rw [← hmodified.1]
        rfl
      rw [hview]
      exact .write hholding'
    · intro a ha
      obtain rfl : post.fields "likedBy" = a := by simpa [hholding'] using ha
      exact hvalue.symm
  | @atomic env w => exact absurd rfl (hlikes env w)

/-! ## The count -/

def Counted (id : ObjectId) (c : Collection) : Prop :=
  field id c "likesCount" = .nat (likers id c).length

/-- Every step keeps the count in step with the list, whatever was read. -/
theorem LikesStep.counted {requests : ι → LikeRequest M id} {s s' : PostsState ι}
    {l : PostsLabel M id ι} (h : LikesStep requests s l s') (hpost : (s.posts.get id).isSome)
    (hcounted : Counted id s.posts) : (s'.posts.get id).isSome ∧ Counted id s'.posts := by
  obtain ⟨d, hd⟩ := Option.isSome_iff_exists.mp hpost
  obtain ⟨hstep, hlikes⟩ := h
  cases hstep with
  | read => exact ⟨hpost, hcounted⟩
  | @write env i post hholding =>
    change ((((requests i).write env post).exec s.posts).2.get id).isSome ∧
      Counted id (((requests i).write env post).exec s.posts).2
    rcases (requests i).exec_write_cases env hd post with
      ⟨likedBy, -, hget, hlikedBy, hlikesCount, -⟩ | ⟨hkeep, -⟩
    · refine ⟨hget, ?_⟩
      unfold Counted likers
      rw [hlikesCount, hlikedBy]
      rfl
    · rw [hkeep]
      exact ⟨hpost, hcounted⟩
  | @atomic env w => exact absurd rfl (hlikes env w)

/-- The count is right at the end of every run, whatever the requests have read. -/
theorem run_counted {requests : ι → LikeRequest M id} {s s' : PostsState ι}
    {ls : List (PostsLabel M id ι)} (h : Run (LikesStep requests) s ls s')
    (hpost : (s.posts.get id).isSome) (hcounted : Counted id s.posts) : Counted id s'.posts := by
  have hstep : ∀ t l t', ((t.posts.get id).isSome ∧ Counted id t.posts) →
      LikesStep requests t l t' → (t'.posts.get id).isSome ∧ Counted id t'.posts :=
    fun _ _ _ ht hlast => hlast.counted ht.1 ht.2
  exact (h.invariant hstep ⟨hpost, hcounted⟩).2

/-! ## No lost likes -/

/-- From `c` to `c'` the requests have had their effect on the post and no other. -/
structure LikesKept (requests : ι → LikeRequest M id) (c c' : Collection) : Prop where
  liked : ∀ i, (requests i).action = .like → .str (requests i).userId ∈ likers id c'
  unliked : ∀ i, (requests i).action = .unlike → .str (requests i).userId ∉ likers id c'
  others : ∀ v, (∀ i, v ≠ .str (requests i).userId) → (v ∈ likers id c' ↔ v ∈ likers id c)
  nodup : (likers id c).Nodup → (likers id c').Nodup
  counted : Counted id c → Counted id c'

theorem likers_of_field {c : Collection} {xs : List Value}
    (h : field id c "likedBy" = .arr xs) : likers id c = xs := by
  rw [likers, h]
  rfl

theorem isSome_of_field {c : Collection} {xs : List Value}
    (h : field id c "likedBy" = .arr xs) : (c.get id).isSome := by
  unfold field at h
  cases hget : c.get id with
  | none => simp [hget] at h
  | some d => rfl

/-- If every write finds the list that its request read, the requests that are done have
had their effect one after the other. -/
theorem run_sequential {requests : ι → LikeRequest M id}
    (hdistinct : Function.Injective fun i => (requests i).userId) {s s' : PostsState ι}
    {ls : List (PostsLabel M id ι)} (hstart : ∀ i, s.stage i = .waiting) {likedBy : List Value}
    (hlist : field id s.posts "likedBy" = .arr likedBy)
    (h : Run (Meeting (LikesStep requests) FreshLikes) s ls s') :
    ∃ order, (∀ i, s'.stage i = .done → i ∈ order) ∧
      Sequential requests order likedBy (likers id s'.posts) := by
  obtain ⟨-, ls', hrun⟩ := h.simulate (f := PostsState.view id)
    (fun t l t' ht hstep => LikesStep.simulated hstep ht) (isSome_of_field hlist)
  obtain ⟨order, hlinear⟩ := linear_of_run hrun fun i => by
    simp [PostsState.view, hstart, Stage.map]
  obtain ⟨ys, hys, hsequential⟩ := sequential_inOrder hdistinct likedBy hlinear.nodup
  have hvalue : field id s'.posts "likedBy" = .arr ys := by
    rw [← hys, ← hlist]
    exact hlinear.value
  refine ⟨order, ?_, ?_⟩
  · intro i hdone
    apply (hlinear.done i).mpr
    simp [PostsState.view, hdone, Stage.map]
  · rw [likers_of_field hvalue]
    exact hsequential

/-- Once all requests of pairwise distinct users on a post have completed, no like is
lost, as long as every write found the list of users that its request had read. -/
theorem run_likesKept {requests : ι → LikeRequest M id}
    (hdistinct : Function.Injective fun i => (requests i).userId) {s s' : PostsState ι}
    {ls : List (PostsLabel M id ι)} (hstart : ∀ i, s.stage i = .waiting) {likedBy : List Value}
    (hlist : field id s.posts "likedBy" = .arr likedBy)
    (h : Run (Meeting (LikesStep requests) FreshLikes) s ls s')
    (hdone : ∀ i, s'.stage i = .done) : LikesKept requests s.posts s'.posts := by
  obtain ⟨order, hall, hsequential⟩ := run_sequential hdistinct hstart hlist h
  rw [← likers_of_field hlist] at hsequential
  exact {
    liked := fun i hlike => hsequential.liked (hall i (hdone i)) hlike
    unliked := fun i hunlike => hsequential.unliked hdistinct (hall i (hdone i)) hunlike
    others := fun v hv => hsequential.others hv
    nodup := hsequential.nodup
    counted := run_counted h.unmeet (isSome_of_field hlist) }

/-! ### Three users -/

/-- The next state when request `i` reads the post. -/
def PostsState.reads (requests : ι → LikeRequest M id) (env : Env) (i : ι) (s : PostsState ι) :
    PostsState ι :=
  s.moveTo i ((requests i).afterRead (((requests i).read env).exec s.posts).1)

/-- The next state when request `i` writes the post that it holds. -/
def PostsState.writes (requests : ι → LikeRequest M id) (env : Env) (i : ι) (s : PostsState ι) :
    PostsState ι :=
  match s.stage i with
  | .holding post =>
    PostsState.moveTo { s with posts := (((requests i).write env post).exec s.posts).2 } i .done
  | _ => s

/-- Request `i` is waiting. -/
def PostsState.waits (s : PostsState ι) (i : ι) : Bool :=
  match s.stage i with
  | .waiting => true
  | _ => false

/-- Request `i` holds the list of users that is stored. -/
def PostsState.upToDate (id : ObjectId) (s : PostsState ι) (i : ι) : Bool :=
  match s.stage i with
  | .holding post => field id s.posts "likedBy" = post.fields "likedBy"
  | _ => false

theorem step_reads {requests : ι → LikeRequest M id} {i : ι} {s : PostsState ι} (env : Env)
    (h : s.waits i = true) :
    Meeting (LikesStep requests) FreshLikes s (.read env i) (s.reads requests env i) := by
  unfold PostsState.waits at h
  cases hstage : s.stage i with
  | waiting => exact ⟨⟨.read hstage, by simp⟩, trivial⟩
  | holding | done =>
    rw [hstage] at h
    cases h

theorem step_writes {requests : ι → LikeRequest M id} {i : ι} {s : PostsState ι} (env : Env)
    (h : s.upToDate id i = true) :
    Meeting (LikesStep requests) FreshLikes s (.write env i) (s.writes requests env i) := by
  unfold PostsState.upToDate at h
  unfold PostsState.writes
  cases hstage : s.stage i with
  | holding post =>
    rw [hstage] at h
    refine ⟨⟨.write hstage, by simp⟩, ?_⟩
    intro post' hpost'
    obtain rfl := Stage.holding.inj (hstage.symm.trans hpost')
    exact of_decide_eq_true h
  | waiting | done =>
    rw [hstage] at h
    cases h

/-- Ann and Carl like the post, and Ben takes back a like that he has not given. -/
def threeUsers : Fin 3 → LikeRequest .plain helloId
  | 0 => likeBy "ann"
  | 1 => { likeBy "ben" with action := .unlike }
  | 2 => likeBy "carl"

/-- Ann and Ben have both read the post before either writes. -/
theorem run_likesKept_three :
    let s₀ := helloState (Fin 3)
    let s₂ := (s₀.reads threeUsers noon 1).reads threeUsers noon 0
    let s₄ := (s₂.writes threeUsers noon 1).writes threeUsers noon 0
    let s₆ := (s₄.reads threeUsers noon 2).writes threeUsers noon 2
    likers helloId s₆.posts = [.str "ann", .str "carl"] ∧
      LikesKept threeUsers s₀.posts s₆.posts := by
  intro s₀ s₂ s₄ s₆
  have hdistinct : Function.Injective fun i => (threeUsers i).userId := by
    intro i j h
    revert i j
    decide
  have hlist : field helloId s₀.posts "likedBy" = .arr [] := rfl
  have hrun : Run (Meeting (LikesStep threeUsers) FreshLikes) s₀ _ s₆ :=
    .snoc (.snoc (.snoc (.snoc (.snoc (.snoc (.nil _)
      (step_reads noon rfl)) (step_reads noon rfl))
      (step_writes noon (by decide +kernel))) (step_writes noon (by decide +kernel)))
      (step_reads noon (by decide +kernel))) (step_writes noon (by decide +kernel))
  have hdone : ∀ i, s₆.stage i = .done := by
    intro i
    match i with
    | 0 | 1 | 2 => rfl
  refine ⟨by decide +kernel, ?_⟩
  exact run_likesKept hdistinct (fun _ => rfl) hlist hrun hdone

/-! ### Two users -/

/-- Ann and Ben, who both like the post. -/
def annAndBen (b : Bool) : LikeRequest .plain helloId := likeBy (if b then "ann" else "ben")

/-- Both read the post before either writes: one like is lost. -/
theorem one_of_two_likes_lost :
    Function.Injective (fun b => (annAndBen b).userId) ∧
      ∃ ls s', Run (LikesStep annAndBen) (helloState Bool) ls s' ∧ (∀ b, s'.stage b = .done) ∧
        ¬ LikesKept annAndBen (helloState Bool).posts s'.posts := by
  constructor
  · rintro (_ | _) (_ | _) h
    case false.true | true.false =>
      revert h
      decide
    all_goals rfl
  have hrun : Run (LikesStep annAndBen) (helloState Bool) _ _ :=
    .snoc (.snoc (.snoc (.snoc (.nil _)
      ⟨(.read rfl : PostsStep annAndBen _ (.read noon true) _), by simp⟩)
      ⟨(.read rfl : PostsStep annAndBen _ (.read noon false) _), by simp⟩)
      ⟨(.write (afterRead_hello "ann") : PostsStep annAndBen _ (.write noon true) _), by simp⟩)
      ⟨(.write (afterRead_hello "ben") : PostsStep annAndBen _ (.write noon false) _), by simp⟩
  refine ⟨_, _, hrun, ?_, ?_⟩
  · intro b
    cases b <;> rfl
  · intro hkept
    have hann := hkept.liked true rfl
    revert hann
    decide

end Posts
