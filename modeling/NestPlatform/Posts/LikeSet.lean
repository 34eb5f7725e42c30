-- SUMMARY: Likes and unlikes of a post one after the other: its list of users as a set.
import NestPlatform.Posts.Likes

/-!
# Likes as a set

A like adds its user at the end of the list, unless the user is in it, and an unlike removes the
user. The count is the length of the list that is written with it.
-/
namespace Posts

open Js Mongo Nest Database Effect OrderedSet

variable {M : Mongoose} {id : ObjectId}

/-! ## Calls -/

/-- A call of `like` or `unlike` on the post `id`. -/
structure LikeCall (M : Mongoose) (id : ObjectId) where
  env : Env
  request : LikeRequest M id

/-- What the call makes of the list of users. -/
def LikeCall.toEdit (call : LikeCall M id) : Edit Value := call.request.toEdit

def LikeCall.run (call : LikeCall M id) : Store Doc := call.request.run call.env

/-- The collection after the calls, each of which completes before the next. -/
def afterCalls (calls : List (LikeCall M id)) (c : Collection) : Collection :=
  calls.foldl (fun c call => (call.run.exec c).2) c

theorem LikeCall.element_toEdit (call : LikeCall M id) :
    call.toEdit.element = .str call.request.userId := by
  unfold toEdit LikeRequest.toEdit
  cases call.request.action <;> rfl

/-! ## The post after one call and after many -/

/-- The post has the list of users `xs`, without duplicates and counted. -/
structure LikedBy (id : ObjectId) (c : Collection) (xs : List Value) : Prop where
  list : field id c "likedBy" = .arr xs
  nodup : xs.Nodup
  counted : field id c "likesCount" = .nat xs.length

/-- A call that writes leaves the list that it read edited, and one that does not write had
nothing to edit. -/
theorem LikedBy.exec {c : Collection} {xs : List Value} (h : LikedBy id c xs)
    (call : LikeCall M id) : LikedBy id (call.run.exec c).2 (call.toEdit.apply xs) := by
  obtain ⟨hlist, hnodup, hcounted⟩ := h
  obtain ⟨d, hd⟩ := Option.isSome_iff_exists.mp (isSome_of_field hlist)
  have hread : (hydrate PostSchema [] d).fields "likedBy" = .arr xs := by
    rw [← hlist, field_of_get hd]
  have hmodify : call.request.modify (.arr xs) = .arr (call.toEdit.apply xs) :=
    call.request.modify_toEdit xs
  have hunchanged : call.request.modify (.arr xs) = .arr xs → LikedBy id c (call.toEdit.apply xs) := by
    intro hsame
    have hxs : call.toEdit.apply xs = xs := Value.arr.inj (hmodify.symm.trans hsame)
    rw [hxs]
    exact ⟨hlist, hnodup, hcounted⟩
  unfold LikeCall.run
  rw [LikeRequest.exec_run, exec_read call.request call.env hd]
  rcases call.request.afterRead_ok (hydrate PostSchema [] d) with hafter | ⟨hafter, hsame⟩
  · rw [hafter]
    dsimp only
    rcases call.request.exec_write_cases call.env hd (hydrate PostSchema [] d) with
      ⟨likedBy, hwritten, -, hlist', hcounted', -⟩ | ⟨hkeep, hsame⟩
    · rw [hread, hmodify] at hwritten
      obtain rfl := Value.arr.inj hwritten
      exact ⟨hlist', call.toEdit.nodup_apply hnodup, hcounted'⟩
    · rw [hkeep]
      rw [hread] at hsame
      exact hunchanged hsame
  · rw [hafter]
    rw [hread] at hsame
    exact hunchanged hsame

/-- The post after the calls, one after the other. -/
theorem LikedBy.after {c : Collection} {xs : List Value} (h : LikedBy id c xs)
    (calls : List (LikeCall M id)) :
    LikedBy id (afterCalls calls c) (run (calls.map LikeCall.toEdit) xs) := by
  induction calls generalizing c xs with
  | nil => exact h
  | cons call calls ih => exact ih (h.exec call)

theorem LikedBy.field_eq {c c' : Collection} {xs : List Value} (h : LikedBy id c xs)
    (h' : LikedBy id c' xs) : ∀ k ∈ ["likedBy", "likesCount"], field id c k = field id c' k := by
  have hlist : field id c "likedBy" = field id c' "likedBy" := h.list.trans h'.list.symm
  have hcount : field id c "likesCount" = field id c' "likesCount" :=
    h.counted.trans h'.counted.symm
  simp [hlist, hcount]

/-- A user who is not unliked is not removed by an edit. -/
theorem LikeCall.toEdit_ne_remove {call : LikeCall M id} {v : Value}
    (h : call.request.action = .unlike → v ≠ .str call.request.userId) :
    call.toEdit ≠ .remove v := by
  unfold toEdit LikeRequest.toEdit
  cases haction : call.request.action with
  | like => simp
  | unlike =>
    intro heq
    exact h haction (Edit.remove.inj heq).symm

/-- Users who are not unliked after a time keep the order that they have at that time. -/
theorem LikedBy.sublist_after {c : Collection} {xs : List Value} (h : LikedBy id c xs)
    (before after : List (LikeCall M id)) {zs us : List Value}
    (hzs : field id (afterCalls before c) "likedBy" = .arr zs) (hus : us.Sublist zs)
    (hkept : ∀ v ∈ us, ∀ call ∈ after,
      call.request.action = .unlike → v ≠ .str call.request.userId) :
    us.Sublist (run ((before ++ after).map LikeCall.toEdit) xs) := by
  obtain rfl := Value.arr.inj (hzs.symm.trans (h.after before).list)
  rw [List.map_append, OrderedSet.run_append]
  apply sublist_run _ hus
  intro v hv hmem
  obtain ⟨call, hcall, hedit⟩ := List.mem_map.mp hmem
  exact LikeCall.toEdit_ne_remove (hkept v hv call hcall) hedit

/-- The second of two equal calls leaves the list and the count as they are. -/
theorem LikedBy.again {c : Collection} {xs : List Value} (h : LikedBy id c xs)
    (calls : List (LikeCall M id)) {call call' : LikeCall M id}
    (haction : call'.request.action = call.request.action)
    (huser : call'.request.userId = call.request.userId) :
    ∀ k ∈ ["likedBy", "likesCount"], field id (afterCalls (calls ++ [call, call']) c) k =
      field id (afterCalls (calls ++ [call]) c) k := by
  have hsame : call'.toEdit = call.toEdit := by
    unfold LikeCall.toEdit LikeRequest.toEdit
    rw [haction, huser]
  have hlists : run ((calls ++ [call, call']).map LikeCall.toEdit) xs =
      run ((calls ++ [call]).map LikeCall.toEdit) xs := by
    rw [List.map_append, List.map_append, List.map_cons, List.map_cons, List.map_nil, hsame]
    exact run_again _ call.toEdit xs
  have htwice := h.after (calls ++ [call, call'])
  rw [hlists] at htwice
  exact htwice.field_eq (h.after (calls ++ [call]))

/-- Neighbouring calls of two users can change places, up to the order of the list. -/
theorem LikedBy.swap_perm {c : Collection} {xs : List Value} (h : LikedBy id c xs)
    (before after : List (LikeCall M id)) {call call' : LikeCall M id}
    (hne : call.request.userId ≠ call'.request.userId) :
    (run ((before ++ call' :: call :: after).map LikeCall.toEdit) xs).Perm
      (run ((before ++ call :: call' :: after).map LikeCall.toEdit) xs) := by
  have hedits : call'.toEdit.element ≠ call.toEdit.element := by
    rw [LikeCall.element_toEdit, LikeCall.element_toEdit]
    exact fun heq => hne (Value.str.inj heq).symm
  simp only [List.map_append, List.map_cons]
  exact run_swap_perm _ _ hedits h.nodup

/-! ## The set -/

/-- From `c`, where `xs` is the list of users, the calls lead to the list `ys` as they would with
a set. -/
structure LikesAsSet (c : Collection) (xs : List Value) (calls : List (LikeCall M id))
    (ys : List Value) : Prop where
  list : field id (afterCalls calls c) "likedBy" = .arr ys
  set : {v | v ∈ ys} = runSet (calls.map LikeCall.toEdit) {v | v ∈ xs}
  nodup : ys.Nodup
  counted : field id (afterCalls calls c) "likesCount" = .nat ys.length
  /-- Users in the list at any time keep their order if they are not unliked from then on. -/
  order : ∀ (before after : List (LikeCall M id)) (zs us : List Value), calls = before ++ after →
    field id (afterCalls before c) "likedBy" = .arr zs → us.Sublist zs →
    (∀ v ∈ us, ∀ call ∈ after, call.request.action = .unlike → v ≠ .str call.request.userId) →
    us.Sublist ys
  /-- The same user makes the same call again. -/
  repeated : ∀ call call' : LikeCall M id, call'.request.action = call.request.action →
    call'.request.userId = call.request.userId → ∀ k ∈ ["likedBy", "likesCount"],
      field id (afterCalls (calls ++ [call, call']) c) k =
        field id (afterCalls (calls ++ [call]) c) k
  /-- Calls of two users change places. -/
  commute : ∀ before call call' after, calls = before ++ call :: call' :: after →
    call.request.userId ≠ call'.request.userId →
      ∃ zs, field id (afterCalls (before ++ call' :: call :: after) c) "likedBy" = .arr zs ∧
        zs.Perm ys ∧ field id (afterCalls (before ++ call' :: call :: after) c) "likesCount" =
          field id (afterCalls calls c) "likesCount"

/-- Calls one after the other on a post whose list of users has no duplicates and is counted
make of the list what they would make of a set. -/
theorem likes_as_set {c : Collection} {xs : List Value} (h : LikedBy id c xs)
    (calls : List (LikeCall M id)) : ∃ ys, LikesAsSet c xs calls ys := by
  obtain ⟨hlist, hnodup, hcounted⟩ := h.after calls
  refine ⟨_, hlist, Set.ext (mem_run _ xs), hnodup, hcounted, ?_, ?_, ?_⟩
  · rintro before after zs us rfl hzs hus hkept
    exact h.sublist_after before after hzs hus hkept
  · intro call call' haction huser
    exact h.again calls haction huser
  · rintro before call call' after rfl hne
    have hswapped := h.after (before ++ call' :: call :: after)
    have hperm := h.swap_perm before after hne
    refine ⟨_, hswapped.list, hperm, ?_⟩
    rw [hswapped.counted, hcounted, hperm.length_eq]

/-- Ann and Ben like the post, then Ann takes her like back. -/
theorem likes_as_set_hello : ∃ ys, LikesAsSet (helloState Unit).posts []
    [⟨noon, likeBy "ann"⟩, ⟨noon, likeBy "ben"⟩, ⟨noon, { likeBy "ann" with action := .unlike }⟩] ys :=
  likes_as_set ⟨rfl, List.nodup_nil, rfl⟩ _

end Posts
