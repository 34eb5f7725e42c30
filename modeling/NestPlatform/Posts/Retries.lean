-- SUMMARY: Requests to the posts service that are made again: all but a new post come to the same as if made once.
import NestPlatform.Database.Repeat
import NestPlatform.Posts.Answers

/-!
# Retries of posts requests

A post that is changed, published, deleted or liked again is as it was after the first time, up to
the times that are written with it. The check of the author may refuse the second attempt, and a
like that is there is not added; neither makes a difference to what is stored.
-/
namespace Posts

open Js Mongo Nest Common Database Services Effect Transition

variable {M : Mongoose}

theorem uniqueAside_post : UniqueAside PostSchema := by
  intro p hp hunique
  rw [PostSchema_unique p hp] at hunique
  cases hunique

theorem hasDeletedAt_post : HasDeletedAt PostSchema := rfl

/-! ## Changes -/

/-- The check of the controller, on the stored post. -/
def mayChange (user : JwtPayload) (x : Fields) : Bool :=
  x "userId" = .str user.sub ∨ user.role = Constants.UserRole.ADMIN

theorem mayChange_congr (user : JwtPayload) (x y : Fields) (h : SameButStamps x y) :
    mayChange user x = mayChange user y := by
  unfold mayChange
  rw [(h "userId").eq (by decide)]

theorem state_asOwner (env : Env) (id : String) (user : JwtPayload) (u : Update) (c : Collection) :
    ((PostsController.asOwner M env id user
        (AbstractRepository.findOneAndUpdate M PostSchema env (byId (.str id)) u)).exec c).2 =
      match M.castId (.str id) with
      | none => c
      | some docId => rewrite PostSchema env docId (fun x =>
          if mayChange user x then (u.compile M PostSchema).bind fun f => f docId x else none) c := by
  cases hid : M.castId (.str id) with
  | none =>
    unfold PostsController.asOwner PostsService.findById
    rw [exec_bind_error (AbstractRepository.exec_findById_uncastable hid c)]
  | some docId =>
    cases hd : c.get docId with
    | none =>
      unfold PostsController.asOwner PostsService.findById
      rw [exec_bind_error (AbstractRepository.exec_findById_missing hid hd)]
      exact (rewrite_of_none hd).symm
    | some d =>
      rw [exec_asOwner hid hd]
      dsimp only
      by_cases howner : d.fields "userId" = .str user.sub ∨ user.role = Constants.UserRole.ADMIN
      · have hmay : mayChange user d.fields = true := decide_eq_true howner
        rw [if_pos howner, state_eq_rewrite, hid]
        unfold rewrite
        dsimp only
        rw [hd, Option.bind_some, Option.bind_some, if_pos hmay]
      · have hmay : mayChange user d.fields = false := decide_eq_false howner
        rw [if_neg howner, rewrite_of_refused hd]
        rw [hmay]
        rfl

theorem settles_asOwner (id : String) (user : JwtPayload) {u : Env → Update}
    (h : ∀ docId, Repeats fun env x => ((u env).compile M PostSchema).bind fun f => f docId x) :
    Settles SameDocs fun env c => ((PostsController.asOwner M env id user
      (AbstractRepository.findOneAndUpdate M PostSchema env (byId (.str id)) (u env))).exec c).2 := by
  cases hid : M.castId (.str id) with
  | none =>
    apply Settles.of_keeps SameDocs.refl
    intro env c
    rw [state_asOwner, hid]
  | some docId =>
    have hguarded := (h docId).guard (mayChange_congr user)
    apply (hguarded.settles uniqueAside_post docId).reindex fun env => env
    intro env c
    rw [state_asOwner, hid]

/-! ## Likes -/

/-- What a query shows of a post with these fields. -/
def shown (x : Fields) : Fields := fun k =>
  match PostSchema.path k with
  | some p => if x k = .undefined then p.default else x k
  | none => x k

theorem fields_hydrate (d : Doc) : (hydrate PostSchema [] d).fields = shown d.fields := by
  funext k
  unfold hydrate shown
  cases hp : PostSchema.path k with
  | none => simp [hp]
  | some p => simp [hp, PostSchema_select p (List.mem_of_find?_eq_some hp)]

theorem shown_defined {x : Fields} {k : String} (h : x k ≠ .undefined) : shown x k = x k := by
  unfold shown
  split
  · rw [if_neg h]
  · rfl

/-- What is not shown is not stored. -/
theorem stored_of_shown {x : Fields} {k : String} (h : shown x k = .undefined) :
    x k = .undefined := by
  by_contra hne
  rw [shown_defined hne] at h
  exact hne h

theorem shown_congr {x y : Fields} (h : SameButStamps x y) : SameButStamps (shown x) (shown y) := by
  intro k
  have hk := h k
  generalize hx : x k = v at hk
  generalize hy : y k = w at hk
  cases hk with
  | same =>
    have heq : shown x k = shown y k := by
      unfold shown
      rw [hx, hy]
    rw [heq]
    exact .same _
  | updated _ _ hupdated => exact .updated _ _ hupdated
  | deleted m n hdeleted =>
    have hx' : shown x k = .date m := by
      rw [← hx]
      exact shown_defined (by simp [hx])
    have hy' : shown y k = .date n := by
      rw [← hy]
      exact shown_defined (by simp [hy])
    rw [hx', hy']
    exact .deleted m n hdeleted

def likeFieldsOf (likedBy : List Value) : Entries :=
  [("likedBy", .arr likedBy), ("likesCount", .nat likedBy.length)]

/-- What a query shows of a post, with these likes. -/
def likedAs (x : Fields) (likedBy : List Value) : Fields :=
  Fields.assign (shown x) (likeFieldsOf likedBy)

/-- A path that is missing afterwards was missing before. -/
theorem stored_of_likedAs {x : Fields} {likedBy : List Value} {k : String}
    (h : likedAs x likedBy k = .undefined) : shown x k = .undefined := by
  unfold likedAs at h
  rcases Fields.assign_cases (shown x) (likeFieldsOf likedBy) k with hkeep | hmem
  · rwa [hkeep] at h
  · rw [h] at hmem
    simp [likeFieldsOf, Value.nat] at hmem

/-- A query shows a post that has been read and liked as it is. -/
theorem shown_likedAs (x : Fields) (likedBy : List Value) :
    shown (likedAs x likedBy) = likedAs x likedBy := by
  funext k
  by_cases hmissing : likedAs x likedBy k = .undefined
  · have hshown := stored_of_likedAs hmissing
    have hsame : shown (likedAs x likedBy) k = shown x k := by
      unfold shown
      rw [hmissing, stored_of_shown hshown]
    rw [hsame, hshown, hmissing]
  · exact shown_defined hmissing

/-- The post is written back as it was read, with the new likes. -/
theorem overwrite_withLikes (d : Doc) (likedBy : List Value) :
    overwrite PostSchema (withLikes (hydrate PostSchema [] d) likedBy) d.fields =
      likedAs d.fields likedBy := by
  funext k
  have hfields : (withLikes (hydrate PostSchema [] d) likedBy).fields = likedAs d.fields likedBy := by
    unfold withLikes likedAs likeFieldsOf
    rw [fields_hydrate]
  unfold overwrite
  rw [hfields]
  split
  · rfl
  rename_i hkeep
  cases hpath : PostSchema.path k with
  | none =>
    have hother : k ∉ Entries.keys (likeFieldsOf likedBy) := by
      intro hk
      have hkeys : k ∈ ["likedBy", "likesCount"] := hk
      simp only [List.mem_cons, List.not_mem_nil, or_false] at hkeys
      rcases hkeys with rfl | rfl <;> cases hpath
    unfold likedAs
    rw [Fields.assign_of_notMem hother]
    unfold shown
    rw [hpath]
  | some p =>
    have hmissing : likedAs d.fields likedBy k = .undefined := by
      by_contra hne
      exact hkeep ⟨by rw [hpath]; rfl, hne⟩
    rw [hmissing, stored_of_shown (stored_of_likedAs hmissing)]

/-- What an edit makes of the likes of a post. -/
structure EditsLikes (edit : Doc → Except Thrown (Option Doc))
    (likers : List Value → Option (List Value)) : Prop where
  list : ∀ post likedBy, post.fields "likedBy" = .arr likedBy →
    edit post = .ok ((likers likedBy).map (withLikes post))
  other : ∀ post, (∀ likedBy, post.fields "likedBy" ≠ .arr likedBy) → ∃ e, edit post = .error e
  again : ∀ xs ys, likers xs = some ys → likers ys = none ∨ likers ys = some ys

def withUser (userId : String) (likedBy : List Value) : Option (List Value) :=
  if likedBy.contains (.str userId) then none else some (likedBy ++ [.str userId])

def withoutUser (userId : String) (likedBy : List Value) : Option (List Value) :=
  some (likedBy.filter (· ≠ .str userId))

theorem editsLikes_addLike (userId : String) : EditsLikes (addLike userId) (withUser userId) where
  list post likedBy h := by
    unfold addLike withUser
    rw [h]
    dsimp only
    split <;> rfl
  other post h := by
    unfold addLike
    split
    · rename_i likedBy heq
      exact absurd heq (h likedBy)
    · exact ⟨_, rfl⟩
  again xs ys h := by
    unfold withUser at h ⊢
    split at h
    · cases h
    · obtain rfl := Option.some.inj h
      left
      simp

theorem editsLikes_dropLike (userId : String) :
    EditsLikes (dropLike userId) (withoutUser userId) where
  list post likedBy h := by
    unfold dropLike
    rw [h]
    rfl
  other post h := by
    unfold dropLike
    split
    · rename_i likedBy heq
      exact absurd heq (h likedBy)
    · exact ⟨_, rfl⟩
  again xs ys h := by
    obtain rfl := Option.some.inj h
    right
    unfold withoutUser
    rw [List.filter_filter]
    simp

/-- The fields of the post with its new likes, if it gets any. -/
def likeEdit (likers : List Value → Option (List Value)) (x : Fields) : Option Fields :=
  match shown x "likedBy" with
  | .arr likedBy => (likers likedBy).map (likedAs x)
  | _ => none

section

variable {edit : Doc → Except Thrown (Option Doc)} {likers : List Value → Option (List Value)}

theorem EditsLikes.repeats (h : EditsLikes edit likers) : Repeats fun _ x => likeEdit likers x where
  congr i j x y hxy := by
    have hshown := shown_congr hxy
    unfold likeEdit
    rw [(hshown "likedBy").eq (by decide)]
    cases shown y "likedBy" with
    | arr likedBy =>
      dsimp only
      cases likers likedBy with
      | none => exact .none
      | some ys => exact .some (hshown.assign (likeFieldsOf ys))
    | _ => exact .none
  absorb i j x y z hx hzy := by
    unfold likeEdit at hx
    split at hx
    case h_2 => cases hx
    obtain ⟨ys, hys, rfl⟩ := Option.map_eq_some_iff.mp hx
    have hshown : SameButStamps (shown z) (likedAs x ys) := by
      rw [← shown_likedAs x ys]
      exact shown_congr hzy
    have hlist : shown z "likedBy" = .arr ys := (hshown "likedBy").eq (by decide)
    unfold likeEdit
    rw [hlist]
    dsimp only
    cases h.again _ ys hys with
    | inl hnone =>
      left
      rw [hnone]
      rfl
    | inr hsame =>
      right
      rw [hsame]
      exact ⟨_, rfl, hshown.assign_again⟩

theorem EditsLikes.state (h : EditsLikes edit likers) (env : Env) (id : String) (c : Collection) :
    ((PostsService.editLikes M env edit (.str id)).exec c).2 =
      match M.castId (.str id) with
      | none => c
      | some docId => rewrite PostSchema env docId (likeEdit likers) c := by
  unfold PostsService.editLikes
  cases hid : M.castId (.str id) with
  | none => rw [exec_bind_error (AbstractRepository.exec_findById_uncastable hid c)]
  | some docId =>
    cases hd : c.get docId with
    | none =>
      rw [exec_bind_error (AbstractRepository.exec_findById_missing hid hd)]
      exact (rewrite_of_none hd).symm
    | some d =>
      rw [exec_bind_ok (AbstractRepository.exec_findById_str hid hd)]
      have hlikedBy : (hydrate PostSchema [] d).fields "likedBy" = shown d.fields "likedBy" := by
        rw [fields_hydrate]
      -- anything but a list makes the edit throw
      by_cases hlist : ∃ likedBy, shown d.fields "likedBy" = .arr likedBy
      · obtain ⟨likedBy, hlist⟩ := hlist
        rw [h.list _ likedBy (hlikedBy.trans hlist)]
        have hnew : likeEdit likers d.fields = (likers likedBy).map (likedAs d.fields) := by
          unfold likeEdit
          rw [hlist]
        cases hlikers : likers likedBy with
        | none =>
          rw [hlikers] at hnew
          exact (rewrite_of_refused hd hnew).symm
        | some ys =>
          rw [hlikers] at hnew
          rw [Option.map_some]
          dsimp only
          rw [state_eq_rewrite, hid]
          dsimp only
          rw [rewrite_of_edited hd hnew]
          refine rewrite_of_edited hd ?_
          rw [← overwrite_withLikes]
          rfl
      · have hnew : likeEdit likers d.fields = none := by
          unfold likeEdit
          split
          · rename_i likedBy heq
            exact absurd ⟨likedBy, heq⟩ hlist
          · rfl
        obtain ⟨e, he⟩ := h.other (hydrate PostSchema [] d) fun likedBy heq =>
          hlist ⟨likedBy, hlikedBy.symm.trans heq⟩
        rw [he]
        exact (rewrite_of_refused hd hnew).symm

theorem EditsLikes.settles (h : EditsLikes edit likers) (id : String) :
    Settles SameDocs fun env c => ((PostsService.editLikes M env edit (.str id)).exec c).2 := by
  cases hid : M.castId (.str id) with
  | none =>
    apply Settles.of_keeps SameDocs.refl
    intro env c
    rw [h.state, hid]
  | some docId =>
    apply (h.repeats.settles uniqueAside_post docId).reindex fun env => env
    intro env c
    rw [h.state, hid]

end

/-! ## Requests -/

/-- The endpoints whose effect is not doubled. -/
def UserEndpoint.Again : UserEndpoint → Prop
  | .create _ => False
  | .update _ dto => PlainBody dto
  | _ => True

/-- A handler that returns one post settles as its method of the controller does. -/
theorem settles_one {e : UserEndpoint} {user : JwtPayload} {go : Env → Store Doc}
    (h : Settles SameDocs fun env c => ((go env).exec c).2)
    (hrun : ∀ env, (e.operation user).run M env = .one <$> go env) :
    Settles SameDocs fun (x : Exchange) posts => ((x.serve M (e.operation user)).exec posts).2 := by
  apply h.reindex fun x => x.env
  intro x posts
  unfold Exchange.serve
  rw [exec_map, hrun, exec_map]

theorem settles_serve (user : JwtPayload) {e : UserEndpoint} (h : e.Again) :
    Settles SameDocs fun (x : Exchange) posts => ((x.serve M (e.operation user)).exec posts).2 := by
  cases e with
  | create dto => cases h
  | getUserPosts userId page limit =>
    apply Settles.of_keeps SameDocs.refl
    intro x posts
    exact (Exchange.writes_or_silent user (.getUserPosts userId page limit)).resolve_left id posts
  | update id dto => exact settles_one (settles_asOwner id user (PlainBody.repeats h)) fun _ => rfl
  | delete id =>
    exact settles_one (settles_asOwner id user (repeats_softDelete hasDeletedAt_post)) fun _ => rfl
  | publish id =>
    have hplain : PlainBody (.obj [("status", .str "published")]) :=
      ⟨fun _ => Value.noConfusion, by decide⟩
    exact settles_one (settles_asOwner id user hplain.repeats) fun _ => rfl
  | like id => exact settles_one ((editsLikes_addLike user.sub).settles id) fun _ => rfl
  | unlike id => exact settles_one ((editsLikes_dropLike user.sub).settles id) fun _ => rfl

/-- A request for anything but a new post, with a plain body. -/
structure HttpRequest.Again (req : HttpRequest) : Prop where
  creates : ∀ dto, req.route ≠ .ok (.member (.create dto))
  body : PlainBody req.body

theorem HttpRequest.Again.endpoint {req : HttpRequest} (h : req.Again) {e : UserEndpoint}
    (hroute : req.route = .ok (.member e)) : e.Again := by
  cases e with
  | create dto => exact absurd hroute (h.creates dto)
  | update id dto =>
    obtain ⟨route, hmem, ids, -, hendpoint⟩ := endpoint_of_dispatch hroute
    simp only [routes, HealthController.routes, PostsController.routes, List.cons_append,
      List.nil_append, List.mem_cons, List.not_mem_nil, or_false] at hmem
    rcases hmem with rfl | rfl | rfl | rfl | rfl | rfl | rfl | rfl | rfl | rfl <;> cases hendpoint
    exact h.body
  | getUserPosts | delete | like | unlike | publish => trivial

/-! ## Attempts -/

section

variable {jwt : Auth.Jwt} {config : Auth.AuthConfig}

def Exchange.Arrives (jwt : Auth.Jwt) (config : Auth.AuthConfig) (x : Exchange) : Prop :=
  ∃ user e, x.Admits jwt config user e

/-- Attempts at one request are admitted for one user and to one endpoint. -/
theorem admits_eq (hdecodes : jwt.Decodes) {x x' : Exchange} (hrequest : x.request = x'.request)
    {user user' : JwtPayload} {e e' : UserEndpoint} (h : x.Admits jwt config user e)
    (h' : x'.Admits jwt config user' e') : user = user' ∧ e = e' := by
  obtain ⟨hroute, -, huser⟩ := h
  obtain ⟨hroute', -, huser'⟩ := h'
  unfold Exchange.user at huser huser'
  rw [hrequest] at hroute huser
  constructor
  · exact Auth.bearerUser_eq hdecodes huser huser'
  · cases hroute.symm.trans hroute'
    rfl

/-- Attempts at a request settle unless it is for a new post. -/
theorem repeatable_of_again (hdecodes : jwt.Decodes) {req : HttpRequest} (h : req.Again) :
    Repeatable (Exchange.after M jwt config) (fun x => x.request = req) (Exchange.Arrives jwt config)
      SameDocs where
  equiv := SameDocs.equivalence
  lost x posts hattempt hlost := by
    unfold Exchange.after
    rcases @Exchange.exec_handle_cases M jwt config x posts with
      ⟨e, hopens⟩ | ⟨user, e, hadmits⟩ | ⟨-, e, -, hrefused⟩
    · rw [Exchange.exec_handle_opens hopens]
      exact Exchange.silent_handlePublic e posts
    · exact absurd ⟨user, e, hadmits⟩ hlost
    · rw [hrefused]
  settles := by
    refine .of_each fun first => ?_
    obtain ⟨_, rfl, user, e, hadmits⟩ := first
    apply (settles_serve user (h.endpoint hadmits.1)).reindex fun x => x.1
    intro x posts
    obtain ⟨x, hrequest, user', e', hadmits'⟩ := x
    obtain ⟨rfl, rfl⟩ := admits_eq hdecodes hrequest hadmits' hadmits
    unfold Exchange.after
    rw [Exchange.exec_handle_admits hadmits']

/-- In every run of attempts at one request, unless it is for a new post, the posts end up as after
any one of those that were admitted, up to the times in them; if none was, as they were. -/
theorem run_posts_attempts (hdecodes : jwt.Decodes) {req : HttpRequest} (hagain : req.Again)
    {posts posts' : Collection} {attempts : List Exchange}
    (h : Run (HttpStep M jwt config) posts attempts posts') (hattempts : ∀ x ∈ attempts, x.request = req) :
    Once (Exchange.after M jwt config) (Exchange.Arrives jwt config) SameDocs posts attempts posts' :=
  (repeatable_of_again hdecodes hagain).run h hattempts

end

/-! ### One like -/

/-- Ann likes her post. -/
def annLikes (now : ℤ) : Exchange :=
  { arriving .PATCH ["posts", helloId.toString, "like"] (some "Bearer access") [] with
    clock := now
    env := { noon with now } }

/-- She is not sure of the first time. -/
theorem run_posts_attempts_ann :
    let posts := postsAfter annPosts .empty
    let posts' := postsAfter (annLikes 2) (postsAfter (annLikes 1) posts)
    (posts'.get helloId).map (·.fields "likedBy") = some (.arr [.str ann.sub]) ∧
      Once postsAfter (Exchange.Arrives (.single annPayload) Auth.accessOnly) SameDocs posts
        [annLikes 1, annLikes 2] posts' := by
  intro posts posts'
  constructor
  · decide +kernel
  have hplain : PlainBody (.obj []) := ⟨fun _ => Value.noConfusion, rfl⟩
  have hroute : (annLikes 1).request.route = .ok (.member (.like helloId.toString)) := rfl
  have hagain : (annLikes 1).request.Again := by
    refine ⟨?_, hplain⟩
    intro dto hcreate
    cases hroute.symm.trans hcreate
  have hattempts : ∀ x ∈ [annLikes 1, annLikes 2], x.request = (annLikes 1).request := by
    intro x hx
    simp only [List.mem_cons, List.not_mem_nil, or_false] at hx
    rcases hx with rfl | rfl <;> rfl
  exact run_posts_attempts (Auth.Jwt.single_decodes annPayload) hagain (.snoc (.snoc (.nil _) rfl) rfl)
    hattempts

end Posts
