-- SUMMARY: When the author of every post is the one whose token created it, over whole runs of the posts API.
import NestPlatform.Posts.Api

/-!
# Authorship

The `userId` of a post decides who may change it. It is set from the token and from the
body of the create request, and the body of an update may name it again.
-/
namespace Posts

open Js Mongo Nest Common Database Services Effect Transition

/-! ## The property and the condition -/

/-- The author of every stored post is the `sub` of the token that created it. -/
def Authored (w : PostsWorld) : Prop :=
  ∀ post ∈ w.posts.docs, ∃ sub, post.fields "userId" = .str sub ∧
    ∀ sub', .created post.id sub' ∈ w.history ↔ sub' = sub

/-- A valid author in the body of a create request is the caller, and an update that the
controller lets through leaves the author alone. -/
def KeepsAuthor (M : Mongoose) (w : PostsWorld) (call : PostsCall) : Prop :=
  match call.op with
  | .create user dto => "userId" ∉ dottedRoots dto.entries ∧
      ∀ v p x, ("userId", v) ∈ dto.entries → PostSchema.path "userId" = some p →
        p.set M v = some x → p.valid x = true → x = .str user.sub
  | op => UpdateKeeps M ["userId"] w.posts op

/-! ## One request -/

variable {M : Mongoose} {w : PostsWorld}

/-- What a request keeps: besides the authors, only stored posts have been created. -/
structure AuthorsSound (w : PostsWorld) : Prop where
  kept : Authored w
  stored : ∀ id sub, .created id sub ∈ w.history → (w.posts.get id).isSome

/-- The author of a new post. -/
theorem construct_author {env : Env} {user : JwtPayload} {dto : Value} {d : Doc}
    (hd : construct M PostSchema env (Entries.assign [("userId", .str user.sub)] dto.entries) = some d)
    (hvalid : validate PostSchema d.fields = true)
    (hdto : "userId" ∉ dottedRoots dto.entries ∧
      ∀ v p x, ("userId", v) ∈ dto.entries → PostSchema.path "userId" = some p →
        p.set M v = some x → p.valid x = true → x = .str user.sub) :
    d.fields "userId" = .str user.sub := by
  have hp : PostSchema.path "userId" =
      some { name := "userId", type := .string, required := true } := rfl
  have hvalidAuthor := List.all_eq_true.mp hvalid _ (List.mem_of_find?_eq_some hp)
  rcases construct_cases hd hp (notMem_dottedRoots_spread hdto.1) (by decide) with hdefault | ⟨v, hv, hset, -⟩
  · rw [hdefault] at hvalidAuthor
    cases hvalidAuthor
  · rcases Entries.mem_assign hv with hbase | hbody
    · obtain rfl : v = .str user.sub := by simpa using hbase
      have hcast : ({ name := "userId", type := .string, required := true } : SchemaPath).set M
          (.str user.sub) = some (.str user.sub) := by
        simp [SchemaPath.set, Value.nullish, SchemaPath.setters,
          M.cast_accepts (t := .string) (v := .str user.sub) rfl]
      exact (Option.some.inj (hcast.symm.trans hset)).symm
    · exact hdto.2 v _ _ hbody hp hset hvalidAuthor

/-- Writing a post with the same author keeps the authors, whatever likes the history gets. -/
theorem AuthorsSound.put {d : Doc} (h : AuthorsSound w) (hd : w.posts.get d.id = some d) (env : Env)
    {fields : Fields} (hfields : fields "userId" = d.fields "userId") {events : List PostsEvent}
    (hevents : ∀ id sub, .created id sub ∉ events) :
    AuthorsSound ⟨w.posts.put (touch env d.id fields), w.history ++ events⟩ := by
  have hhistory : ∀ id sub, .created id sub ∈ w.history ++ events ↔ .created id sub ∈ w.history := by
    simp [hevents]
  constructor
  · intro post hpost
    rcases Collection.mem_put.mp hpost with ⟨hold, -⟩ | ⟨rfl, -⟩
    · obtain ⟨sub, hsub, hcreated⟩ := h.kept post hold
      exact ⟨sub, hsub, fun sub' => (hhistory _ _).trans (hcreated sub')⟩
    · obtain ⟨sub, hsub, hcreated⟩ := h.kept d (Collection.mem_of_get hd)
      refine ⟨sub, ?_, fun sub' => (hhistory _ _).trans (hcreated sub')⟩
      rw [touch_of_ne (by decide), hfields, hsub]
  · intro id sub hmem
    exact Collection.isSome_get_put (h.stored id sub ((hhistory id sub).mp hmem))

/-- A new post has the caller as its author, and its id has not been used. -/
theorem AuthorsSound.created {user : JwtPayload} {d : Doc} (h : AuthorsSound w)
    (hnew : w.posts.get d.id = none) (hauthor : d.fields "userId" = .str user.sub) :
    AuthorsSound ⟨w.posts.insert d hnew, w.history ++ [.created d.id user.sub]⟩ := by
  constructor
  · intro post hpost
    rcases List.mem_append.mp hpost with hold | hself
    · obtain ⟨sub, hsub, hcreated⟩ := h.kept post hold
      have hne : post.id ≠ d.id := Collection.ne_of_get hnew hold
      refine ⟨sub, hsub, fun sub' => ?_⟩
      simp [hne, hcreated sub']
    · obtain rfl := List.mem_singleton.mp hself
      refine ⟨user.sub, hauthor, fun sub' => ?_⟩
      have hunused : .created post.id sub' ∉ w.history := by
        intro hmem
        have hstored := h.stored post.id sub' hmem
        rw [hnew] at hstored
        cases hstored
      simp [hunused]
  · intro id sub hmem
    rcases List.mem_append.mp hmem with hold | hself
    · have hstored := h.stored id sub hold
      have hne : id ≠ d.id := by
        rintro rfl
        rw [hnew] at hstored
        cases hstored
      rw [Collection.get_insert_ne hne]
      exact hstored
    · cases List.mem_singleton.mp hself
      rw [Collection.get_insert_self hnew]
      rfl

/-- A request that meets the condition keeps the authors. -/
theorem AuthorsSound.after (h : AuthorsSound w) {call : PostsCall} (hcall : KeepsAuthor M w call) :
    AuthorsSound (call.after M w) := by
  obtain ⟨env, op⟩ := call
  obtain ⟨event, posts, heffect, hafter⟩ := PostsCall.after_eq M ⟨env, op⟩ w
  rw [hafter]
  cases heffect with
  | idle =>
    simp only [Option.toList_none, List.append_nil]
    exact h
  | created hnew hd hvalid => exact h.created hnew (construct_author hd hvalid hcall)
  | changed hchange hid hd howner hf hfields =>
    have hkeeps : UpdateKeeps M ["userId"] w.posts op := by
      cases op with
      | create => cases hchange
      | _ => exact hcall
    refine h.put hd env ?_ (by simp)
    exact hkeeps.fields_eq (by decide) (by decide) hchange hid hd howner hf hfields
      (List.mem_singleton_self _)
  | reacted hreaction hd hedit =>
    rename_i d r edited
    cases edited with
    | none =>
      refine ⟨?_, ?_⟩
      · intro post hpost
        obtain ⟨sub, hsub, hcreated⟩ := h.kept post hpost
        exact ⟨sub, hsub, fun sub' => by simp [hcreated sub']⟩
      · intro id sub hmem
        exact h.stored id sub (by simpa using hmem)
    | some post => exact h.put hd env (overwrite_edited r hedit (by decide) (userId_hydrate d)) (by simp)

/-- In every run of the posts API whose bodies keep the authors, every stored post has the author
whose token created it. -/
theorem run_authored {calls : List PostsCall} {w : PostsWorld}
    (h : Run (Meeting (ApiStep M) (KeepsAuthor M)) .initial calls w) : Authored w := by
  have hinit : AuthorsSound .initial := by
    constructor
    · intro post hpost
      cases hpost
    · intro id sub hmem
      cases hmem
  have hstep : ∀ w call w', AuthorsSound w → Meeting (ApiStep M) (KeepsAuthor M) w call w' →
      AuthorsSound w' := by
    rintro w call _ hw ⟨rfl, hcall⟩
    exact hw.after hcall
  exact (h.invariant hstep hinit).kept

/-! ### One post -/

/-- Ann's post is still hers after Bob has liked it. -/
theorem run_authored_liked :
    Authored (bobLikes.after .plain ((creates []).after .plain .initial)) := by
  have hcreate : KeepsAuthor .plain .initial (creates []) := by
    constructor
    · decide
    · intro v p x hmem
      have hkey : "userId" ∉ ["title", "content"] := by decide
      exact absurd (List.mem_map_of_mem (f := Prod.fst) hmem) hkey
  exact run_authored (.snoc (.snoc (.nil _) ⟨rfl, hcreate⟩) ⟨rfl, trivial⟩)

/-- Ann creates a post in the name of Bob. -/
theorem created_for_bob :
    Run (ApiStep .plain) .initial [creates [("userId", .str bob.sub)]]
        ((creates [("userId", .str bob.sub)]).after .plain .initial) ∧
      ¬ Authored ((creates [("userId", .str bob.sub)]).after .plain .initial) := by
  refine ⟨.snoc (.nil _) rfl, ?_⟩
  intro h
  obtain ⟨post, hpost, hid, huserId⟩ : ∃ post ∈
      ((creates [("userId", .str bob.sub)]).after .plain .initial).posts.docs,
      post.id = helloId ∧ post.fields "userId" = .str bob.sub := by
    refine ⟨_, List.mem_singleton_self _, rfl, ?_⟩
    decide
  obtain ⟨sub, hsub, hcreated⟩ := h post hpost
  obtain rfl : bob.sub = sub := Value.str.inj (huserId.symm.trans hsub)
  have hby : .created post.id ann.sub ∈
      ((creates [("userId", .str bob.sub)]).after .plain .initial).history := by
    rw [hid]
    exact List.mem_singleton_self _
  exact absurd ((hcreated ann.sub).mp hby) (by decide)

end Posts
