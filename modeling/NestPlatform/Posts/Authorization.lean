-- SUMMARY: When the posts controller lets authors and admins through, from the minting of the token to the check.
import NestPlatform.Auth.Tokens
import NestPlatform.Posts.Requests
import NestPlatform.Services.Operations

/-!
# Author or admin

The auth service puts the first role of the user into the token, spelt as in
`@app/common`; the posts controller compares it with the admin role of `@app/constants`.
-/
namespace Posts

open Js Mongo Nest Common Database Auth Services Effect

/-! ## Requests with a token -/

def text (v : Value) : String :=
  match v with
  | .str s => s
  | _ => ""

/-- The payload of a verified token. The handlers read its `sub` and `role`. -/
def currentUser (payload : Entries) : Option JwtPayload :=
  match payload.get "sub", payload.get "role" with
  | .str sub, .str role => some { sub, email := text (payload.get "email"), role }
  | _, _ => none

/-- The guards of the application, on a route that is not public and names no roles. -/
def guarded {α : Type} (user : Option JwtPayload) (handler : JwtPayload → Store α) : Store α :=
  match JwtAuthGuard.canActivate false user, RolesGuard.canActivate [] user, user with
  | .ok _, .ok _, some user => handler user
  | .error e, _, _ | _, .error e, _ => throw (.http e)
  | _, _, none => throw (.error "TypeError")

/-- The requests that are for the author or an admin. -/
inductive OwnerRequest where
  | update (id : String) (dto : Value)
  | delete (id : String)
  | publish (id : String)
  | getUserPosts (userId : String) (page limit : Value)

namespace OwnerRequest

variable (M : Mongoose) (env : Env)

def handle (request : OwnerRequest) (user : JwtPayload) : Store Answer :=
  match request with
  | update id dto => .one <$> PostsController.update M env id user dto
  | delete id => .one <$> PostsController.delete M env id user
  | publish id => .one <$> PostsController.publish M env id user
  | getUserPosts userId page limit =>
    .page <$> PostsController.getUserPosts M env userId page limit user

/-- What the handler does after its check. -/
def carryOut : OwnerRequest → Store Answer
  | update id dto => .one <$> PostsService.update M env (.str id) dto
  | delete id => .one <$> PostsService.delete M env (.str id)
  | publish id =>
    .one <$> PostsService.update M env (.str id) (.obj [("status", .str "published")])
  | getUserPosts userId page limit =>
    .page <$> PostsController.paged page limit fun skip limit =>
      PostsService.findByUser M env (.str userId) skip limit

/-- The post of the request is stored. -/
def Addressed (c : Collection) : OwnerRequest → Prop
  | update id _ | delete id | publish id =>
    ∃ postId post, M.castId (.str id) = some postId ∧ c.get postId = some post
  | getUserPosts _ _ _ => True

/-- The request is about posts of the user with the given id. -/
def Author (c : Collection) (sub : String) : OwnerRequest → Prop
  | update id _ | delete id | publish id =>
    ∃ postId post, M.castId (.str id) = some postId ∧ c.get postId = some post ∧
      post.fields "userId" = .str sub
  | getUserPosts userId _ _ => userId = sub

end OwnerRequest

/-- The role that stands for an admin in the user schema. -/
def adminRole : String := Common.UserRole.ADMIN

/-- The request is carried out for its author and for an admin; for anybody else it throws
and the posts stay as they are. -/
def Authorizes (M : Mongoose) (env : Env) (request : OwnerRequest) (user : Doc) (role : String)
    (caller : Option JwtPayload) (c : Collection) : Prop :=
  (request.Author M c user.id.toString ∨ role = adminRole →
    (guarded caller (request.handle M env)).exec c = (request.carryOut M env).exec c) ∧
  (¬ (request.Author M c user.id.toString ∨ role = adminRole) →
    (guarded caller (request.handle M env)).exec c = (.error (.error "Error"), c))

/-! ## The token -/

variable {M : Mongoose} {env : Env} {jwt : Jwt} {config : AuthConfig} {c : Collection} {α : Type}

/-- The caller that a user is with an access token of theirs. -/
theorem currentUser_of_role (hsub : jwt.Carries "sub") (hcarries : jwt.Carries "role")
    (hdecodes : jwt.Decodes) {user : Doc} {role : String}
    (hrole : AuthService.role user = some (.str role)) {now : ℤ} {tokens : Tokens}
    (htokens : AuthService.generateTokens jwt config now user = .ok tokens) {key : String}
    {later : ℤ} {payload : Entries}
    (hverify : jwt.verify (.str tokens.accessToken) key later = some payload) :
    ∃ email, currentUser payload = some { sub := user.id.toString, email, role } := by
  have hclaim : ∀ {k : String}, jwt.Carries k → payload.get k = Entries.get
      [("sub", .str user.id.toString), ("email", user.fields "email"), ("role", .str role)] k := by
    intro k hk
    obtain ⟨role', hrole', haccess, -⟩ := generateTokens_claims hk htokens
    obtain rfl : Value.str role = role' := Option.some.inj (hrole.symm.trans hrole')
    rw [← hdecodes.claim hverify k, haccess]
  have hsub' : payload.get "sub" = .str user.id.toString := hclaim hsub
  have hrole' : payload.get "role" = .str role := hclaim hcarries
  exact ⟨text (payload.get "email"), by simp [currentUser, hsub', hrole']⟩

/-- The first of the roles is the role of the token. -/
theorem role_eq_head {user : Doc} {role : String} {roles : List Value}
    (hroles : user.fields "roles" = .arr (.str role :: roles)) (hne : role ≠ "") :
    AuthService.role user = some (.str role) := by
  have hentries : Entries.get (Value.arr (.str role :: roles)).entries "0" = .str role := by
    rw [Value.entries, List.mapIdx_cons]
    exact Entries.get_cons_self _ _ _
  simp [AuthService.role, hroles, Value.nullish, hentries, Value.or, Value.truthy, hne]

theorem currentUser_of_token (hsub : jwt.Carries "sub") (hrole : jwt.Carries "role")
    (hdecodes : jwt.Decodes) {user : Doc} {role : String} {roles : List Value}
    (hroles : user.fields "roles" = .arr (.str role :: roles)) (hne : role ≠ "") {now : ℤ}
    {tokens : Tokens} (htokens : AuthService.generateTokens jwt config now user = .ok tokens)
    {key : String} {later : ℤ} {payload : Entries}
    (hverify : jwt.verify (.str tokens.accessToken) key later = some payload) :
    ∃ email, currentUser payload = some { sub := user.id.toString, email, role } :=
  currentUser_of_role hsub hrole hdecodes (role_eq_head hroles hne) htokens hverify

/-! ## What the methods throw -/

/-- The error of a refused request is none of the errors of the method. -/
def NeverRefuses (x : Store α) : Prop := ∀ c, (x.exec c).1 ≠ .error (.error "Error")

namespace NeverRefuses

variable {β : Type}

theorem pure (a : α) : NeverRefuses (Pure.pure a : Store α) := by
  intro c h
  cases h

theorem throw {e : Thrown} (h : e ≠ .error "Error") : NeverRefuses (throw e : Store α) := by
  intro c hc
  exact h (Except.error.inj hc)

theorem bind {x : Store α} {f : α → Store β} (hx : NeverRefuses x) (hf : ∀ a, NeverRefuses (f a)) :
    NeverRefuses (x >>= f) := by
  intro c
  have hxc := hx c
  rw [exec_bind]
  cases h : x.exec c with
  | mk r c' =>
    rw [h] at hxc
    cases r with
    | ok a => exact hf a c'
    | error e =>
      intro he
      exact hxc (congrArg Except.error (Except.error.inj he))

theorem map (f : α → β) {x : Store α} (hx : NeverRefuses x) : NeverRefuses (f <$> x) := by
  intro c
  have hxc := hx c
  rw [exec_map]
  cases h : (x.exec c).1 with
  | ok a =>
    intro he
    cases he
  | error e =>
    intro he
    exact hxc (h.trans (congrArg Except.error (Except.error.inj he)))

theorem faultName_ne (fault : Fault) : Thrown.error (faultName fault) ≠ .error "Error" := by
  cases fault <;> decide

theorem query (f : Collection → Except Fault α) : NeverRefuses (Database.query f) := by
  intro c
  rw [exec_query]
  cases f c with
  | ok a => exact fun he => by cases he
  | error fault => exact fun he => faultName_ne fault (Except.error.inj he)

theorem command (f : Collection → Except Fault (α × Collection)) :
    NeverRefuses (Database.command f) := by
  intro c
  rw [exec_command]
  cases f c with
  | ok result => exact fun he => by cases he
  | error fault => exact fun he => faultName_ne fault (Except.error.inj he)

theorem findOneAndUpdate (filterQuery : Filter) (updateQuery : Update) :
    NeverRefuses (AbstractRepository.findOneAndUpdate M PostSchema env filterQuery updateQuery) := by
  refine bind (command _) fun doc => ?_
  cases doc with
  | none => exact throw (by decide)
  | some doc => exact pure doc

theorem paged (page limit : Value) {go : Value → Value → Store Page}
    (h : ∀ skip limit, NeverRefuses (go skip limit)) :
    NeverRefuses (PostsController.paged page limit go) := by
  unfold PostsController.paged PostsController.skip
  split
  · exact h _ _
  · rename_i e he
    split at he
    · cases he
    · cases he
      exact throw (by decide)

theorem carryOut (request : OwnerRequest) : NeverRefuses (request.carryOut M env) := by
  cases request with
  | update id dto => exact map _ (findOneAndUpdate _ _)
  | delete id => exact map _ (findOneAndUpdate _ _)
  | publish id => exact map _ (findOneAndUpdate _ _)
  | getUserPosts userId page limit =>
    refine map _ (paged page limit fun skip limit => ?_)
    exact bind (query _) fun items => bind (query _) fun total => pure _

end NeverRefuses

/-! ## The check -/

/-- The check of the controller lets the author of a stored post and the other admin through. -/
theorem exec_asOwner {id : String} {postId : ObjectId} {post : Doc}
    (hid : M.castId (.str id) = some postId) (hpost : c.get postId = some post) (user : JwtPayload)
    (go : Store Doc) :
    (PostsController.asOwner M env id user go).exec c =
      if post.fields "userId" = .str user.sub ∨ user.role = Constants.UserRole.ADMIN then go.exec c
      else (.error (.error "Error"), c) := by
  have hfound : (PostsService.findById M env (.str id)).exec c =
      (.ok (hydrate PostSchema [] post), c) :=
    AbstractRepository.exec_findById_str hid hpost
  unfold PostsController.asOwner
  rw [exec_bind_ok hfound, userId_hydrate]
  by_cases howner : post.fields "userId" = .str user.sub ∨ user.role = Constants.UserRole.ADMIN
  · rw [if_pos howner, if_neg (by tauto)]
  · rw [if_neg howner, if_pos (by tauto)]
    rfl

/-- The author of a post that is stored. -/
theorem author_iff {id : String} {postId : ObjectId} {post : Doc}
    (hid : M.castId (.str id) = some postId) (hpost : c.get postId = some post) {sub : String} :
    (∃ postId post, M.castId (.str id) = some postId ∧ c.get postId = some post ∧
      post.fields "userId" = .str sub) ↔ post.fields "userId" = .str sub := by
  constructor
  · rintro ⟨postId', post', hid', hpost', hsub⟩
    obtain rfl := Option.some.inj (hid.symm.trans hid')
    obtain rfl := Option.some.inj (hpost.symm.trans hpost')
    exact hsub
  · intro hsub
    exact ⟨postId, post, hid, hpost, hsub⟩

/-- The handlers go on for the author and for the other admin, and refuse everybody else. -/
theorem exec_handle {request : OwnerRequest} (haddressed : request.Addressed M c)
    (user : JwtPayload) :
    (request.Author M c user.sub ∨ user.role = Constants.UserRole.ADMIN →
      (request.handle M env user).exec c = (request.carryOut M env).exec c) ∧
    (¬ (request.Author M c user.sub ∨ user.role = Constants.UserRole.ADMIN) →
      (request.handle M env user).exec c = (.error (.error "Error"), c)) := by
  have hone : ∀ (id : String) (go : Store Doc),
      (∃ postId post, M.castId (.str id) = some postId ∧ c.get postId = some post) →
      let howner := (∃ postId post, M.castId (.str id) = some postId ∧ c.get postId = some post ∧
        post.fields "userId" = .str user.sub) ∨ user.role = Constants.UserRole.ADMIN
      (howner → exec (Answer.one <$> PostsController.asOwner M env id user go) c =
        exec (Answer.one <$> go) c) ∧
      (¬ howner → exec (Answer.one <$> PostsController.asOwner M env id user go) c =
        (.error (.error "Error"), c)) := by
    rintro id go ⟨postId, post, hid, hpost⟩
    simp only [author_iff hid hpost, exec_map, exec_asOwner hid hpost]
    constructor
    · intro howner
      rw [if_pos howner]
    · intro hother
      rw [if_neg hother]
      rfl
  cases request with
  | update id dto => exact hone id _ haddressed
  | delete id => exact hone id _ haddressed
  | publish id => exact hone id _ haddressed
  | getUserPosts userId page limit =>
    simp only [OwnerRequest.Author, OwnerRequest.handle, OwnerRequest.carryOut,
      PostsController.getUserPosts, exec_map]
    constructor
    · intro howner
      rw [if_neg (by tauto)]
    · intro hother
      rw [if_pos (by tauto)]
      rfl

/-- An author is let through, and somebody who is neither author nor admin kept out; an admin
who is not the author is kept out as well. -/
theorem authorizes_iff (hsub : jwt.Carries "sub") (hrole : jwt.Carries "role")
    (hdecodes : jwt.Decodes) {user : Doc} {role : String} {roles : List Value}
    (hroles : user.fields "roles" = .arr (.str role :: roles))
    (henum : role ∈ [Common.UserRole.ADMIN, Common.UserRole.USER, Common.UserRole.GUEST]) {now : ℤ}
    {tokens : Tokens} (htokens : AuthService.generateTokens jwt config now user = .ok tokens)
    {key : String} {later : ℤ} {payload : Entries}
    (hverify : jwt.verify (.str tokens.accessToken) key later = some payload)
    {request : OwnerRequest} (haddressed : request.Addressed M c) :
    Authorizes M env request user role (currentUser payload) c ↔
      (request.Author M c user.id.toString ∨ role ≠ adminRole) := by
  have hne : role ≠ "" ∧ role ≠ Constants.UserRole.ADMIN := by
    constructor <;> rintro rfl <;> revert henum <;> decide
  obtain ⟨email, hcaller⟩ := currentUser_of_token hsub hrole hdecodes hroles hne.1 htokens hverify
  have hhandle := @exec_handle M env c request haddressed { sub := user.id.toString, email, role }
  rw [or_iff_left hne.2] at hhandle
  obtain ⟨hauthor, hother⟩ := hhandle
  rw [hcaller]
  constructor
  · intro h
    by_contra hadmin
    obtain ⟨hnot, hrole_eq⟩ := not_or.mp hadmin
    -- the admin is refused, and the method never throws that error
    have hcarry := h.1 (.inr (not_not.mp hrole_eq))
    have hrefused : (guarded (some { sub := user.id.toString, email, role })
        (request.handle M env)).exec c = (.error (.error "Error"), c) := hother hnot
    rw [hrefused] at hcarry
    exact NeverRefuses.carryOut request c (congrArg Prod.fst hcarry).symm
  · rintro h
    constructor
    · intro hallowed
      exact hauthor (by tauto)
    · intro hrefused
      exact hother fun hself => hrefused (.inl hself)

/-! ### The author and an admin -/

/-- A user with one role, as a query of the auth service returns it. -/
def member (id : ObjectId) (role : String) : Doc where
  id := id
  fields := Fields.assign (fun _ => .undefined)
    [("email", .str "member@example.com"), ("roles", .arr [.str role])]

def payloadOf (id : ObjectId) (role : String) : Entries :=
  [("sub", .str id.toString), ("email", .str "member@example.com"), ("role", .str role)]

def annId : ObjectId := ⟨"0000000000000000000000a1", by decide⟩

def rootId : ObjectId := ⟨"0000000000000000000000ad", by decide⟩

def helloPosts : Collection := ⟨[hello], (by decide : [helloId].Nodup)⟩

def publishHello : OwnerRequest := .publish helloId.toString

/-- The environment of the auth service that signs with one key. -/
def oneKey : AuthConfig := { JWT_ACCESS_SECRET := "access" }

theorem addressed_hello : publishHello.Addressed .plain helloPosts :=
  ⟨helloId, hello, Mongoose.plain.castId_toString helloId, rfl⟩

/-- Ann publishes her own post. -/
theorem authorizes_ann :
    Authorizes .plain noon publishHello (member annId "user") "user"
      (currentUser (payloadOf annId "user")) helloPosts := by
  have htokens : AuthService.generateTokens (.single (payloadOf annId "user")) oneKey 0
      (member annId "user") = .ok ⟨"access", "access"⟩ := rfl
  have hverify : (Jwt.single (payloadOf annId "user")).verify (.str "access") "access" 1 =
      some (payloadOf annId "user") := by decide
  refine (authorizes_iff (Jwt.single_carries _ _) (Jwt.single_carries _ _) (Jwt.single_decodes _)
    rfl (by decide) htokens hverify addressed_hello).mpr (.inl ?_)
  exact ⟨helloId, hello, Mongoose.plain.castId_toString helloId, rfl, rfl⟩

/-- An admin cannot publish Ann's post. -/
theorem not_authorizes_admin :
    AuthService.generateTokens (.single (payloadOf rootId "admin")) oneKey 0 (member rootId "admin") =
      .ok ⟨"access", "access"⟩ ∧
    (Jwt.single (payloadOf rootId "admin")).verify (.str "access") "access" 1 =
      some (payloadOf rootId "admin") ∧
    ¬ Authorizes .plain noon publishHello (member rootId "admin") "admin"
      (currentUser (payloadOf rootId "admin")) helloPosts := by
  refine ⟨rfl, by decide, ?_⟩
  intro h
  have hcarry := congrArg Prod.fst (h.1 (.inr rfl))
  have hrefused : ((guarded (currentUser (payloadOf rootId "admin"))
      (publishHello.handle .plain noon)).exec helloPosts).1 = .error (.error "Error") := rfl
  have hdone : ∃ answer, ((publishHello.carryOut .plain noon).exec helloPosts).1 = .ok answer :=
    ⟨_, rfl⟩
  obtain ⟨answer, hanswer⟩ := hdone
  rw [hrefused, hanswer] at hcarry
  cases hcarry

end Posts
