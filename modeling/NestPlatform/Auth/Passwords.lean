-- SUMMARY: Stored passwords and what the auth and the user service answer: when two stores that differ in them are told apart.
import NestPlatform.Auth.Login
import NestPlatform.Mongo.Alike

/-!
# Passwords and answers

Two users collections that differ in stored passwords only, and the same requests to the auth
and the user service on each. A password decides a login; apart from that it shows only if an
update body moves it, since the schema does not select it and both services drop it.
-/
namespace Auth

open Js Mongo Nest Common Database Effect

/-! ## Requests and answers -/

inductive ClientCall where
  | register (dto : Entries)
  | login (dto : Entries)
  | refreshToken (dto : Entries)
  | validateToken (dto : Entries)
  | findById (id : Value)
  | findByEmail (email : Value)
  | list (skip limit : Value)
  | update (id updates : Value)
  | delete (id : Value)

structure ClientRequest where
  env : AuthEnv
  call : ClientCall

inductive Response where
  | session (result : AuthResult)
  | tokens (tokens : Tokens)
  | validation (payload : Option Entries)
  | user (user : Doc)
  | optional (user : Option Doc)
  | page (page : Page)

variable (M : Mongoose) (bcrypt : Bcrypt) (jwt : Jwt) (config : AuthConfig)

def ClientRequest.run (request : ClientRequest) : AuthAction Response :=
  match request.call with
  | .register dto => .session <$> AuthService.register M bcrypt jwt config request.env dto
  | .login dto => .session <$> AuthService.login M bcrypt jwt config request.env dto
  | .refreshToken dto => .tokens <$> AuthService.refreshToken M jwt config request.env dto
  | .validateToken dto => .validation <$> AuthService.validateToken jwt config request.env dto
  | .findById id => .user <$> onUsers (Users.UsersService.findById M request.env.env id)
  | .findByEmail email =>
    .optional <$> onUsers (Users.UsersService.findByEmail M request.env.env email)
  | .list skip limit => .page <$> onUsers (Users.UsersService.list M request.env.env skip limit)
  | .update id updates => .user <$> onUsers (Users.UsersService.update M request.env.env id updates)
  | .delete id => .user <$> onUsers (Users.UsersService.delete M request.env.env id)

/-! ## The condition on a request -/

/-- The users are equal except in their passwords. -/
structure AlikeButPasswords (s s' : AuthState) : Prop where
  users : Alike "password" s.users s'.users
  events : s.events = s'.events

/-- A login compares alike in both stores, and an update does the same to all fields other than
the password. -/
def Discreet (s s' : AuthState) (request : ClientRequest) : Prop :=
  match request.call with
  | .login dto =>
    ∀ user user',
      Mongo.findOne M UserSchema request.env.env [("email", dto.get "email")] ["password"]
        s.users = .ok (some user) →
      Mongo.findOne M UserSchema request.env.env [("email", dto.get "email")] ["password"]
        s'.users = .ok (some user') →
      bcrypt.compare (dto.get "password") (user.fields "password") =
        bcrypt.compare (dto.get "password") (user'.fields "password")
  | .update id updates =>
    UpdatesAlike M UserSchema "password" request.env.env (byId id) (.body updates) s.users s'.users
  | _ => True

/-! ## Stores -/

section

variable {α β : Type} {R : Collection → Collection → Prop} {A : α → β → Prop} {c c' : Collection}

theorem relates_query {f : Collection → Except Fault α} {g : Collection → Except Fault β}
    (h : Outcomes A (f c) (g c')) (hc : R c c') : Relates R A (query f) (query g) c c' := by
  constructor
  · rw [exec_query, exec_query]
    cases hf : f c <;> cases hg : g c' <;> rw [hf, hg] at h <;> cases h
    · exact .error _
    · exact .ok ‹_›
  · rw [exec_query, exec_query]
    cases f c <;> cases g c' <;> exact hc

theorem relates_command {f : Collection → Except Fault (α × Collection)}
    {g : Collection → Except Fault (β × Collection)}
    (h : Outcomes (fun r r' => A r.1 r'.1 ∧ R r.2 r'.2) (f c) (g c')) (hc : R c c') :
    Relates R A (command f) (command g) c c' := by
  constructor
  · rw [exec_command, exec_command]
    cases hf : f c <;> cases hg : g c' <;> rw [hf, hg] at h <;> cases h
    · exact .error _
    · rename_i hr
      exact .ok hr.1
  · rw [exec_command, exec_command]
    cases hf : f c <;> cases hg : g c' <;> rw [hf, hg] at h <;> cases h
    · exact hc
    · rename_i hr
      exact hr.2

end

variable {M bcrypt jwt config} {α β : Type} {A : α → β → Prop} {s s' : AuthState}
  {c c' : Collection} {env : AuthEnv}

theorem userSchema_hides : Hides UserSchema "password" where
  unselected := ⟨_, rfl, rfl⟩
  unindexed := by decide

theorem relates_onUsers {x : Store α} {y : Store β}
    (h : Relates (Alike "password") A x y s.users s'.users) (hevents : s.events = s'.events) :
    Relates AlikeButPasswords A (onUsers x) (onUsers y) s s' :=
  ⟨h.outcome, ⟨h.state, hevents⟩⟩

theorem relates_orThrow (a : Option α) (hs : AlikeButPasswords s s') :
    Relates AlikeButPasswords Eq (orThrow a) (orThrow a) s s' := by
  cases a with
  | none => exact .throw hs _
  | some a => exact .pure hs rfl

theorem keys_byId (id : Value) : "password" ∉ Entries.keys (byId id) :=
  (by decide : "password" ∉ ["_id"])

theorem keys_email (email : Value) : "password" ∉ Entries.keys [("email", email)] :=
  (by decide : "password" ∉ ["email"])

/-! ## Users that are alike -/

section

variable {user user' : Doc}

theorem sanitizeUser_eq (h : AlikeDoc "password" user user') :
    AuthService.sanitizeUser user = AuthService.sanitizeUser user' := by
  have hfields : (AuthService.sanitizeUser user).fields = (AuthService.sanitizeUser user').fields := by
    funext k
    by_cases hk : k = "password"
    · subst hk
      rfl
    · change Function.update user.fields "password" _ k = Function.update user'.fields "password" _ k
      rw [Function.update_of_ne hk, Function.update_of_ne hk, h.fields k hk]
  calc AuthService.sanitizeUser user = ⟨user.id, (AuthService.sanitizeUser user).fields⟩ := rfl
    _ = ⟨user'.id, (AuthService.sanitizeUser user').fields⟩ := by rw [h.id, hfields]
    _ = AuthService.sanitizeUser user' := rfl

theorem relates_tokensFor (h : AlikeDoc "password" user user') (hs : AlikeButPasswords s s') :
    Relates AlikeButPasswords Eq (AuthService.tokensFor jwt config env user)
      (AuthService.tokensFor jwt config env user') s s' := by
  have htokens : AuthService.generateTokens jwt config env.env.now user =
      AuthService.generateTokens jwt config env.env.now user' := by
    unfold AuthService.generateTokens AuthService.role
    rw [h.id, h.fields "roles" (by decide), h.fields "email" (by decide)]
  unfold AuthService.tokensFor
  rw [htokens]
  cases AuthService.generateTokens jwt config env.env.now user' with
  | ok tokens => exact .pure hs rfl
  | error e => exact .throw hs e

end

/-! ## The services -/

section

variable (hM : BlindTo M "password")
include hM

theorem relates_findById (id : Value) (h : Alike "password" c c') :
    Relates (Alike "password") Eq (AbstractRepository.findById M UserSchema env.env id)
      (AbstractRepository.findById M UserSchema env.env id) c c' := by
  have hfound : Relates (Alike "password") Eq
      (AbstractRepository.findOne M UserSchema env.env (byId id))
      (AbstractRepository.findOne M UserSchema env.env (byId id)) c c' :=
    relates_query (.of_eq (findOne_eq hM userSchema_hides (keys_byId id) h)) h
  refine hfound.bind ?_
  rintro user _ t t' rfl ht
  cases user with
  | none => exact .throw ht _
  | some user => exact .pure ht rfl

theorem relates_findOneAndUpdate {id : Value} {u : Update} (h : Alike "password" c c')
    (hu : UpdatesAlike M UserSchema "password" env.env (byId id) u c c') :
    Relates (Alike "password") Eq
      (AbstractRepository.findOneAndUpdate M UserSchema env.env (byId id) u)
      (AbstractRepository.findOneAndUpdate M UserSchema env.env (byId id) u) c c' := by
  have hupdated := relates_command
    (findOneAndUpdate_alike hM userSchema_hides (keys_byId id) h hu) h
  refine hupdated.bind ?_
  rintro user _ t t' rfl ht
  cases user with
  | none => exact .throw ht _
  | some user => exact .pure ht rfl

theorem relates_list (skip limit : Value) (h : Alike "password" c c') :
    Relates (Alike "password") Eq (Users.UsersRepository.list M env.env skip limit)
      (Users.UsersRepository.list M env.env skip limit) c c' := by
  have hitems : Relates (Alike "password") Eq
      (AbstractRepository.find M UserSchema env.env [] { skip, limit })
      (AbstractRepository.find M UserSchema env.env [] { skip, limit }) c c' :=
    relates_query (.of_eq (find_eq hM userSchema_hides (by decide) h skip limit)) h
  refine hitems.bind ?_
  rintro items _ t t' rfl ht
  have htotal : Relates (Alike "password") Eq
      (AbstractRepository.countDocuments M UserSchema [])
      (AbstractRepository.countDocuments M UserSchema []) t t' :=
    relates_query (.of_eq (countDocuments_eq (by decide) ht)) ht
  refine htotal.bind ?_
  rintro total _ t t' rfl ht
  exact .pure ht rfl

theorem relates_findByEmail (email : Value) (h : Alike "password" c c') :
    Relates (Alike "password") Eq (AuthService.findByEmail M env email [])
      (AuthService.findByEmail M env email []) c c' :=
  relates_query (.of_eq (findOne_eq hM userSchema_hides (keys_email email) h)) h

theorem relates_register (dto : Entries) (hs : AlikeButPasswords s s') :
    Relates AlikeButPasswords Eq (AuthService.register M bcrypt jwt config env dto)
      (AuthService.register M bcrypt jwt config env dto) s s' := by
  refine (relates_onUsers (relates_findByEmail hM (dto.get "email") hs.users) hs.events).bind ?_
  rintro existing _ t t' rfl ht
  cases existing with
  | some user => exact .throw ht _
  | none =>
    refine (relates_orThrow _ ht).bind ?_
    rintro hash _ t t' rfl ht
    refine (relates_onUsers (relates_command (create_alike userSchema_hides _ ht.users) ht.users)
      ht.events).bind ?_
    rintro user _ t t' rfl ht
    refine (relates_tokensFor ⟨rfl, fun _ _ => rfl⟩ ht).bind ?_
    rintro tokens _ t t' rfl ht
    have hemit : Relates AlikeButPasswords Eq (AuthService.emitUserCreated env user)
        (AuthService.emitUserCreated env user) t t' := by
      refine (Relates.get ht).bind ?_
      intro u u' v v' hu hv
      by_cases hpublishes : env.publishes = true
      · simp only [hpublishes, if_true]
        exact .set ⟨hu.users, congrArg (· ++ _) hu.events⟩
      · simp only [hpublishes]
        exact .pure hv rfl
    refine hemit.bind ?_
    rintro _ _ t t' - ht
    exact .pure ht rfl

/-- A login sees the password, and tells of it only by whether it compares. -/
theorem relates_login (dto : Entries) (hs : AlikeButPasswords s s')
    (hcompare : Discreet M bcrypt s s' ⟨env, .login dto⟩) :
    Relates AlikeButPasswords Eq (AuthService.login M bcrypt jwt config env dto)
      (AuthService.login M bcrypt jwt config env dto) s s' := by
  have hselected : Outcomes (Option.Rel (AlikeDoc "password"))
      (Mongo.findOne M UserSchema env.env [("email", dto.get "email")] ["password"] s.users)
      (Mongo.findOne M UserSchema env.env [("email", dto.get "email")] ["password"] s'.users) :=
    findOne_alike hM (keys_email _) ["password"] hs.users
  have hfound := relates_query hselected.traced hs.users
  refine (relates_onUsers hfound hs.events).bind ?_
  rintro found found' t t' ⟨halike, hfound, hfound'⟩ ht
  cases halike with
  | none => exact .throw ht _
  | @some user user' halike =>
    dsimp only
    rw [hcompare user user' hfound hfound', halike.id]
    refine (relates_orThrow _ ht).bind ?_
    rintro isPasswordValid _ t t' rfl ht
    cases isPasswordValid with
    | false => exact .throw ht _
    | true =>
      have hupdate : UpdatesAlike M UserSchema "password" env.env (byId (.str user'.id.toString))
          (.body (.obj [("lastLoginAt", .date env.env.now)])) t.users t'.users :=
        updatesAlike_of_plain hM (keys_byId _) (by decide : ["lastLoginAt"].all isPlainKey = true)
          ht.users
      have hlogged := relates_command
        (update_alike hM userSchema_hides (keys_byId _) ht.users hupdate) ht.users
      refine (relates_onUsers hlogged ht.events).bind ?_
      rintro _ _ t t' - ht
      refine (relates_tokensFor halike ht).bind ?_
      rintro tokens _ t t' rfl ht
      exact .pure ht (by rw [sanitizeUser_eq halike])

theorem relates_refreshToken (dto : Entries) (hs : AlikeButPasswords s s') :
    Relates AlikeButPasswords Eq (AuthService.refreshToken M jwt config env dto)
      (AuthService.refreshToken M jwt config env dto) s s' := by
  refine .tryCatch ?_ fun e t t' ht => .throw ht _
  refine (relates_orThrow _ hs).bind ?_
  rintro payload _ t t' rfl ht
  have hfound : Relates (Alike "password") Eq (AuthService.findById M env (payload.get "sub"))
      (AuthService.findById M env (payload.get "sub")) t.users t'.users :=
    relates_query (.of_eq (findOne_eq hM userSchema_hides (keys_byId _) ht.users)) ht.users
  refine (relates_onUsers hfound ht.events).bind ?_
  rintro user _ t t' rfl ht
  cases user with
  | none => exact .throw ht _
  | some user => exact relates_tokensFor ⟨rfl, fun _ _ => rfl⟩ ht

/-- A request that meets the condition is answered alike and leaves the stores alike. -/
theorem relates_run (request : ClientRequest) (hs : AlikeButPasswords s s')
    (hdiscreet : Discreet M bcrypt s s' request) :
    Relates AlikeButPasswords Eq (request.run M bcrypt jwt config)
      (request.run M bcrypt jwt config) s s' := by
  obtain ⟨env, call⟩ := request
  cases call with
  | register dto => exact (relates_register hM dto hs).map_eq _
  | login dto => exact (relates_login hM dto hs hdiscreet).map_eq _
  | refreshToken dto => exact (relates_refreshToken hM dto hs).map_eq _
  | validateToken dto => exact Relates.map_eq (.pure hs rfl) _
  | findById id =>
    exact (relates_onUsers ((relates_findById hM id hs.users).map_eq _) hs.events).map_eq _
  | findByEmail email =>
    exact (relates_onUsers ((relates_findByEmail hM email hs.users).map_eq _) hs.events).map_eq _
  | list skip limit =>
    exact (relates_onUsers ((relates_list hM skip limit hs.users).map_eq _) hs.events).map_eq _
  | update id updates =>
    have hupdated := relates_findOneAndUpdate hM hs.users hdiscreet
    exact (relates_onUsers (hupdated.map_eq _) hs.events).map_eq _
  | delete id =>
    have hplain : UpdatesAlike M UserSchema "password" env.env (byId id)
        (.body (.obj [("deletedAt", .date env.env.now)])) s.users s'.users :=
      updatesAlike_of_plain hM (keys_byId _) (by decide : ["deletedAt"].all isPlainKey = true)
        hs.users
    have hdeleted := relates_findOneAndUpdate hM hs.users hplain
    exact (relates_onUsers (hdeleted.map_eq _) hs.events).map_eq _

/-- In two stores that are equal except in the passwords, every sequence of requests has equal
answers, as long as logins compare alike and no update depends on a password. -/
theorem passwords_unseen (hs : AlikeButPasswords s s') {requests : List ClientRequest}
    (h : Along (ClientRequest.run M bcrypt jwt config) (Discreet M bcrypt) s s' requests) :
    answers (ClientRequest.run M bcrypt jwt config) s requests =
      answers (ClientRequest.run M bcrypt jwt config) s' requests :=
  answers_eq (fun _ _ request hs hdiscreet => relates_run hM request hs hdiscreet) hs h

end

/-! ### One user, two passwords -/

/-- Dana's account with a given hash. -/
def danaHashed (hash : String) : AuthState where
  users :=
    { docs := [⟨danaId, Fields.assign (fun _ => .undefined)
        [("email", .str "dana@example.com"), ("password", .str hash), ("name", .str "Dana"),
         ("roles", .arr [.str "user"])]⟩]
      nodup := List.nodup_singleton _ }
  events := []

theorem danaHashed_alike (hash hash' : String) :
    AlikeButPasswords (danaHashed hash) (danaHashed hash') where
  users := by
    refine .cons ⟨rfl, fun k hk => ?_⟩ .nil
    simp [Fields.assign, Function.update_apply, hk]
  events := rfl

/-- Dana changes her name and looks herself up. -/
def danaRenames : List ClientRequest :=
  [⟨danaEnv, .update (.str danaId.toString) (.obj [("name", .str "D.")])⟩,
   ⟨danaEnv, .findById (.str danaId.toString)⟩]

theorem blindTo_plain : BlindTo .plain "password" where
  scan h := h
  window h := by
    simp only [Mongoose.plain]
    split
    · exact .some h
    · exact .none

theorem passwords_unseen_dana :
    answers (ClientRequest.run .plain .plain .plain accessOnly) (danaHashed "hash1") danaRenames =
      answers (ClientRequest.run .plain .plain .plain accessOnly) (danaHashed "hash2") danaRenames := by
  have halike := danaHashed_alike "hash1" "hash2"
  refine passwords_unseen blindTo_plain halike ⟨?_, trivial, trivial⟩
  exact updatesAlike_of_plain blindTo_plain (keys_byId _) (by decide) halike.users

/-- `{ $rename: { password: 'name' } }` -/
def renamePassword : Entries := [("$rename", .obj [("password", .str "name")])]

/-- Mongoose with this one operator. -/
def withRename : Mongoose :=
  { Mongoose.plain with
    operators := fun _ es =>
      if es = renamePassword then
        some fun fields =>
          some (fields.assign [("name", fields "password"), ("password", .undefined)])
      else none
    operators_frame := by
      intro S es f x y hf hy k hk
      split at hf
      · rename_i hes
        subst hes
        cases hf
        cases hy
        have hmentions : mentions (operatorEntries renamePassword) = ["password", "name"] := by decide
        rw [hmentions] at hk
        refine Fields.assign_of_notMem ?_
        simpa [Entries.keys, and_comm] using hk
      · cases hf }

def answeredName : Except Thrown Response → Value
  | .ok (.user user) => user.fields "name"
  | _ => .undefined

/-- Dana reads the hash of her password as her name. -/
theorem password_renamed :
    AlikeButPasswords (danaHashed "hash1") (danaHashed "hash2") ∧
      answers (ClientRequest.run withRename .plain .plain accessOnly) (danaHashed "hash1")
          [⟨danaEnv, .update (.str danaId.toString) (.obj renamePassword)⟩] ≠
        answers (ClientRequest.run withRename .plain .plain accessOnly) (danaHashed "hash2")
          [⟨danaEnv, .update (.str danaId.toString) (.obj renamePassword)⟩] := by
  refine ⟨danaHashed_alike _ _, fun h => ?_⟩
  have hname := congrArg answeredName (List.cons.inj h).1
  revert hname
  decide

end Auth
