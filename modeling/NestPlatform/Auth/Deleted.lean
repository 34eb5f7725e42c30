-- SUMMARY: When a soft-deleted account gets no tokens.
import NestPlatform.Auth.Tokens
import NestPlatform.Lib.Transition
import NestPlatform.Users.Service

/-!
# Deleted accounts

Runs of the auth service and of the writes of the user service on the same users
collection. Neither `login` nor `refreshToken` looks at `deletedAt`.
-/
namespace Auth

open Js Mongo Nest Common Database Effect Transition

/-! ## Calls -/

inductive AuthCall where
  | register (dto : Entries)
  | login (dto : Entries)
  | refreshToken (dto : Entries)
  | validateToken (dto : Entries)
  /-- `UsersService.update` -/
  | update (id updates : Value)
  /-- `UsersService.delete` -/
  | delete (id : Value)

structure AuthRequest where
  env : AuthEnv
  call : AuthCall

inductive AuthEvent where
  | deleted (id : ObjectId)
  | issued (tokens : Tokens)

variable (M : Mongoose) (bcrypt : Bcrypt) (jwt : Jwt) (config : AuthConfig)

/-- What the call does, with the event that it is, if it succeeds. -/
def AuthRequest.run (request : AuthRequest) : AuthAction (List AuthEvent) :=
  match request.call with
  | .register dto =>
    (fun result => [.issued result.tokens]) <$>
      AuthService.register M bcrypt jwt config request.env dto
  | .login dto =>
    (fun result => [.issued result.tokens]) <$>
      AuthService.login M bcrypt jwt config request.env dto
  | .refreshToken dto =>
    (fun tokens => [.issued tokens]) <$> AuthService.refreshToken M jwt config request.env dto
  | .validateToken dto =>
    (fun _ => []) <$> AuthService.validateToken jwt config request.env dto
  | .update id updates =>
    (fun _ => []) <$> onUsers (Users.UsersService.update M request.env.env id updates)
  | .delete id =>
    (fun user => [.deleted user.id]) <$> onUsers (Users.UsersService.delete M request.env.env id)

structure AuthWorld where
  state : AuthState
  log : List AuthEvent

def AuthRequest.after (request : AuthRequest) (w : AuthWorld) : AuthWorld where
  state := ((request.run M bcrypt jwt config).exec w.state).2
  log := w.log ++
    match ((request.run M bcrypt jwt config).exec w.state).1 with
    | .ok events => events
    | .error _ => []

def AuthStep (w : AuthWorld) (request : AuthRequest) (w' : AuthWorld) : Prop :=
  w' = request.after M bcrypt jwt config w

/-! ## The property and the condition -/

/-- One of the tokens has the account as its `sub`. -/
def Tokens.For (tokens : Tokens) (id : ObjectId) : Prop :=
  jwt.claim tokens.accessToken "sub" = .str id.toString ∨
    jwt.claim tokens.refreshToken "sub" = .str id.toString

def NoTokensAfterDelete (log : List AuthEvent) : Prop :=
  log.Pairwise fun a b => ∀ id tokens, a = .deleted id → b = .issued tokens → ¬ tokens.For jwt id

/-- A login that finds a deleted account by its email has a wrong password, and a token
that is refreshed does not name a deleted account. -/
def Admissible (w : AuthWorld) (request : AuthRequest) : Prop :=
  match request.call with
  | .login dto =>
    ∀ user, Mongo.findOne M UserSchema request.env.env [("email", dto.get "email")] ["password"]
        w.state.users = .ok (some user) →
      .deleted user.id ∈ w.log →
      bcrypt.compare (dto.get "password") (user.fields "password") ≠ some true
  | .refreshToken dto =>
    ∀ payload, jwt.verify (dto.get "refreshToken") (config.secretKey config.JWT_REFRESH_SECRET)
        request.env.env.now = some payload →
      ∀ user, Mongo.findOne M UserSchema request.env.env (byId (payload.get "sub")) []
          w.state.users = .ok (some user) →
        .deleted user.id ∉ w.log
  | _ => True

/-! ## Tokens of an account -/

variable {M bcrypt jwt config} {env : AuthEnv} {α : Type}

/-- The tokens of a user have this user as their `sub` and no other. -/
theorem generateTokens_for (hjwt : jwt.Carries "sub") {now : ℤ} {user : Doc} {tokens : Tokens}
    (h : AuthService.generateTokens jwt config now user = .ok tokens) {id : ObjectId} :
    tokens.For jwt id ↔ id = user.id := by
  obtain ⟨role, -, haccess, hrefresh⟩ := generateTokens_claims hjwt h
  rw [Entries.get_cons_self] at haccess hrefresh
  unfold Tokens.For
  rw [haccess, hrefresh, or_self, Value.str.injEq, ObjectId.toString_inj, eq_comm]

/-! ## Accounts stay stored -/

/-- Every stored account is still stored. -/
def Grows (s s' : AuthState) : Prop :=
  ∀ id, (s.users.get id).isSome → (s'.users.get id).isSome

namespace Grows

theorem refl (s : AuthState) : Grows s s := fun _ h => h

theorem trans {s s' s'' : AuthState} (h : Grows s s') (h' : Grows s' s'') : Grows s s'' :=
  fun id hid => h' id (h id hid)

theorem keeps_pure (a : α) : Keeps Grows (pure a : AuthAction α) := Keeps.pure refl a

theorem keeps_throw (e : Thrown) : Keeps Grows (throw e : AuthAction α) := Keeps.throw refl e

theorem keeps_bind {β : Type} {x : AuthAction α} {f : α → AuthAction β} (hx : Keeps Grows x)
    (hf : ∀ a, Keeps Grows (f a)) : Keeps Grows (x >>= f) := Keeps.bind (R := Grows) trans hx hf

theorem keeps_orThrow (a : Option α) : Keeps Grows (orThrow a) := by
  cases a with
  | none => exact keeps_throw _
  | some a => exact keeps_pure a

theorem keeps_query (f : Collection → Except Fault α) : Keeps Grows (onUsers (query f)) := by
  intro s id hid
  rw [exec_onUsers, exec_query]
  cases f s.users <;> exact hid

theorem keeps_findOneAndUpdate (filterQuery : Filter) (u : Update) : Keeps Grows
    (onUsers (AbstractRepository.findOneAndUpdate M UserSchema env.env filterQuery u)) := by
  intro s id hid
  rw [exec_onUsers]
  rcases @AbstractRepository.state_findOneAndUpdate M UserSchema env.env filterQuery u s.users with
    hkeep | ⟨p, f, d, fields, -, -, -, -, hput⟩
  · rw [hkeep]
    exact hid
  · rw [hput]
    exact Collection.isSome_get_put hid

theorem keeps_updateOne (filterQuery : Filter) (u : Update) : Keeps Grows
    (onUsers (command (Mongo.update M UserSchema env.env filterQuery u))) := by
  intro s id hid
  rw [exec_onUsers, exec_command]
  cases hu : Mongo.update M UserSchema env.env filterQuery u s.users with
  | error fault => exact hid
  | ok result =>
    obtain ⟨r, c'⟩ := result
    obtain ⟨p, f, -, -, ⟨-, -, rfl⟩ | ⟨d, fields, -, -, -, rfl⟩⟩ := update_eq_ok hu
    · exact hid
    · exact Collection.isSome_get_put hid

theorem keeps_create (dto : Entries) :
    Keeps Grows (onUsers (AbstractRepository.create M UserSchema env.env dto)) := by
  intro s id hid
  rw [exec_onUsers]
  cases hexec : (AbstractRepository.create M UserSchema env.env dto).exec s.users with
  | mk r c' =>
    rcases AbstractRepository.exec_create hexec with ⟨rfl, -⟩ | ⟨d, hnew, -, -, -, rfl⟩
    · exact hid
    · have hne : id ≠ d.id := by
        rintro rfl
        rw [hnew] at hid
        cases hid
      change ((s.users.insert d hnew).get id).isSome
      rw [Collection.get_insert_ne hne]
      exact hid

theorem keeps_tokensFor (user : Doc) : Keeps Grows (AuthService.tokensFor jwt config env user) := by
  unfold AuthService.tokensFor
  split
  · exact keeps_pure _
  · exact keeps_throw _

theorem keeps_emitUserCreated (user : Doc) : Keeps Grows (AuthService.emitUserCreated env user) := by
  intro s id hid
  unfold AuthService.emitUserCreated
  rw [exec_bind_ok (exec_get s)]
  split <;> exact hid

theorem keeps_register (dto : Entries) :
    Keeps Grows (AuthService.register M bcrypt jwt config env dto) := by
  apply keeps_bind (keeps_query _)
  intro found
  cases found with
  | some user => exact keeps_throw _
  | none =>
    apply keeps_bind (keeps_orThrow _)
    intro hashedPassword
    apply keeps_bind (keeps_create _)
    intro user
    apply keeps_bind (keeps_tokensFor user)
    intro tokens
    exact keeps_bind (keeps_emitUserCreated user) fun _ => keeps_pure _

theorem keeps_login (dto : Entries) :
    Keeps Grows (AuthService.login M bcrypt jwt config env dto) := by
  apply keeps_bind (keeps_query _)
  intro found
  cases found with
  | none => exact keeps_throw _
  | some user =>
    apply keeps_bind (keeps_orThrow _)
    intro valid
    cases valid with
    | false => exact keeps_throw _
    | true =>
      refine keeps_bind (keeps_updateOne _ _) fun _ => ?_
      exact keeps_bind (keeps_tokensFor user) fun tokens => keeps_pure _

theorem keeps_refreshToken (dto : Entries) :
    Keeps Grows (AuthService.refreshToken M jwt config env dto) := by
  refine Keeps.tryCatch (R := Grows) trans ?_ fun _ => keeps_throw _
  apply keeps_bind (keeps_orThrow _)
  intro payload
  apply keeps_bind (keeps_query _)
  intro found
  cases found with
  | none => exact keeps_throw _
  | some user => exact keeps_tokensFor user

theorem keeps_map {x : AuthAction α} {β : Type} (f : α → β) (h : Keeps Grows x) :
    Keeps Grows (f <$> x) := by
  intro s
  rw [exec_map]
  exact h s

theorem keeps_run (request : AuthRequest) : Keeps Grows (request.run M bcrypt jwt config) := by
  obtain ⟨env, call⟩ := request
  cases call with
  | register dto => exact keeps_map _ (keeps_register dto)
  | login dto => exact keeps_map _ (keeps_login dto)
  | refreshToken dto => exact keeps_map _ (keeps_refreshToken dto)
  | validateToken dto => exact keeps_map _ (keeps_pure _)
  | update id updates =>
    apply keeps_map _
    intro s
    unfold Users.UsersService.update
    rw [exec_onUsers, exec_map]
    exact keeps_findOneAndUpdate _ _ s
  | delete id =>
    apply keeps_map _
    intro s
    unfold Users.UsersService.delete
    rw [exec_onUsers, exec_map]
    exact keeps_findOneAndUpdate _ _ s

end Grows

/-! ## Runs -/

/-- A deleted account is stored, and its id is what the user service answers with. -/
theorem delete_eq_ok {v : Value} {user : Doc} {s s' : AuthState}
    (h : (onUsers (Users.UsersService.delete M env.env v)).exec s = (.ok user, s')) :
    (s'.users.get user.id).isSome := by
  have hdelete := exec_onUsers_eq_ok h
  obtain ⟨r, hr, rfl⟩ := exec_map_eq_ok hdelete
  rcases AbstractRepository.exec_findOneAndUpdate hr with
    ⟨-, e, he⟩ | ⟨p, f, d, fields, -, -, hd, -, hresult, hput⟩
  · cases he
  · cases hresult
    have hget := Collection.get_of_mem (find?_scan_eq_some hd).1
    rw [hput]
    exact Option.isSome_iff_exists.mpr ⟨_, get_put_touch hget env.env fields⟩

/-- What a call that succeeds has done from `s` to `s'`, and the events that it is. -/
inductive AuthEffect (M : Mongoose) (bcrypt : Bcrypt) (jwt : Jwt) (config : AuthConfig) (env : AuthEnv)
    (s s' : AuthState) : AuthCall → List AuthEvent → Prop where
  | silent {call : AuthCall} : AuthEffect M bcrypt jwt config env s s' call []
  | registered {dto : Entries} {user : Doc} {tokens : Tokens} :
      s.users.get user.id = none → s'.users.get user.id = some user →
      AuthService.generateTokens jwt config env.env.now user = .ok tokens →
      AuthEffect M bcrypt jwt config env s s' (.register dto) [.issued tokens]
  | loggedIn {dto : Entries} {user : Doc} {recorded : Option Doc} {tokens : Tokens} :
      Mongo.findOne M UserSchema env.env [("email", dto.get "email")] ["password"] s.users =
        .ok (some user) →
      bcrypt.compare (dto.get "password") (user.fields "password") = some true →
      Mongo.update M UserSchema env.env (byId (.str user.id.toString))
        (.body (.obj [("lastLoginAt", .date env.env.now)])) s.users = .ok (recorded, s'.users) →
      AuthService.generateTokens jwt config env.env.now user = .ok tokens →
      AuthEffect M bcrypt jwt config env s s' (.login dto) [.issued tokens]
  | refreshed {dto payload : Entries} {user : Doc} {tokens : Tokens} :
      jwt.verify (dto.get "refreshToken") (config.secretKey config.JWT_REFRESH_SECRET) env.env.now =
        some payload →
      Mongo.findOne M UserSchema env.env (byId (payload.get "sub")) [] s.users = .ok (some user) →
      AuthService.generateTokens jwt config env.env.now user = .ok tokens → s' = s →
      AuthEffect M bcrypt jwt config env s s' (.refreshToken dto) [.issued tokens]
  | deleted {id : Value} {user : Doc} :
      (s'.users.get user.id).isSome →
      AuthEffect M bcrypt jwt config env s s' (.delete id) [.deleted user.id]

theorem authEffect {request : AuthRequest} {events : List AuthEvent} {s s' : AuthState}
    (h : (request.run M bcrypt jwt config).exec s = (.ok events, s')) :
    AuthEffect M bcrypt jwt config request.env s s' request.call events := by
  obtain ⟨env, call⟩ := request
  cases call with
  | register dto =>
    obtain ⟨result, hresult, rfl⟩ := exec_map_eq_ok h
    obtain ⟨user, hnew, hstored, htokens⟩ := register_eq_ok hresult
    exact .registered hnew hstored htokens
  | login dto =>
    obtain ⟨result, hresult, rfl⟩ := exec_map_eq_ok h
    obtain ⟨user, recorded, hfound, hcompare, hupdate, htokens⟩ := login_eq_ok hresult
    exact .loggedIn hfound hcompare hupdate htokens
  | refreshToken dto =>
    obtain ⟨tokens, hresult, rfl⟩ := exec_map_eq_ok h
    obtain ⟨payload, user, hverify, hfound, htokens, hsame⟩ := refreshToken_eq_ok hresult
    exact .refreshed hverify hfound htokens hsame
  | validateToken dto =>
    obtain ⟨_, -, rfl⟩ := exec_map_eq_ok h
    exact .silent
  | update id updates =>
    obtain ⟨_, -, rfl⟩ := exec_map_eq_ok h
    exact .silent
  | delete id =>
    obtain ⟨user, hresult, rfl⟩ := exec_map_eq_ok h
    exact .deleted (delete_eq_ok hresult)

/-- The log has no tokens after a deletion, and the deleted accounts are stored. -/
structure Sound (jwt : Jwt) (w : AuthWorld) : Prop where
  log : NoTokensAfterDelete jwt w.log
  stored : ∀ id, .deleted id ∈ w.log → (w.state.users.get id).isSome

/-- The event issues no tokens to an account that is deleted in `w`, and what it deletes
is stored in `s'`. -/
def AuthEvent.Permitted (jwt : Jwt) (w : AuthWorld) (s' : AuthState) : AuthEvent → Prop
  | .issued tokens => ∀ id, .deleted id ∈ w.log → ¬ tokens.For jwt id
  | .deleted id => (s'.users.get id).isSome

/-- An admissible call is at most one event, and a permitted one. -/
theorem AuthRequest.run_eq_ok (hjwt : jwt.Carries "sub") {w : AuthWorld} (h : Sound jwt w)
    {request : AuthRequest} (hadmissible : Admissible M bcrypt jwt config w request)
    {events : List AuthEvent} {s' : AuthState}
    (hrun : (request.run M bcrypt jwt config).exec w.state = (.ok events, s')) :
    events = [] ∨ ∃ event, events = [event] ∧ event.Permitted jwt w s' := by
  have heffect := authEffect hrun
  obtain ⟨env, call⟩ := request
  cases heffect with
  | silent => exact .inl rfl
  | registered hnew hstored htokens =>
    refine .inr ⟨_, rfl, fun id hid hfor => ?_⟩
    rw [generateTokens_for hjwt htokens] at hfor
    have hdeleted := h.stored id hid
    rw [hfor, hnew] at hdeleted
    cases hdeleted
  | loggedIn hfound hcompare hupdate htokens =>
    refine .inr ⟨_, rfl, fun id hid hfor => ?_⟩
    rw [generateTokens_for hjwt htokens] at hfor
    exact hadmissible _ hfound (hfor ▸ hid) hcompare
  | refreshed hverify hfound htokens hsame =>
    refine .inr ⟨_, rfl, fun id hid hfor => ?_⟩
    rw [generateTokens_for hjwt htokens] at hfor
    exact hadmissible _ hverify _ hfound (hfor ▸ hid)
  | deleted hstored => exact .inr ⟨_, rfl, hstored⟩

/-- A permitted event at the end of a sound log keeps it sound. -/
theorem Sound.append {w : AuthWorld} (h : Sound jwt w) {s' : AuthState} (hgrows : Grows w.state s')
    {event : AuthEvent} (hevent : event.Permitted jwt w s') : Sound jwt ⟨s', w.log ++ [event]⟩ := by
  refine ⟨?_, ?_⟩
  · refine List.pairwise_append.mpr ⟨h.log, List.pairwise_singleton _ _, ?_⟩
    intro a ha b hb id tokens hdeleted hissued
    obtain rfl := List.mem_singleton.mp hb
    subst hdeleted hissued
    exact hevent id ha
  · intro id hid
    rcases List.mem_append.mp hid with hold | hnew
    · exact hgrows id (h.stored id hold)
    · obtain rfl := List.mem_singleton.mp hnew
      exact hevent

theorem Sound.after (hjwt : jwt.Carries "sub") {w : AuthWorld} (h : Sound jwt w)
    {request : AuthRequest} (hadmissible : Admissible M bcrypt jwt config w request) :
    Sound jwt (request.after M bcrypt jwt config w) := by
  have hgrows : Grows w.state ((request.run M bcrypt jwt config).exec w.state).2 :=
    Grows.keeps_run request w.state
  unfold AuthRequest.after
  cases hrun : (request.run M bcrypt jwt config).exec w.state with
  | mk result s' =>
    rw [hrun] at hgrows
    have hsame : Sound jwt ⟨s', w.log ++ []⟩ := by
      rw [List.append_nil]
      exact ⟨h.log, fun id hid => hgrows id (h.stored id hid)⟩
    cases result with
    | error e => exact hsame
    | ok events =>
      rcases AuthRequest.run_eq_ok hjwt h hadmissible hrun with rfl | ⟨event, rfl, hevent⟩
      · exact hsame
      · exact h.append hgrows hevent

/-- In every run that begins without deletions and whose calls are admissible, no call
returns tokens for an account after it was deleted. -/
theorem run_noTokensAfterDelete (hjwt : jwt.Carries "sub") {w w' : AuthWorld}
    {requests : List AuthRequest} (hstart : w.log = [])
    (h : Run (Meeting (AuthStep M bcrypt jwt config) (Admissible M bcrypt jwt config)) w requests w') :
    NoTokensAfterDelete jwt w'.log := by
  have hstep : ∀ w request w', Sound jwt w →
      Meeting (AuthStep M bcrypt jwt config) (Admissible M bcrypt jwt config) w request w' →
      Sound jwt w' := by
    intro w request w' hw hcall
    rw [hcall.1]
    exact hw.after hjwt hcall.2
  have hinit : Sound jwt w := by
    refine ⟨?_, ?_⟩
    · rw [hstart]
      exact List.Pairwise.nil
    · intro id hid
      rw [hstart] at hid
      cases hid
  exact (h.invariant hstep hinit).log

/-! ### One account -/

/-- A hash that shows its password. -/
def Bcrypt.plain : Bcrypt where
  hash
    | .str password, _, salt => some (salt ++ password)
    | _, _, _ => none
  compare
    | .str password, .str hash => some (decide (hash = "salt" ++ password))
    | _, _ => none

/-- A token that is its `sub`. -/
def Jwt.plain : Jwt where
  sign payload _ _ _ :=
    match payload.get "sub" with
    | .str sub => some sub
    | _ => none
  verify token _ _ := some [("sub", token)]
  decode token := some [("sub", .str token)]

theorem Jwt.plain_carries : Jwt.plain.Carries "sub" := by
  intro payload key expiresIn now token h
  unfold plain at h
  dsimp only at h
  split at h
  · rename_i sub hsub
    cases h
    rw [hsub]
    rfl
  · cases h

def danaId : ObjectId := ⟨"0000000000000000000000c3", by decide⟩

def danaEnv : AuthEnv := ⟨⟨0, danaId, 0⟩, "salt", true⟩

/-- Only Dana has an account. -/
def danaOnly : AuthWorld where
  state :=
    { users :=
        { docs := [⟨danaId, Fields.assign (fun _ => .undefined)
            [("email", .str "dana@example.com"), ("password", .str "saltsecret"),
             ("name", .str "Dana"), ("roles", .arr [.str "user"]), ("lastLoginAt", .null),
             ("deletedAt", .null), ("createdAt", .date 0), ("updatedAt", .date 0),
             ("__v", .nat 0)]⟩]
          nodup := List.nodup_singleton _ }
      events := [] }
  log := []

def danaLogin : AuthRequest :=
  ⟨danaEnv, .login [("email", .str "dana@example.com"), ("password", .str "secret")]⟩

def danaDelete : AuthRequest := ⟨danaEnv, .delete (.str danaId.toString)⟩

def AuthRequest.plainly (request : AuthRequest) (w : AuthWorld) : AuthWorld :=
  request.after .plain .plain .plain ⟨"access", none, none, none, .fin 12⟩ w

/-- Tokens as in `Jwt.plain`, until time 10. -/
def Jwt.brief : Jwt :=
  { Jwt.plain with verify := fun token _ now => if now < 10 then some [("sub", token)] else none }

theorem Jwt.brief_carries : Jwt.brief.Carries "sub" := by
  intro payload key expiresIn now token h
  exact @Jwt.plain_carries payload key expiresIn now token h

def AuthRequest.briefly (request : AuthRequest) (w : AuthWorld) : AuthWorld :=
  request.after .plain .plain .brief ⟨"access", none, none, none, .fin 12⟩ w

def edId : ObjectId := ⟨"0000000000000000000000c4", by decide⟩

/-- Ed registers before Dana deletes her account. -/
def edRegisters : AuthRequest :=
  ⟨⟨⟨0, edId, 0⟩, "salt", true⟩,
    .register [("email", .str "ed@example.com"), ("password", .str "secret"), ("name", .str "Ed")]⟩

/-- Someone guesses Dana's password. -/
def danaGuessed : AuthRequest :=
  ⟨danaEnv, .login [("email", .str "dana@example.com"), ("password", .str "guess")]⟩

/-- The token of an account is exchanged at a time. -/
def refreshes (id : ObjectId) (now : ℤ) : AuthRequest :=
  ⟨⟨⟨now, id, 0⟩, "salt", true⟩, .refreshToken [("refreshToken", .str id.toString)]⟩

/-- After Dana has deleted her account, her password is guessed wrongly and her old token has
expired; Ed still gets tokens. -/
theorem run_noTokensAfterDelete_dana :
    let w₃ := danaDelete.briefly (edRegisters.briefly (danaLogin.briefly danaOnly))
    let w₄ := danaGuessed.briefly w₃
    let w₅ := (refreshes danaId 20).briefly w₄
    let w₆ := (refreshes edId 5).briefly w₅
    w₆.log = [.issued ⟨danaId.toString, danaId.toString⟩, .issued ⟨edId.toString, edId.toString⟩,
        .deleted danaId, .issued ⟨edId.toString, edId.toString⟩] ∧
      NoTokensAfterDelete .brief w₆.log := by
  intro w₃ w₄ w₅ w₆
  have hlogin : Admissible .plain .plain .brief ⟨"access", none, none, none, .fin 12⟩ danaOnly
      danaLogin := by
    intro user _ hdeleted
    cases hdeleted
  have hguessed : Admissible .plain .plain .brief ⟨"access", none, none, none, .fin 12⟩ w₃
      danaGuessed := by
    -- the login finds the deleted account and does not know its password
    intro user hfound _ hcompare
    have hwrong : (Mongo.findOne .plain UserSchema danaEnv.env [("email", .str "dana@example.com")]
        ["password"] w₃.state.users).toOption.join.map
          (fun user => Bcrypt.plain.compare (.str "guess") (user.fields "password")) =
        some (some false) := by decide +kernel
    rw [show Mongo.findOne .plain UserSchema danaEnv.env [("email", .str "dana@example.com")]
      ["password"] w₃.state.users = .ok (some user) from hfound] at hwrong
    cases (Option.some.inj hwrong).symm.trans hcompare
  have hexpired : Admissible .plain .plain .brief ⟨"access", none, none, none, .fin 12⟩ w₄
      (refreshes danaId 20) := by
    intro payload hverify
    cases hverify
  have hother : Admissible .plain .plain .brief ⟨"access", none, none, none, .fin 12⟩ w₅
      (refreshes edId 5) := by
    -- the token is Ed's, whose account is there
    intro payload hverify user hfound hdeleted
    obtain rfl := Option.some.inj hverify
    have hed : (Mongo.findOne .plain UserSchema (refreshes edId 5).env.env (byId (.str edId.toString))
        [] w₅.state.users).toOption.join.map Doc.id = some edId := by decide +kernel
    rw [show Mongo.findOne .plain UserSchema (refreshes edId 5).env.env (byId (.str edId.toString))
      [] w₅.state.users = .ok (some user) from hfound] at hed
    have hid : user.id = edId := Option.some.inj hed
    rw [hid, show w₅.log = [.issued ⟨danaId.toString, danaId.toString⟩,
      .issued ⟨edId.toString, edId.toString⟩, .deleted danaId] from rfl] at hdeleted
    simp only [List.mem_cons, List.not_mem_nil, or_false, reduceCtorEq, false_or] at hdeleted
    exact absurd (AuthEvent.deleted.inj hdeleted) (by decide)
  have hrun : Run (Meeting (AuthStep .plain .plain .brief ⟨"access", none, none, none, .fin 12⟩)
      (Admissible .plain .plain .brief ⟨"access", none, none, none, .fin 12⟩)) danaOnly
      [danaLogin, edRegisters, danaDelete, danaGuessed, refreshes danaId 20, refreshes edId 5] w₆ :=
    .snoc (.snoc (.snoc (.snoc (.snoc (.snoc (.nil _) ⟨rfl, hlogin⟩) ⟨rfl, trivial⟩) ⟨rfl, trivial⟩)
      ⟨rfl, hguessed⟩) ⟨rfl, hexpired⟩) ⟨rfl, hother⟩
  exact ⟨rfl, run_noTokensAfterDelete Jwt.brief_carries rfl hrun⟩

/-- Dana deletes the account and logs in. -/
theorem login_after_delete :
    ¬ NoTokensAfterDelete .plain (danaLogin.plainly (danaDelete.plainly danaOnly)).log := by
  have hlog : (danaLogin.plainly (danaDelete.plainly danaOnly)).log =
      [.deleted danaId, .issued ⟨danaId.toString, danaId.toString⟩] := by
    rfl
  rw [hlog]
  intro h
  have hnone := List.rel_of_pairwise_cons h (List.mem_singleton_self _)
  exact hnone danaId _ rfl rfl (.inl rfl)

end Auth
