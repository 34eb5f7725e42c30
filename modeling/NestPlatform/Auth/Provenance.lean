-- SUMMARY: Where the tokens that the auth service accepts come from, over whole runs.
import NestPlatform.Auth.Secrets

/-!
# Provenance

Runs of completed calls, with the users collection written by anybody in between. The
history keeps what each call has returned and the states around it; the code never
reads it.
-/
namespace Auth

open Js Mongo Nest Common Database Effect Transition

/-! ## Calls -/

inductive SessionCall where
  /-- A call of the auth service, or one of the user service. -/
  | of (call : AuthCall)
  | logout (dto : Entries)
  /-- Any other write of the users collection. -/
  | edit (users : Collection)

structure SessionRequest where
  env : AuthEnv
  call : SessionCall

/-- A completed call with the states around it and what it has issued or deleted. -/
structure Completed where
  request : SessionRequest
  before : AuthState
  after : AuthState
  events : List AuthEvent

structure Session where
  state : AuthState
  history : List Completed

/-- The pair has the token. -/
def Tokens.Has (tokens : Tokens) (token : String) : Prop :=
  token = tokens.accessToken ∨ token = tokens.refreshToken

section Steps

variable (M : Mongoose) (bcrypt : Bcrypt) (jwt : Jwt) (config : AuthConfig)

def SessionRequest.run (request : SessionRequest) : AuthAction (List AuthEvent) :=
  match request.call with
  | .of call => AuthRequest.run M bcrypt jwt config ⟨request.env, call⟩
  | .logout dto => (fun _ => []) <$> AuthService.logout dto
  | .edit users => (fun _ => []) <$> modify fun s => { s with users }

def SessionRequest.completed (request : SessionRequest) (s : AuthState) : Completed where
  request
  before := s
  after := ((request.run M bcrypt jwt config).exec s).2
  events :=
    match ((request.run M bcrypt jwt config).exec s).1 with
    | .ok events => events
    | .error _ => []

def SessionRequest.next (request : SessionRequest) (w : Session) : Session where
  state := (request.completed M bcrypt jwt config w.state).after
  history := w.history ++ [request.completed M bcrypt jwt config w.state]

def SessionStep (w : Session) (request : SessionRequest) (w' : Session) : Prop :=
  w' = request.next M bcrypt jwt config w

/-- The token that a call verifies, with the key. -/
def SessionCall.presented : SessionCall → Option (Value × String)
  | .of (.validateToken dto) => some (dto.get "token", config.secretKey none)
  | .of (.refreshToken dto) =>
    some (dto.get "refreshToken", config.secretKey config.JWT_REFRESH_SECRET)
  | _ => none

/-- Signatures are ideal and no client has a secret: what is verified with a key of the service
is a token that the service has signed with this key and issued. -/
def Unforged (w : Session) (request : SessionRequest) : Prop :=
  ∀ v key payload, request.call.presented config = some (v, key) →
    jwt.verify v key request.env.env.now = some payload →
    ∃ e ∈ w.history, ∃ tokens, .issued tokens ∈ e.events ∧
      ((v = .str tokens.accessToken ∧ key = config.JWT_ACCESS_SECRET) ∨
        (v = .str tokens.refreshToken ∧ key = config.secretKey config.JWT_REFRESH_SECRET))

end Steps

/-! ## The property -/

section Property

variable (M : Mongoose) (bcrypt : Bcrypt) (jwt : Jwt) (config : AuthConfig)

/-- The call was given the token and accepted it. -/
def Completed.Accepts (e : Completed) (v : Value) : Prop :=
  match e.request.call with
  | .of (.validateToken dto) => v = dto.get "token" ∧ ∃ payload,
      ((AuthService.validateToken jwt config e.request.env dto).exec e.before).1 =
        .ok (some payload)
  | .of (.refreshToken dto) => v = dto.get "refreshToken" ∧ ∃ tokens,
      ((AuthService.refreshToken M jwt config e.request.env dto).exec e.before).1 = .ok tokens
  | _ => False

variable (role : Doc → Value)

/-- Both tokens name the account, and carry its email and its role. -/
def Tokens.Describe (tokens : Tokens) (d : Doc) : Prop :=
  ∀ token, tokens.Has token → jwt.claim token "sub" = .str d.id.toString ∧
    jwt.claim token "email" = d.fields "email" ∧ jwt.claim token "role" = role d

/-- The call has issued the pair to the account, as it is stored then. -/
def Completed.IssuesTo (e : Completed) (tokens : Tokens) (id : ObjectId) : Prop :=
  .issued tokens ∈ e.events ∧
    ∃ d, e.after.users.get id = some d ∧ tokens.Describe jwt role d

/-- The pair goes back, over refreshes, to a registration that has created the account or a
login with its password. -/
inductive Traced : List Completed → Tokens → ObjectId → Prop where
  | registered {earlier : List Completed} {e : Completed} {tokens : Tokens} {id : ObjectId}
      {dto : Entries} :
      e.request.call = .of (.register dto) → e.before.users.get id = none →
      e.IssuesTo jwt role tokens id → Traced (earlier ++ [e]) tokens id
  | loggedIn {earlier : List Completed} {e : Completed} {tokens : Tokens} {id : ObjectId}
      {dto : Entries} {d : Doc} :
      e.request.call = .of (.login dto) → e.before.users.get id = some d →
      bcrypt.compare (dto.get "password") (d.fields "password") = some true →
      e.IssuesTo jwt role tokens id → Traced (earlier ++ [e]) tokens id
  | refreshed {earlier : List Completed} {e : Completed} {old tokens : Tokens} {id : ObjectId}
      {dto : Entries} {token : String} :
      Traced earlier old id → old.Has token → e.request.call = .of (.refreshToken dto) →
      dto.get "refreshToken" = .str token →
      e.IssuesTo jwt role tokens id → Traced (earlier ++ [e]) tokens id
  | later {earlier : List Completed} {e : Completed} {tokens : Tokens} {id : ObjectId} :
      Traced earlier tokens id → Traced (earlier ++ [e]) tokens id

/-- Every token that a call accepts belongs to a pair that goes back, within the earlier calls,
to a registration or a login. -/
def Provenance (history : List Completed) : Prop :=
  ∀ earlier e, earlier ++ [e] <+: history → ∀ v, e.Accepts M jwt config v →
    ∃ token tokens id, v = .str token ∧ tokens.Has token ∧
      Traced bcrypt jwt role earlier tokens id

/-- `roles[0] || UserRole.USER`, of the stored account. -/
def storedRole (d : Doc) : Value :=
  (Entries.get (d.fields "roles").entries "0").or (.str UserRole.USER)

end Property

/-- The claims of the service are what a token decodes to and is verified as. -/
structure Jwt.Faithful (jwt : Jwt) : Prop where
  sub : jwt.Carries "sub"
  email : jwt.Carries "email"
  role : jwt.Carries "role"
  decodes : jwt.Decodes

/-! ## What a call issues -/

variable {M : Mongoose} {bcrypt : Bcrypt} {jwt : Jwt} {config : AuthConfig} {env : AuthEnv}

/-- The tokens of a user describe an account that has the same email and roles. -/
theorem generateTokens_describe (hjwt : jwt.Faithful) {now : ℤ} {user : Doc} {tokens : Tokens}
    (h : AuthService.generateTokens jwt config now user = .ok tokens) {d : Doc}
    (hid : user.id = d.id) (hemail : user.fields "email" = d.fields "email")
    (hrole : ∀ role, AuthService.role user = some role → role = storedRole d) :
    tokens.Describe jwt storedRole d := by
  obtain ⟨_, -, hsub, hsub'⟩ := generateTokens_claims hjwt.sub h
  obtain ⟨_, -, hmail, hmail'⟩ := generateTokens_claims hjwt.email h
  obtain ⟨role, hsome, hclaim, hclaim'⟩ := generateTokens_claims hjwt.role h
  obtain rfl := hrole role hsome
  unfold Tokens.Describe
  rw [← hid, ← hemail]
  rintro token (rfl | rfl)
  · exact ⟨hsub, hmail, hclaim⟩
  · exact ⟨hsub', hmail', hclaim'⟩

theorem email_hydrate (plus : List String) (d : Doc) :
    (hydrate UserSchema plus d).fields "email" = d.fields "email" :=
  hydrate_of_noDefault (p := emailPath) rfl rfl rfl d

theorem role_eq {d : Doc} {role : Value} (h : AuthService.role d = some role) :
    role = storedRole d := by
  unfold AuthService.role at h
  dsimp only at h
  split at h
  · cases h
  · cases h
    rfl

/-- An account without roles is shown with the default. -/
theorem role_hydrate {plus : List String} {d : Doc} {role : Value}
    (h : AuthService.role (hydrate UserSchema plus d) = some role) : role = storedRole d := by
  have hpath : UserSchema.path "roles" = some
      { name := "roles", type := .stringArray,
        enum := [UserRole.ADMIN, UserRole.USER, UserRole.GUEST],
        default := .arr [.str UserRole.USER] } := rfl
  rw [role_eq h]
  unfold storedRole
  simp only [hydrate, hpath, Bool.true_or, if_true]
  by_cases hmissing : d.fields "roles" = .undefined
  · rw [if_pos hmissing, hmissing]
    rfl
  · rw [if_neg hmissing]

/-- Recording a login leaves the account with the same email and roles. -/
theorem update_lastLoginAt {c c' : Collection} {d : Doc} (hd : c.get d.id = some d)
    {r : Option Doc} (h : Mongo.update M UserSchema env.env (byId (.str d.id.toString))
      (.body (.obj [("lastLoginAt", .date env.env.now)])) c = .ok (r, c')) :
    c' = c.put (stamped env.env d) := by
  obtain ⟨p, f, hp, hf, hcases⟩ := update_eq_ok h
  obtain ⟨p', hp', hsel⟩ := matcher_byId (S := UserSchema) (M.castId_toString d.id)
  obtain rfl := Option.some.inj (hp.symm.trans hp')
  have hfind : (M.scan env.env.seed c.docs).find? p = some d := (find?_scan_of_id hsel).trans hd
  rw [compile_lastLoginAt] at hf
  cases hf
  rcases hcases with ⟨hnone, -⟩ | ⟨d', fields, hd', hfields, -, rfl⟩
  · rw [hfind] at hnone
    cases hnone
  · rw [hfind] at hd'
    cases hd'
    cases hfields
    rfl

/-- The tokens of a login describe the account that it has recorded. -/
theorem login_describe (hjwt : jwt.Faithful) {c c' : Collection} {filter : Filter} {user : Doc}
    (hfound : Mongo.findOne M UserSchema env.env filter ["password"] c = .ok (some user))
    {recorded : Option Doc}
    (hupdate : Mongo.update M UserSchema env.env (byId (.str user.id.toString))
      (.body (.obj [("lastLoginAt", .date env.env.now)])) c = .ok (recorded, c'))
    {tokens : Tokens} (htokens : AuthService.generateTokens jwt config env.env.now user = .ok tokens) :
    ∃ d d', c.get user.id = some d ∧ user.fields "password" = d.fields "password" ∧
      c'.get user.id = some d' ∧ tokens.Describe jwt storedRole d' := by
  obtain ⟨p, d, -, hd, rfl⟩ := findOne_eq_some hfound
  have hget : c.get d.id = some d := Collection.get_of_mem (find?_scan_eq_some hd).1
  refine ⟨d, stamped env.env d, hget, password_hydrate d, ?_, ?_⟩
  · rw [update_lastLoginAt hget hupdate]
    exact get_put_touch hget env.env _
  · exact generateTokens_describe hjwt htokens rfl (email_hydrate _ d) fun _ => role_hydrate

/-- The tokens of a refresh describe the account that its `sub` names. -/
theorem refresh_describe (hjwt : jwt.Faithful) {c : Collection} {id : ObjectId} {user : Doc}
    (hfound : Mongo.findOne M UserSchema env.env (byId (.str id.toString)) [] c = .ok (some user))
    {tokens : Tokens} (htokens : AuthService.generateTokens jwt config env.env.now user = .ok tokens) :
    ∃ d, c.get id = some d ∧ tokens.Describe jwt storedRole d := by
  obtain ⟨p, d, hp, hd, rfl⟩ := findOne_eq_some hfound
  obtain ⟨hmem, hsel⟩ := find?_scan_eq_some hd
  obtain rfl : id = d.id :=
    Option.some.inj ((M.castId_toString id).symm.trans (castId_of_byId hp hsel))
  refine ⟨d, Collection.get_of_mem hmem, ?_⟩
  exact generateTokens_describe hjwt htokens rfl (email_hydrate _ d) fun _ => role_hydrate

/-! ## One call -/

/-- A traced pair has been issued. -/
theorem Traced.issuesTo {role : Doc → Value} {history : List Completed} {tokens : Tokens}
    {id : ObjectId} (h : Traced bcrypt jwt role history tokens id) :
    ∃ e ∈ history, e.IssuesTo jwt role tokens id := by
  induction h with
  | registered _ _ hissues => exact ⟨_, by simp, hissues⟩
  | loggedIn _ _ _ hissues => exact ⟨_, by simp, hissues⟩
  | refreshed _ _ _ _ hissues => exact ⟨_, by simp, hissues⟩
  | later _ ih =>
    obtain ⟨e, he, hissues⟩ := ih
    exact ⟨e, List.mem_append_left _ he, hissues⟩

theorem Traced.sub_eq {role : Doc → Value} {history : List Completed} {tokens : Tokens}
    {id : ObjectId} (h : Traced bcrypt jwt role history tokens id) {token : String}
    (htoken : tokens.Has token) : jwt.claim token "sub" = .str id.toString := by
  obtain ⟨e, -, -, d, hd, hdescribe⟩ := h.issuesTo
  obtain rfl := Collection.id_of_get hd
  exact (hdescribe token htoken).1

/-- Every pair in the history goes back to a registration or a login. -/
def AllTraced (bcrypt : Bcrypt) (jwt : Jwt) (history : List Completed) : Prop :=
  ∀ e ∈ history, ∀ tokens, .issued tokens ∈ e.events →
    ∃ id, Traced bcrypt jwt storedRole history tokens id

/-- A presented token that is verified belongs to a traced pair. -/
theorem AllTraced.presented {w : Session} (h : AllTraced bcrypt jwt w.history)
    {request : SessionRequest} (hunforged : Unforged jwt config w request) {v : Value}
    {key : String} (hpresented : request.call.presented config = some (v, key)) {payload : Entries}
    (hverify : jwt.verify v key request.env.env.now = some payload) :
    ∃ token tokens id, v = .str token ∧ tokens.Has token ∧
      Traced bcrypt jwt storedRole w.history tokens id := by
  obtain ⟨e, he, tokens, hissued, hv⟩ := hunforged v key payload hpresented hverify
  obtain ⟨id, htraced⟩ := h e he tokens hissued
  rcases hv with ⟨rfl, -⟩ | ⟨rfl, -⟩
  · exact ⟨_, tokens, id, rfl, .inl rfl, htraced⟩
  · exact ⟨_, tokens, id, rfl, .inr rfl, htraced⟩

/-- A pair that a call issues goes back to a registration or a login. -/
theorem AllTraced.issued (hjwt : jwt.Faithful) {w : Session} (h : AllTraced bcrypt jwt w.history)
    {request : SessionRequest} (hunforged : Unforged jwt config w request)
    {events : List AuthEvent} {s' : AuthState}
    (hrun : (request.run M bcrypt jwt config).exec w.state = (.ok events, s')) {tokens : Tokens}
    (hissued : .issued tokens ∈ events) :
    ∃ id, Traced bcrypt jwt storedRole (w.history ++ [⟨request, w.state, s', events⟩]) tokens id := by
  obtain ⟨env, call⟩ := request
  cases call with
  | of call =>
    have heffect := authEffect hrun
    dsimp only at heffect
    cases heffect with
    | silent => cases hissued
    | deleted => cases List.mem_singleton.mp hissued
    | registered hnew hstored htokens =>
      cases List.mem_singleton.mp hissued
      have hdescribe := generateTokens_describe hjwt htokens rfl rfl fun _ => role_eq
      exact ⟨_, .registered rfl hnew ⟨hissued, _, hstored, hdescribe⟩⟩
    | loggedIn hfound hcompare hupdate htokens =>
      cases List.mem_singleton.mp hissued
      obtain ⟨d, d', hget, hpassword, hafter, hdescribe⟩ := login_describe hjwt hfound hupdate htokens
      rw [hpassword] at hcompare
      exact ⟨_, .loggedIn rfl hget hcompare ⟨hissued, d', hafter, hdescribe⟩⟩
    | refreshed hverify hfound htokens hsame =>
      subst hsame
      cases List.mem_singleton.mp hissued
      obtain ⟨token, old, id, hdto, htoken, htraced⟩ := h.presented hunforged rfl hverify
      rw [hdto] at hverify
      rw [← Jwt.Decodes.claim hjwt.decodes hverify, htraced.sub_eq htoken] at hfound
      obtain ⟨d, hget, hdescribe⟩ := refresh_describe hjwt hfound htokens
      exact ⟨id, .refreshed htraced htoken rfl hdto ⟨hissued, d, hget, hdescribe⟩⟩
  | logout dto | edit users =>
    obtain ⟨_, -, rfl⟩ := exec_map_eq_ok hrun
    cases hissued

/-- A call accepts a token only if it has verified it. -/
theorem Completed.Accepts.presented {e : Completed} {v : Value}
    (h : e.Accepts M jwt config v) : ∃ key payload,
      e.request.call.presented config = some (v, key) ∧
        jwt.verify v key e.request.env.env.now = some payload := by
  obtain ⟨⟨env, call⟩, before, after, events⟩ := e
  cases call with
  | of call =>
    cases call with
    | validateToken dto =>
      obtain ⟨rfl, payload, hresult⟩ := h
      exact ⟨_, payload, rfl, Except.ok.inj hresult⟩
    | refreshToken dto =>
      obtain ⟨rfl, tokens, hresult⟩ := h
      cases hrun : (AuthService.refreshToken M jwt config env dto).exec before with
      | mk result s' =>
        rw [hrun] at hresult
        cases hresult
        obtain ⟨payload, -, hverify, -⟩ := refreshToken_eq_ok hrun
        exact ⟨_, payload, rfl, hverify⟩
    | register | login | update | delete => cases h
  | logout | edit => cases h

/-! ## Runs -/

/-- What a call keeps. -/
structure SessionSound (M : Mongoose) (bcrypt : Bcrypt) (jwt : Jwt) (config : AuthConfig)
    (history : List Completed) : Prop where
  traced : AllTraced bcrypt jwt history
  provenance : Provenance M bcrypt jwt config storedRole history

theorem SessionSound.after (hjwt : jwt.Faithful) {w : Session}
    (h : SessionSound M bcrypt jwt config w.history) {request : SessionRequest}
    (hunforged : Unforged jwt config w request) :
    SessionSound M bcrypt jwt config
      (w.history ++ [request.completed M bcrypt jwt config w.state]) := by
  constructor
  · intro e he tokens hissued
    rcases List.mem_append.mp he with hold | hnew
    · obtain ⟨id, htraced⟩ := h.traced e hold tokens hissued
      exact ⟨id, htraced.later⟩
    · obtain rfl := List.mem_singleton.mp hnew
      unfold SessionRequest.completed at hissued ⊢
      cases hrun : (request.run M bcrypt jwt config).exec w.state with
      | mk result s' =>
        rw [hrun] at hissued
        cases result with
        | error e => cases hissued
        | ok events => exact h.traced.issued hjwt hunforged hrun hissued
  · intro earlier e hprefix v haccepts
    rcases List.prefix_concat_iff.mp hprefix with heq | hold
    · obtain ⟨rfl, hlast⟩ := List.append_inj' heq rfl
      obtain rfl := List.singleton_inj.mp hlast
      obtain ⟨key, payload, hpresented, hverify⟩ := haccepts.presented
      exact h.traced.presented hunforged hpresented hverify
    · exact h.provenance earlier e hold v haccepts

/-- In every run that begins without tokens, every accepted token goes back, over refreshes, to a
registration or a login of the account that it names, with the email and the role that the account
had when it was issued. -/
theorem run_provenance (hjwt : jwt.Faithful) {w w' : Session} {requests : List SessionRequest}
    (hstart : w.history = [])
    (h : Run (Meeting (SessionStep M bcrypt jwt config) (Unforged jwt config)) w requests w') :
    Provenance M bcrypt jwt config storedRole w'.history := by
  have hinit : SessionSound M bcrypt jwt config w.history := by
    rw [hstart]
    constructor
    · intro e he
      cases he
    · intro earlier e hprefix
      simp at hprefix
  have hstep : ∀ w request w', SessionSound M bcrypt jwt config w.history →
      Meeting (SessionStep M bcrypt jwt config) (Unforged jwt config) w request w' →
      SessionSound M bcrypt jwt config w'.history := by
    rintro w request _ hw ⟨rfl, hunforged⟩
    exact hw.after hjwt hunforged
  exact (h.invariant hstep hinit).provenance

/-! ### One account -/

def danaSession : Session := ⟨danaOnly.state, []⟩

def danaCalls (call : SessionCall) : SessionRequest := ⟨danaEnv, call⟩

def danaNext (call : SessionCall) (w : Session) : Session :=
  (danaCalls call).next .plain .plain (.single danaPayload)
    ⟨"access", some "refresh", none, none, .fin 12⟩ w

/-- Dana logs in, refreshes the tokens and has one validated. -/
theorem run_provenance_dana :
    Provenance .plain .plain (.single danaPayload) ⟨"access", some "refresh", none, none, .fin 12⟩
      storedRole
      (danaNext (.of (.validateToken [("token", .str "access")]))
        (danaNext (.of (.refreshToken [("refreshToken", .str "refresh")]))
          (danaNext (.of danaLogin.call) danaSession))).history := by
  have hfaithful : (Jwt.single danaPayload).Faithful :=
    ⟨Jwt.single_carries _ _, Jwt.single_carries _ _, Jwt.single_carries _ _, Jwt.single_decodes _⟩
  refine run_provenance hfaithful (w := danaSession) rfl
    (.snoc (.snoc (.snoc (.nil _) ⟨rfl, ?_⟩) ⟨rfl, ?_⟩) ⟨rfl, ?_⟩)
  · intro v key payload hpresented
    cases hpresented
  · intro v key payload hpresented _
    cases hpresented
    exact ⟨_, List.mem_singleton_self _, ⟨"access", "refresh"⟩, List.mem_singleton_self _,
      .inr ⟨rfl, rfl⟩⟩
  · intro v key payload hpresented _
    cases hpresented
    exact ⟨_, List.mem_cons_self, ⟨"access", "refresh"⟩, List.mem_singleton_self _,
      .inl ⟨rfl, rfl⟩⟩

/-- `roles[0]`, and `UserRole.USER` for the empty list. -/
def firstRole (d : Doc) : Value :=
  match d.fields "roles" with
  | .arr [] => .str UserRole.USER
  | roles => Entries.get roles.entries "0"

/-- Dana's only role is set to the empty text, and she logs in. -/
def danaBlank : Session :=
  danaNext (.of danaLogin.call)
    (danaNext (.of (.update (.str danaId.toString) (.obj [("roles", .arr [.str ""])]))) danaSession)

/-- The token that she has validated has another role than her first. -/
theorem blank_role :
    (∃ requests, Run (Meeting
        (SessionStep .plain .plain (.single danaPayload) ⟨"access", some "refresh", none, none, .fin 12⟩)
        (Unforged (.single danaPayload) ⟨"access", some "refresh", none, none, .fin 12⟩))
      danaSession requests (danaNext (.of (.validateToken [("token", .str "access")])) danaBlank)) ∧
    ¬ Provenance .plain .plain (.single danaPayload)
      ⟨"access", some "refresh", none, none, .fin 12⟩ firstRole
      (danaNext (.of (.validateToken [("token", .str "access")])) danaBlank).history := by
  constructor
  · refine ⟨_, .snoc (.snoc (.snoc (.nil _) ⟨rfl, ?_⟩) ⟨rfl, ?_⟩) ⟨rfl, ?_⟩⟩
    · intro v key payload hpresented
      cases hpresented
    · intro v key payload hpresented
      cases hpresented
    · intro v key payload hpresented _
      cases hpresented
      exact ⟨_, List.mem_append_right _ (List.mem_singleton_self _), ⟨"access", "refresh"⟩,
        List.mem_singleton_self _, .inl ⟨rfl, rfl⟩⟩
  · intro h
    obtain ⟨token, tokens, id, -, htoken, htraced⟩ :=
      h danaBlank.history _ (List.prefix_refl _) _ ⟨rfl, danaPayload, rfl⟩
    obtain ⟨e, he, hissued, d, hd, hdescribe⟩ := htraced.issuesTo
    have hclaim : Value.str "user" = firstRole d := (hdescribe token htoken).2.2
    have hevents : ∀ e ∈ danaBlank.history, e.events = [] ∨
        ∀ d ∈ e.after.users.docs, firstRole d = .str "" := by
      intro e he
      rcases List.mem_append.mp he with hupdate | hlogin
      · obtain rfl := List.mem_singleton.mp hupdate
        exact .inl rfl
      · obtain rfl := List.mem_singleton.mp hlogin
        exact .inr (by decide)
    rcases hevents e he with hnone | hblank
    · rw [hnone] at hissued
      cases hissued
    · rw [hblank d (Collection.mem_of_get hd)] at hclaim
      revert hclaim
      decide

end Auth
