-- SUMMARY: Runs of HTTP requests as runs of the auth service, and the logins that admitted requests go back to.
import NestPlatform.Gateway.Attribution

/-!
# Sessions

To the auth service a request is one of its calls, or an edit of the users. So a run of the
platform refines a run of sessions, and what holds of the tokens of sessions holds of the tokens
that the gateway admits.
-/
namespace Gateway

open Js Mongo Nest Common Database Effect Transition
open Auth (AuthAction AuthEvent AuthState SessionRequest Session SessionStep Completed Tokens)

/-! ## Tokens over HTTP -/

/-- The answer of a handler of anyone has the token under the key. -/
def Served.Gives (e : Served) (k token : String) : Prop :=
  (∃ endpoint, e.exchange.Opens endpoint) ∧
    ∃ statusCode data, e.answer = .ok (statusCode, data) ∧ Entries.get data.entries k = .str token

section

variable (jwt : Auth.Jwt) (config : Auth.AuthConfig)

/-- A value that the request has verified, with the key and the time. -/
inductive Exchange.Presents (x : Exchange) : Value → String → ℤ → Prop where
  | token {token : String} : x.token = some token →
      x.Presents (.str token) config.JWT_ACCESS_SECRET x.clock
  | refreshToken {dto : Value} : x.Opens (.refresh dto) →
      x.Presents ((encode dto.entries).get "refreshToken")
        (config.secretKey config.JWT_REFRESH_SECRET) x.env.env.now

/-- Signatures are ideal and no client has a secret: what is verified with a key has been handed
out as a token of this key. -/
def Unforged (w : Log) (x : Exchange) : Prop :=
  ∀ v key now payload, x.Presents config v key now → jwt.verify v key now = some payload →
    ∃ e ∈ w.history, ∃ token, v = .str token ∧
      ((key = config.JWT_ACCESS_SECRET ∧ e.Gives "accessToken" token) ∨
        (key = config.secretKey config.JWT_REFRESH_SECRET ∧ e.Gives "refreshToken" token))

end

/-! ## One request -/

/-- The keys of an answer that has tokens. -/
def tokenKeys : List String := ["accessToken", "refreshToken"]

section

variable (M : Mongoose) (bcrypt : Auth.Bcrypt) (jwt : Auth.Jwt) (config : Auth.AuthConfig)

/-- A completed call has issued what the answer has. -/
def Backs (c : Completed) (e : Served) : Prop :=
  ∀ k ∈ tokenKeys, ∀ token, e.Gives k token →
    ∃ tokens : Tokens, .issued tokens ∈ c.events ∧ tokens.entries.get k = .str token

/-- The call that the request is to the auth service. -/
structure Seen (x : Exchange) (b : Platform) (request : SessionRequest) : Prop where
  after : (request.completed M bcrypt jwt config b.auth).after = (x.after M bcrypt jwt config b).auth
  presented : ∀ v key, request.call.presented config = some (v, key) →
    x.Presents config v key request.env.env.now
  backs : Backs (request.completed M bcrypt jwt config b.auth) (x.served M bcrypt jwt config b)

end

variable {M : Mongoose} {bcrypt : Auth.Bcrypt} {jwt : Auth.Jwt} {config : Auth.AuthConfig}
variable {x : Exchange} {b : Platform}

/-- A request that gives no tokens and publishes nothing edits the users at most. -/
theorem seen_edit {users : Collection}
    (hafter : (x.after M bcrypt jwt config b).auth = { b.auth with users })
    (hnone : ∀ k ∈ tokenKeys, ∀ token, ¬ (x.served M bcrypt jwt config b).Gives k token) :
    Seen M bcrypt jwt config x b ⟨x.env, .edit users⟩ := by
  constructor
  · exact hafter.symm
  · intro v key hpresented
    cases hpresented
  · intro k hk token hgives
    exact absurd hgives (hnone k hk token)

/-- A request whose handler answers with `f` of what a call of the auth service returns. -/
theorem seen_call {α : Type} {z : AuthAction α} {f : α → Value} {g : α → List AuthEvent} {rpc : Rpc}
    {e : PublicEndpoint} (call : Auth.AuthCall) (hopens : x.Opens e)
    (hhandle : x.handlePublic M bcrypt jwt config e = x.callAuth M bcrypt jwt config rpc)
    (hy : Auth.AuthController.handle M bcrypt jwt config x.env rpc.pattern
      (encode rpc.payload.entries) = some (f <$> z))
    (hrun : (SessionRequest.run M bcrypt jwt config ⟨x.env, .of call⟩) = g <$> z)
    (hpresented : ∀ v key, Auth.SessionCall.presented config (.of call) = some (v, key) →
      x.Presents config v key x.env.env.now)
    (hgives : ∀ a, ∀ k ∈ tokenKeys, ∀ token, Entries.get (f a).entries k = .str token →
      ∃ tokens : Tokens, .issued tokens ∈ g a ∧ tokens.entries.get k = .str token)
    (harrives : ∀ err, x.network ≠ .down err) :
    Seen M bcrypt jwt config x b ⟨x.env, .of call⟩ := by
  have hstate : ((rpc.call (Auth.AuthController.handle M bcrypt jwt config x.env) x.network).exec
      b.auth).2 = (z.exec b.auth).2 := by
    unfold Rpc.call
    rw [hy]
    cases hnetwork : x.network with
    | up | replyLost => exact congrArg Prod.snd (exec_map f z b.auth)
    | down err => exact absurd hnetwork (harrives err)
  constructor
  · unfold SessionRequest.completed Exchange.after
    rw [Exchange.exec_handle_opens hopens, hhandle, hrun, exec_map]
    exact hstate.symm
  · exact hpresented
  · rintro k hk token ⟨-, statusCode, data, hanswer, htoken⟩
    unfold Exchange.served at hanswer
    dsimp only at hanswer
    rw [Exchange.exec_handle_opens hopens, hhandle] at hanswer
    unfold SessionRequest.completed
    rw [hrun, exec_map]
    cases hresult : ((x.callAuth M bcrypt jwt config rpc).exec b).1 with
    | error t =>
      rw [hresult] at hanswer
      cases hanswer
    | ok v =>
      rw [hresult] at hanswer
      cases hanswer
      -- an answer of success is what the handler has returned
      have hreply : (rpc.call (Auth.AuthController.handle M bcrypt jwt config x.env) x.network).exec
          b.auth = (.ok data, ((x.callAuth M bcrypt jwt config rpc).exec b).2.auth) :=
        Prod.ext hresult rfl
      obtain ⟨y, hy', hexec⟩ := Rpc.exec_call_eq_ok hreply
      obtain rfl := Option.some.inj (hy.symm.trans hy')
      obtain ⟨a, ha, rfl⟩ := exec_map_eq_ok hexec
      rw [ha]
      exact hgives a k hk token htoken

/-- Without a handler of anyone, a request edits the users at most. -/
theorem auth_of_change {b' : Platform} (h : Change M jwt config x b b') (hopens : ¬ ∃ e, x.Opens e) :
    ∃ users, b'.auth = { b.auth with users } := by
  cases h with
  | registered _ hregister _ => exact absurd ⟨_, hregister⟩ hopens
  | loggedIn hlogin _ => exact absurd ⟨_, hlogin⟩ hopens
  | kept | itemsWritten => exact ⟨b.auth.users, rfl⟩
  | userWritten => exact ⟨_, rfl⟩

theorem get_entries_tokens {tokens : Tokens} {user : Value} {k : String} (hk : k ∈ tokenKeys) :
    Entries.get (("user", user) :: tokens.entries) k = tokens.entries.get k := by
  rcases List.mem_pair.mp hk with rfl | rfl <;> rfl

theorem seen_health (h : x.Opens .health) :
    Seen M bcrypt jwt config x b ⟨x.env, .edit b.auth.users⟩ := by
  have hexec := @Exchange.exec_handle_opens M bcrypt jwt config x _ h b
  apply seen_edit
  · unfold Exchange.after
    rw [hexec]
    rfl
  · rintro k hk token ⟨-, statusCode, data, hanswer, htoken⟩
    unfold Exchange.served at hanswer
    dsimp only at hanswer
    rw [hexec] at hanswer
    cases hanswer
    rcases List.mem_pair.mp hk with rfl | rfl <;> simp [Entries.get] at htoken

/-- A call that does not arrive. -/
theorem seen_down {e : PublicEndpoint} {rpc : Rpc} {err : Entries} (h : x.Opens e)
    (hhandle : x.handlePublic M bcrypt jwt config e = x.callAuth M bcrypt jwt config rpc)
    (hdown : x.network = .down err) :
    Seen M bcrypt jwt config x b ⟨x.env, .edit b.auth.users⟩ := by
  have hcall : (x.callAuth M bcrypt jwt config rpc).exec b =
      (.error (rpc.catchError (.obj err)), b) := by
    unfold Exchange.callAuth onAuth Rpc.call
    rw [exec_zoom, hdown]
    rfl
  have hexec := @Exchange.exec_handle_opens M bcrypt jwt config x _ h b
  rw [hhandle, hcall] at hexec
  apply seen_edit
  · unfold Exchange.after
    rw [hexec]
  · rintro k hk token ⟨-, statusCode, data, hanswer, -⟩
    unfold Exchange.served at hanswer
    dsimp only at hanswer
    rw [hexec] at hanswer
    cases hanswer

/-- Every request is seen as some call. -/
theorem exists_seen (x : Exchange) (b : Platform) :
    ∃ request, Seen M bcrypt jwt config x b request := by
  by_cases hopens : ∃ e, x.Opens e
  case neg =>
    obtain ⟨users, hauth⟩ :=
      auth_of_change (@Exchange.change_after M bcrypt jwt config x b) hopens
    exact ⟨_, seen_edit hauth fun _ _ _ hgives => hopens hgives.1⟩
  obtain ⟨e, he⟩ := hopens
  -- a call that does not arrive changes nothing and gives no token
  by_cases hdown : ∃ err, x.network = .down err
  · obtain ⟨err, hdown⟩ := hdown
    cases e with
    | health => exact ⟨_, seen_health he⟩
    | register dto => exact ⟨_, seen_down he rfl hdown⟩
    | login dto => exact ⟨_, seen_down he rfl hdown⟩
    | refresh dto => exact ⟨_, seen_down he rfl hdown⟩
  have harrives : ∀ err, x.network ≠ .down err := fun err h => hdown ⟨err, h⟩
  cases e with
  | health => exact ⟨_, seen_health he⟩
  | register dto =>
    refine ⟨_, seen_call (.register (encode dto.entries)) he rfl rfl rfl ?_ ?_ harrives⟩
    · intro v key hpresented
      cases hpresented
    · intro result k hk token htoken
      refine ⟨result.tokens, List.mem_singleton_self _, ?_⟩
      rw [← htoken]
      exact (get_entries_tokens hk).symm
  | login dto =>
    refine ⟨_, seen_call (.login (encode dto.entries)) he rfl rfl rfl ?_ ?_ harrives⟩
    · intro v key hpresented
      cases hpresented
    · intro result k hk token htoken
      refine ⟨result.tokens, List.mem_singleton_self _, ?_⟩
      rw [← htoken]
      exact (get_entries_tokens hk).symm
  | refresh dto =>
    refine ⟨_, seen_call (.refreshToken (encode dto.entries)) he rfl rfl rfl ?_ ?_ harrives⟩
    · intro v key hpresented
      cases hpresented
      exact .refreshToken he
    · intro tokens k hk token htoken
      exact ⟨tokens, List.mem_singleton_self _, htoken⟩

/-! ## Runs -/

section

variable (M : Mongoose) (bcrypt : Auth.Bcrypt) (jwt : Auth.Jwt) (config : Auth.AuthConfig)

/-- The session has the users of the log, and one call for each of its requests. -/
structure Refines (w : Log) (s : Session) : Prop where
  state : s.state = w.platform.auth
  length : s.history.length = w.history.length
  backed : ∀ e ∈ w.history, ∃ c ∈ s.history, Backs c e

/-- The token of an admitted request goes back, over refreshes, to a registration of the account
that it names or a login with its password, in what the session was before. -/
def Vouched (w : Log) (s : Session) : Prop :=
  ∀ earlier e, earlier ++ [e] <+: w.history → ∀ user endpoint,
    e.exchange.Admits jwt config user endpoint →
    ∃ past token tokens id, past <+: s.history ∧ past.length = earlier.length ∧
      e.exchange.token = some token ∧ tokens.Has token ∧ user.sub = ObjectId.toString id ∧
      Auth.Traced bcrypt jwt Auth.storedRole past tokens id

/-- The session is a run of the auth service that the log refines. -/
structure Explains (s : Session) (w : Log) : Prop where
  run : ∃ requests, Run (Meeting (SessionStep M bcrypt jwt config) (Auth.Unforged jwt config))
    ⟨Platform.empty.auth, []⟩ requests s
  refines : Refines w s
  sound : Auth.SessionSound M bcrypt jwt config s.history
  vouched : Vouched bcrypt jwt config w s

end

/-- What a request verifies has been issued in the session. -/
theorem Refines.issued {w : Log} {s : Session} (h : Refines w s) (hunforged : Unforged jwt config w x)
    {v : Value} {key : String} {now : ℤ} {payload : Entries} (hpresents : x.Presents config v key now)
    (hverify : jwt.verify v key now = some payload) :
    ∃ c ∈ s.history, ∃ tokens : Tokens, .issued tokens ∈ c.events ∧
      ((v = .str tokens.accessToken ∧ key = config.JWT_ACCESS_SECRET) ∨
        (v = .str tokens.refreshToken ∧ key = config.secretKey config.JWT_REFRESH_SECRET)) := by
  obtain ⟨e, he, token, rfl, hgives⟩ := hunforged v key now payload hpresents hverify
  obtain ⟨c, hc, hbacks⟩ := h.backed e he
  rcases hgives with ⟨hkey, haccess⟩ | ⟨hkey, hrefresh⟩
  · obtain ⟨tokens, hissued, htoken⟩ := hbacks "accessToken" (by decide) token haccess
    exact ⟨c, hc, tokens, hissued, .inl ⟨htoken.symm, hkey⟩⟩
  · obtain ⟨tokens, hissued, htoken⟩ := hbacks "refreshToken" (by decide) token hrefresh
    exact ⟨c, hc, tokens, hissued, .inr ⟨htoken.symm, hkey⟩⟩

theorem Refines.next {w : Log} {s : Session} (h : Refines w s) {request : SessionRequest}
    (hseen : Seen M bcrypt jwt config x w.platform request) :
    Refines (x.next M bcrypt jwt config w) (request.next M bcrypt jwt config s) := by
  obtain ⟨state, history⟩ := s
  obtain rfl : state = w.platform.auth := h.state
  constructor
  · exact hseen.after
  · unfold Exchange.next SessionRequest.next
    rw [List.length_append, List.length_append]
    exact congrArg (· + 1) h.length
  · intro e he
    rcases List.mem_append.mp he with hold | hnew
    · obtain ⟨c, hc, hbacks⟩ := h.backed e hold
      exact ⟨c, List.mem_append_left _ hc, hbacks⟩
    · obtain rfl := List.mem_singleton.mp hnew
      exact ⟨_, List.mem_append_right _ (List.mem_singleton_self _), hseen.backs⟩

/-- An admitted request has a token that the session explains. -/
theorem Explains.traced {s : Session} {w : Log} (h : Explains M bcrypt jwt config s w)
    (hjwt : jwt.Faithful) (hunforged : Unforged jwt config w x) {user : JwtPayload}
    (huser : x.user jwt config = some user) :
    ∃ token tokens id, x.token = some token ∧ tokens.Has token ∧ user.sub = ObjectId.toString id ∧
      Auth.Traced bcrypt jwt Auth.storedRole s.history tokens id := by
  obtain ⟨token, payload, htoken, hvalid, rfl⟩ := Auth.bearerUser_eq_some hjwt.decodes huser
  obtain ⟨c, hc, tokens, hissued, hthis⟩ :=
    h.refines.issued hunforged (.token htoken) hvalid
  have hhas : tokens.Has token := by
    rcases hthis with ⟨heq, -⟩ | ⟨heq, -⟩
    · exact .inl (Value.str.inj heq)
    · exact .inr (Value.str.inj heq)
  obtain ⟨id, htraced⟩ := h.sound.traced c hc tokens hissued
  exact ⟨token, tokens, id, htoken, hhas, congrArg Auth.claimText (htraced.sub_eq hhas), htraced⟩

theorem Explains.next {s : Session} {w : Log} (h : Explains M bcrypt jwt config s w)
    (hjwt : jwt.Faithful) (hunforged : Unforged jwt config w x) :
    ∃ s', Explains M bcrypt jwt config s' (x.next M bcrypt jwt config w) := by
  obtain ⟨request, hseen⟩ := @exists_seen M bcrypt jwt config x w.platform
  have hsession : Auth.Unforged jwt config s request := fun v key payload hpresented =>
    h.refines.issued hunforged (hseen.presented v key hpresented)
  refine ⟨request.next M bcrypt jwt config s, ?_, h.refines.next hseen, ?_, ?_⟩
  · obtain ⟨requests, hrun⟩ := h.run
    exact ⟨_, hrun.snoc ⟨rfl, hsession⟩⟩
  · exact h.sound.after hjwt hsession
  · intro earlier e hprefix user endpoint hadmits
    rcases List.prefix_concat_iff.mp hprefix with heq | hold
    · obtain ⟨rfl, hlast⟩ := List.append_inj' heq rfl
      obtain rfl := List.singleton_inj.mp hlast
      obtain ⟨token, tokens, id, hfound⟩ := h.traced hjwt hunforged hadmits.2.2
      exact ⟨s.history, token, tokens, id, List.prefix_append _ _, h.refines.length, hfound⟩
    · obtain ⟨past, token, tokens, id, hpast, hfound⟩ := h.vouched earlier e hold user endpoint hadmits
      exact ⟨past, token, tokens, id, hpast.trans (List.prefix_append _ _), hfound⟩

theorem explains_empty : Explains M bcrypt jwt config ⟨Platform.empty.auth, []⟩ .empty := by
  constructor
  · exact ⟨[], .nil _⟩
  · constructor
    · rfl
    · rfl
    · intro e he
      cases he
  · constructor
    · intro e he
      cases he
    · intro earlier e hprefix
      simp at hprefix
  · intro earlier e hprefix
    simp [Log.empty] at hprefix

/-- In every run from nothing in which no token is forged, the gateway admits a request in the name
of an account only after a registration of this account or a login with its password. -/
theorem run_vouched (hjwt : jwt.Faithful) {w : Log} {exchanges : List Exchange}
    (h : Run (Meeting (LogStep M bcrypt jwt config) (Unforged jwt config)) .empty exchanges w) :
    ∃ s, Explains M bcrypt jwt config s w := by
  have hstep : ∀ w x w', (∃ s, Explains M bcrypt jwt config s w) →
      Meeting (LogStep M bcrypt jwt config) (Unforged jwt config) w x w' →
      ∃ s, Explains M bcrypt jwt config s w' := by
    rintro w x _ ⟨s, hs⟩ ⟨rfl, hunforged⟩
    exact hs.next hjwt hunforged
  exact h.invariant hstep ⟨_, explains_empty⟩

/-- Finn's todo is his after his registration. -/
theorem run_vouched_finn : ∃ s, Explains .plain .plain (.single finnPayload) Auth.accessOnly s
    (finnNext finnCreates (finnNext finnRegisters .empty)) := by
  have hjwt : (Auth.Jwt.single finnPayload).Faithful :=
    ⟨Auth.Jwt.single_carries _ _, Auth.Jwt.single_carries _ _, Auth.Jwt.single_carries _ _,
      Auth.Jwt.single_decodes _⟩
  have hregister : Unforged (.single finnPayload) Auth.accessOnly .empty finnRegisters := by
    intro v key now payload hpresents
    cases hpresents with
    | token htoken => cases htoken
    | refreshToken hopens => cases hopens.1
  have hcreate : Unforged (.single finnPayload) Auth.accessOnly (finnNext finnRegisters .empty)
      finnCreates := by
    intro v key now payload hpresents _
    cases hpresents with
    | token htoken =>
      have htext : finnCreates.token = some "access" := by decide
      obtain rfl := Option.some.inj (htext.symm.trans htoken)
      exact ⟨_, List.mem_singleton_self _, _, rfl, .inl ⟨rfl, ⟨_, rfl, rfl⟩, 201, _, rfl, rfl⟩⟩
    | refreshToken hopens => cases hopens.1
  exact run_vouched hjwt (.snoc (.snoc (.nil _) ⟨rfl, hregister⟩) ⟨rfl, hcreate⟩)

end Gateway
