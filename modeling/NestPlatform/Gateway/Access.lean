-- SUMMARY: What a run of HTTP requests can change without a token, and who is responsible for the rest.
import NestPlatform.Auth.Roles
import NestPlatform.Gateway.Http

/-!
# Access

Every step of the platform is one of five. Only registrations and logins happen without a user,
and what they change is little; all else is the work of a request that the guards have admitted.
-/
namespace Gateway

open Js Mongo Nest Common Database Effect Transition

variable {M : Mongoose} {bcrypt : Auth.Bcrypt} {jwt : Auth.Jwt} {config : Auth.AuthConfig}

/-! ## One request -/

/-- An update or a deletion by the user service is refused or writes to one stored record. -/
theorem exec_findOneAndUpdate_put {S : Schema} (env : Env) (filterQuery : Filter) (u : Update)
    (c : Collection) :
    ((AbstractRepository.findOneAndUpdate M S env filterQuery u).exec c).2 = c ∨
      ∃ d fields, c.get d.id = some d ∧
        ((AbstractRepository.findOneAndUpdate M S env filterQuery u).exec c).2 =
          c.put (touch env d.id fields) := by
  rcases AbstractRepository.state_findOneAndUpdate (M := M) (S := S) filterQuery u c with
    hkeep | ⟨p, f, d, fields, -, -, hd, -, hput⟩
  · exact .inl hkeep
  · exact .inr ⟨d, fields, Collection.get_of_mem (find?_scan_eq_some hd).1, hput⟩

theorem role_of_canActivate {roles : List String} {user : JwtPayload} (hne : roles ≠ [])
    (h : RolesGuard.canActivate roles (some user) = .ok ()) : user.role ∈ roles := by
  unfold RolesGuard.canActivate at h
  rw [if_neg hne] at h
  dsimp only at h
  split at h
  · assumption
  · cases h

/-- A `/users` request writes to one stored record at most, and then its route names the role. -/
theorem UsersCall.exec_run (call : UsersCall) (c : Collection) :
    ((call.run M).exec c).2 = c ∨
      ∃ d fields, c.get d.id = some d ∧ call.user.role ∈ UsersController.roles call.request ∧
        ((call.run M).exec c).2 = c.put (touch call.env d.id fields) := by
  obtain ⟨user, env, network, request⟩ := call
  unfold run
  dsimp only
  cases hguard : RolesGuard.canActivate (UsersController.roles request) (some user) with
  | error e => exact .inl rfl
  | ok =>
    dsimp only
    rcases (UsersController.rpc user request).exec_call (Users.UsersController.handle M env)
      network c with hkeep | ⟨x, hx, hstate⟩
    · exact .inl hkeep
    rw [hstate]
    cases request with
    | findAll | getMe | findById =>
      left
      apply handle_keeps hx
      first | exact isRead_list | exact isRead_findById
    | update id dto =>
      have hrole := role_of_canActivate (List.cons_ne_nil _ _) hguard
      obtain rfl := Option.some.inj hx
      rw [exec_map]
      unfold Users.UsersService.update
      rw [exec_map]
      rcases exec_findOneAndUpdate_put (M := M) (S := UserSchema) env _ _ c with
        hkeep | ⟨d, fields, hd, hput⟩
      · exact .inl hkeep
      · exact .inr ⟨d, fields, hd, hrole, hput⟩
    | delete id =>
      have hrole := role_of_canActivate (List.cons_ne_nil _ _) hguard
      obtain rfl := Option.some.inj hx
      rw [exec_map]
      unfold Users.UsersService.delete AbstractRepository.softDelete
      rw [exec_map]
      rcases exec_findOneAndUpdate_put (M := M) (S := UserSchema) env _ _ c with
        hkeep | ⟨d, fields, hd, hput⟩
      · exact .inl hkeep
      · exact .inr ⟨d, fields, hd, hrole, hput⟩

/-- What a request can do to the platform. -/
inductive Change (M : Mongoose) (jwt : Auth.Jwt) (config : Auth.AuthConfig) (x : Exchange)
    (b : Platform) : Platform → Prop where
  | kept : Change M jwt config x b b
  | registered {dto : Value} {user : Doc} {hashedPassword : String} {events : List Entries}
      (hnew : b.auth.users.get user.id = none) : x.Opens (.register dto) →
      construct M UserSchema x.env.env (Auth.newUser (encode dto.entries) hashedPassword) = some user →
      Change M jwt config x b { b with auth := ⟨b.auth.users.insert user hnew, events⟩ }
  | loggedIn {dto : Value} {d : Doc} : x.Opens (.login dto) → b.auth.users.get d.id = some d →
      Change M jwt config x b (b.setUsers (b.auth.users.put (Auth.stamped x.env.env d)))
  | userWritten {user : JwtPayload} {request : UsersRequest} {d : Doc} {fields : Fields} :
      x.Admits jwt config user (.users request) → user.role ∈ UsersController.roles request →
      b.auth.users.get d.id = some d →
      Change M jwt config x b (b.setUsers (b.auth.users.put (touch x.env.env d.id fields)))
  | itemsWritten {user : JwtPayload} {kind : ItemKind} {request : ItemRequest} :
      x.Admits jwt config user (.items kind request) →
      Change M jwt config x b
        (b.setItems kind (((x.itemCall user kind request).run M).exec (b.items kind)).2)

variable {x : Exchange} {b : Platform}

/-- The auth service leaves its state alone, or does what its handler does. -/
theorem exec_callAuth_cases (rpc : Rpc) :
    ((x.callAuth M bcrypt jwt config rpc).exec b).2 = b ∨
      ∃ s', Auth.AuthChange M x.env rpc.pattern (encode rpc.payload.entries) b.auth s' ∧
        ((x.callAuth M bcrypt jwt config rpc).exec b).2 = { b with auth := s' } := by
  unfold Exchange.callAuth onAuth
  rw [exec_zoom]
  rcases rpc.exec_call (Auth.AuthController.handle M bcrypt jwt config x.env) x.network b.auth with
    hkeep | ⟨y, hy, hstate⟩
  · left
    dsimp only
    rw [hkeep]
  · exact .inr ⟨_, Auth.AuthController.change hy, by rw [hstate]⟩

/-- A call that neither registers nor logs in leaves the platform alone. -/
theorem exec_callAuth_keeps {rpc : Rpc} {p : String} (hrpc : rpc.pattern = p)
    (hother : p ∉ [AUTH_PATTERNS.REGISTER, AUTH_PATTERNS.LOGIN]) :
    ((x.callAuth M bcrypt jwt config rpc).exec b).2 = b := by
  rcases @exec_callAuth_cases M bcrypt jwt config x b rpc with hkeep | ⟨s', hchange, hstate⟩
  · exact hkeep
  · rw [hstate]
    cases hchange with
    | kept => rfl
    | registered _ hpattern _ => simp [← hrpc, hpattern] at hother
    | loggedIn hpattern _ => simp [← hrpc, hpattern] at hother

theorem REGISTER_ne_LOGIN : AUTH_PATTERNS.REGISTER ≠ AUTH_PATTERNS.LOGIN := by decide

theorem change_handlePublic {e : PublicEndpoint} (h : x.Opens e) :
    Change M jwt config x b ((x.handlePublic M bcrypt jwt config e).exec b).2 := by
  cases e with
  | health => exact .kept
  | register dto =>
    unfold Exchange.handlePublic
    rcases @exec_callAuth_cases M bcrypt jwt config x b (AuthService.register dto) with
      hkeep | ⟨s', hchange, hstate⟩
    · rw [hkeep]
      exact .kept
    · rw [hstate]
      cases hchange with
      | kept => exact .kept
      | registered hnew _ hconstruct => exact .registered hnew h hconstruct
      | loggedIn hpattern _ => exact absurd hpattern REGISTER_ne_LOGIN
  | login dto =>
    unfold Exchange.handlePublic
    rcases @exec_callAuth_cases M bcrypt jwt config x b (AuthService.login dto) with
      hkeep | ⟨s', hchange, hstate⟩
    · rw [hkeep]
      exact .kept
    · rw [hstate]
      cases hchange with
      | kept => exact .kept
      | registered _ hpattern _ => exact absurd hpattern.symm REGISTER_ne_LOGIN
      | loggedIn _ hd => exact .loggedIn h hd
  | refresh dto =>
    unfold Exchange.handlePublic
    rw [exec_callAuth_keeps (p := AUTH_PATTERNS.REFRESH_TOKEN) rfl (by decide)]
    exact .kept

theorem change_handleUser {user : JwtPayload} {e : UserEndpoint}
    (h : x.Admits jwt config user e) :
    Change M jwt config x b ((x.handleUser M bcrypt jwt config user e).exec b).2 := by
  cases e with
  | logout =>
    unfold Exchange.handleUser
    rw [exec_callAuth_keeps (p := AUTH_PATTERNS.LOGOUT) rfl (by decide)]
    exact .kept
  | users request =>
    unfold Exchange.handleUser onUsers
    rw [exec_zoom]
    rcases (x.usersCall user request).exec_run (M := M) b.auth.users with
      hkeep | ⟨d, fields, hd, hrole, hput⟩
    · dsimp only
      rw [hkeep]
      exact .kept
    · dsimp only
      rw [hput]
      exact .userWritten h hrole hd
  | items kind request => exact .itemsWritten h

/-- Every request does one of these. -/
theorem Exchange.change_after (x : Exchange) (b : Platform) :
    Change M jwt config x b (x.after M bcrypt jwt config b) := by
  unfold after
  rcases @Exchange.exec_handle_cases M bcrypt jwt config x b with
    ⟨e, he⟩ | ⟨user, e, he⟩ | ⟨e, -, hrefused⟩
  · rw [Exchange.exec_handle_opens he]
    exact change_handlePublic he
  · rw [Exchange.exec_handle_admits he]
    exact change_handleUser he
  · rw [hrefused]
    exact .kept

/-! ## Runs -/

/-- The requests that can change the items. -/
def ItemRequest.Writes : ItemRequest → Prop
  | .create _ | .update _ _ | .delete _ => True
  | _ => False

/-- The fields of an account that a login writes. -/
def loginFields : List String := ["lastLoginAt", "updatedAt"]

section Property

variable (jwt : Auth.Jwt) (config : Auth.AuthConfig) (exchanges : List Exchange)

/-- A request with a verified token is admitted to write items of the kind. -/
def ItemsWriter (kind : ItemKind) : Prop :=
  ∃ x ∈ exchanges, ∃ user request, x.Admits jwt config user (.items kind request) ∧ request.Writes

/-- A request with a verified token has a role that its `/users` route names. -/
def UsersWriter : Prop :=
  ∃ x ∈ exchanges, ∃ user request, x.Admits jwt config user (.users request) ∧
    user.role ∈ UsersController.roles request

/-- Items change by requests with a verified token, and so does an account, but for the record
of a login. A new account comes from a registration and is a user's. -/
structure Responsible (b b' : Platform) : Prop where
  items : ∀ kind id, (b'.items kind).get id ≠ (b.items kind).get id →
    ItemsWriter jwt config exchanges kind
  accounts : ∀ id d, b.auth.users.get id = some d → ∃ d', b'.auth.users.get id = some d' ∧
    ∀ k ∉ loginFields, d'.fields k ≠ d.fields k → UsersWriter jwt config exchanges
  registered : ∀ id d', b.auth.users.get id = none → b'.auth.users.get id = some d' →
    (∃ x ∈ exchanges, ∃ dto, x.Opens (.register dto)) ∧
      (d'.fields "roles" ≠ .arr [.str UserRole.USER] → UsersWriter jwt config exchanges)

end Property

theorem ItemsWriter.mono {exchanges all : List Exchange} {kind : ItemKind}
    (h : ItemsWriter jwt config exchanges kind) (hsub : exchanges ⊆ all) :
    ItemsWriter jwt config all kind := by
  obtain ⟨x, hx, hwriter⟩ := h
  exact ⟨x, hsub hx, hwriter⟩

theorem UsersWriter.mono {exchanges all : List Exchange} (h : UsersWriter jwt config exchanges)
    (hsub : exchanges ⊆ all) : UsersWriter jwt config all := by
  obtain ⟨x, hx, hwriter⟩ := h
  exact ⟨x, hsub hx, hwriter⟩

/-- An items request that is no write leaves the items alone. -/
theorem ItemCall.writes_of_ne (call : ItemCall) {c : Collection}
    (h : ((call.run M).exec c).2 ≠ c) : call.request.Writes := by
  rcases call.exec_cases (M := M) c with
    hkeep | ⟨dto, d, hnew, hreq, -⟩ | ⟨u, p, f, d, fields, hu, -⟩
  · exact absurd hkeep h
  · rw [hreq]
    trivial
  · unfold ItemCall.write at hu
    cases hreq : call.request with
    | update | delete => trivial
    | create | list | findById => simp [hreq] at hu

/-- A registration makes an account with the role `user` and no other. -/
theorem roles_newUser {env : Env} {dto : Entries} {hashedPassword : String} {user : Doc}
    (h : construct M UserSchema env (Auth.newUser dto hashedPassword) = some user) :
    user.fields "roles" = .arr [.str UserRole.USER] := by
  have hset : Auth.rolesPath.set M (.arr [.str UserRole.USER]) = some (.arr [.str UserRole.USER]) := by
    simp [SchemaPath.set, Value.nullish, Auth.rolesPath,
      M.cast_accepts (t := .stringArray) (v := .arr [.str UserRole.USER]) rfl, SchemaPath.setters]
  have hkeys : Entries.keys (Auth.newUser dto hashedPassword) =
      ["email", "password", "name", "roles"] := rfl
  have hdotted : "roles" ∉ dottedRoots (Auth.newUser dto hashedPassword) := by
    unfold dottedRoots
    rw [hkeys]
    decide
  refine construct_plain h ?_ (k := "roles") ?_ (by decide) rfl hdotted hset (by simp) (by decide)
  · rw [hkeys]
    decide
  · simp [Auth.newUser]

/-- Recording a login writes two fields. -/
theorem fields_stamped {env : Env} {d : Doc} {k : String} (hk : k ∉ loginFields) :
    (Auth.stamped env d).fields k = d.fields k := by
  have hneither : k ≠ "lastLoginAt" ∧ k ≠ "updatedAt" := by
    simpa [loginFields] using hk
  unfold Auth.stamped
  rw [touch_of_ne hneither.2]
  exact Fields.assign_of_notMem (by simpa [Entries.keys] using hneither.1)

section

variable {exchanges : List Exchange}

theorem Responsible.refl (b : Platform) : Responsible jwt config exchanges b b where
  items _ _ h := absurd rfl h
  accounts _ d hd := ⟨d, hd, fun _ _ h => absurd rfl h⟩
  registered _ _ hnone hsome := by
    rw [hnone] at hsome
    cases hsome

/-- One run after the other. -/
theorem Responsible.trans {later : List Exchange} {b b' b'' : Platform}
    (h : Responsible jwt config exchanges b b') (h' : Responsible jwt config later b' b'') :
    Responsible jwt config (exchanges ++ later) b b'' := by
  constructor
  · intro kind id hne
    by_cases hsame : (b'.items kind).get id = (b.items kind).get id
    · rw [← hsame] at hne
      exact (h'.items kind id hne).mono (List.subset_append_right _ _)
    · exact (h.items kind id hsame).mono (List.subset_append_left _ _)
  · intro id d hd
    obtain ⟨d', hd', hfields⟩ := h.accounts id d hd
    obtain ⟨d'', hd'', hfields'⟩ := h'.accounts id d' hd'
    refine ⟨d'', hd'', ?_⟩
    intro k hk hne
    by_cases hsame : d'.fields k = d.fields k
    · rw [← hsame] at hne
      exact (hfields' k hk hne).mono (List.subset_append_right _ _)
    · exact (hfields k hk hsame).mono (List.subset_append_left _ _)
  · intro id d'' hnone hd''
    cases hd' : b'.auth.users.get id with
    | none =>
      obtain ⟨⟨x, hx, hregister⟩, hroles⟩ := h'.registered id d'' hd' hd''
      exact ⟨⟨x, List.mem_append_right _ hx, hregister⟩, fun hne => (hroles hne).mono (List.subset_append_right _ _)⟩
    | some d' =>
      obtain ⟨⟨x, hx, hregister⟩, hroles⟩ := h.registered id d' hnone hd'
      refine ⟨⟨x, List.mem_append_left _ hx, hregister⟩, fun hne => ?_⟩
      by_cases huser : d'.fields "roles" = .arr [.str UserRole.USER]
      · obtain ⟨e, he, hfields⟩ := h'.accounts id d' hd'
        obtain rfl := Option.some.inj (hd''.symm.trans he)
        rw [← huser] at hne
        exact (hfields "roles" (by decide) hne).mono (List.subset_append_right _ _)
      · exact (hroles huser).mono (List.subset_append_left _ _)

/-- A write to one account. -/
theorem Responsible.put {b : Platform} {d : Doc} (d' : Doc) (hd : b.auth.users.get d'.id = some d)
    (hfields : ∀ k ∉ loginFields, d'.fields k ≠ d.fields k → UsersWriter jwt config exchanges) :
    Responsible jwt config exchanges b (b.setUsers (b.auth.users.put d')) := by
  have hother : ∀ id ≠ d'.id, (b.setUsers (b.auth.users.put d')).auth.users.get id =
      b.auth.users.get id := fun id hid => Collection.get_put_ne hid
  have hself : (b.setUsers (b.auth.users.put d')).auth.users.get d'.id = some d' :=
    Collection.get_put_self hd
  constructor
  · intro kind id hne
    exact absurd rfl hne
  · intro id e he
    by_cases hid : id = d'.id
    · subst hid
      obtain rfl := Option.some.inj (hd.symm.trans he)
      exact ⟨d', hself, hfields⟩
    · exact ⟨e, (hother id hid).trans he, fun _ _ hne => absurd rfl hne⟩
  · intro id e hnone he
    by_cases hid : id = d'.id
    · subst hid
      rw [hd] at hnone
      cases hnone
    · rw [hother id hid, hnone] at he
      cases he

end

theorem Change.responsible {b' : Platform} (h : Change M jwt config x b b') :
    Responsible jwt config [x] b b' := by
  cases h with
  | kept => exact .refl b
  | @registered dto user _ events hnew hopens hconstruct =>
    have hother : ∀ id ≠ user.id, (b.auth.users.insert user hnew).get id = b.auth.users.get id :=
      fun id hid => Collection.get_insert_ne hid
    constructor
    · intro kind id hne
      exact absurd rfl hne
    · intro id d hd
      have hid : id ≠ user.id := by
        rintro rfl
        rw [hnew] at hd
        cases hd
      exact ⟨d, (hother id hid).trans hd, fun _ _ hne => absurd rfl hne⟩
    · intro id d hnone hd
      refine ⟨⟨x, List.mem_singleton_self x, dto, hopens⟩, fun hne => ?_⟩
      -- of the accounts only the new one was not there, and it has the default roles
      by_cases hid : id = user.id
      · subst hid
        obtain rfl := Option.some.inj ((Collection.get_insert_self hnew).symm.trans hd)
        exact absurd (roles_newUser hconstruct) hne
      · have hold := (hother id hid).symm.trans hd
        rw [hnone] at hold
        cases hold
  | @loggedIn _ d _ hd =>
    refine Responsible.put (Auth.stamped x.env.env d) hd ?_
    intro k hk hne
    exact absurd (fields_stamped hk) hne
  | @userWritten user request d fields hadmits hrole hd =>
    refine Responsible.put (touch x.env.env d.id fields) hd ?_
    intro _ _ _
    exact ⟨x, List.mem_singleton_self x, user, request, hadmits, hrole⟩
  | @itemsWritten user kind request hadmits =>
    constructor
    · intro kind' id hne
      by_cases hkind : kind' = kind
      · subst hkind
        rw [Platform.items_setItems_self] at hne
        refine ⟨x, List.mem_singleton_self x, user, request, hadmits, ?_⟩
        apply (x.itemCall user kind' request).writes_of_ne (M := M)
        intro hsame
        exact hne (congrArg (·.get id) hsame)
      · rw [Platform.items_setItems_ne hkind] at hne
        exact absurd rfl hne
    · exact (Responsible.refl b).accounts
    · exact (Responsible.refl b).registered

/-- In every run of requests, whatever else is changed is changed by a request with a verified
token. -/
theorem run_responsible {b b' : Platform} {exchanges : List Exchange}
    (h : Run (HttpStep M bcrypt jwt config) b exchanges b') :
    Responsible jwt config exchanges b b' := by
  induction h with
  | nil => exact .refl _
  | @snoc b' _ _ x _ hlast ih =>
    obtain rfl := hlast
    exact ih.trans (x.change_after b').responsible

/-! ### One account -/

def finnId : ObjectId := ⟨"0000000000000000000000f4", by decide⟩

def finnPayload : Entries :=
  [("sub", .str finnId.toString), ("email", .str "finn@example.com"), ("role", .str "user")]

/-- A request that arrives, at time 0. -/
def arriving (method : Method) (path : List String) (authorization : Option String)
    (body : Entries) : Exchange where
  request := ⟨method, path, .absent, .absent, authorization, .obj body, "/"⟩
  throttled := false
  clock := 0
  timestamp := "1970-01-01T00:00:00.000Z"
  env := ⟨⟨0, finnId, 0⟩, "salt", true⟩
  network := .up

def finnRegisters : Exchange :=
  arriving .POST ["auth", "register"] none
    [("email", .str "finn@example.com"), ("password", .str "secret"), ("name", .str "Finn")]

/-- The platform after an exchange, with one key and one payload. -/
def finnAfter (x : Exchange) (b : Platform) : Platform :=
  x.after .plain .plain (.single finnPayload) Auth.accessOnly b

/-- Finn registers, and a stranger asks for the deletion of his account. -/
theorem run_responsible_finn :
    let stranger := arriving .DELETE ["users", finnId.toString] none []
    (finnAfter finnRegisters .empty).auth.users.get finnId ≠ none ∧
      Responsible (.single finnPayload) Auth.accessOnly [finnRegisters, stranger] .empty
        (finnAfter stranger (finnAfter finnRegisters .empty)) := by
  intro stranger
  have hstored : ((finnAfter finnRegisters .empty).auth.users.get finnId).isSome = true := by
    decide +kernel
  refine ⟨Option.isSome_iff_ne_none.mp hstored, ?_⟩
  exact run_responsible (M := .plain) (.snoc (.snoc (.nil _) rfl) rfl)

end Gateway
