-- SUMMARY: Where privileges come from in whole runs of the platform.
import NestPlatform.Gateway.Attribution

/-!
# Privileges

Registrations make users, and the tokens of an account repeat its roles. So until somebody has
been admitted to update an account nobody is more than a user, and every account is as it was
registered, but for its logins.
-/
namespace Gateway

open Js Mongo Nest Common Database Effect Transition

/-! ## The property -/

section

variable (jwt : Auth.Jwt) (config : Auth.AuthConfig)

/-- The request is admitted to update an account. -/
def Served.Updates (e : Served) : Prop :=
  ∃ user id dto, e.exchange.Admits jwt config user (.users (.update id dto)) ∧
    user.role ∈ [UserRole.ADMIN, UserRole.USER]

def Updated (history : List Served) : Prop := ∃ e ∈ history, e.Updates jwt config

/-- The account is what its registration has made of it, but for its logins. -/
def AsRegistered (history : List Served) (d : Doc) : Prop :=
  ∃ r ∈ history, r.Registers d.id ∧ ∃ first, r.after.auth.users.get d.id = some first ∧
    first.fields "roles" = .arr [.str UserRole.USER] ∧
    ∀ k ∉ loginFields, d.fields k = first.fields k

structure Unprivileged (w : Log) : Prop where
  admitted : ∀ earlier e, earlier ++ [e] <+: w.history → ∀ user endpoint,
    e.exchange.Admits jwt config user endpoint →
    user.role = UserRole.USER ∨ Updated jwt config earlier
  accounts : ∀ id d, w.platform.auth.users.get id = some d →
    AsRegistered w.history d ∨ Updated jwt config w.history

end

variable {M : Mongoose} {bcrypt : Auth.Bcrypt} {jwt : Auth.Jwt} {config : Auth.AuthConfig}
variable {x : Exchange} {history all : List Served}

/-! ## One request -/

theorem Updated.mono (h : Updated jwt config history) (hsub : history ⊆ all) :
    Updated jwt config all := by
  obtain ⟨e, he, hupdates⟩ := h
  exact ⟨e, hsub he, hupdates⟩

/-- The first role of an account that is as it was registered. -/
theorem AsRegistered.storedRole {d : Doc} (h : AsRegistered history d) :
    Auth.storedRole d = .str UserRole.USER := by
  obtain ⟨r, -, -, first, -, hroles, hsame⟩ := h
  have hkeep : "roles" ∉ loginFields := by decide
  unfold Auth.storedRole
  rw [hsame "roles" hkeep, hroles]
  rfl

/-- Who writes to an account as a user does so by an update. -/
theorem UsersWriter.updated {b : Platform} (h : UsersWriter jwt config [x])
    (hrole : ∀ user endpoint, x.Admits jwt config user endpoint →
      user.role = UserRole.USER ∨ Updated jwt config history) :
    Updated jwt config (history ++ [x.served M bcrypt jwt config b]) := by
  obtain ⟨y, hy, user, request, hadmits, hnamed⟩ := h
  obtain rfl := List.mem_singleton.mp hy
  rcases hrole user _ hadmits with huser | hupdated
  · cases request with
    | update id dto =>
      exact ⟨_, List.mem_append_right _ (List.mem_singleton_self _), user, id, dto, hadmits, hnamed⟩
    | delete id =>
      have honly : UserRole.USER ∉ [UserRole.ADMIN] := by decide
      rw [huser] at hnamed
      exact absurd hnamed honly
    | findAll | getMe | findById => cases hnamed
  · exact hupdated.mono (List.subset_append_left _ _)

/-! ## Runs -/

/-- What every step keeps: the property, and that the tokens that have been handed out are those
of users. -/
structure PrivilegesSound (jwt : Auth.Jwt) (config : Auth.AuthConfig) (w : Log) : Prop where
  unprivileged : Unprivileged jwt config w
  handed : ∀ e ∈ w.history, ∀ token, e.HandsOut token →
    jwt.claim token "role" = .str UserRole.USER ∨ Updated jwt config w.history

theorem PrivilegesSound.empty : PrivilegesSound jwt config .empty := by
  constructor
  · constructor
    · intro earlier e hprefix
      simp [Log.empty] at hprefix
    · intro id d hd
      cases hd
  · intro e he
    cases he

/-- The user of a token that has been handed out is a user. -/
theorem PrivilegesSound.role {w : Log} (h : PrivilegesSound jwt config w) (hdecodes : jwt.Decodes)
    {authorization : Option String} {clock : ℤ}
    (hgenuine : HandedOut jwt config w.history authorization clock) {user : JwtPayload}
    (huser : Auth.bearerUser jwt config authorization clock = some user) :
    user.role = UserRole.USER ∨ Updated jwt config w.history := by
  obtain ⟨token, payload, htoken, hvalid, rfl⟩ := Auth.bearerUser_eq_some hdecodes huser
  obtain ⟨e, he, hands⟩ := hgenuine token payload htoken hvalid
  rcases h.handed e he token hands with hclaim | hupdated
  · exact .inl (congrArg Auth.claimText hclaim)
  · exact .inr hupdated

/-- After a request, every account is as it was registered unless there has been an update. -/
theorem PrivilegesSound.accounts_next {w : Log} (h : PrivilegesSound jwt config w)
    (hdecodes : jwt.Decodes) (hgenuine : Genuine jwt config w x) {id : ObjectId} {d : Doc}
    (hd : (x.after M bcrypt jwt config w.platform).auth.users.get id = some d) :
    AsRegistered (x.next M bcrypt jwt config w).history d ∨
      Updated jwt config (x.next M bcrypt jwt config w).history := by
  have hresponsible : Responsible jwt config [x] w.platform
      (x.after M bcrypt jwt config w.platform) := (x.change_after w.platform).responsible
  have hwriter : UsersWriter jwt config [x] →
      Updated jwt config (x.next M bcrypt jwt config w).history :=
    fun hwrites => hwrites.updated fun _ _ hadmits => h.role hdecodes hgenuine hadmits.2.2
  by_cases hupdated : Updated jwt config (x.next M bcrypt jwt config w).history
  · exact .inr hupdated
  left
  obtain rfl : d.id = id := Collection.id_of_get hd
  cases hbefore : w.platform.auth.users.get d.id with
  | some earlier =>
    obtain ⟨d', hd', hfields⟩ := hresponsible.accounts d.id earlier hbefore
    obtain rfl := Option.some.inj (hd.symm.trans hd')
    rcases h.unprivileged.accounts d.id earlier hbefore with hregistered | hbefore'
    · obtain ⟨r, hr, hregisters, first, hfirst, hroles, hsame⟩ := hregistered
      have hid : earlier.id = d.id := Collection.id_of_get hbefore
      rw [hid] at hregisters hfirst
      refine ⟨r, List.mem_append_left _ hr, hregisters, first, hfirst, hroles, ?_⟩
      intro k hk
      by_contra hne
      rw [← hsame k hk] at hne
      exact hupdated (hwriter (hfields k hk hne))
    · exact absurd (hbefore'.mono (List.subset_append_left _ _)) hupdated
  | none =>
    obtain ⟨⟨y, hy, hopens⟩, hroles⟩ := hresponsible.registered d.id d hbefore hd
    obtain rfl := List.mem_singleton.mp hy
    have hstored : (y.after M bcrypt jwt config w.platform).auth.users.get d.id ≠ none := by
      simp [hd]
    refine ⟨_, List.mem_append_right _ (List.mem_singleton_self _), ⟨hopens, hbefore, hstored⟩,
      d, hd, ?_, fun _ _ => rfl⟩
    by_contra hother
    exact hupdated (hwriter (hroles hother))

theorem PrivilegesSound.next {w : Log} (h : PrivilegesSound jwt config w)
    (hrole : jwt.Carries "role") (hdecodes : jwt.Decodes) (hgenuine : Genuine jwt config w x) :
    PrivilegesSound jwt config (x.next M bcrypt jwt config w) := by
  constructor
  · constructor
    · intro earlier e hprefix user endpoint hadmits
      rcases List.prefix_concat_iff.mp hprefix with heq | hold
      · obtain ⟨rfl, hlast⟩ := List.append_inj' heq rfl
        obtain rfl := List.singleton_inj.mp hlast
        exact h.role hdecodes hgenuine hadmits.2.2
      · exact h.unprivileged.admitted earlier e hold user endpoint hadmits
    · intro id d hd
      exact h.accounts_next hdecodes hgenuine hd
  · intro e he token hands
    rcases List.mem_append.mp he with hold | hnew
    · rcases h.handed e hold token hands with hclaim | hupdated
      · exact .inl hclaim
      · exact .inr (hupdated.mono (List.subset_append_left _ _))
    · obtain rfl := List.mem_singleton.mp hnew
      obtain ⟨d, hd, hsigned⟩ := served_signedFor hands
      rcases h.accounts_next hdecodes hgenuine hd with hregistered | hupdated
      · exact .inl ((hsigned.role hrole).trans hregistered.storedRole)
      · exact .inr hupdated

/-- In every run from nothing with genuine tokens, nobody is admitted as more than a user, and no
account is other than it was registered, before an update of an account has been admitted. -/
theorem run_unprivileged (hrole : jwt.Carries "role") (hdecodes : jwt.Decodes) {w : Log}
    {exchanges : List Exchange}
    (h : Run (Meeting (LogStep M bcrypt jwt config) (Genuine jwt config)) .empty exchanges w) :
    Unprivileged jwt config w := by
  have hstep : ∀ w x w', PrivilegesSound jwt config w →
      Meeting (LogStep M bcrypt jwt config) (Genuine jwt config) w x w' →
      PrivilegesSound jwt config w' := by
    rintro w x _ hw ⟨rfl, hgenuine⟩
    exact hw.next hrole hdecodes hgenuine
  exact (h.invariant hstep .empty).unprivileged

/-- Finn is a user. -/
theorem run_unprivileged_finn :
    (finnNext finnCreates (finnNext finnRegisters .empty)).platform.auth.users.get finnId ≠ none ∧
      Unprivileged (.single finnPayload) Auth.accessOnly
        (finnNext finnCreates (finnNext finnRegisters .empty)) := by
  have hstored : ((finnNext finnCreates (finnNext finnRegisters .empty)).platform.auth.users.get
      finnId).isSome = true := by
    decide +kernel
  refine ⟨Option.isSome_iff_ne_none.mp hstored, ?_⟩
  exact run_unprivileged (Auth.Jwt.single_carries finnPayload "role")
    (Auth.Jwt.single_decodes finnPayload)
    (.snoc (.snoc (.nil _) ⟨rfl, genuine_finnRegisters _⟩) ⟨rfl, genuine_finnCreates⟩)

end Gateway
