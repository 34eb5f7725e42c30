-- SUMMARY: Todos and books refer to accounts that exist, over whole runs of the platform.
import NestPlatform.Gateway.Attribution

/-!
# References

The items and the accounts are in collections of different services, and no database checks what
`userId` refers to. What it refers to is an account all the same, if the tokens are genuine and the
bodies leave the owner alone.
-/
namespace Gateway

open Js Mongo Nest Common Database Effect Transition

/-! ## The property and the condition -/

/-- Every item has the id of a stored account as its `userId`. -/
def Platform.Refers (b : Platform) : Prop :=
  ∀ kind id d, (b.items kind).get id = some d →
    ∃ owner : ObjectId, d.fields "userId" = .str owner.toString ∧ b.auth.users.get owner ≠ none

section

variable (jwt : Auth.Jwt) (config : Auth.AuthConfig)

/-- The body of an admitted create or update names no owner. -/
def Exchange.LeavesOwner (x : Exchange) : Prop :=
  ∀ user kind request, x.Admits jwt config user (.items kind request) →
    match request with
    | .create _ | .update _ _ => (x.itemCall user kind request).KeepsOwner
    | _ => True

/-- The tokens are genuine and the body names no owner. -/
def GenuineAndOwn (w : Log) (x : Exchange) : Prop :=
  Genuine jwt config w x ∧ x.LeavesOwner jwt config

end

/-! ## One request -/

variable {M : Mongoose} {bcrypt : Auth.Bcrypt} {jwt : Auth.Jwt} {config : Auth.AuthConfig}
variable {x : Exchange} {b : Platform}

/-- An item that a request leaves behind is an old one, or belongs to the user of the token. -/
theorem ItemCall.owner_of_get {call : ItemCall} {c : Collection} {id : ObjectId} {d' : Doc}
    (howner : match call.request with
      | .create _ | .update _ _ => call.KeepsOwner
      | _ => True)
    (h : ((call.run M).exec c).2.get id = some d') :
    (∃ d, c.get id = some d ∧ d'.fields "userId" = d.fields "userId") ∨
      d'.fields "userId" = .str call.user.sub := by
  rcases call.exec_cases (M := M) c with
    hkeep | ⟨dto, d, hnew, hreq, hd, hinsert⟩ | ⟨u, p, f, d, fields, hu, -, hf, hd, hfields, hput⟩
  · rw [hkeep] at h
    exact .inl ⟨d', h, rfl⟩
  · rw [hinsert] at h
    by_cases hid : id = d.id
    · subst hid
      obtain rfl := Option.some.inj ((Collection.get_insert_self hnew).symm.trans h)
      rw [hreq] at howner
      exact .inr (KeepsOwner.construct howner hd)
    · rw [Collection.get_insert_ne hid] at h
      exact .inl ⟨d', h, rfl⟩
  · rw [hput] at h
    by_cases hid : id = d.id
    · subst hid
      have hget : c.get d.id = some d := Collection.get_of_mem (find?_scan_eq_some hd).1
      obtain rfl := Option.some.inj ((get_put_touch hget call.env fields).symm.trans h)
      rw [touch_of_ne (by decide)]
      unfold ItemCall.write at hu
      cases hreq : call.request with
      | update id' dto =>
        rw [hreq] at hu howner
        cases hu
        exact .inr (KeepsOwner.write howner hf hfields)
      | delete id' =>
        rw [hreq] at hu
        cases hu
        have hmentions : "userId" ∉ ["deletedAt"] := by decide
        exact .inl ⟨d, hget, Update.compile_frame (by simp) hf hfields hmentions⟩
      | create | list | findById => simp [hreq] at hu
    · rw [Collection.get_put_ne (d := touch call.env d.id fields) hid] at h
      exact .inl ⟨d', h, rfl⟩

/-- No account disappears. -/
theorem Change.keepsAccounts {b' : Platform} (h : Change M jwt config x b b') {id : ObjectId}
    (hid : b.auth.users.get id ≠ none) : b'.auth.users.get id ≠ none := by
  obtain ⟨d, hd⟩ := Option.ne_none_iff_exists'.mp hid
  obtain ⟨d', hd', -⟩ := h.responsible.accounts id d hd
  rw [hd']
  exact Option.some_ne_none d'

theorem Platform.Refers.change (h : b.Refers) {b' : Platform} (hchange : Change M jwt config x b b')
    (howner : x.LeavesOwner jwt config)
    (husers : ∀ user, x.user jwt config = some user →
      ∃ id : ObjectId, user.sub = id.toString ∧ b.auth.users.get id ≠ none) : b'.Refers := by
  have hold : ∀ {v : Value}, (∃ owner : ObjectId, v = .str owner.toString ∧
      b.auth.users.get owner ≠ none) →
      ∃ owner : ObjectId, v = .str owner.toString ∧ b'.auth.users.get owner ≠ none := by
    rintro v ⟨owner, hv, hstored⟩
    exact ⟨owner, hv, hchange.keepsAccounts hstored⟩
  intro kind id d' hd'
  cases hchange with
  | @itemsWritten user kind' request hadmits =>
    by_cases hkind : kind = kind'
    · subst hkind
      rw [Platform.items_setItems_self] at hd'
      apply hold
      rcases ItemCall.owner_of_get (howner user kind request hadmits) hd' with
        ⟨d, hd, hsame⟩ | hsub
      · rw [hsame]
        exact h kind id d hd
      · obtain ⟨owner, howner', hstored⟩ := husers user hadmits.2.2
        exact ⟨owner, hsub.trans (congrArg Value.str howner'), hstored⟩
    · rw [Platform.items_setItems_ne hkind] at hd'
      exact hold (h kind id d' hd')
  | kept => exact h kind id d' hd'
  | registered | loggedIn | userWritten => exact hold (h kind id d' hd')

/-! ## Tokens -/

/-- The tokens that have been handed out name stored accounts. -/
def NamesStored (jwt : Auth.Jwt) (w : Log) : Prop :=
  ∀ e ∈ w.history, ∀ token, e.HandsOut token →
    ∃ id : ObjectId, jwt.claim token "sub" = .str id.toString ∧ w.platform.auth.users.get id ≠ none

theorem NamesStored.empty : NamesStored jwt .empty := by
  intro e he
  cases he

theorem NamesStored.next {w : Log} (h : NamesStored jwt w) (hsub : jwt.Carries "sub") :
    NamesStored jwt (x.next M bcrypt jwt config w) := by
  intro e he token hands
  rcases List.mem_append.mp he with hold | hnew
  · obtain ⟨id, hclaim, hstored⟩ := h e hold token hands
    have hchange : Change M jwt config x w.platform (x.after M bcrypt jwt config w.platform) :=
      x.change_after w.platform
    exact ⟨id, hclaim, hchange.keepsAccounts hstored⟩
  · obtain rfl := List.mem_singleton.mp hnew
    obtain ⟨id, hstored, hclaim⟩ := served_handsOut hsub hands
    exact ⟨id, hclaim, hstored⟩

/-- The user of a token that has been handed out has a stored account. -/
theorem NamesStored.user {w : Log} (h : NamesStored jwt w) (hdecodes : jwt.Decodes)
    {authorization : Option String} {clock : ℤ}
    (hgenuine : HandedOut jwt config w.history authorization clock)
    {user : JwtPayload} (huser : Auth.bearerUser jwt config authorization clock = some user) :
    ∃ id : ObjectId, user.sub = id.toString ∧ w.platform.auth.users.get id ≠ none := by
  obtain ⟨token, payload, htoken, hvalid, rfl⟩ := Auth.bearerUser_eq_some hdecodes huser
  obtain ⟨e, he, hands⟩ := hgenuine token payload htoken hvalid
  obtain ⟨id, hclaim, hstored⟩ := h e he token hands
  exact ⟨id, congrArg Auth.claimText hclaim, hstored⟩

/-! ## Runs -/

/-- The items refer to accounts, and so do the tokens that have been handed out. -/
structure Referring (jwt : Auth.Jwt) (w : Log) : Prop where
  items : w.platform.Refers
  tokens : NamesStored jwt w

theorem Referring.empty : Referring jwt .empty := by
  constructor
  · intro kind id d hd
    cases hd
  · exact .empty

theorem Referring.next {w : Log} (h : Referring jwt w) (hsub : jwt.Carries "sub")
    (hdecodes : jwt.Decodes) (hcondition : GenuineAndOwn jwt config w x) :
    Referring jwt (x.next M bcrypt jwt config w) := by
  have hchange : Change M jwt config x w.platform (x.after M bcrypt jwt config w.platform) :=
    x.change_after w.platform
  constructor
  · apply h.items.change hchange hcondition.2
    intro user huser
    exact h.tokens.user hdecodes hcondition.1 huser
  · exact h.tokens.next hsub

/-- In every run from nothing with genuine tokens, in which no body names an owner, every todo and
every book belongs to a stored account. -/
theorem run_refers (hsub : jwt.Carries "sub") (hdecodes : jwt.Decodes) {w : Log}
    {exchanges : List Exchange}
    (h : Run (Meeting (LogStep M bcrypt jwt config) (GenuineAndOwn jwt config)) .empty exchanges w) :
    w.platform.Refers := by
  have hstep : ∀ w x w', Referring jwt w →
      Meeting (LogStep M bcrypt jwt config) (GenuineAndOwn jwt config) w x w' →
      Referring jwt w' := by
    rintro w x _ hw ⟨rfl, hcondition⟩
    exact hw.next hsub hdecodes hcondition
  exact (h.invariant hstep .empty).items

/-! ### One todo -/

/-- Finn's body names no owner. -/
theorem leavesOwner_finnCreates :
    finnCreates.LeavesOwner (.single finnPayload) Auth.accessOnly := by
  intro user kind request hadmits
  have hroute : finnCreates.request.route =
      .ok (.member (.items .todos (.create (.obj [("title", .str "Milk")])))) := rfl
  have huser : finnCreates.user (.single finnPayload) Auth.accessOnly = some (Auth.claims finnPayload) := rfl
  obtain ⟨hhere, -, husername⟩ := hadmits
  rw [hroute] at hhere
  rw [huser] at husername
  cases hhere
  cases husername
  exact ⟨by decide, by decide⟩

theorem run_refers_finn :
    (finnNext finnCreates (finnNext finnRegisters .empty)).platform.Refers := by
  have hregister : finnRegisters.LeavesOwner (.single finnPayload) Auth.accessOnly := by
    intro user kind request hadmits
    cases hadmits.1
  exact run_refers (Auth.Jwt.single_carries finnPayload "sub") (Auth.Jwt.single_decodes finnPayload)
    (.snoc (.snoc (.nil _) ⟨rfl, genuine_finnRegisters _, hregister⟩)
      ⟨rfl, genuine_finnCreates, leavesOwner_finnCreates⟩)

end Gateway
