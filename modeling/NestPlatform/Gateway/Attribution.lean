-- SUMMARY: Whom the requests and the items of the platform go back to, over whole runs.
import NestPlatform.Gateway.Access

/-!
# Attribution

The gateway believes a token, and the token names an account. The history of a platform that
began empty says who that is: an account that an earlier request has registered. The code never
reads the history.
-/
namespace Gateway

open Js Mongo Nest Common Database Effect Transition

/-! ## Histories -/

/-- An answered request with the states around it. -/
structure Served where
  exchange : Exchange
  before : Platform
  answer : Except HttpException (ℕ × Value)
  after : Platform

structure Log where
  platform : Platform
  history : List Served

def Log.empty : Log := ⟨.empty, []⟩

section

variable (M : Mongoose) (bcrypt : Auth.Bcrypt) (jwt : Auth.Jwt) (config : Auth.AuthConfig)

def Exchange.served (x : Exchange) (b : Platform) : Served where
  exchange := x
  before := b
  answer := ((x.handle M bcrypt jwt config).exec b).1
  after := x.after M bcrypt jwt config b

def Exchange.next (x : Exchange) (w : Log) : Log where
  platform := x.after M bcrypt jwt config w.platform
  history := w.history ++ [x.served M bcrypt jwt config w.platform]

def LogStep (w : Log) (x : Exchange) (w' : Log) : Prop := w' = x.next M bcrypt jwt config w

/-- The answer of a handler of anyone has the token. -/
def Served.HandsOut (e : Served) (token : String) : Prop :=
  (∃ endpoint, e.exchange.Opens endpoint) ∧
    ∃ statusCode data, e.answer = .ok (statusCode, data) ∧ Auth.HandsOut data token

/-- The token in the header has been handed out, if it can be verified. -/
def HandedOut (history : List Served) (authorization : Option String) (clock : ℤ) : Prop :=
  ∀ token payload, Auth.bearerToken authorization = some token →
    Auth.JwtStrategy.validate jwt config token clock = some payload →
    ∃ e ∈ history, e.HandsOut token

/-- Signatures are ideal and the clients keep to their tokens. -/
def Genuine (w : Log) (x : Exchange) : Prop :=
  HandedOut jwt config w.history x.request.authorization x.clock

/-! ## The property -/

/-- The request has registered the account. -/
def Served.Registers (e : Served) (id : ObjectId) : Prop :=
  (∃ dto, e.exchange.Opens (.register dto)) ∧
    e.before.auth.users.get id = none ∧ e.after.auth.users.get id ≠ none

/-- The request has stored the item for the user of its token. -/
def Served.Stores (e : Served) (user : JwtPayload) (kind : ItemKind) (id : ObjectId) : Prop :=
  (∃ dto, e.exchange.Admits jwt config user (.items kind (.create dto))) ∧
    (e.before.items kind).get id = none ∧ (e.after.items kind).get id ≠ none

/-- Every user whom the gateway has admitted is the owner of an account that an earlier request
has registered, and every item has been stored for such a user. -/
structure Attributed (w : Log) : Prop where
  users : ∀ earlier e, earlier ++ [e] <+: w.history → ∀ user endpoint,
    e.exchange.Admits jwt config user endpoint →
    ∃ id : ObjectId, user.sub = id.toString ∧ ∃ r ∈ earlier, r.Registers id
  items : ∀ kind id, (w.platform.items kind).get id ≠ none →
    ∃ earlier e user, earlier ++ [e] <+: w.history ∧ e.Stores jwt config user kind id ∧
      ∃ owner : ObjectId, user.sub = owner.toString ∧ ∃ r ∈ earlier, r.Registers owner
  accounts : ∀ id, w.platform.auth.users.get id ≠ none → ∃ r ∈ w.history, r.Registers id

end

/-! ## One request -/

variable {M : Mongoose} {bcrypt : Auth.Bcrypt} {jwt : Auth.Jwt} {config : Auth.AuthConfig}
variable {x : Exchange} {b : Platform}

/-- An item that was not there has been created. -/
theorem ItemCall.create_of_new {call : ItemCall} {c : Collection} {id : ObjectId}
    (hnone : c.get id = none) (hsome : ((call.run M).exec c).2.get id ≠ none) :
    ∃ dto, call.request = .create dto := by
  rcases call.exec_cases (M := M) c with
    hkeep | ⟨dto, d, hnew, hreq, -⟩ | ⟨u, p, f, d, fields, -, -, -, hd, -, hput⟩
  · rw [hkeep] at hsome
    exact absurd hnone hsome
  · exact ⟨dto, hreq⟩
  · have hget : c.get d.id = some d := Collection.get_of_mem (find?_scan_eq_some hd).1
    have hne : id ≠ d.id := by
      rintro rfl
      rw [hget] at hnone
      cases hnone
    rw [hput, Collection.get_put_ne (d := touch call.env d.id fields) hne] at hsome
    exact absurd hnone hsome

theorem Change.stores {b' : Platform} (h : Change M jwt config x b b') {kind : ItemKind}
    {id : ObjectId} (hnone : (b.items kind).get id = none) (hsome : (b'.items kind).get id ≠ none) :
    ∃ user dto, x.Admits jwt config user (.items kind (.create dto)) := by
  cases h with
  | @itemsWritten user kind' request hadmits =>
    by_cases hkind : kind = kind'
    · subst hkind
      rw [Platform.items_setItems_self] at hsome
      obtain ⟨dto, hcreate⟩ := ItemCall.create_of_new hnone hsome
      obtain rfl : request = .create dto := hcreate
      exact ⟨user, dto, hadmits⟩
    · rw [Platform.items_setItems_ne hkind] at hsome
      exact absurd hnone hsome
  | kept | registered | loggedIn | userWritten => exact absurd hnone hsome

/-- A token that a request is handed out is signed for an account as it is stored then. -/
theorem served_signedFor {token : String} (h : (x.served M bcrypt jwt config b).HandsOut token) :
    ∃ d, (x.after M bcrypt jwt config b).auth.users.get d.id = some d ∧
      Auth.SignedFor jwt config d token := by
  obtain ⟨⟨e, hopens⟩, statusCode, data, hanswer, htoken⟩ := h
  unfold Exchange.served at hopens hanswer
  unfold Exchange.after
  dsimp only at hopens hanswer
  rw [Exchange.exec_handle_opens hopens] at hanswer ⊢
  cases hresult : ((x.handlePublic M bcrypt jwt config e).exec b).1 with
  | error t =>
    rw [hresult] at hanswer
    cases hanswer
  | ok v =>
    rw [hresult] at hanswer
    cases hanswer
    have hcall : ∀ rpc : Rpc, ((x.callAuth M bcrypt jwt config rpc).exec b).1 = .ok data →
        ∃ d, ((x.callAuth M bcrypt jwt config rpc).exec b).2.auth.users.get d.id = some d ∧
          Auth.SignedFor jwt config d token := by
      intro rpc hok
      have hreply : (rpc.call (Auth.AuthController.handle M bcrypt jwt config x.env) x.network).exec
          b.auth = (.ok data, ((x.callAuth M bcrypt jwt config rpc).exec b).2.auth) :=
        Prod.ext hok rfl
      obtain ⟨y, hy, hexec⟩ := Rpc.exec_call_eq_ok hreply
      exact Auth.AuthController.signedFor hy hexec htoken
    cases e with
    | health =>
      cases hresult
      simp [Auth.HandsOut, Entries.get] at htoken
    | register dto | login dto | refresh dto => exact hcall _ hresult

/-- It names the account. -/
theorem served_handsOut (hjwt : jwt.Carries "sub") {token : String}
    (h : (x.served M bcrypt jwt config b).HandsOut token) :
    ∃ id, (x.after M bcrypt jwt config b).auth.users.get id ≠ none ∧
      jwt.claim token "sub" = .str id.toString := by
  obtain ⟨d, hstored, hsigned⟩ := served_signedFor h
  exact ⟨d.id, by simp [hstored], hsigned.sub hjwt⟩

/-! ## Runs -/

/-- What every step keeps: the property, and that the tokens that have been handed out name
registered accounts. -/
structure LogSound (jwt : Auth.Jwt) (config : Auth.AuthConfig) (w : Log) : Prop where
  attributed : Attributed jwt config w
  handed : ∀ e ∈ w.history, ∀ token, e.HandsOut token →
    ∃ id : ObjectId, jwt.claim token "sub" = .str id.toString ∧ ∃ r ∈ w.history, r.Registers id

theorem LogSound.empty : LogSound jwt config .empty := by
  constructor
  · constructor
    · intro earlier e hprefix
      simp [Log.empty] at hprefix
    · intro kind id hsome
      exact absurd rfl hsome
    · intro id hsome
      exact absurd rfl hsome
  · intro e he
    cases he

/-- An admitted user has an account that the history knows. -/
theorem LogSound.registered {w : Log} (h : LogSound jwt config w) (hdecodes : jwt.Decodes)
    (hgenuine : Genuine jwt config w x) {user : JwtPayload} (huser : x.user jwt config = some user) :
    ∃ id : ObjectId, user.sub = id.toString ∧ ∃ r ∈ w.history, r.Registers id := by
  obtain ⟨token, payload, htoken, hvalid, rfl⟩ := Auth.bearerUser_eq_some hdecodes huser
  obtain ⟨e, he, hands⟩ := hgenuine token payload htoken hvalid
  obtain ⟨id, hclaim, hregistered⟩ := h.handed e he token hands
  exact ⟨id, congrArg Auth.claimText hclaim, hregistered⟩

/-- After a request, every stored account is registered in the history. -/
theorem accounts_next {w : Log} (h : LogSound jwt config w) {id : ObjectId}
    (hsome : (x.after M bcrypt jwt config w.platform).auth.users.get id ≠ none) :
    ∃ r ∈ (x.next M bcrypt jwt config w).history, r.Registers id := by
  have hresponsible : Responsible jwt config [x] w.platform
      (x.after M bcrypt jwt config w.platform) := (x.change_after w.platform).responsible
  cases hbefore : w.platform.auth.users.get id with
  | some d =>
    obtain ⟨r, hr, hregisters⟩ := h.attributed.accounts id (by simp [hbefore])
    exact ⟨r, List.mem_append_left _ hr, hregisters⟩
  | none =>
    obtain ⟨d, hd⟩ := Option.ne_none_iff_exists'.mp hsome
    obtain ⟨⟨y, hy, hopens⟩, -⟩ := hresponsible.registered id d hbefore hd
    obtain rfl := List.mem_singleton.mp hy
    exact ⟨_, List.mem_append_right _ (List.mem_singleton_self _), hopens, hbefore, hsome⟩

theorem LogSound.next {w : Log} (h : LogSound jwt config w) (hsub : jwt.Carries "sub")
    (hdecodes : jwt.Decodes) (hgenuine : Genuine jwt config w x) :
    LogSound jwt config (x.next M bcrypt jwt config w) := by
  have hchange : Change M jwt config x w.platform (x.after M bcrypt jwt config w.platform) :=
    x.change_after w.platform
  constructor
  · constructor
    · intro earlier e hprefix user endpoint hadmits
      rcases List.prefix_concat_iff.mp hprefix with heq | hold
      · obtain ⟨rfl, hlast⟩ := List.append_inj' heq rfl
        obtain rfl := List.singleton_inj.mp hlast
        exact h.registered hdecodes hgenuine hadmits.2.2
      · exact h.attributed.users earlier e hold user endpoint hadmits
    · intro kind id hsome
      cases hbefore : (w.platform.items kind).get id with
      | some d =>
        obtain ⟨earlier, e, user, hprefix, hstores⟩ := h.attributed.items kind id (by simp [hbefore])
        exact ⟨earlier, e, user, hprefix.trans (List.prefix_append _ _), hstores⟩
      | none =>
        obtain ⟨user, dto, hadmits⟩ := hchange.stores hbefore hsome
        exact ⟨w.history, _, user, List.prefix_refl _, ⟨⟨dto, hadmits⟩, hbefore, hsome⟩,
          h.registered hdecodes hgenuine hadmits.2.2⟩
    · intro id hsome
      exact accounts_next h hsome
  · intro e he token hands
    rcases List.mem_append.mp he with hold | hnew
    · obtain ⟨id, hclaim, r, hr, hregisters⟩ := h.handed e hold token hands
      exact ⟨id, hclaim, r, List.mem_append_left _ hr, hregisters⟩
    · obtain rfl := List.mem_singleton.mp hnew
      obtain ⟨id, hstored, hclaim⟩ := served_handsOut hsub hands
      exact ⟨id, hclaim, accounts_next h hstored⟩

/-- In every run of the platform from nothing, as long as tokens are not forged, every admitted
request and every stored item goes back to a registered account. -/
theorem run_attributed (hsub : jwt.Carries "sub") (hdecodes : jwt.Decodes) {w : Log}
    {exchanges : List Exchange}
    (h : Run (Meeting (LogStep M bcrypt jwt config) (Genuine jwt config)) .empty exchanges w) :
    Attributed jwt config w := by
  have hstep : ∀ w x w', LogSound jwt config w →
      Meeting (LogStep M bcrypt jwt config) (Genuine jwt config) w x w' → LogSound jwt config w' := by
    rintro w x _ hw ⟨rfl, hgenuine⟩
    exact hw.next hsub hdecodes hgenuine
  exact (h.invariant hstep .empty).attributed

/-! ### One todo -/

/-- Finn adds a todo with the token of his registration. -/
def finnCreates : Exchange :=
  arriving .POST ["todos"] (some "Bearer access") [("title", .str "Milk")]

def finnNext (x : Exchange) (w : Log) : Log :=
  x.next .plain .plain (.single finnPayload) Auth.accessOnly w

theorem genuine_finnRegisters (w : Log) :
    Genuine (.single finnPayload) Auth.accessOnly w finnRegisters := by
  intro token payload htoken
  cases htoken

theorem genuine_finnCreates :
    Genuine (.single finnPayload) Auth.accessOnly (finnNext finnRegisters .empty) finnCreates := by
  intro token payload htoken _
  have htext : finnCreates.token = some "access" := by decide
  obtain rfl := Option.some.inj (htext.symm.trans htoken)
  exact ⟨_, List.mem_singleton_self _, ⟨_, rfl, rfl⟩, 201, _, rfl, "accessToken", by decide, rfl⟩

theorem run_attributed_finn :
    ((finnNext finnCreates (finnNext finnRegisters .empty)).platform.items .todos).get finnId ≠ none ∧
      Attributed (.single finnPayload) Auth.accessOnly
        (finnNext finnCreates (finnNext finnRegisters .empty)) := by
  have hstored : (((finnNext finnCreates (finnNext finnRegisters .empty)).platform.items .todos).get
      finnId).isSome = true := by
    decide +kernel
  refine ⟨Option.isSome_iff_ne_none.mp hstored, ?_⟩
  exact run_attributed (Auth.Jwt.single_carries finnPayload "sub") (Auth.Jwt.single_decodes finnPayload)
    (.snoc (.snoc (.nil _) ⟨rfl, genuine_finnRegisters _⟩) ⟨rfl, genuine_finnCreates⟩)

end Gateway
