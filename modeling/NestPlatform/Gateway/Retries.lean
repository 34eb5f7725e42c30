-- SUMMARY: Requests that are made again: every method but `POST` comes to the same as if made once.
import NestPlatform.Database.Repeat
import NestPlatform.Gateway.Attribution
import NestPlatform.Gateway.Updates

/-!
# Retries

A client without an answer cannot tell whether its request has arrived, and may make it again. If
the method is not `POST`, nothing is done twice: however many attempts arrive, the platform is as
after one of them, up to the times that are written with it.
-/
namespace Gateway

open Js Mongo Nest Common Database Effect Transition

variable {M : Mongoose} {body : Value}

/-! ## Bodies -/

theorem plainBody_encode (h : PlainBody body) : PlainBody (encodeValue body) where
  object xs heq := h.object xs (encodeValue_eq_arr.mp heq)
  plain := by
    rw [entries_encodeValue]
    exact h.plain

/-- A body for an item; where it names an `id`, a text. -/
structure ItemBody (body : Value) : Prop extends PlainBody body where
  id : ∀ v, ("id", v) ∈ body.entries → ∃ s, v = .str s

/-- The message has the body over what the gateway adds. -/
theorem plainBody_message (h : PlainBody body) {own : Entries}
    (hown : (Entries.keys own).all isPlainKey) :
    PlainBody (.obj (encode (own.assign body.entries))) := by
  refine ⟨fun _ => Value.noConfusion, ?_⟩
  rw [List.all_eq_true] at hown ⊢
  intro k hk
  obtain ⟨⟨l, v⟩, hmem, rfl⟩ := List.mem_map.mp hk
  obtain ⟨⟨m, w⟩, hin, heq⟩ := List.mem_map.mp hmem
  obtain ⟨rfl, -⟩ := Prod.mk.inj heq
  have hkey : m ∈ Entries.keys (own.assign body.entries) :=
    List.mem_map.mpr ⟨_, List.mem_of_mem_filter hin, rfl⟩
  cases Entries.mem_keys_assign.mp hkey with
  | inl hhere => exact hown m hhere
  | inr hbody => exact List.all_eq_true.mp h.plain m hbody

/-- The `id` of the message is the one under the body or the text that the body has. -/
theorem ItemBody.get_id (h : ItemBody body) {own : Entries} (hnodup : (Entries.keys own).Nodup)
    {s : String} (hown : ("id", .str s) ∈ own) :
    ∃ t, (encode (own.assign body.entries)).get "id" = .str t := by
  have hassigned := Entries.nodup_keys_assign hnodup body.entries
  have hkey : "id" ∈ Entries.keys (own.assign body.entries) :=
    Entries.mem_keys_assign.mpr (.inl (List.mem_map.mpr ⟨_, hown, rfl⟩))
  obtain ⟨⟨k, v⟩, hv, rfl⟩ := List.mem_map.mp hkey
  rw [get_encode hassigned, Entries.get_of_mem hassigned hv]
  cases Entries.mem_assign hv with
  | inl hhere =>
    obtain rfl := (Entries.get_of_mem hnodup hhere).symm.trans (Entries.get_of_mem hnodup hown)
    exact ⟨s, rfl⟩
  | inr hbody =>
    obtain ⟨t, rfl⟩ := h.id v hbody
    exact ⟨t, rfl⟩

/-! ## One service -/

/-- An exchange whose message reaches the service. -/
abbrev Arriving := {x : Exchange // ∀ err, x.network ≠ .down err}

theorem hasDeletedAt_user : HasDeletedAt UserSchema := rfl

theorem uniqueAside_user : UniqueAside UserSchema := by
  unfold UniqueAside UserSchema
  decide

theorem ItemKind.hasDeletedAt (kind : ItemKind) : HasDeletedAt kind.schema := by
  cases kind <;> rfl

theorem ItemKind.uniqueAside (kind : ItemKind) : UniqueAside kind.schema := by
  intro p hp hunique
  rw [ItemPut.schema_unique kind p hp] at hunique
  cases hunique

/-- The requests that can be made again. -/
def UsersRequest.Again : UsersRequest → Prop
  | .update _ dto => PlainBody dto
  | _ => True

def ItemRequest.Again : ItemRequest → Prop
  | .create _ => False
  | .update _ dto => ItemBody dto
  | _ => True

theorem settles_users (user : JwtPayload) {request : UsersRequest} (h : request.Again) :
    Settles SameDocs fun (x : Arriving) c => (((x.1.usersCall user request).run M).exec c).2 := by
  unfold Exchange.usersCall UsersCall.run
  dsimp only
  cases RolesGuard.canActivate (UsersController.roles request) (some user) with
  | error e => exact .of_keeps SameDocs.refl fun _ _ => rfl
  | ok =>
    dsimp only
    cases request with
    | findAll page limit => exact .of_keeps SameDocs.refl fun x c => exec_call_keeps _ c isRead_list
    | getMe => exact .of_keeps SameDocs.refl fun x c => exec_call_keeps _ c isRead_findById
    | findById id => exact .of_keeps SameDocs.refl fun x c => exec_call_keeps _ c isRead_findById
    | update id dto =>
      have hsettles := settles_findOneAndUpdate (M := M) uniqueAside_user id
        (plainBody_encode h).repeats
      apply hsettles.reindex fun x => x.1.env.env
      intro x c
      rw [Rpc.exec_call_arrives rfl x.2, exec_map]
      dsimp only [UsersController.rpc]
      rw [(payload_update id dto).1, (payload_update id dto).2]
      unfold Users.UsersService.update
      rw [exec_map]
    | delete id =>
      have hsettles := settles_findOneAndUpdate (M := M) uniqueAside_user id
        (repeats_softDelete hasDeletedAt_user)
      apply hsettles.reindex fun x => x.1.env.env
      intro x c
      rw [Rpc.exec_call_arrives rfl x.2, exec_map]
      unfold Users.UsersService.delete
      rw [exec_map]
      rfl

theorem settles_items (user : JwtPayload) (kind : ItemKind) {request : ItemRequest}
    (h : request.Again) :
    Settles SameDocs fun (x : Arriving) c =>
      (((x.1.itemCall user kind request).run M).exec c).2 := by
  by_cases hwrites : request.Writes
  case neg =>
    apply Settles.of_keeps SameDocs.refl
    intro x c
    by_contra hne
    exact hwrites ((x.1.itemCall user kind request).writes_of_ne hne)
  cases request with
  | create dto => cases h
  | list | findById => cases hwrites
  | update id dto =>
    have hnodup : (Entries.keys [("id", Value.str id), ("userId", .str user.sub)]).Nodup := by
      simp [Entries.keys]
    have hown : (Entries.keys [("id", Value.str id), ("userId", .str user.sub)]).all isPlainKey := by
      have hkeys : ["id", "userId"].all isPlainKey = true := by decide
      exact hkeys
    obtain ⟨s, hs⟩ := ItemBody.get_id h hnodup List.mem_cons_self
    have hsettles := settles_findOneAndUpdate (M := M) kind.uniqueAside s
      (plainBody_message h.toPlainBody hown).repeats
    apply hsettles.reindex fun x => x.1.env.env
    intro x c
    have harrives : ∀ err, (x.1.itemCall user kind (.update id dto)).network ≠ .down err := x.2
    unfold ItemCall.run
    rw [Rpc.exec_call_arrives (kind.handle_update _) harrives, exec_map]
    change ((AbstractRepository.findOneAndUpdate M kind.schema x.1.env.env (byId _) _).exec c).2 = _
    rw [← hs]
    rfl
  | delete id =>
    have hsettles := settles_findOneAndUpdate (M := M) kind.uniqueAside id
      (repeats_softDelete kind.hasDeletedAt)
    apply hsettles.reindex fun x => x.1.env.env
    intro x c
    have harrives : ∀ err, (x.1.itemCall user kind (.delete id)).network ≠ .down err := x.2
    unfold ItemCall.run
    rw [Rpc.exec_call_arrives (kind.handle_delete _) harrives, exec_map]
    rfl

/-! ## The platform -/

/-- The same platform, up to the times in its documents. -/
structure Platform.Same (b b' : Platform) : Prop where
  users : SameDocs b.auth.users b'.auth.users
  events : b.auth.events = b'.auth.events
  items : ∀ kind, SameDocs (b.items kind) (b'.items kind)

namespace Platform.Same

theorem refl (b : Platform) : b.Same b := ⟨.refl _, rfl, fun _ => .refl _⟩

theorem equivalence : Equivalence Platform.Same where
  refl := refl
  symm h := ⟨h.users.symm, h.events.symm, fun kind => (h.items kind).symm⟩
  trans h h' := ⟨h.users.trans h'.users, h.events.trans h'.events,
    fun kind => (h.items kind).trans (h'.items kind)⟩

theorem setUsers {b b' : Platform} (h : b.Same b') {users users' : Collection}
    (husers : SameDocs users users') : (b.setUsers users).Same (b'.setUsers users') :=
  ⟨husers, h.events, h.items⟩

theorem setItems {b b' : Platform} (h : b.Same b') (kind : ItemKind) {items items' : Collection}
    (hitems : SameDocs items items') : (b.setItems kind items).Same (b'.setItems kind items') := by
  refine ⟨h.users, h.events, ?_⟩
  intro kind'
  by_cases hkind : kind' = kind
  · subst hkind
    rw [Platform.items_setItems_self, Platform.items_setItems_self]
    exact hitems
  · rw [Platform.items_setItems_ne hkind, Platform.items_setItems_ne hkind]
    exact h.items kind'

end Platform.Same

variable {ι : Type}

theorem settles_setUsers {act : ι → Collection → Collection} (h : Settles SameDocs act) :
    Settles Platform.Same fun i b => b.setUsers (act i b.auth.users) where
  congr i j _ _ hb := hb.setUsers (h.congr i j _ _ hb.users)
  absorb i j b := (Platform.Same.refl (b.setUsers (act i b.auth.users))).setUsers
    (h.absorb i j b.auth.users)

theorem settles_setItems (kind : ItemKind) {act : ι → Collection → Collection}
    (h : Settles SameDocs act) :
    Settles Platform.Same fun i b => b.setItems kind (act i (b.items kind)) where
  congr i j _ _ hb := hb.setItems kind (h.congr i j _ _ (hb.items kind))
  absorb i j b := by
    rw [Platform.items_setItems_self]
    have hagain := (b.setItems kind (act i (b.items kind))).setItems_items kind
    rw [Platform.items_setItems_self] at hagain
    have hsame := (Platform.Same.refl (b.setItems kind (act i (b.items kind)))).setItems kind
      (h.absorb i j (b.items kind))
    rwa [hagain] at hsame

/-! ## Endpoints -/

def UserEndpoint.Again : UserEndpoint → Prop
  | .logout => True
  | .users request => request.Again
  | .items _ request => request.Again

section

variable {bcrypt : Auth.Bcrypt} {jwt : Auth.Jwt} {config : Auth.AuthConfig}

theorem settles_handleUser (user : JwtPayload) {e : UserEndpoint} (h : e.Again) :
    Settles Platform.Same fun (x : Arriving) b =>
      ((x.1.handleUser M bcrypt jwt config user e).exec b).2 := by
  cases e with
  | logout =>
    exact .of_keeps Platform.Same.refl fun x b =>
      exec_callAuth_keeps (p := AUTH_PATTERNS.LOGOUT) rfl (by decide)
  | users request => exact settles_setUsers (settles_users user h)
  | items kind request => exact settles_setItems kind (settles_items user kind h)

/-- A message that is lost does nothing. -/
theorem handleUser_lost (x : Exchange) {err : Entries} (hdown : x.network = .down err)
    (user : JwtPayload) (e : UserEndpoint) (b : Platform) :
    ((x.handleUser M bcrypt jwt config user e).exec b).2 = b := by
  cases e with
  | logout => exact exec_callAuth_keeps (p := AUTH_PATTERNS.LOGOUT) rfl (by decide)
  | users request =>
    have hkeep : (((x.usersCall user request).run M).exec b.auth.users).2 = b.auth.users := by
      unfold Exchange.usersCall UsersCall.run
      dsimp only
      rw [hdown]
      cases RolesGuard.canActivate (UsersController.roles request) (some user) <;> rfl
    unfold Exchange.handleUser onUsers
    rw [exec_zoom]
    dsimp only
    rw [hkeep]
    rfl
  | items kind request =>
    have hkeep : (((x.itemCall user kind request).run M).exec (b.items kind)).2 = b.items kind := by
      unfold Exchange.itemCall ItemCall.run
      dsimp only
      rw [hdown]
      rfl
    unfold Exchange.handleUser onItems
    rw [exec_zoom]
    dsimp only
    rw [hkeep]
    exact b.setItems_items kind

/-! ## Requests -/

/-- A request by a method whose effect is not doubled, with a plain body. -/
structure HttpRequest.Again (req : HttpRequest) : Prop where
  method : req.method ≠ .POST
  body : ItemBody req.body

def Endpoint.Again : Endpoint → Prop
  | .anyone e => e = .health
  | .member e => e.Again

/-- Every route but those for `POST` keeps to such endpoints. -/
def RoutesAgain (routes : List (Route HttpRequest Endpoint)) : Prop :=
  ∀ route ∈ routes, route.method ≠ .POST → ∀ req : HttpRequest, ItemBody req.body →
    ∀ ids, (route.endpoint req ids).Again

theorem RoutesAgain.append {routes routes' : List (Route HttpRequest Endpoint)}
    (h : RoutesAgain routes) (h' : RoutesAgain routes') : RoutesAgain (routes ++ routes') := by
  intro route hroute
  cases List.mem_append.mp hroute with
  | inl hmem => exact h route hmem
  | inr hmem => exact h' route hmem

theorem UsersController.routesAgain : RoutesAgain UsersController.routes := by
  intro route hroute _ req hbody ids
  simp only [UsersController.routes, List.mem_cons, List.not_mem_nil, or_false] at hroute
  rcases hroute with rfl | rfl | rfl | rfl | rfl
  case inr.inr.inr.inl => exact hbody.toPlainBody
  all_goals trivial

theorem ItemsController.routesAgain (kind : ItemKind) (name : String) :
    RoutesAgain (ItemsController.routes kind name) := by
  intro route hroute hmethod req hbody ids
  simp only [ItemsController.routes, List.mem_cons, List.not_mem_nil, or_false] at hroute
  rcases hroute with rfl | rfl | rfl | rfl | rfl
  case inl => exact absurd rfl hmethod
  case inr.inr.inr.inl => exact hbody
  all_goals trivial

theorem routesAgain : RoutesAgain routes := by
  have hhealth : RoutesAgain HealthController.routes := by
    intro route hroute _ req _ ids
    obtain rfl := List.mem_singleton.mp hroute
    rfl
  have hauth : RoutesAgain AuthController.routes := by
    intro route hroute hmethod
    simp only [AuthController.routes, AuthController.post, List.mem_cons, List.not_mem_nil,
      or_false] at hroute
    rcases hroute with rfl | rfl | rfl | rfl <;> exact absurd rfl hmethod
  exact (((hhealth.append hauth).append UsersController.routesAgain).append
    (ItemsController.routesAgain .todos "todos")).append (ItemsController.routesAgain .books "books")

theorem HttpRequest.Again.endpoint {req : HttpRequest} (h : req.Again) {e : Endpoint}
    (hroute : req.route = .ok e) : e.Again := by
  obtain ⟨route, hmem, ids, hserves, rfl⟩ := endpoint_of_dispatch hroute
  refine routesAgain route hmem ?_ req h.body ids
  intro hpost
  rw [hpost] at hserves
  have hsame : Method.POST = req.method ∨ (Method.POST = .GET ∧ req.method = .HEAD) :=
    of_decide_eq_true hserves
  rcases hsame with hsame | ⟨hget, -⟩
  · exact h.method hsame.symm
  · cases hget

/-! ## Attempts -/

/-- The request is admitted, and its message reaches the service. -/
def Exchange.Arrives (jwt : Auth.Jwt) (config : Auth.AuthConfig) (x : Exchange) : Prop :=
  (∃ user e, x.Admits jwt config user e) ∧ ∀ err, x.network ≠ .down err

theorem after_lost {x : Exchange} (h : x.request.Again) (hlost : ¬ x.Arrives jwt config)
    (b : Platform) : x.after M bcrypt jwt config b = b := by
  unfold Exchange.after
  rcases @Exchange.exec_handle_cases M bcrypt jwt config x b with
    ⟨e, he⟩ | ⟨user, e, he⟩ | ⟨e, -, hrefused⟩
  · obtain rfl : e = .health := h.endpoint he.1
    rw [Exchange.exec_handle_opens he]
    rfl
  · rw [Exchange.exec_handle_admits he]
    cases hnetwork : x.network with
    | down err => exact handleUser_lost x hnetwork user e b
    | up | replyLost =>
      have harrives : ∀ err, x.network ≠ .down err := by
        intro err
        rw [hnetwork]
        exact Network.noConfusion
      exact absurd ⟨⟨user, e, he⟩, harrives⟩ hlost
  · rw [hrefused]

/-- Attempts at one request are admitted for one user and to one endpoint. -/
theorem admits_eq (hdecodes : jwt.Decodes) {x x' : Exchange} (hrequest : x.request = x'.request)
    {user user' : JwtPayload} {e e' : UserEndpoint} (h : x.Admits jwt config user e)
    (h' : x'.Admits jwt config user' e') : user = user' ∧ e = e' := by
  obtain ⟨hroute, -, huser⟩ := h
  obtain ⟨hroute', -, huser'⟩ := h'
  unfold Exchange.user at huser huser'
  rw [hrequest] at hroute huser
  constructor
  · exact Auth.bearerUser_eq hdecodes huser huser'
  · cases hroute.symm.trans hroute'
    rfl

/-- Attempts at a request by such a method settle. -/
theorem repeatable_of_again (hdecodes : jwt.Decodes) {req : HttpRequest} (h : req.Again) :
    Repeatable (Exchange.after M bcrypt jwt config) (fun x => x.request = req)
      (Exchange.Arrives jwt config) Platform.Same where
  equiv := Platform.Same.equivalence
  lost x b hattempt hlost := by
    subst hattempt
    exact after_lost h hlost b
  settles := by
    refine .of_each fun first => ?_
    obtain ⟨_, rfl, ⟨user, e, hadmits⟩, -⟩ := first
    have hsettles : Settles Platform.Same fun (x : Arriving) b =>
        ((x.1.handleUser M bcrypt jwt config user e).exec b).2 :=
      settles_handleUser user (h.endpoint hadmits.1)
    apply hsettles.reindex fun x => ⟨x.1, x.2.2.2⟩
    intro x b
    obtain ⟨x, hrequest, ⟨user', e', hadmits'⟩, -⟩ := x
    obtain ⟨rfl, rfl⟩ := admits_eq hdecodes hrequest hadmits' hadmits
    rw [Exchange.after_admits hadmits']

/-- In every run of attempts at one request that is no `POST`, and whatever becomes of their
answers, the platform ends up as after any one of those that arrived, up to the times in its
documents; if none did, as it was. -/
theorem run_attempts (hdecodes : jwt.Decodes) {req : HttpRequest} (hagain : req.Again) {b b' : Platform}
    {attempts : List Exchange} (h : Run (HttpStep M bcrypt jwt config) b attempts b')
    (hattempts : ∀ x ∈ attempts, x.request = req) :
    Once (Exchange.after M bcrypt jwt config) (Exchange.Arrives jwt config) Platform.Same b attempts b' :=
  (repeatable_of_again hdecodes hagain).run h hattempts

end

/-! ### One title -/

/-- Finn renames his todo. -/
def finnRenames (now : ℤ) (network : Network) : Exchange :=
  { arriving .PUT ["todos", finnId.toString] (some "Bearer access") [("title", .str "Bread")] with
    clock := now
    env := ⟨⟨now, finnId, 0⟩, "salt", true⟩
    network }

def finnOwning : Platform := (finnNext finnCreates (finnNext finnRegisters .empty)).platform

/-- The first reply is lost, the second request as well, and the third one is answered. -/
theorem run_attempts_finn :
    let attempts := [finnRenames 1 .replyLost, finnRenames 2 (.down []), finnRenames 3 .up]
    let b := finnAfter (finnRenames 3 .up)
      (finnAfter (finnRenames 2 (.down [])) (finnAfter (finnRenames 1 .replyLost) finnOwning))
    ((b.items .todos).get finnId).map (·.fields "title") = some (.str "Bread") ∧
      Once finnAfter (Exchange.Arrives (.single finnPayload) Auth.accessOnly) Platform.Same finnOwning
        attempts b := by
  intro attempts b
  constructor
  · decide +kernel
  have hplain : PlainBody (.obj [("title", .str "Bread")]) := ⟨fun _ => Value.noConfusion, by decide⟩
  have hbody : ItemBody (.obj [("title", .str "Bread")]) := by
    refine ⟨hplain, ?_⟩
    intro v hv
    simp at hv
  have hagain : (finnRenames 1 .up).request.Again := ⟨by decide, hbody⟩
  have hattempts : ∀ x ∈ attempts, x.request = (finnRenames 1 .up).request := by
    intro x hx
    simp only [attempts, List.mem_cons, List.not_mem_nil, or_false] at hx
    rcases hx with rfl | rfl | rfl <;> rfl
  exact run_attempts (Auth.Jwt.single_decodes finnPayload) hagain
    (.snoc (.snoc (.snoc (.nil _) rfl) rfl) rfl) hattempts

end Gateway
