-- SUMMARY: The services and their items do not touch one another: what a run makes of a part is what the requests for it make of it.
import NestPlatform.Database.Local
import NestPlatform.Gateway.Attribution
import NestPlatform.Gateway.Process
import NestPlatform.Gateway.Updates

/-!
# Independent services and items

The gateway decides on a request without the services, and calls one service at most. So what a run
makes of a service, and what the requests for it are answered, does not depend on the requests for
the others, also where one of these ends the process. Neither does an item depend on the others, as
long as every update names its item by a text.
-/
namespace Gateway

open Js Mongo Nest Common Database Effect Transition

variable {M : Mongoose} {bcrypt : Auth.Bcrypt} {jwt : Auth.Jwt} {config : Auth.AuthConfig}

/-! ## Services -/

/-- The auth service and the user service share their state. -/
inductive Part where
  | auth
  | items (kind : ItemKind)
  deriving DecidableEq

/-- What a part stores. -/
def Part.Stored : Part → Type
  | .auth => Auth.AuthState
  | .items _ => Collection

def Platform.part (k : Part) (b : Platform) : k.Stored :=
  match k with
  | .auth => b.auth
  | .items kind => b.items kind

def PublicEndpoint.part : PublicEndpoint → Option Part
  | .health => none
  | _ => some .auth

def UserEndpoint.part : UserEndpoint → Part
  | .logout | .users _ => .auth
  | .items kind _ => .items kind

namespace Exchange

section

variable (jwt : Auth.Jwt) (config : Auth.AuthConfig) (x : Exchange)

/-- The service behind the request, once it has passed the guards. -/
def part : Option Part :=
  match x.request.route, x.throttled, x.user jwt config with
  | .ok (.anyone e), false, _ => e.part
  | .ok (.member e), false, some _ => some e.part
  | _, _, _ => none

end

end Exchange

/-- An effect at one part of the platform. -/
abbrev AtPart {α : Type} (k : Part) (x : Handler α) : Prop :=
  At (fun k (b : Platform) => b.part k) k x

section

variable {α : Type}

theorem atPart_onAuth (x : Effect Auth.AuthState HttpException α) : AtPart .auth (onAuth x) where
  outcome b b' hview := by
    have hauth : b.auth = b'.auth := hview
    unfold onAuth
    rw [exec_zoom, exec_zoom, hauth]
  part b b' hview := by
    have hauth : b.auth = b'.auth := hview
    change (x.exec b.auth).2 = (x.exec b'.auth).2
    rw [hauth]
  others b k hk := by
    cases k with
    | auth => exact absurd rfl hk
    | items kind => rfl

theorem atPart_onUsers (x : Effect Collection HttpException α) : AtPart .auth (onUsers x) where
  outcome b b' hview := by
    have hauth : b.auth = b'.auth := hview
    unfold onUsers
    rw [exec_zoom, exec_zoom, hauth]
  part b b' hview := by
    have hauth : b.auth = b'.auth := hview
    change ({ b.auth with users := (x.exec b.auth.users).2 } : Auth.AuthState) =
      { b'.auth with users := (x.exec b'.auth.users).2 }
    rw [hauth]
  others b k hk := by
    cases k with
    | auth => exact absurd rfl hk
    | items kind => rfl

theorem atPart_onItems (kind : ItemKind) (x : Effect Collection HttpException α) :
    AtPart (.items kind) (onItems kind x) where
  outcome b b' hview := by
    have hitems : b.items kind = b'.items kind := hview
    unfold onItems
    rw [exec_zoom, exec_zoom, hitems]
  part b b' hview := by
    have hitems : b.items kind = b'.items kind := hview
    change (b.setItems kind (x.exec (b.items kind)).2).items kind =
      (b'.setItems kind (x.exec (b'.items kind)).2).items kind
    rw [Platform.items_setItems_self, Platform.items_setItems_self, hitems]
  others b k hk := by
    cases k with
    | auth => rfl
    | items kind' =>
      have hne : kind' ≠ kind := by
        rintro rfl
        exact hk rfl
      exact Platform.items_setItems_ne hne

end

namespace Exchange

variable {x : Exchange}

theorem atPart_handlePublic {e : PublicEndpoint} {k : Part} (h : e.part = some k) :
    AtPart k (x.handlePublic M bcrypt jwt config e) := by
  cases e with
  | health => cases h
  | register | login | refresh =>
    cases h
    exact atPart_onAuth _

theorem atPart_handleUser (user : JwtPayload) (e : UserEndpoint) :
    AtPart e.part (x.handleUser M bcrypt jwt config user e) := by
  cases e with
  | logout => exact atPart_onAuth _
  | users request => exact atPart_onUsers _
  | items kind request => exact atPart_onItems kind _

/-- A request for a part reaches a handler, and this is at the part. -/
theorem part_cases {k : Part} (h : x.part jwt config = some k) :
    (∃ e, x.Opens e ∧ e.part = some k) ∨ ∃ user e, x.Admits jwt config user e ∧ e.part = k := by
  unfold part at h
  split at h
  · rename_i e hroute hthrottled
    exact .inl ⟨e, ⟨hroute, hthrottled⟩, h⟩
  · rename_i e user hroute hthrottled huser
    exact .inr ⟨user, e, ⟨hroute, hthrottled, huser⟩, Option.some.inj h⟩
  · cases h

theorem atPart_handle {k : Part} (h : x.part jwt config = some k) :
    AtPart k (x.handle M bcrypt jwt config) := by
  rcases part_cases h with ⟨e, hopens, hk⟩ | ⟨user, e, hadmits, rfl⟩
  · apply ((atPart_handlePublic hk).map (Endpoint.statusCode (.anyone e), ·)).congr
    intro b
    rw [exec_handle_opens hopens, exec_map]
  · apply ((atPart_handleUser user e).map (Endpoint.statusCode (.member e), ·)).congr
    intro b
    rw [exec_handle_admits hadmits, exec_map]

theorem part_opens {e : PublicEndpoint} (h : x.Opens e) : x.part jwt config = e.part := by
  unfold part
  rw [h.1, h.2]

theorem part_admits {user : JwtPayload} {e : UserEndpoint} (h : x.Admits jwt config user e) :
    x.part jwt config = some e.part := by
  unfold part
  rw [h.1, h.2.1, h.2.2]

/-- Each request is for one part at most. -/
theorem keyed_parts : Keyed (fun k (b : Platform) => b.part k) (Exchange.act M bcrypt jwt config)
    (fun _ => True) (Exchange.part jwt config) where
  answer x k b b' _ hpart hview := by
    unfold act response
    rw [(atPart_handle hpart).outcome b b' hview]
  part x k b b' _ hpart hview := (atPart_handle hpart).part b b' hview
  others x k b _ hpart := by
    unfold act after
    rcases @exec_handle_cases M bcrypt jwt config x b with
      ⟨e, hopens⟩ | ⟨user, e, hadmits⟩ | ⟨e, -, hrefused⟩
    · rw [part_opens hopens] at hpart
      cases hk : e.part with
      | none =>
        cases e with
        | health =>
          rw [exec_handle_opens hopens]
          rfl
        | register | login | refresh => cases hk
      | some k' =>
        have hne : k ≠ k' := by
          rintro rfl
          exact hpart hk
        exact (atPart_handle ((part_opens hopens).trans hk)).others b k hne
    · rw [part_admits hadmits] at hpart
      have hne : k ≠ e.part := by
        rintro rfl
        exact hpart rfl
      exact (atPart_handle (part_admits hadmits)).others b k hne
    · rw [hrefused]

end Exchange

/-- The service that an event reaches. -/
def Event.part (jwt : Auth.Jwt) (config : Auth.AuthConfig) (e : Event) : Option Part :=
  e.exchange.bind (Exchange.part jwt config)

/-- In two runs of the gateway from platforms that agree on a service, if the requests that reach the
service are the same and in the same order, then they are answered alike and the service ends up
alike, whatever the other requests of the two runs are and whenever processes start and end. -/
theorem run_services_apart {s s' t t' : Site} {xs ys : List (Event × Option Reply)}
    (hxs : Run (SiteStep M bcrypt jwt config) s xs s')
    (hys : Run (SiteStep M bcrypt jwt config) t ys t') {k : Part}
    (hpart : s.platform.part k = t.platform.part k)
    (hasked : asked (Event.part jwt config) k xs = asked (Event.part jwt config) k ys) :
    exchanged (Event.part jwt config) k xs = exchanged (Event.part jwt config) k ys ∧
      s'.platform.part k = t'.platform.part k :=
  (Event.keyed Exchange.keyed_parts).run_agree (run_answered hxs) (run_answered hys)
    (fun _ _ _ _ => trivial) (fun _ _ _ _ => trivial) hpart hasked

/-! ### Two services -/

/-- Finn registers twice, which ends the process. His todo is answered as if he had not. -/
theorem run_services_apart_finn :
    let registered := finnAfter finnRegisters .empty
    let again := finnAfter finnRegisters registered
    finnReply finnRegisters registered = none ∧
      finnReply finnCreates again = finnReply finnCreates .empty ∧
      (finnAfter finnCreates again).items .todos = (finnAfter finnCreates .empty).items .todos := by
  intro registered again
  have hregisters : (finnReply finnRegisters .empty).isSome = true := by decide +kernel
  have htwice : finnReply finnRegisters registered = none := by decide +kernel
  have hcreates : (finnReply finnCreates again).isSome = true := by decide +kernel
  have halone : (finnReply finnCreates .empty).isSome = true := by decide +kernel
  have hrun : Run FinnStep ⟨1, .empty⟩
      [(.request finnRegisters.plain, finnReply finnRegisters .empty),
       (.request finnRegisters.plain, none), (.missed finnCreates.plain, none), (.started, none),
       (.request finnCreates.plain, finnReply finnCreates again)] ⟨1, finnAfter finnCreates again⟩ :=
    .snoc (.snoc (.snoc (.snoc (.snoc (.nil _) (finn_answered hregisters)) (finn_unanswered htwice))
      (.missed rfl)) .started) (finn_answered hcreates)
  have hunknown : Run FinnStep ⟨1, .empty⟩
      [(.request finnCreates.plain, finnReply finnCreates .empty)]
      ⟨1, finnAfter finnCreates .empty⟩ := .snoc (.nil _) (finn_answered halone)
  have hauth : Event.part (.single finnPayload) Auth.accessOnly (.request finnRegisters.plain) =
      some .auth := by decide +kernel
  have htodos : Event.part (.single finnPayload) Auth.accessOnly (.request finnCreates.plain) =
      some (.items .todos) := by decide +kernel
  have hmissed : Event.part (.single finnPayload) Auth.accessOnly (.missed finnCreates.plain) =
      none := rfl
  have hstarted : Event.part (.single finnPayload) Auth.accessOnly .started = none := rfl
  have hpart : Platform.empty.part (.items .todos) = Platform.empty.part (.items .todos) := rfl
  obtain ⟨hanswers, hitems⟩ := run_services_apart hrun hunknown hpart
    (by simp [asked, hauth, htodos, hmissed, hstarted])
  refine ⟨htwice, ?_, hitems⟩
  simpa [exchanged, hauth, htodos, hmissed, hstarted] using hanswers

/-! ## Calls -/

section

variable {σ κ : Type} {τ : κ → Type} {view : ∀ k, σ → τ k} {k : κ}

/-- A call is where its handler is. -/
theorem at_call {rpc : Rpc} {handle : String → Entries → Option (Effect σ Thrown Value)}
    (h : ∀ y, handle rpc.pattern (encode rpc.payload.entries) = some y → At view k y)
    (network : Network) : At view k (rpc.call handle network) := by
  cases hhandle : handle rpc.pattern (encode rpc.payload.entries) with
  | none =>
    unfold Rpc.call
    rw [hhandle]
    cases network <;> exact At.const fun _ => rfl
  | some y =>
    have hy := h y hhandle
    unfold Rpc.call
    rw [hhandle]
    cases network with
    | down err => exact At.const fun _ => rfl
    | replyLost => exact ⟨fun _ _ _ => rfl, hy.part, hy.others⟩
    | up =>
      refine ⟨?_, hy.part, hy.others⟩
      intro s s' hview
      change rpc.settle (.reply (handlerOutcome (y.exec s).1)) =
        rpc.settle (.reply (handlerOutcome (y.exec s').1))
      rw [hy.outcome s s' hview]

end

/-! ## Items -/

namespace ItemCall

variable (M) (call : ItemCall)

/-- The item of an id that is a text. -/
def itemOf : Value → Option ObjectId
  | .str s => M.castId (.str s)
  | _ => none

/-- The item that the request names, if it names one. -/
def names : Option ObjectId :=
  match call.request with
  | .create _ =>
    (construct M call.kind.schema call.env
      (Entries.assign [("userId", call.message.get "userId")] call.message)).map Doc.id
  | .list _ _ => none
  | .findById _ | .update _ _ | .delete _ => itemOf M (call.message.get "id")

/-- An update selects its item by a text. -/
def TextId : Prop :=
  match call.request with
  | .update _ _ => ∃ s, call.message.get "id" = .str s
  | _ => True

variable {M call}

theorem atDoc_run {id : ObjectId} (htext : call.TextId) (h : call.names M = some id) :
    AtDoc id (call.run M) := by
  obtain ⟨kind, user, env, network, request⟩ := call
  apply at_call
  intro y hy
  cases request with
  | create dto =>
    obtain rfl := Option.some.inj ((kind.handle_create _).symm.trans hy)
    obtain ⟨d, hd, rfl⟩ := Option.map_eq_some_iff.mp h
    exact (AbstractRepository.atDoc_create (ItemPut.schema_unique kind) hd).map _
  | list page limit => cases h
  | findById text =>
    obtain rfl := Option.some.inj ((kind.handle_findById _).symm.trans hy)
    exact (AbstractRepository.atDoc_findById h).map _
  | update text dto =>
    obtain rfl := Option.some.inj ((kind.handle_update _).symm.trans hy)
    obtain ⟨s, hs⟩ := htext
    unfold names at h
    dsimp only at h
    rw [hs] at h
    have hupdate : AtDoc id (AbstractRepository.findOneAndUpdate M kind.schema env (byId (.str s))
        (.body (.obj (message ⟨kind, user, env, network, .update text dto⟩)))) :=
      AbstractRepository.atDoc_findOneAndUpdate (ItemPut.schema_unique kind) h _
    rw [← hs] at hupdate
    exact hupdate.map _
  | delete text =>
    obtain rfl := Option.some.inj ((kind.handle_delete _).symm.trans hy)
    exact (AbstractRepository.atDoc_findOneAndUpdate (ItemPut.schema_unique kind) h _).map _

/-- A request that names no item leaves all of them alone. -/
theorem exec_unnamed (htext : call.TextId) (h : call.names M = none) (c : Collection) :
    ((call.run M).exec c).2 = c := by
  obtain ⟨kind, user, env, network, request⟩ := call
  rcases (ItemCall.rpc ⟨kind, user, env, network, request⟩).exec_call (kind.handle M env) network c with
    hkeep | ⟨y, hy, hstate⟩
  · exact hkeep
  refine hstate.trans ?_
  cases request with
  | create dto =>
    obtain rfl := Option.some.inj ((kind.handle_create _).symm.trans hy)
    rw [exec_map]
    have hrefused := AbstractRepository.exec_create_refused (Option.map_eq_none_iff.mp h) c
    exact congrArg Prod.snd hrefused
  | list page limit =>
    obtain rfl := Option.some.inj ((kind.handle_findByUser _).symm.trans hy)
    rw [exec_map]
    exact AbstractRepository.exec_findPage _ _ _
  | findById text =>
    obtain rfl := Option.some.inj ((kind.handle_findById _).symm.trans hy)
    rw [exec_map]
    exact AbstractRepository.exec_findById _ _
  | update text dto =>
    obtain rfl := Option.some.inj ((kind.handle_update _).symm.trans hy)
    obtain ⟨s, hs⟩ := htext
    unfold names at h
    dsimp only at h
    rw [hs] at h
    rw [exec_map]
    have hkeep : ((AbstractRepository.findOneAndUpdate M kind.schema env (byId (.str s))
        (.body (.obj (message ⟨kind, user, env, network, .update text dto⟩)))).exec c).2 = c :=
      congrArg Prod.snd (AbstractRepository.exec_findOneAndUpdate_uncastable h _ c)
    rw [← hs] at hkeep
    exact hkeep
  | delete text =>
    obtain rfl := Option.some.inj ((kind.handle_delete _).symm.trans hy)
    rw [exec_map]
    exact congrArg Prod.snd (AbstractRepository.exec_findOneAndUpdate_uncastable h _ c)

end ItemCall

/-- An item of the platform. -/
def Platform.item (k : ItemKind × ObjectId) (b : Platform) : Option Doc := (b.items k.1).get k.2

abbrev AtItem {α : Type} (k : ItemKind × ObjectId) (x : Handler α) : Prop :=
  At (fun k (b : Platform) => b.item k) k x

theorem atItem_onItems (kind : ItemKind) {id : ObjectId} {α : Type}
    {x : Effect Collection HttpException α} (hx : AtDoc id x) : AtItem (kind, id) (onItems kind x) where
  outcome b b' hview := hx.outcome (b.items kind) (b'.items kind) hview
  part b b' hview := by
    have hpart := hx.part (b.items kind) (b'.items kind) hview
    change ((b.setItems kind (x.exec (b.items kind)).2).items kind).get id =
      ((b'.setItems kind (x.exec (b'.items kind)).2).items kind).get id
    rw [Platform.items_setItems_self, Platform.items_setItems_self]
    exact hpart
  others b k hk := by
    obtain ⟨kind', id'⟩ := k
    change ((b.setItems kind (x.exec (b.items kind)).2).items kind').get id' = (b.items kind').get id'
    by_cases hkind : kind' = kind
    · subst hkind
      have hid : id' ≠ id := by
        rintro rfl
        exact hk rfl
      rw [Platform.items_setItems_self]
      exact hx.others (b.items kind') id' hid
    · rw [Platform.items_setItems_ne hkind]

namespace Exchange

section

variable (M : Mongoose) (jwt : Auth.Jwt) (config : Auth.AuthConfig) (x : Exchange)

/-- The item that the request names, once it has passed the guards. -/
def item : Option (ItemKind × ObjectId) :=
  match x.request.route, x.throttled, x.user jwt config with
  | .ok (.member (.items kind request)), false, some user =>
    ((x.itemCall user kind request).names M).map (kind, ·)
  | _, _, _ => none

/-- No update that is admitted selects its item by anything but a text. -/
def TextId : Prop :=
  ∀ user kind request, x.Admits jwt config user (.items kind request) →
    (x.itemCall user kind request).TextId

end

variable {x : Exchange}

theorem item_admits {user : JwtPayload} {kind : ItemKind} {request : ItemRequest}
    (h : x.Admits jwt config user (.items kind request)) :
    x.item M jwt config = ((x.itemCall user kind request).names M).map (kind, ·) := by
  unfold item
  rw [h.1, h.2.1, h.2.2]

theorem atItem_handle (htext : x.TextId jwt config) {k : ItemKind × ObjectId}
    (h : x.item M jwt config = some k) : AtItem k (x.handle M bcrypt jwt config) := by
  unfold item at h
  split at h
  · rename_i kind request user hroute hthrottled huser
    have hadmits : x.Admits jwt config user (.items kind request) := ⟨hroute, hthrottled, huser⟩
    obtain ⟨id, hid, rfl⟩ := Option.map_eq_some_iff.mp h
    have hcall := atItem_onItems kind (ItemCall.atDoc_run (htext _ _ _ hadmits) hid)
    apply (hcall.map (Endpoint.statusCode (.member (.items kind request)), ·)).congr
    intro b
    rw [exec_handle_admits hadmits, exec_map]
    rfl
  · cases h

/-- Each request is for one item at most. -/
theorem keyed_items : Keyed (fun k (b : Platform) => b.item k) (Exchange.act M bcrypt jwt config)
    (TextId jwt config) (Exchange.item M jwt config) where
  answer x k b b' htext hitem hview := by
    unfold act response
    rw [(atItem_handle htext hitem).outcome b b' hview]
  part x k b b' htext hitem hview := (atItem_handle htext hitem).part b b' hview
  others x k b htext hitem := by
    by_cases hpart : x.part jwt config = some (.items k.1)
    · rcases part_cases hpart with ⟨e, -, he⟩ | ⟨user, e, hadmits, he⟩
      · cases e <;> cases he
      · cases e with
        | logout | users => cases he
        | items kind request =>
          obtain rfl : kind = k.1 := by
            injection he
          rw [item_admits hadmits] at hitem
          cases hnames : (x.itemCall user k.1 request).names M with
          | none =>
            have hkeep := ItemCall.exec_unnamed (htext _ _ _ hadmits) hnames (b.items k.1)
            change (x.after M bcrypt jwt config b).item k = b.item k
            rw [after_admits hadmits]
            change ((b.setItems k.1 _).items k.1).get k.2 = (b.items k.1).get k.2
            rw [Platform.items_setItems_self, hkeep]
          | some id =>
            have hne : k ≠ (k.1, id) := by
              intro heq
              apply hitem
              rw [hnames, Option.map_some, ← heq]
            have hnamed : x.item M jwt config = some (k.1, id) := by
              rw [item_admits hadmits, hnames, Option.map_some]
            exact (atItem_handle htext hnamed).others b k hne
    · have hkeep : (x.after M bcrypt jwt config b).part (.items k.1) = b.part (.items k.1) :=
        keyed_parts.others x (.items k.1) b trivial hpart
      exact congrArg (fun c : Collection => c.get k.2) hkeep

end Exchange

/-- The item that the request of an event names. -/
def Event.item (M : Mongoose) (jwt : Auth.Jwt) (config : Auth.AuthConfig) (e : Event) :
    Option (ItemKind × ObjectId) := e.exchange.bind (Exchange.item M jwt config)

def Event.TextId (jwt : Auth.Jwt) (config : Auth.AuthConfig) (e : Event) : Prop :=
  ∀ x, e.exchange = some x → x.TextId jwt config

/-- In two runs of the gateway in which every update selects its item by a text, from platforms that
agree on an item: if the requests that name this item are the same and in the same order, then they
are answered alike and the item ends up alike, whatever the other requests of the two runs are and
whenever processes start and end. -/
theorem run_items_apart {s s' t t' : Site} {xs ys : List (Event × Option Reply)}
    (hxs : Run (SiteStep M bcrypt jwt config) s xs s')
    (hys : Run (SiteStep M bcrypt jwt config) t ys t')
    (htext : ∀ l ∈ xs, l.1.TextId jwt config) (htext' : ∀ l ∈ ys, l.1.TextId jwt config)
    {k : ItemKind × ObjectId} (hitem : s.platform.item k = t.platform.item k)
    (hasked : asked (Event.item M jwt config) k xs = asked (Event.item M jwt config) k ys) :
    exchanged (Event.item M jwt config) k xs = exchanged (Event.item M jwt config) k ys ∧
      s'.platform.item k = t'.platform.item k :=
  (Event.keyed Exchange.keyed_items).run_agree (run_answered hxs) (run_answered hys) htext htext'
    hitem hasked

/-! ### Two todos -/

def anotherId : ObjectId := ⟨"0000000000000000000000a8", by decide⟩

/-- Finn adds another todo. -/
def finnCreatesMore : Exchange := { finnCreates with env := ⟨⟨0, anotherId, 0⟩, "salt", true⟩ }

/-- Finn asks for a todo by what is no id. -/
def finnMistakes : Exchange := arriving .GET ["todos", "milk"] (some "Bearer access") []

/-- Finn deletes the first one. -/
def finnDeletes : Exchange :=
  arriving .DELETE ["todos", finnId.toString] (some "Bearer access") []

/-- Neither the end of the process nor the deletion of the first todo reaches the other. -/
theorem run_items_apart_finn :
    let first := finnAfter finnCreates .empty
    let mistaken := finnAfter finnMistakes first
    let second := finnAfter finnCreatesMore mistaken
    let alone := finnAfter finnCreatesMore .empty
    finnReply finnMistakes first = none ∧
      finnReply finnCreatesMore mistaken = finnReply finnCreatesMore .empty ∧
      (finnAfter finnDeletes second).item (.todos, anotherId) = alone.item (.todos, anotherId) := by
  intro first mistaken second alone
  have hfirst : (finnReply finnCreates .empty).isSome = true := by decide +kernel
  have hmistaken : finnReply finnMistakes first = none := by decide +kernel
  have hsecond : (finnReply finnCreatesMore mistaken).isSome = true := by decide +kernel
  have hdeleted : (finnReply finnDeletes second).isSome = true := by decide +kernel
  have halone : (finnReply finnCreatesMore .empty).isSome = true := by decide +kernel
  have hrun : Run FinnStep ⟨1, .empty⟩
      [(.request finnCreates.plain, finnReply finnCreates .empty),
       (.request finnMistakes.plain, none), (.started, none),
       (.request finnCreatesMore.plain, finnReply finnCreatesMore mistaken),
       (.request finnDeletes.plain, finnReply finnDeletes second)]
      ⟨1, finnAfter finnDeletes second⟩ :=
    .snoc (.snoc (.snoc (.snoc (.snoc (.nil _) (finn_answered hfirst)) (finn_unanswered hmistaken))
      .started) (finn_answered hsecond)) (finn_answered hdeleted)
  have hunknown : Run FinnStep ⟨1, .empty⟩
      [(.request finnCreatesMore.plain, finnReply finnCreatesMore .empty)] ⟨1, alone⟩ :=
    .snoc (.nil _) (finn_answered halone)
  -- only one request of either run is for the other todo
  have hcreates : Event.item .plain (.single finnPayload) Auth.accessOnly
      (.request finnCreates.plain) = some (.todos, finnId) := by decide +kernel
  have hmistakes : Event.item .plain (.single finnPayload) Auth.accessOnly
      (.request finnMistakes.plain) = none := by decide +kernel
  have hstarted : Event.item .plain (.single finnPayload) Auth.accessOnly .started = none := rfl
  have hmore : Event.item .plain (.single finnPayload) Auth.accessOnly
      (.request finnCreatesMore.plain) = some (.todos, anotherId) := by decide +kernel
  have hdeletes : Event.item .plain (.single finnPayload) Auth.accessOnly
      (.request finnDeletes.plain) = some (.todos, finnId) := by decide +kernel
  have htext : ∀ x ∈ [finnCreates, finnMistakes, finnCreatesMore, finnDeletes],
      Event.TextId (.single finnPayload) Auth.accessOnly (.request x.plain) := by
    intro x hx y hy user kind request hadmits
    obtain rfl := Option.some.inj hy
    simp only [List.mem_cons, List.not_mem_nil, or_false] at hx
    rcases hx with rfl | rfl | rfl | rfl <;> cases hadmits.1 <;> trivial
  have htextStarted : Event.TextId (.single finnPayload) Auth.accessOnly .started := by
    intro y hy
    cases hy
  have hne : finnId ≠ anotherId := by decide
  have hitem : Platform.empty.item (.todos, anotherId) = Platform.empty.item (.todos, anotherId) := rfl
  obtain ⟨hanswers, hends⟩ := run_items_apart hrun hunknown
    (by simp [htext, htextStarted]) (by simp [htext]) hitem
    (by simp [asked, hcreates, hmistakes, hstarted, hmore, hdeletes, hne])
  dsimp only at hends
  refine ⟨hmistaken, ?_, hends⟩
  simpa [exchanged, hcreates, hmistakes, hstarted, hmore, hdeletes, hne] using hanswers

end Gateway
