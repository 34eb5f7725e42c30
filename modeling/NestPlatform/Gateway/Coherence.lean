-- SUMMARY: Todos and books as registers: answers agree on an item until a request that is admitted writes it.
import NestPlatform.Database.Shown
import NestPlatform.Gateway.Independence
import NestPlatform.Gateway.Isolation
import NestPlatform.Lib.Register

/-!
# Coherent answers of the gateway

An answer has an item by itself, when it was created, read, updated or deleted, or in a list. What
one answer has, every later one has and every later read gets, until an update or a deletion names
the item, whatever processes end in between.
-/
namespace Gateway

open Js Mongo Nest Common Database Effect Transition

variable {M : Mongoose} {bcrypt : Auth.Bcrypt} {jwt : Auth.Jwt} {config : Auth.AuthConfig}

/-! ## Calls -/

theorem ItemKind.displayed (kind : ItemKind) : Displayed kind.schema := by
  cases kind <;> exact ⟨by decide, by decide⟩

/-- An item is created from a body without dotted keys. -/
def ItemRequest.Undotted : ItemRequest → Prop
  | .create dto => dottedRoots dto.entries = []
  | _ => True

/-- Encoding adds no key. -/
theorem dottedRoots_encode (o : Entries) : dottedRoots (encode o) ⊆ dottedRoots o := by
  have hkeys : (Entries.keys (encode o)).Sublist (Entries.keys o) := by
    unfold encode Entries.keys
    rw [List.map_map]
    exact List.filter_sublist.map Prod.fst
  exact ((hkeys.filter _).map root).subset

namespace ItemCall

variable {call : ItemCall} {c c' : Collection} {id : ObjectId} {data v : Value}

/-- Both the gateway and the service name the owner. -/
theorem dottedRoots_message {dto : Value} (h : dottedRoots dto.entries = [])
    (hcreate : call.request = .create dto) :
    dottedRoots (Entries.assign [("userId", call.message.get "userId")] call.message) = [] := by
  have hmessage : call.message =
      encode (Entries.assign [("userId", .str call.user.sub)] dto.entries) := by
    unfold message rpc
    rw [hcreate]
    rfl
  apply dottedRoots_userId
  rw [hmessage]
  apply List.eq_nil_of_subset_nil
  have hsub := dottedRoots_encode (Entries.assign [("userId", .str call.user.sub)] dto.entries)
  rwa [dottedRoots_userId _ h] at hsub

/-- What the answer has is what a read gets afterwards. -/
theorem reading_of_answer (hundotted : call.request.Undotted)
    (h : (call.run M).exec c = (.ok data, c')) (hhas : Has data id v) :
    reading call.kind.schema c' id = some v := by
  obtain ⟨kind, user, env, network, request⟩ := call
  obtain ⟨y, hy, hexec⟩ := Rpc.exec_call_eq_ok h
  cases request with
  | create dto =>
    obtain rfl := Option.some.inj ((kind.handle_create _).symm.trans hy)
    exact (Shows.create kind.displayed (dottedRoots_message hundotted rfl)).reading
      (fun _ => has_toObject kind.displayed) hexec hhas
  | list page limit =>
    obtain rfl := Option.some.inj ((kind.handle_findByUser _).symm.trans hy)
    exact (Shows.findPage _ _).reading (fun _ => has_page) hexec hhas
  | findById text =>
    obtain rfl := Option.some.inj ((kind.handle_findById _).symm.trans hy)
    exact (Shows.findById text).reading (fun _ => has_toObject kind.displayed) hexec hhas
  | update text dto =>
    obtain rfl := Option.some.inj ((kind.handle_update _).symm.trans hy)
    exact (Shows.findOneAndUpdate _ _).reading (fun _ => has_toObject kind.displayed) hexec hhas
  | delete text =>
    obtain rfl := Option.some.inj ((kind.handle_delete _).symm.trans hy)
    exact (Shows.findOneAndUpdate _ _).reading (fun _ => has_toObject kind.displayed) hexec hhas

end ItemCall

/-! ## Requests -/

/-- The request does not create, update or delete the item. -/
def ItemCall.Spares (M : Mongoose) (call : ItemCall) (id : ObjectId) : Prop :=
  call.TextId ∧ (call.names M = some id → ¬ call.request.Writes)

theorem ItemCall.Spares.get {call : ItemCall} {id : ObjectId} (h : call.Spares M id)
    (c : Collection) : ((call.run M).exec c).2.get id = c.get id := by
  obtain ⟨htext, hreads⟩ := h
  cases hnames : call.names M with
  | none => rw [exec_unnamed htext hnames]
  | some id' =>
    by_cases hid : id' = id
    · subst hid
      have hkeep : ((call.run M).exec c).2 = c := by
        by_contra hne
        exact hreads hnames (call.writes_of_ne hne)
      rw [hkeep]
    · exact (atDoc_run htext hnames).others c id fun heq => hid heq.symm

/-- What a read of the item gets. -/
def Platform.reading (k : ItemKind × ObjectId) (b : Platform) : Option Value :=
  Database.reading k.1.schema (b.items k.1) k.2

namespace Exchange

section

variable (M : Mongoose) (bcrypt : Auth.Bcrypt) (jwt : Auth.Jwt) (config : Auth.AuthConfig) (x : Exchange)

/-- The request does not write the item. -/
def Spares (k : ItemKind × ObjectId) : Prop :=
  ∀ user request, x.Admits jwt config user (.items k.1 request) →
    (x.itemCall user k.1 request).Spares M k.2

/-- The answer has the item as `v`, by itself or in a list. -/
structure Tells (k : ItemKind × ObjectId) (b : Platform) (v : Value) : Prop where
  admits : ∃ user request, x.Admits jwt config user (.items k.1 request) ∧ request.Undotted
  has : Has ((x.response M bcrypt jwt config b).body.get "data") k.2 v

end

variable {x : Exchange} {b : Platform} {k : ItemKind × ObjectId} {v : Value}

theorem exec_items {user : JwtPayload} {kind : ItemKind} {request : ItemRequest} {c : Collection}
    {r : Except HttpException Value}
    (h : ((x.itemCall user kind request).run M).exec (b.items kind) = (r, c)) :
    (x.handleUser M bcrypt jwt config user (.items kind request)).exec b = (r, b.setItems kind c) := by
  unfold handleUser onItems
  rw [exec_zoom, h]

/-- What an answer tells of the item is what a read gets afterwards. -/
theorem Tells.reading (h : x.Tells M bcrypt jwt config k b v) :
    (x.after M bcrypt jwt config b).reading k = some v := by
  obtain ⟨⟨user, request, hadmits, hundotted⟩, hhas⟩ := h
  cases hrun : ((x.itemCall user k.1 request).run M).exec (b.items k.1) with
  | mk r c =>
    unfold response at hhas
    unfold after Platform.reading
    rw [exec_handle_admits hadmits, exec_items hrun] at hhas ⊢
    cases r with
    | error e => exact absurd hhas (not_has rfl)
    | ok data =>
      dsimp only
      rw [Platform.items_setItems_self]
      exact ItemCall.reading_of_answer hundotted hrun hhas

theorem Spares.reading (h : x.Spares M jwt config k) (b : Platform) :
    (x.after M bcrypt jwt config b).reading k = b.reading k := by
  have hitem : (x.after M bcrypt jwt config b).item k = b.item k := by
    by_cases hpart : x.part jwt config = some (.items k.1)
    · rcases part_cases hpart with ⟨e, -, he⟩ | ⟨user, e, hadmits, he⟩
      · cases e <;> cases he
      · cases e with
        | logout | users => cases he
        | items kind request =>
          obtain rfl : kind = k.1 := by
            injection he
          have hkeep := (h user request hadmits).get (b.items k.1)
          rw [after_admits hadmits]
          change ((b.setItems k.1 _).items k.1).get k.2 = (b.items k.1).get k.2
          rw [Platform.items_setItems_self]
          exact hkeep
    · have hkeep : (x.after M bcrypt jwt config b).part (.items k.1) = b.part (.items k.1) :=
        keyed_parts.others x (.items k.1) b trivial hpart
      exact congrArg (fun c : Collection => c.get k.2) hkeep
  exact congrArg (Option.map _) hitem

/-- A request that names another item, or none, spares this one. -/
theorem spares_of_item (htext : x.TextId jwt config) (h : x.item M jwt config ≠ some k) :
    x.Spares M jwt config k := by
  intro user request hadmits
  refine ⟨htext user k.1 request hadmits, ?_⟩
  intro hnames
  rw [item_admits hadmits, hnames] at h
  exact absurd rfl h

/-- A read that is answered gets what there is. -/
theorem response_read {user : JwtPayload} {s : String} (hup : x.network = .up)
    (hadmits : x.Admits jwt config user (.items k.1 (.findById s)))
    (hid : M.castId (.str s) = some k.2) (hreading : b.reading k = some v) :
    x.response M bcrypt jwt config b = x.respond (.ok (200, v)) := by
  obtain ⟨e, hanswer⟩ :=
    @ItemCall.exec_findById M (x.itemCall user k.1 (.findById s)) s rfl hup k.2 hid
  have hshown : shown (x.itemCall user k.1 (.findById s)).kind.schema (b.items k.1) k.2 = some v :=
    hreading
  have hrun := hanswer (b.items k.1)
  rw [hshown] at hrun
  unfold response
  rw [exec_handle_admits hadmits]
  change x.respond ((((x.itemCall user k.1 (.findById s)).run M).exec (b.items k.1)).1.map _) = _
  rw [hrun]
  rfl

end Exchange

/-! ## Events -/

/-- The reply to a request for items has the item as `v`. -/
structure Arrival.Tells (jwt : Auth.Jwt) (config : Auth.AuthConfig) (a : Arrival)
    (k : ItemKind × ObjectId) (r : Reply) (v : Value) : Prop where
  parsed : a.express.bodyError = none
  admits : ∃ user request, a.exchange.Admits jwt config user (.items k.1 request) ∧ request.Undotted
  has : Has (r.body.get "data") k.2 v

/-- The body of a reply is that of the answer. -/
theorem Arrival.Tells.exchange {a : Arrival} {b : Platform} {k : ItemKind × ObjectId} {r : Reply}
    {v : Value} (h : a.Tells jwt config k r v) (hreply : a.reply M bcrypt jwt config b = some r) :
    a.exchange.Tells M bcrypt jwt config k b v := by
  refine ⟨h.admits, ?_⟩
  have hhas := h.has
  rw [Arrival.reply_parsed h.parsed] at hreply
  rcases Express.body_of_send hreply with hnone | hbody
  · rw [hnone] at hhas
    exact absurd hhas (not_has rfl)
  · rwa [hbody] at hhas

namespace Event

section

variable (M : Mongoose) (bcrypt : Auth.Bcrypt) (jwt : Auth.Jwt) (config : Auth.AuthConfig) (e : Event)

def Spares (k : ItemKind × ObjectId) : Prop := ∀ x, e.exchange = some x → x.Spares M jwt config k

def Tells (k : ItemKind × ObjectId) (b : Platform) (v : Value) : Prop :=
  ∃ a r, e = .request a ∧ a.reply M bcrypt jwt config b = some r ∧ a.Tells jwt config k r v

end

end Event

/-- Each item is a register: replies show what it holds. -/
theorem register (k : ItemKind × ObjectId) :
    Register (Event.after M bcrypt jwt config) (Platform.reading k)
      (fun e b v => e.Tells M bcrypt jwt config k b v) fun e => e.Spares M jwt config k where
  shown e b v h := by
    obtain ⟨a, r, rfl, hreply, htells⟩ := h
    have hafter : (Event.request a).after M bcrypt jwt config b =
        a.exchange.after M bcrypt jwt config b := Arrival.after_parsed htells.parsed
    rw [hafter]
    exact (htells.exchange hreply).reading
  spared e b h := by
    unfold Event.after
    cases hx : e.exchange with
    | none => rfl
    | some x => exact (h x hx).reading b

/-- The steps that spare an item, as the register takes them. -/
theorem run_spares {s s' : Site} {ls : List (Event × Option Reply)} {k : ItemKind × ObjectId}
    (h : Run (Meeting (SiteStep M bcrypt jwt config) fun _ l => l.1.Spares M jwt config k) s ls s') :
    Run (Meeting (fun b (e : Event) b' => b' = e.after M bcrypt jwt config b)
      fun _ e => e.Spares M jwt config k) s.platform (ls.filterMap fun l => some l.1) s'.platform := by
  apply h.project
  · rintro s l s' e ⟨hstep, hspares⟩ he
    obtain rfl := Option.some.inj he
    exact ⟨hstep.platform, hspares⟩
  · intro s l s' _ hnone
    cases hnone

/-- What a reply has of an item, every later reply has and every later read gets, as long as no
request in between writes the item. -/
theorem run_coherent {s s₁ s' s'' : Site} {a : Arrival} {r : Reply}
    {between : List (Event × Option Reply)} {k : ItemKind × ObjectId} {v : Value}
    (hfirst : SiteStep M bcrypt jwt config s (.request a, some r) s₁)
    (htells : a.Tells jwt config k r v)
    (h : Run (Meeting (SiteStep M bcrypt jwt config) fun _ l => l.1.Spares M jwt config k)
      s₁ between s') {y : Arrival} {reply : Option Reply}
    (hlast : SiteStep M bcrypt jwt config s' (.request y, reply) s'') :
    (∀ r' w, reply = some r' → (Event.request y).Spares M jwt config k →
        y.Tells jwt config k r' w → w = v) ∧
      ∀ user id, y.express.bodyError = none →
        y.exchange.Admits jwt config user (.items k.1 (.findById id)) →
        M.castId (.str id) = some k.2 → y.exchange.network = .up →
        reply = y.express.send y.exchange.request.method (y.exchange.respond (.ok (200, v))) := by
  have hreply : a.reply M bcrypt jwt config s.platform = some r := congrArg Prod.fst hfirst.act
  have hanswer : y.reply M bcrypt jwt config s'.platform = reply := congrArg Prod.fst hlast.act
  have hshows : (Event.request a).Tells M bcrypt jwt config k s.platform v :=
    ⟨a, r, rfl, hreply, htells⟩
  have hrun := run_spares h
  rw [hfirst.platform] at hrun
  constructor
  · intro r' w hr' hspares hagain
    have hshowsAgain : (Event.request y).Tells M bcrypt jwt config k s'.platform w :=
      ⟨y, r', rfl, hanswer.trans hr', hagain⟩
    exact (register k).coherent hshows hrun hspares hshowsAgain
  · intro user id hparsed hadmits hid hup
    have hheld : s'.platform.reading k = some v := (register k).holds_of_shown hshows hrun
    rw [← hanswer, Arrival.reply_parsed hparsed, Exchange.response_read hup hadmits hid hheld]

/-! ### One todo -/

/-- Finn reads his first todo. -/
def finnReads : Exchange :=
  arriving .GET ["todos", finnId.toString] (some "Bearer access") []

/-- Neither another todo nor the end of the process changes what is read of the first one. -/
theorem run_coherent_finn :
    let created := finnAfter finnCreates .empty
    let more := finnAfter finnCreatesMore created
    let later := finnAfter finnMistakes more
    ∃ r, finnReply finnCreates .empty = some r ∧
      Entries.get (r.body.get "data").entries "title" = .str "Milk" ∧
      finnReply finnMistakes more = none ∧
      finnReply finnReads later =
        Express.plain.send .GET (finnReads.respond (.ok (200, r.body.get "data"))) := by
  intro created more later
  have hcreated : (finnReply finnCreates .empty).isSome = true := by decide +kernel
  have hmore : (finnReply finnCreatesMore created).isSome = true := by decide +kernel
  have hmistaken : finnReply finnMistakes more = none := by decide +kernel
  have hread : (finnReply finnReads later).isSome = true := by decide +kernel
  have htitle : (finnReply finnCreates .empty).map
      (fun r => Entries.get (r.body.get "data").entries "title") = some (.str "Milk") := by
    decide +kernel
  have hid : (finnReply finnCreates .empty).map
      (fun r => Entries.get (r.body.get "data").entries "_id") = some (.str finnId.toString) := by
    decide +kernel
  obtain ⟨r, hr⟩ := Option.isSome_iff_exists.mp hcreated
  rw [hr] at htitle hid
  -- what the first answer tells, and that the run after it spares the item
  have htells : finnCreates.plain.Tells (.single finnPayload) Auth.accessOnly (.todos, finnId) r
      (r.body.get "data") := by
    have hadmits : finnCreates.Admits (.single finnPayload) Auth.accessOnly (Auth.claims finnPayload)
        (.items .todos (.create (.obj [("title", .str "Milk")]))) := ⟨rfl, rfl, rfl⟩
    have hundotted : (ItemRequest.create (.obj [("title", .str "Milk")])).Undotted := by
      unfold ItemRequest.Undotted
      decide
    exact ⟨rfl, ⟨_, _, hadmits, hundotted⟩, Option.some.inj hid, .inl rfl⟩
  have hspares : ∀ x ∈ [finnCreatesMore, finnMistakes], Event.Spares .plain (.single finnPayload)
      Auth.accessOnly (.request x.plain) (.todos, finnId) := by
    intro x hx y hy
    obtain rfl := Option.some.inj hy
    have hother : x.item .plain (.single finnPayload) Auth.accessOnly ≠ some (.todos, finnId) := by
      simp only [List.mem_cons, List.not_mem_nil, or_false] at hx
      rcases hx with rfl | rfl <;> decide +kernel
    refine Exchange.spares_of_item ?_ hother
    intro user kind request hadmits
    simp only [List.mem_cons, List.not_mem_nil, or_false] at hx
    rcases hx with rfl | rfl <;> cases hadmits.1 <;> trivial
  have hstarted : Event.Spares .plain (.single finnPayload) Auth.accessOnly .started
      (.todos, finnId) := by
    intro y hy
    cases hy
  have hfirst : FinnStep ⟨1, .empty⟩ (.request finnCreates.plain, some r) ⟨1, created⟩ :=
    .answered one_pos hr
  have hrun : Run (Meeting FinnStep fun _ l => l.1.Spares .plain (.single finnPayload)
      Auth.accessOnly (.todos, finnId)) ⟨1, created⟩
      [(.request finnCreatesMore.plain, finnReply finnCreatesMore created),
       (.request finnMistakes.plain, none), (.started, none)] ⟨1, later⟩ :=
    .snoc (.snoc (.snoc (.nil _) ⟨finn_answered hmore, hspares _ (by simp)⟩)
      ⟨finn_unanswered hmistaken, hspares _ (by simp)⟩) ⟨.started, hstarted⟩
  have hreads : finnReads.Admits (.single finnPayload) Auth.accessOnly (Auth.claims finnPayload)
      (.items .todos (.findById finnId.toString)) := ⟨rfl, rfl, rfl⟩
  have hanswer := (run_coherent hfirst htells hrun (finn_answered hread)).2 _ _ rfl hreads
    (Mongoose.plain.castId_toString finnId) rfl
  exact ⟨r, hr, Option.some.inj htitle, hmistaken, hanswer⟩

end Gateway
