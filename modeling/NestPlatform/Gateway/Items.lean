-- SUMMARY: The `/todos` and `/books` routes of the gateway, and when every item stays with its owner.
import NestPlatform.Common.Guards
import NestPlatform.Gateway.Call
import NestPlatform.Items.Service
import NestPlatform.Lib.Transition

/-!
# The `/todos` and `/books` routes

The routes need a token and no role. The gateway puts the user of the token under the
body (`{ userId, ...dto }`, `{ id, userId, ...dto }`), so a body that names `userId`
or `id` replaces what the gateway put there.
-/
namespace Gateway

open Js Mongo Nest Common Database Effect Transition

inductive ItemKind where
  | todos
  | books
  deriving DecidableEq

namespace ItemKind

def service : ItemKind → ItemService
  | todos => TodosService
  | books => BooksService

def schema : ItemKind → Schema
  | todos => TodoSchema
  | books => BookSchema

def handle (M : Mongoose) (env : Env) : ItemKind → String → Entries → Option (Store Value)
  | todos => Items.TodosController.handle M env
  | books => Items.BooksController.handle M env

end ItemKind

inductive ItemRequest where
  | create (dto : Value)
  | list (page limit : QueryParam)
  | findById (id : String)
  | update (id : String) (dto : Value)
  | delete (id : String)

/-- One request, made with a verified token. -/
structure ItemCall where
  kind : ItemKind
  user : JwtPayload
  env : Env
  network : Network
  request : ItemRequest

/-- What the controllers of todos and books call. -/
def ItemsController.operation (user : JwtPayload) : ItemRequest → ItemOperation
  | .create dto => .create user.sub dto
  | .list page limit =>
      let page := page.orDefault 1
      let limit := limit.orDefault 10
      .findByUser user.sub (skip page limit) limit.toValue
  | .findById id => .findById id
  | .update id dto => .update id user.sub dto
  | .delete id => .delete id

namespace ItemCall

variable (call : ItemCall)

def rpc : Rpc := (ItemsController.operation call.user call.request).rpc call.kind.service

/-- The message as the service receives it. -/
def message : Entries := encode call.rpc.payload.entries

/-- What the request answers and does to the collection of its kind. -/
def run (M : Mongoose) : Effect Collection HttpException Value :=
  call.rpc.call (call.kind.handle M call.env) call.network

end ItemCall

/-! ## Runs, with who created and who changed each item -/

structure Ledger where
  items : Collection
  created : ObjectId → String → Prop
  changed : ObjectId → String → Prop

/-- The ledger after `user` has turned the items into `items`. -/
def Ledger.advance (l : Ledger) (user : String) (items : Collection) : Ledger where
  items := items
  created id v := l.created id v ∨ (v = user ∧ l.items.get id = none ∧ items.get id ≠ none)
  changed id v := l.changed id v ∨
    (v = user ∧ l.items.get id ≠ none ∧ items.get id ≠ l.items.get id)

def Ledger.empty : Ledger := ⟨.empty, fun _ _ => False, fun _ _ => False⟩

abbrev Ledgers := ItemKind → Ledger

def Ledgers.empty : Ledgers := fun _ => .empty

def ItemCall.after (M : Mongoose) (w : Ledgers) (call : ItemCall) : Ledgers :=
  Function.update w call.kind
    ((w call.kind).advance call.user.sub ((call.run M).exec (w call.kind).items).2)

def ItemStep (M : Mongoose) (w : Ledgers) (call : ItemCall) (w' : Ledgers) : Prop :=
  w' = call.after M w

/-- Every item has the user who created it as its owner, and only this user has
changed it. -/
def OwnerIntegrity (l : Ledger) : Prop :=
  ∀ id d, l.items.get id = some d → ∃ u, d.fields "userId" = .str u ∧
    (∀ v, l.created id v ↔ v = u) ∧ ∀ v, l.changed id v → v = u

/-! ## The condition on a request -/

namespace ItemCall

variable (call : ItemCall)

/-- The message still has the user of the token as `userId`, and no operator or dotted
key of it leads there. -/
def KeepsOwner : Prop :=
  call.message.get "userId" = .str call.user.sub ∧
    "userId" ∉ mentions (operatorEntries call.message)

/-- The item that the message's id selects, if any, belongs to the user of the token. -/
def SelectsOwn (M : Mongoose) (c : Collection) : Prop :=
  ∀ p d, (byId (call.message.get "id")).matcher M call.kind.schema = some p →
    (M.scan call.env.seed c.docs).find? p = some d → d.fields "userId" = .str call.user.sub

end ItemCall

/-- A body neither names another owner nor another user's item, and neither does the
id of the path. -/
def OwnRequest (M : Mongoose) (w : Ledgers) (call : ItemCall) : Prop :=
  match call.request with
  | .create _ => call.KeepsOwner
  | .update _ _ => call.KeepsOwner ∧ call.SelectsOwn M (w call.kind).items
  | .delete _ => call.SelectsOwn M (w call.kind).items
  | _ => True

/-! ## What a request can do -/

namespace ItemKind

variable {M : Mongoose} {env : Env} (kind : ItemKind) (dto : Entries)

theorem handle_create : kind.handle M env kind.service.patterns.CREATE dto =
    some (toObject kind.schema <$>
      Items.ItemsService.create M kind.schema env (dto.get "userId") dto) := by
  cases kind <;> rfl

theorem handle_findById : kind.handle M env kind.service.patterns.FIND_BY_ID dto =
    some (toObject kind.schema <$> Items.ItemsService.findById M kind.schema env (dto.get "id")) := by
  cases kind <;> rfl

theorem handle_findByUser : kind.handle M env kind.service.patterns.FIND_BY_USER dto =
    some (Page.toObject kind.schema <$> Items.ItemsService.findByUser M kind.schema env
      (dto.get "userId") (Items.skip dto) (Items.limit dto)) := by
  cases kind <;> rfl

theorem handle_update : kind.handle M env kind.service.patterns.UPDATE dto =
    some (toObject kind.schema <$>
      Items.ItemsService.update M kind.schema env (dto.get "id") dto) := by
  cases kind <;> rfl

theorem handle_delete : kind.handle M env kind.service.patterns.DELETE dto =
    some (toObject kind.schema <$> Items.ItemsService.delete M kind.schema env (dto.get "id")) := by
  cases kind <;> rfl

end ItemKind

namespace ItemCall

variable {M : Mongoose} (call : ItemCall)

/-- The update that the request makes of the item it selects. -/
def write : Option Update :=
  match call.request with
  | .update _ _ => some (.body (.obj call.message))
  | .delete _ => some (.body (.obj [("deletedAt", .date call.env.now)]))
  | _ => none

/-- A request leaves the items alone, inserts the item of a `create` or writes to the
item that its id selects first. -/
theorem exec_cases (c : Collection) :
    ((call.run M).exec c).2 = c ∨
      (∃ dto d, ∃ hnew : c.get d.id = none, call.request = .create dto ∧
        construct M call.kind.schema call.env
          (Entries.assign [("userId", call.message.get "userId")] call.message) = some d ∧
        ((call.run M).exec c).2 = c.insert d hnew) ∨
      ∃ u p f d fields, call.write = some u ∧
        (byId (call.message.get "id")).matcher M call.kind.schema = some p ∧
        u.compile M call.kind.schema = some f ∧
        (M.scan call.env.seed c.docs).find? p = some d ∧ f d.id d.fields = some fields ∧
        ((call.run M).exec c).2 = c.put (touch call.env d.id fields) := by
  rcases call.rpc.exec_call (call.kind.handle M call.env) call.network c with h | ⟨x, hx, h⟩
  · exact .inl h
  -- the request has reached its handler
  obtain ⟨kind, user, env, network, request⟩ := call
  unfold run
  rw [h]
  clear h
  cases request with
  | create dto =>
    obtain rfl := Option.some.inj ((kind.handle_create _).symm.trans hx)
    rw [exec_map]
    cases hexec : (Items.ItemsService.create M kind.schema env
        (Entries.get (encode _) "userId") (encode _)).exec c with
    | mk r c' =>
      rcases AbstractRepository.exec_create hexec with
        ⟨rfl, -⟩ | ⟨d, hnew, hd, -, -, rfl⟩
      · exact .inl rfl
      · exact .inr (.inl ⟨dto, d, hnew, rfl, hd, rfl⟩)
  | list page limit =>
    obtain rfl := Option.some.inj ((kind.handle_findByUser _).symm.trans hx)
    rw [exec_map]
    exact .inl (AbstractRepository.exec_findPage _ _ _)
  | findById id =>
    obtain rfl := Option.some.inj ((kind.handle_findById _).symm.trans hx)
    rw [exec_map]
    exact .inl (AbstractRepository.exec_findById _ _)
  | update id dto =>
    obtain rfl := Option.some.inj ((kind.handle_update _).symm.trans hx)
    rw [exec_map]
    rcases AbstractRepository.state_findOneAndUpdate _ _ c with
      hkeep | ⟨p, f, d, fields, hp, hf, hd, hfields, hput⟩
    · exact .inl hkeep
    · exact .inr (.inr ⟨_, p, f, d, fields, rfl, hp, hf, hd, hfields, hput⟩)
  | delete id =>
    obtain rfl := Option.some.inj ((kind.handle_delete _).symm.trans hx)
    rw [exec_map]
    rcases AbstractRepository.state_findOneAndUpdate _ _ c with
      hkeep | ⟨p, f, d, fields, hp, hf, hd, hfields, hput⟩
    · exact .inl hkeep
    · exact .inr (.inr ⟨_, p, f, d, fields, rfl, hp, hf, hd, hfields, hput⟩)

end ItemCall

/-! ## The invariant -/

namespace Ledger

/-- Only stored items have been created or changed. -/
def Known (l : Ledger) : Prop := ∀ id v, l.created id v ∨ l.changed id v → l.items.get id ≠ none

/-- In `items`, the item with the given id is as it was, or it belongs to `user` and did
so before if it existed. -/
def Touches (l : Ledger) (user : String) (items : Collection) (id : ObjectId) : Prop :=
  items.get id = l.items.get id ∨
    ∃ d', items.get id = some d' ∧ d'.fields "userId" = .str user ∧
      ∀ d, l.items.get id = some d → d.fields "userId" = .str user

variable {l : Ledger} {user : String} {items : Collection}

theorem advance_known (h : l.Known) (htouches : ∀ id, l.Touches user items id) :
    (l.advance user items).Known := by
  intro id v hid
  have hkeep : l.items.get id ≠ none → items.get id ≠ none := by
    intro hold
    rcases htouches id with hsame | ⟨d', hd', -⟩
    · rw [hsame]
      exact hold
    · rw [hd']
      exact Option.some_ne_none d'
  rcases hid with (hcreated | ⟨-, -, hnew⟩) | (hchanged | ⟨-, hold, -⟩)
  · exact hkeep (h id v (.inl hcreated))
  · exact hnew
  · exact hkeep (h id v (.inr hchanged))
  · exact hkeep hold

theorem advance_ownerIntegrity (h : OwnerIntegrity l) (hknown : l.Known)
    (htouches : ∀ id, l.Touches user items id) : OwnerIntegrity (l.advance user items) := by
  intro id d' hd'
  change items.get id = some d' at hd'
  rcases htouches id with hsame | ⟨d'', hd'', howner, hbefore⟩
  · -- an item that nothing happened to has the history it had
    obtain ⟨u, hu, hcreated, hchanged⟩ := h id d' (hsame ▸ hd')
    refine ⟨u, hu, ?_, ?_⟩
    · intro v
      rw [← hcreated v]
      exact or_iff_left fun hnew => hnew.2.2 (hsame.trans hnew.2.1)
    · rintro v (hv | ⟨-, -, hne⟩)
      · exact hchanged v hv
      · exact absurd hsame hne
  · obtain rfl := Option.some.inj (hd'.symm.trans hd'')
    refine ⟨user, howner, ?_⟩
    cases hold : l.items.get id with
    | none =>
      have hcreated : ∀ v, ¬ l.created id v := fun v hv => hknown id v (.inl hv) hold
      have hchanged : ∀ v, ¬ l.changed id v := fun v hv => hknown id v (.inr hv) hold
      constructor
      · intro v
        simp [advance, hcreated, hold, hd']
      · intro v
        simp [advance, hchanged, hold]
    | some d =>
      obtain ⟨u, hu, hcreated, hchanged⟩ := h id d hold
      obtain rfl : user = u := by simpa [hbefore d hold] using hu
      constructor
      · intro v
        simp [advance, hcreated, hold]
      · rintro v (hv | hv)
        · exact hchanged v hv
        · exact hv.1

end Ledger

/-! ## Requests that meet the condition -/

namespace ItemKind

theorem path_userId (kind : ItemKind) :
    kind.schema.path "userId" = some { name := "userId", type := .string, required := true } := by
  cases kind <;> rfl

end ItemKind

theorem nodup_keys_encode {o : Entries} (h : (Entries.keys o).Nodup) :
    (Entries.keys (encode o)).Nodup := by
  have hkeys : Entries.keys (encode o) =
      Entries.keys (o.filter fun e => decide (e.2 ≠ .undefined)) := by
    simp [Entries.keys, encode, Function.comp_def]
  rw [hkeys]
  exact h.sublist (List.filter_sublist.map Prod.fst)

/-- A string is stored as the `userId` that it is. -/
theorem set_userId (M : Mongoose) (s : String) :
    ({ name := "userId", type := .string, required := true } : SchemaPath).set M (.str s) =
      some (.str s) := by
  simp [SchemaPath.set, Value.nullish, M.cast_accepts (t := .string) (v := .str s) rfl,
    SchemaPath.setters]

namespace ItemCall

variable {M : Mongoose} {call : ItemCall}

theorem nodup_keys_message : (Entries.keys call.message).Nodup := by
  apply nodup_keys_encode
  unfold rpc
  cases call.request with
  | create dto => exact Entries.nodup_keys_assign (by simp [Entries.keys]) _
  | list page limit => exact (by decide : ["userId", "skip", "limit"].Nodup)
  | findById id => exact List.nodup_singleton _
  | update id dto => exact Entries.nodup_keys_assign (by simp [Entries.keys]) _
  | delete id => exact List.nodup_singleton _

theorem KeepsOwner.mem_message (h : call.KeepsOwner) :
    ("userId", .str call.user.sub) ∈ call.message := by
  have hmem := Entries.mem_of_get (o := call.message) (k := "userId") (by rw [h.1]; simp)
  rwa [h.1] at hmem

/-- The created item belongs to the user of the token. -/
theorem KeepsOwner.construct (h : call.KeepsOwner) {d : Doc}
    (hd : Mongo.construct M call.kind.schema call.env
      (Entries.assign [("userId", call.message.get "userId")] call.message) = some d) :
    d.fields "userId" = .str call.user.sub := by
  rw [h.1] at hd
  have hnodup : (Entries.keys (Entries.assign [("userId", .str call.user.sub)] call.message)).Nodup :=
    Entries.nodup_keys_assign (by simp [Entries.keys]) _
  have hroots : "userId" ∉
      dottedRoots (Entries.assign [("userId", .str call.user.sub)] call.message) := by
    intro hk
    rcases List.mem_append.mp (dottedRoots_assign _ _ hk) with hnone | hmessage
    · have hempty : isDottedKey "userId" = false := by decide
      simp [dottedRoots, Entries.keys, hempty] at hnone
    · exact h.2 (dottedRoots_subset _ hmessage)
  obtain ⟨⟨_, v⟩, hv, rfl⟩ := List.mem_map.mp
    (Entries.mem_keys_assign.mpr (.inl (List.mem_singleton_self "userId")) :
      "userId" ∈ Entries.keys (Entries.assign [("userId", .str call.user.sub)] call.message))
  have hvalue : v = .str call.user.sub := by
    rcases Entries.mem_assign hv with hhere | hmessage
    · cases List.mem_singleton.mp hhere
      rfl
    · exact (Entries.get_of_mem nodup_keys_message hmessage).symm.trans h.1
  subst hvalue
  exact construct_plain hd hnodup hv (by decide) call.kind.path_userId hroots (set_userId M _)
    (by simp) (by decide)

/-- The written item belongs to the user of the token if it did before. -/
theorem KeepsOwner.write {f : ObjectId → Fields → Option Fields} (h : call.KeepsOwner)
    (hf : (Update.body (.obj call.message)).compile M call.kind.schema = some f) {id : ObjectId}
    {x y : Fields} (hy : f id x = some y) : y "userId" = .str call.user.sub := by
  have hset := compileObject_plain hf hy nodup_keys_message h.mem_message (by decide)
    call.kind.path_userId h.2
  exact (Option.some.inj ((set_userId M _).symm.trans hset)).symm

/-- An item that a request writes to belongs to the user of the token, and still does
afterwards. -/
theorem write_own {w : Ledgers} (h : OwnRequest M w call) {u : Update} (hu : call.write = some u)
    {p : Doc → Bool} {f : ObjectId → Fields → Option Fields} {d : Doc} {fields : Fields}
    (hp : (byId (call.message.get "id")).matcher M call.kind.schema = some p)
    (hf : u.compile M call.kind.schema = some f)
    (hd : (M.scan call.env.seed (w call.kind).items.docs).find? p = some d)
    (hfields : f d.id d.fields = some fields) :
    d.fields "userId" = .str call.user.sub ∧ fields "userId" = .str call.user.sub := by
  unfold OwnRequest at h
  unfold ItemCall.write at hu
  cases hreq : call.request with
  | update id dto =>
    rw [hreq] at h hu
    cases hu
    exact ⟨h.2 p d hp hd, h.1.write hf hfields⟩
  | delete id =>
    rw [hreq] at h hu
    cases hu
    have howner := h p d hp hd
    have hmentions : "userId" ∉ ["deletedAt"] := by decide
    have hframe : fields "userId" = d.fields "userId" :=
      Update.compile_frame (by simp) hf hfields hmentions
    exact ⟨howner, hframe.trans howner⟩
  | _ =>
    rw [hreq] at hu
    cases hu

/-- A request that meets the condition touches only items of the user of its token. -/
theorem touches {w : Ledgers} (h : OwnRequest M w call) (id : ObjectId) :
    (w call.kind).Touches call.user.sub ((call.run M).exec (w call.kind).items).2 id := by
  rcases call.exec_cases (M := M) (w call.kind).items with
    hkeep | ⟨dto, d, hnew, hreq, hd, hput⟩ | ⟨u, p, f, d, fields, hu, hp, hf, hd, hfields, hput⟩
  · rw [hkeep]
    exact .inl rfl
  · rw [hput]
    by_cases hid : id = d.id
    · subst hid
      have howner : call.KeepsOwner := by
        unfold OwnRequest at h
        rw [hreq] at h
        exact h
      refine .inr ⟨d, Collection.get_insert_self hnew, howner.construct hd, ?_⟩
      intro d' hd'
      rw [hnew] at hd'
      cases hd'
    · exact .inl (Collection.get_insert_ne hid)
  · rw [hput]
    by_cases hid : id = d.id
    · subst hid
      have hget := Collection.get_of_mem (find?_scan_eq_some hd).1
      obtain ⟨hbefore, hafter⟩ := write_own h hu hp hf hd hfields
      refine .inr ⟨touch call.env d.id fields, get_put_touch hget call.env fields, ?_, ?_⟩
      · rw [touch_of_ne (by decide)]
        exact hafter
      · intro d' hd'
        obtain rfl := Option.some.inj (hget.symm.trans hd')
        exact hbefore
    · exact .inl (Collection.get_put_ne (d := touch call.env d.id fields) hid)

end ItemCall

/-- The invariant of a run whose requests all meet the condition. -/
def Ledgers.Owned (w : Ledgers) : Prop := ∀ kind, (w kind).Known ∧ OwnerIntegrity (w kind)

theorem Ledgers.owned_empty : Ledgers.empty.Owned := by
  intro kind
  refine ⟨?_, ?_⟩
  · intro id v h
    rcases h with h | h <;> exact h.elim
  · intro id d hd
    cases hd

theorem Ledgers.Owned.after {M : Mongoose} {w : Ledgers} {call : ItemCall} (h : w.Owned)
    (hown : OwnRequest M w call) : (call.after M w).Owned := by
  intro kind
  have htouches := ItemCall.touches hown
  unfold ItemCall.after
  by_cases hkind : kind = call.kind
  · subst hkind
    rw [Function.update_self]
    exact ⟨Ledger.advance_known (h _).1 htouches,
      Ledger.advance_ownerIntegrity (h _).2 (h _).1 htouches⟩
  · rw [Function.update_of_ne hkind]
    exact h kind

/-- In a run from empty collections, every todo and every book stays with the user who
created it, as long as no request names another owner or another user's item. -/
theorem run_ownerIntegrity {M : Mongoose} {w : Ledgers} {calls : List ItemCall}
    (h : Run (Meeting (ItemStep M) (OwnRequest M)) .empty calls w) (kind : ItemKind) :
    OwnerIntegrity (w kind) := by
  have hstep : ∀ w call w', Ledgers.Owned w →
      Meeting (ItemStep M) (OwnRequest M) w call w' → Ledgers.Owned w' := by
    intro w call w' hw hcall
    rw [hcall.1]
    exact hw.after hcall.2
  exact (h.invariant hstep Ledgers.owned_empty kind).2

/-! ### Two users -/

def annId : ObjectId := ⟨"0000000000000000000000a2", by decide⟩
def bobId : ObjectId := ⟨"0000000000000000000000b2", by decide⟩
def todoId : ObjectId := ⟨"0000000000000000000000d0", by decide⟩

def ann : JwtPayload := ⟨annId.toString, "ann@example.com", UserRole.USER⟩
def bob : JwtPayload := ⟨bobId.toString, "bob@example.com", UserRole.USER⟩

/-- A request for todos that arrives. -/
def todoCall (user : JwtPayload) (request : ItemRequest) : ItemCall :=
  ⟨.todos, user, ⟨0, todoId, 0⟩, .up, request⟩

def annCreates : ItemCall := todoCall ann (.create (.obj [("title", .str "Milk")]))

/-- The todo that exists after Ann has created it. -/
def annsTodo : Ledgers := annCreates.after .plain .empty

theorem annsTodo_created : (annsTodo .todos).created todoId ann.sub := by
  have hnew : ((annsTodo .todos).items.get todoId).isSome = true := by decide
  exact .inr ⟨rfl, rfl, Option.isSome_iff_ne_none.mp hnew⟩

/-- Ann creates a todo and completes it. -/
theorem run_ownerIntegrity_complete :
    OwnerIntegrity ((todoCall ann (.update todoId.toString
      (.obj [("status", .str "completed")]))).after .plain annsTodo .todos) := by
  have hcreate : OwnRequest .plain .empty annCreates := ⟨by decide, by decide⟩
  have hall : ∀ d ∈ (annsTodo .todos).items.docs, d.fields "userId" = .str ann.sub := by decide
  have hupdate : OwnRequest .plain annsTodo
      (todoCall ann (.update todoId.toString (.obj [("status", .str "completed")]))) := by
    refine ⟨⟨by decide, by decide⟩, ?_⟩
    intro p d _ hd
    exact hall d (find?_scan_eq_some hd).1
  exact run_ownerIntegrity (.snoc (.snoc (.nil _) ⟨rfl, hcreate⟩) ⟨rfl, hupdate⟩) .todos

/-- Bob updates Ann's todo: it is his from then on. -/
theorem update_takes_over :
    ¬ OwnerIntegrity ((todoCall bob (.update todoId.toString
      (.obj [("title", .str "Mine")]))).after .plain annsTodo .todos) := by
  intro h
  have howner : (((todoCall bob (.update todoId.toString (.obj [("title", .str "Mine")]))).after
      .plain annsTodo .todos).items.get todoId).map (·.fields "userId") = some (.str bob.sub) := by
    decide
  obtain ⟨d, hd, hbob⟩ := Option.map_eq_some_iff.mp howner
  obtain ⟨u, hu, hcreated, -⟩ := h todoId d hd
  have hann : ann.sub = u := (hcreated _).mp (.inl annsTodo_created)
  rw [hbob, ← hann] at hu
  exact absurd hu (by decide)

end Gateway
