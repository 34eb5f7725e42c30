-- SUMMARY: Reads of todos and books by one user, and when the items of others do not show.
import NestPlatform.Gateway.Items
import NestPlatform.Lib.Relational

/-!
# Read isolation

A user lists own items and fetches items by id, in two stores that differ in the items of
other users. The list filters by the user of the token; the fetch by id does not.
-/
namespace Gateway

open Js Mongo Nest Common Database Effect

/-- The collections of todos and of books. -/
abbrev ItemStores := ItemKind → Collection

namespace ItemCall

/-- What the request answers and does to the collections. -/
def onStores (M : Mongoose) (call : ItemCall) : Effect ItemStores HttpException Value :=
  ExceptT.mk fun w => (((call.run M).exec (w call.kind)).1,
    Function.update w call.kind ((call.run M).exec (w call.kind)).2)

def Reads (call : ItemCall) : Prop :=
  match call.request with
  | .list _ _ | .findById _ => True
  | _ => False

end ItemCall

/-- The user's items, in their order. -/
def own (u : String) (c : Collection) : List Doc :=
  c.docs.filter fun d => decide (d.fields "userId" = .str u)

def SameOwn (u : String) (w w' : ItemStores) : Prop := ∀ kind, own u (w kind) = own u (w' kind)

/-- The item with the given id, as a reply carries it. -/
def shown (S : Schema) (c : Collection) (id : ObjectId) : Option Value :=
  (c.get id).map fun d => toObject S (hydrate S [] d)

/-- The request is answered and fetches an item by an id under which the two collections do not
show the same. -/
def ItemCall.TellsApart (M : Mongoose) (call : ItemCall) (c c' : Collection) : Prop :=
  match call.request with
  | .findById s => call.network = .up ∧ ∃ id, M.castId (.str s) = some id ∧
      shown call.kind.schema c id ≠ shown call.kind.schema c' id
  | _ => False

/-! ## One request -/

namespace ItemCall

variable {M : Mongoose} {call : ItemCall} {c c' : Collection}

theorem Reads.exec_run (h : call.Reads) (c : Collection) : ((call.run M).exec c).2 = c := by
  unfold Reads at h
  rcases call.exec_cases (M := M) c with
    hkeep | ⟨dto, d, hnew, hreq, -⟩ | ⟨u, p, f, d, fields, hwrite, -⟩
  · exact hkeep
  · rw [hreq] at h
    exact h.elim
  · unfold write at hwrite
    split at hwrite
    · rename_i hreq
      rw [hreq] at h
      exact h.elim
    · rename_i hreq
      rw [hreq] at h
      exact h.elim
    · cases hwrite

theorem Reads.exec_onStores (h : call.Reads) (w : ItemStores) :
    ((call.onStores M).exec w).2 = w := by
  change Function.update w call.kind ((call.run M).exec (w call.kind)).2 = w
  rw [h.exec_run, Function.update_eq_self]

/-- What a list of the user's items selects is the user's. -/
theorem filter_matcher {kind : ItemKind} {u : String} {p : Doc → Bool}
    (hp : Filter.matcher M kind.schema ([("userId", .str u)] ++ [("deletedAt", .null)]) = some p)
    (c : Collection) : c.docs.filter p = (own u c).filter p := by
  unfold own
  rw [List.filter_filter]
  apply List.filter_congr
  intro d _
  cases hd : p d with
  | false => rfl
  | true =>
    obtain ⟨here, hhere, hmatch⟩ := matcher_mem hp hd List.mem_cons_self (by decide)
    have hfield : fieldMatcher M kind.schema "userId" (.str u) = some (same (.str u)) := by
      unfold fieldMatcher
      rw [kind.path_userId]
      simp [SchemaPath.condition, isOperatorObject, set_userId]
    obtain rfl := Option.some.inj (hfield.symm.trans hhere)
    have howner : Value.str u = d.fields "userId" := by
      simpa [same, Value.nullish] using hmatch
    rw [decide_eq_true howner.symm, Bool.and_true]

/-- A list answers from the user's items. -/
theorem exec_list (hreq : ∃ page limit, call.request = .list page limit)
    (h : own call.user.sub c = own call.user.sub c') :
    ((call.run M).exec c).1 = ((call.run M).exec c').1 := by
  obtain ⟨kind, user, env, network, request⟩ := call
  obtain ⟨page, limit, rfl⟩ := hreq
  refine Rpc.exec_call_congr (kind.handle_findByUser _) ?_ network
  have hnodup : (Entries.keys (Value.entries
      (rpc ⟨kind, user, env, network, .list page limit⟩).payload)).Nodup :=
    (by decide : ["userId", "skip", "limit"].Nodup)
  have huser : Entries.get (encode (rpc ⟨kind, user, env, network, .list page limit⟩).payload.entries)
      "userId" = .str user.sub := get_encode hnodup "userId"
  rw [huser, exec_map, exec_map]
  refine congrArg (Except.map _) (AbstractRepository.exec_findPage_congr fun p hp => ?_)
  rw [filter_matcher hp, filter_matcher hp, h]

/-- A fetch that is answered shows what the collection has under the id, or tells that there is
nothing. -/
theorem exec_findById {s : String} (hreq : call.request = .findById s) (hup : call.network = .up)
    {id : ObjectId} (hid : M.castId (.str s) = some id) :
    ∃ e, ∀ c, ((call.run M).exec c).1 =
      match shown call.kind.schema c id with
      | some v => .ok v
      | none => .error e := by
  obtain ⟨kind, user, env, network, request⟩ := call
  obtain rfl : request = .findById s := hreq
  obtain rfl : network = .up := hup
  let remote : Rpc := kind.service.findById s
  let missing : Thrown :=
    .http (NotFoundException ("Document with id " ++ M.text (.str s) ++ " not found"))
  refine ⟨remote.catchError (rpcError missing), fun c => ?_⟩
  have hanswer : ((remote.call (kind.handle M env) .up).exec c).1 =
      remote.settle (.reply (handlerOutcome
        ((toObject kind.schema <$> AbstractRepository.findById M kind.schema env (.str s)).exec c).1)) :=
    Rpc.exec_call_up (kind.handle_findById _) c
  change ((remote.call (kind.handle M env) .up).exec c).1 = _
  rw [hanswer, exec_map]
  unfold shown
  cases hget : c.get id with
  | none =>
    rw [AbstractRepository.exec_findById_missing hid hget]
    rfl
  | some d =>
    rw [AbstractRepository.exec_findById_str hid hget]
    rfl

theorem exec_uncastable {s : String} (hreq : call.request = .findById s)
    (hid : M.castId (.str s) = none) : ((call.run M).exec c).1 = ((call.run M).exec c').1 := by
  obtain ⟨kind, user, env, network, request⟩ := call
  obtain rfl : request = .findById s := hreq
  refine Rpc.exec_call_congr (kind.handle_findById _) ?_ network
  have hrefused : ∀ c, (Items.ItemsService.findById M kind.schema env (.str s)).exec c =
      (.error (.error "CastError"), c) := AbstractRepository.exec_findById_uncastable hid
  change ((toObject kind.schema <$> Items.ItemsService.findById M kind.schema env (.str s)).exec c).1 =
    ((toObject kind.schema <$> Items.ItemsService.findById M kind.schema env (.str s)).exec c').1
  rw [exec_map, exec_map, hrefused, hrefused]

/-- A read is answered alike exactly if it does not tell the two collections apart. -/
theorem exec_read_iff (hreads : call.Reads) (hown : own call.user.sub c = own call.user.sub c') :
    ((call.run M).exec c).1 = ((call.run M).exec c').1 ↔ ¬ call.TellsApart M c c' := by
  unfold Reads at hreads
  unfold TellsApart
  cases hreq : call.request with
  | list page limit => exact iff_of_true (exec_list ⟨page, limit, hreq⟩ hown) id
  | findById s =>
    dsimp only
    by_cases hup : call.network = .up
    · cases hid : M.castId (.str s) with
      | none => exact iff_of_true (exec_uncastable hreq hid) (by simp)
      | some id =>
        obtain ⟨e, hanswer⟩ := exec_findById hreq hup hid
        rw [hanswer, hanswer]
        simp only [hup, Option.some.injEq, exists_eq_left', true_and, ne_eq, not_not]
        cases shown call.kind.schema c id <;> cases shown call.kind.schema c' id <;> simp
    · exact iff_of_true (Rpc.exec_call_unanswered hup c c') fun h => hup h.1
  | create | update | delete =>
    rw [hreq] at hreads
    exact hreads.elim

end ItemCall

/-! ## Sequences of requests -/

/-- Two stores with the same items of a user answer the user's reads alike exactly if no answered
fetch has the id of an item that they do not both show. -/
theorem reads_isolated_iff {M : Mongoose} {u : String} {w w' : ItemStores} (hown : SameOwn u w w')
    {calls : List ItemCall} (hcalls : ∀ call ∈ calls, call.Reads ∧ call.user.sub = u) :
    answers (ItemCall.onStores M) w calls = answers (ItemCall.onStores M) w' calls ↔
      ∀ call ∈ calls, ¬ call.TellsApart M (w call.kind) (w' call.kind) := by
  have hkeep : ∀ w, ∀ call ∈ calls, ((call.onStores M).exec w).2 = w := fun w call hcall =>
    (hcalls call hcall).1.exec_onStores w
  rw [answers_of_readOnly (hkeep w), answers_of_readOnly (hkeep w'), List.map_inj_left]
  refine forall₂_congr fun call hcall => ?_
  obtain ⟨hreads, rfl⟩ := hcalls call hcall
  exact ItemCall.exec_read_iff hreads (hown call.kind)

/-! ### Two users -/

def itemOf (id : ObjectId) (user : JwtPayload) : Doc where
  id := id
  fields := Fields.assign (fun _ => .undefined) [("userId", .str user.sub), ("title", .str "Milk")]

def bobsTodoId : ObjectId := ⟨"0000000000000000000000d2", by decide⟩

/-- Ann's todo, and perhaps Bob's. -/
def todosOf (bobs : Bool) : ItemStores
  | .todos =>
    if bobs then ⟨[itemOf todoId ann, itemOf bobsTodoId bob], (by decide : [todoId, bobsTodoId].Nodup)⟩
    else ⟨[itemOf todoId ann], List.nodup_singleton _⟩
  | .books => .empty

theorem sameOwn_ann : SameOwn ann.sub (todosOf false) (todosOf true) := by
  intro kind
  cases kind with
  | todos => rfl
  | books => rfl

/-- Ann's own todo is fetched alike, whether or not Bob has one. -/
theorem reads_isolated_ann :
    answers (ItemCall.onStores .plain) (todosOf false) [todoCall ann (.findById todoId.toString)] =
      answers (ItemCall.onStores .plain) (todosOf true) [todoCall ann (.findById todoId.toString)] := by
  have hreads : ∀ call ∈ [todoCall ann (.findById todoId.toString)],
      call.Reads ∧ call.user.sub = ann.sub := by
    intro call hcall
    obtain rfl := List.mem_singleton.mp hcall
    exact ⟨trivial, rfl⟩
  refine (reads_isolated_iff sameOwn_ann hreads).mpr fun call hcall => ?_
  obtain rfl := List.mem_singleton.mp hcall
  rintro ⟨-, id, hid, hshown⟩
  obtain rfl := Option.some.inj ((Mongoose.plain.castId_toString todoId).symm.trans hid)
  exact hshown rfl

/-- Ann learns from the answer to a fetch whether Bob has a todo. -/
theorem todo_shown :
    SameOwn ann.sub (todosOf false) (todosOf true) ∧
      answers (ItemCall.onStores .plain) (todosOf false)
          [todoCall ann (.findById bobsTodoId.toString)] ≠
        answers (ItemCall.onStores .plain) (todosOf true)
          [todoCall ann (.findById bobsTodoId.toString)] := by
  refine ⟨sameOwn_ann, fun h => ?_⟩
  have hanswer := (List.cons.inj h).1
  revert hanswer
  decide

end Gateway
