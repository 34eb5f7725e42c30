-- SUMMARY: What a `PUT` of a todo or a book changes, and when that is the item of the path and the fields of the body.
import NestPlatform.Gateway.Isolation

/-!
# The frame of an update

The path id and the user are put under the body, and the whole of it is both the selector and the
update. So a body with an `id` of its own selects another item, and every update writes the
caller's id into `userId`.
-/
namespace Gateway

open Js Mongo Nest Common Database Effect

/-- `PUT /todos/:id` or `PUT /books/:id`, made with a verified token. -/
structure ItemPut where
  kind : ItemKind
  user : JwtPayload
  env : Env
  network : Network
  id : String
  dto : Value

namespace ItemPut

variable (M : Mongoose) (put : ItemPut)

def call : ItemCall := ⟨put.kind, put.user, put.env, put.network, .update put.id put.dto⟩

/-! ## Specification -/

/-- From `c` to `c'` the item of the path differs at most in the fields that the body names and in
`updatedAt`, and no other item does. -/
structure Frame (c c' : Collection) : Prop where
  others : ∀ id, M.castId (.str put.id) ≠ some id → c'.get id = c.get id
  absent : ∀ id, M.castId (.str put.id) = some id → c.get id = none → c'.get id = none
  named : ∀ id d, M.castId (.str put.id) = some id → c.get id = some d →
    ∃ d', c'.get id = some d' ∧
      ∀ k, k ∉ mentions put.dto.entries → k ≠ "updatedAt" → d'.fields k = d.fields k

/-! ## The condition on a request -/

/-- The message reaches the service, its `id` selects the item `d`, and the update takes its fields to
`fields`. -/
def Applies (c : Collection) (d : Doc) (fields : Fields) : Prop :=
  (∀ err, put.network ≠ .down err) ∧ ∃ p f,
    (byId (put.call.message.get "id")).matcher M put.kind.schema = some p ∧
    (Update.body (.obj put.call.message)).compile M put.kind.schema = some f ∧
    (M.scan put.env.seed c.docs).find? p = some d ∧ f d.id d.fields = some fields

/-- If an update is applied, then to the item of the path, and the owner is named in the body or is the
caller; or it finds its item as it leaves it. -/
def Aims (c : Collection) : Prop :=
  ∀ d fields, put.Applies M c d fields →
    M.castId (.str put.id) = some d.id ∧
        ("userId" ∈ mentions put.dto.entries ∨ d.fields "userId" = .str put.user.sub) ∨
      touch put.env d.id fields = d

/-! ## What is written -/

variable {M put} {c : Collection} {d : Doc} {fields : Fields}

theorem schema_unique (kind : ItemKind) : ∀ p ∈ kind.schema, p.unique = false := by
  cases kind with
  | todos => simp [ItemKind.schema, TodoSchema, versionKey]
  | books => simp [ItemKind.schema, BookSchema, versionKey]

theorem handle_update (put : ItemPut) :
    put.kind.handle M put.env put.call.rpc.pattern (encode put.call.rpc.payload.entries) =
      some (toObject put.kind.schema <$> Items.ItemsService.update M put.kind.schema put.env
        (put.call.message.get "id") put.call.message) :=
  put.kind.handle_update _

/-- A message that arrives is handled. -/
theorem exec_run (h : ∀ err, put.network ≠ .down err) (c : Collection) :
    ((put.call.run M).exec c).2 = ((AbstractRepository.findOneAndUpdate M put.kind.schema put.env
      (byId (put.call.message.get "id")) (.body (.obj put.call.message))).exec c).2 := by
  have hrun : ((put.call.run M).exec c).2 =
      ((toObject put.kind.schema <$> Items.ItemsService.update M put.kind.schema put.env
        (put.call.message.get "id") put.call.message).exec c).2 := by
    change ((put.call.rpc.call (put.kind.handle M put.env) put.network).exec c).2 = _
    unfold Rpc.call
    rw [handle_update]
    cases hnetwork : put.network with
    | down err => exact absurd hnetwork (h err)
    | up | replyLost => rfl
  rw [hrun, exec_map]
  rfl

theorem exec_of_applies (h : put.Applies M c d fields) :
    ((put.call.run M).exec c).2 = c.put (touch put.env d.id fields) := by
  obtain ⟨hnetwork, p, f, hp, hf, hd, hfields⟩ := h
  rw [exec_run hnetwork,
    AbstractRepository.exec_findOneAndUpdate_of_find (schema_unique put.kind) hp hf hd hfields]

theorem exec_of_not_applies (h : ∀ d fields, ¬ put.Applies M c d fields) :
    ((put.call.run M).exec c).2 = c := by
  by_cases hnetwork : ∀ err, put.network ≠ .down err
  · rw [exec_run hnetwork]
    rcases @AbstractRepository.state_findOneAndUpdate M put.kind.schema put.env
        (byId (put.call.message.get "id")) (.body (.obj put.call.message)) c with
      hkeep | ⟨p, f, d, fields, hp, hf, hd, hfields, -⟩
    · exact hkeep
    · exact absurd ⟨hnetwork, p, f, hp, hf, hd, hfields⟩ (h d fields)
  · simp only [ne_eq, not_forall, not_not] at hnetwork
    obtain ⟨err, herr⟩ := hnetwork
    change ((put.call.rpc.call (put.kind.handle M put.env) put.network).exec c).2 = c
    rw [herr]
    rfl

/-! ## The message -/

theorem message_eq (put : ItemPut) : put.call.message =
    encode (Entries.assign [("id", .str put.id), ("userId", .str put.user.sub)] put.dto.entries) := rfl

/-- A property of the message is one of the two or comes from the body. -/
theorem mem_message {k : String} {v : Value} (h : (k, v) ∈ put.call.message) :
    k = "id" ∨ k = "userId" ∨ ∃ w, (k, w) ∈ put.dto.entries ∧ v = encodeValue w := by
  rw [message_eq, encode] at h
  obtain ⟨⟨l, w⟩, hmem, heq⟩ := List.mem_map.mp h
  obtain ⟨rfl, rfl⟩ := Prod.mk.inj heq
  rcases Entries.mem_assign (List.mem_filter.mp hmem).1 with hown | hbody
  · rcases List.mem_cons.mp hown with heq | hown
    · exact .inl (Prod.mk.inj heq).1
    · exact .inr (.inl (Prod.mk.inj (List.mem_singleton.mp hown)).1)
  · exact .inr (.inr ⟨w, hbody, rfl⟩)

theorem mentions_encodeValue (k : String) (v : Value) :
    mentions [(k, encodeValue v)] = mentions [(k, v)] := by
  simp only [mentions, List.flatMap_singleton, entries_encodeValue]

theorem mem_mentions {es : Entries} {k : String} :
    k ∈ mentions es ↔ ∃ e ∈ es, k ∈ mentions [e] := by
  unfold mentions
  rw [List.mem_flatMap]
  simp only [List.flatMap_singleton]

/-- What the gateway adds is no operator. -/
theorem mentions_operators (put : ItemPut) :
    mentions (operatorEntries put.call.message) ⊆ mentions put.dto.entries := by
  intro k hk
  obtain ⟨⟨l, v⟩, hmem, hk⟩ := mem_mentions.mp hk
  obtain ⟨hmem, hoperator⟩ := List.mem_filter.mp hmem
  rcases mem_message hmem with rfl | rfl | ⟨w, hw, rfl⟩
  · simp [show isPlainKey "id" = true by decide] at hoperator
  · simp [show isPlainKey "userId" = true by decide] at hoperator
  · rw [mentions_encodeValue] at hk
    exact mem_mentions.mpr ⟨_, hw, hk⟩

theorem mentions_message {k : String} (h : k ∈ mentions put.call.message) :
    k = "id" ∨ k = "userId" ∨ k ∈ mentions put.dto.entries := by
  obtain ⟨⟨l, v⟩, hmem, hk⟩ := mem_mentions.mp h
  rcases mem_message hmem with rfl | rfl | ⟨w, hw, rfl⟩
  · exact .inl (List.mem_singleton.mp hk)
  · exact .inr (.inl (List.mem_singleton.mp hk))
  · rw [mentions_encodeValue] at hk
    exact .inr (.inr (mem_mentions.mpr ⟨_, hw, hk⟩))

/-- A body that does not name `userId` leaves the caller's there. -/
theorem keepsOwner (h : "userId" ∉ mentions put.dto.entries) : put.call.KeepsOwner := by
  refine ⟨?_, fun hk => h (mentions_operators put hk)⟩
  have hkey : "userId" ∉ Entries.keys put.dto.entries := by
    intro hkey
    obtain ⟨⟨k, v⟩, hmem, rfl⟩ := List.mem_map.mp hkey
    exact h (mem_mentions_of_isPlainKey hmem (by decide))
  rw [message_eq, get_encode (Entries.nodup_keys_assign (by simp [Entries.keys]) _),
    Entries.get_assign_of_notMem hkey]
  rfl

/-! ## What an update leaves alone -/

theorem path_id (kind : ItemKind) : kind.schema.path "id" = none := by
  cases kind <;> rfl

/-- The fields of the item that the body does not name, its owner excepted. -/
theorem Applies.frame (h : put.Applies M c d fields) {k : String}
    (hk : k ∉ mentions put.dto.entries) (howner : k ≠ "userId") : fields k = d.fields k := by
  obtain ⟨-, p, f, -, hf, -, hfields⟩ := h
  by_cases hid : k = "id"
  · subst hid
    rcases compileObject_cases hf hfields fun h => hk (mentions_operators put h) with
      hkeep | ⟨v, q, -, hq, -⟩
    · exact hkeep
    · rw [path_id] at hq
      cases hq
  · refine compileObject_frame hf hfields fun h => ?_
    rcases mentions_message h with h | h | h
    · exact hid h
    · exact howner h
    · exact hk h

/-- The owner becomes the caller unless the body names one. -/
theorem Applies.owner (h : put.Applies M c d fields) (hbody : "userId" ∉ mentions put.dto.entries) :
    fields "userId" = .str put.user.sub := by
  obtain ⟨-, p, f, -, hf, -, hfields⟩ := h
  exact (keepsOwner hbody).write hf hfields

theorem Applies.get (h : put.Applies M c d fields) : c.get d.id = some d := by
  obtain ⟨-, p, f, -, -, hd, -⟩ := h
  exact Collection.get_of_mem (find?_scan_eq_some hd).1

/-- An update of the path's item keeps to the frame if its owner may stay. -/
theorem Applies.frame_of_own (h : put.Applies M c d fields) (hid : M.castId (.str put.id) = some d.id)
    (howner : "userId" ∈ mentions put.dto.entries ∨ d.fields "userId" = .str put.user.sub) :
    put.Frame M c (c.put (touch put.env d.id fields)) where
  others id hne := by
    refine Collection.get_put_ne (d := touch put.env d.id fields) fun heq => hne ?_
    rw [heq]
    exact hid
  absent id hid' hnone := by
    obtain rfl := Option.some.inj (hid.symm.trans hid')
    rw [h.get] at hnone
    cases hnone
  named id d' hid' hd' := by
    obtain rfl := Option.some.inj (hid.symm.trans hid')
    obtain rfl := Option.some.inj (h.get.symm.trans hd')
    refine ⟨_, get_put_touch h.get put.env fields, fun k hk hupdated => ?_⟩
    rw [touch_of_ne hupdated]
    by_cases huser : k = "userId"
    · subst huser
      rw [h.owner hk, howner.resolve_left hk]
    · exact h.frame hk huser

theorem frame_refl (put : ItemPut) (c : Collection) : put.Frame M c c where
  others _ _ := rfl
  absent _ _ h := h
  named _ d _ hd := ⟨d, hd, fun _ _ _ => rfl⟩

/-- An update keeps to its frame exactly if it aims at the caller's item, or names an owner for it. -/
theorem frame_iff_aims (M : Mongoose) (put : ItemPut) (c : Collection) :
    put.Frame M c ((put.call.run M).exec c).2 ↔ put.Aims M c := by
  constructor
  · intro h d fields happlies
    rw [exec_of_applies happlies] at h
    by_cases hid : M.castId (.str put.id) = some d.id
    · by_cases hbody : "userId" ∈ mentions put.dto.entries
      · exact .inl ⟨hid, .inl hbody⟩
      · obtain ⟨d', hd', hnamed⟩ := h.named d.id d hid happlies.get
        obtain rfl := Option.some.inj ((get_put_touch happlies.get put.env fields).symm.trans hd')
        have howner := hnamed "userId" hbody (by decide)
        rw [touch_of_ne (by decide), happlies.owner hbody] at howner
        exact .inl ⟨hid, .inr howner.symm⟩
    · have hsame := h.others d.id hid
      rw [get_put_touch happlies.get, happlies.get] at hsame
      exact .inr (Option.some.inj hsame)
  · intro h
    by_cases happlies : ∃ d fields, put.Applies M c d fields
    · obtain ⟨d, fields, happlies⟩ := happlies
      rw [exec_of_applies happlies]
      rcases h d fields happlies with ⟨hid, howner⟩ | hsame
      · exact happlies.frame_of_own hid howner
      · have hid : (touch put.env d.id fields).id = d.id := rfl
        rw [(Collection.put_eq_self (Collection.mem_of_get happlies.get) hid).mpr hsame]
        exact frame_refl put c
    · rw [exec_of_not_applies fun d fields h => happlies ⟨d, fields, h⟩]
      exact frame_refl put c

/-! ### Two users -/

/-- A request by Bob, in a store where Ann and he have a todo each. -/
def bobsPut (id : ObjectId) (dto : Entries) : ItemPut :=
  ⟨.todos, bob, ⟨1, todoId, 0⟩, .up, id.toString, .obj dto⟩

def afterPut (id : ObjectId) (dto : Entries) : Collection :=
  (((bobsPut id dto).call.run .plain).exec (todosOf true .todos)).2

/-- Under the path of his own todo Bob renames Ann's; and a new title for hers makes it his. -/
theorem put_outside_frame :
    ¬ (bobsPut bobsTodoId [("id", .str todoId.toString), ("title", .str "Beer")]).Frame .plain
        (todosOf true .todos)
        (afterPut bobsTodoId [("id", .str todoId.toString), ("title", .str "Beer")]) ∧
      ¬ (bobsPut todoId [("title", .str "Beer")]).Frame .plain (todosOf true .todos)
        (afterPut todoId [("title", .str "Beer")]) := by
  constructor
  · intro h
    have hpath : Mongoose.plain.castId (.str bobsTodoId.toString) ≠ some todoId := by
      rw [Mongoose.plain.castId_toString]
      decide
    have hsame := congrArg (Option.map (·.fields "title")) (h.others todoId hpath)
    revert hsame
    decide
  · intro h
    obtain ⟨d', hd', hnamed⟩ := h.named todoId (itemOf todoId ann)
      (Mongoose.plain.castId_toString todoId) rfl
    have howner := hnamed "userId" (by decide) (by decide)
    have hbob : ((afterPut todoId [("title", .str "Beer")]).get todoId).map (·.fields "userId") =
        some (.str bob.sub) := by decide
    rw [hd', Option.map_some, howner] at hbob
    revert hbob
    decide

end ItemPut
end Gateway
