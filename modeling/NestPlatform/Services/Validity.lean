-- SUMMARY: When the documents of todos, books and posts are what their schemas declare, over whole runs.
import NestPlatform.Mongo.Validity
import NestPlatform.Posts.Api
import NestPlatform.Services.SoftDelete

/-!
# Validity over runs of the services

Todos, books and posts are created through the validators of their schemas and updated past
them. The services forward every body as it comes.
-/
namespace Services

open Js Mongo Nest Common Database Effect Transition

/-! ## The property -/

/-- What the three schemas declare of the stored documents. -/
structure Conforming (db : Collections) : Prop where
  rating : ∀ d ∈ (db .books).docs, ∃ n, d.fields "rating" = .num n ∧ .fin 0 ≤ n ∧ n ≤ .fin 5
  todoStatus : ∀ d ∈ (db .todos).docs,
    ∃ status ∈ ["pending", "in_progress", "completed"], d.fields "status" = .str status
  postStatus : ∀ d ∈ (db .posts).docs,
    ∃ status ∈ ["draft", "published", "archived"], d.fields "status" = .str status
  required : ∀ service ≠ .users, ∀ d ∈ (db service).docs, ∀ k p, service.schema.path k = some p →
    p.required = true → (d.fields k).nullish = false ∧ d.fields k ≠ .str ""

/-! ## The condition -/

def ItemsOperation.Within (M : Mongoose) (S : Schema) (env : Env) (c : Collection) :
    ItemsOperation → Prop
  | .create userId data => CreatesWithin M S (Entries.assign [("userId", userId)] data)
  | .update id data => ∀ p d, (byId id).matcher M S = some p →
      (M.scan env.seed c.docs).find? p = some d → UpdatesWithin M S d (.obj data)
  | _ => True

def PostsOperation.Within (M : Mongoose) (c : Collection) : PostsOperation → Prop
  | .create user dto =>
    CreatesWithin M PostSchema (Entries.assign [("userId", .str user.sub)] dto.entries)
  | .update id user dto => ∀ d, M.castId (.str id) = some d.id → c.get d.id = some d →
      Posts.MayChange user d → UpdatesWithin M PostSchema d dto
  | _ => True

/-- The body of a create request, or of an update of a stored document, keeps to the schema. -/
def Call.Within (M : Mongoose) (db : Collections) (call : Call) : Prop :=
  match call.op with
  | .todos op => op.Within M TodoSchema call.env (db .todos)
  | .books op => op.Within M BookSchema call.env (db .books)
  | .posts op => op.Within M (db .posts)
  | _ => True

/-! ## One call -/

variable {M : Mongoose} {env : Env} {c : Collection}

theorem Service.coherent {service : Service} (h : service ≠ .users) :
    service.schema.all SchemaPath.coherent = true := by
  cases service with
  | users => exact absurd rfl h
  | todos | books | posts => decide

section

variable {S : Schema} (hM : M.Typed) (hS : S.all SchemaPath.coherent = true)
include hM hS

theorem allConform_create (h : AllConform S c) {dto : Entries} (hdto : CreatesWithin M S dto) :
    AllConform S ((AbstractRepository.create M S env dto).exec c).2 := by
  cases hcreate : (AbstractRepository.create M S env dto).exec c with
  | mk r c' =>
    rcases AbstractRepository.exec_create hcreate with ⟨rfl, -⟩ | ⟨d, hnew, hd, hvalid, -, rfl⟩
    · exact h
    · exact h.insert hnew (construct_conforms hM hS hd hvalid hdto)

theorem allConform_update (h : AllConform S c) {filterQuery : Filter} {body : Value}
    (hbody : ∀ p d, filterQuery.matcher M S = some p → (M.scan env.seed c.docs).find? p = some d →
      UpdatesWithin M S d body) :
    AllConform S ((AbstractRepository.findOneAndUpdate M S env filterQuery (.body body)).exec c).2 := by
  rcases AbstractRepository.state_findOneAndUpdate filterQuery (.body body) c with
    hkeep | ⟨p, f, d, fields, hp, hf, hd, hfields, hput⟩
  · rw [hkeep]
    exact h
  · rw [hput]
    have hstored := h d (find?_scan_eq_some hd).1
    exact h.put ((hstored.update hM hS (hbody p d hp hd) hf hfields).touch hS env d.id)

end

theorem updatesWithin_deletedAt {S : Schema} (hdeletedAt : HasDeletedAt S) (d : Doc) (now : ℤ) :
    UpdatesWithin M S d (.obj [("deletedAt", .date now)]) := by
  refine updatesWithin_single (by decide) d ?_
  intro p hp hdeclared
  obtain rfl := Option.some.inj (hdeletedAt.symm.trans hp)
  cases hdeclared

theorem ItemsOperation.allConform (hM : M.Typed) {S : Schema}
    (hS : S.all SchemaPath.coherent = true) (hdeletedAt : HasDeletedAt S) {op : ItemsOperation}
    (h : AllConform S c) (hop : op.Within M S env c) :
    AllConform S ((op.run M env S).exec c).2 := by
  have hlist : ∀ (userId skip limit : Value),
      ((Items.ItemsService.findByUser M S env userId skip limit).exec c).2 = c :=
    fun _ _ _ => AbstractRepository.exec_findPage _ _ _
  unfold ItemsOperation.run
  cases op with
  | create userId data =>
    rw [exec_map]
    exact allConform_create hM hS h hop
  | findById id =>
    rw [exec_map]
    exact (AbstractRepository.exec_findById id c).symm ▸ h
  | findByUser userId skip limit | list userId skip limit =>
    rw [exec_map]
    exact (hlist userId skip limit).symm ▸ h
  | update id data =>
    rw [exec_map]
    exact allConform_update hM hS h hop
  | delete id =>
    rw [exec_map]
    exact allConform_update hM hS h fun p d _ _ => updatesWithin_deletedAt hdeletedAt d env.now

/-- A like or unlike writes back what the schema declares. -/
theorem conforms_overwrite {d post : Doc} (h : Conforms PostSchema d.fields)
    (r : Posts.LikeRequest M d.id) (hedit : r.edit (hydrate PostSchema [] d) = .ok (some post)) :
    Conforms PostSchema (overwrite PostSchema post d.fields) := by
  have hdeclared : ∀ p ∈ PostSchema, (p.required || p.restricted) = true →
      p.name ∉ ["likedBy", "likesCount"] ∧ p.promises .undefined = false := by decide
  intro k p hp
  cases hpath : p.required || p.restricted with
  | false => exact p.promises_of_undeclared hpath _
  | true =>
    obtain ⟨hmem, rfl⟩ := path_mem hp
    obtain ⟨hother, hmissing⟩ := hdeclared p hmem hpath
    have hstored := h p.name p hp
    have hdefined : d.fields p.name ≠ .undefined := by
      intro heq
      rw [heq, hmissing] at hstored
      cases hstored
    rw [Posts.overwrite_edited r hedit hother (Posts.hydrate_defined hdefined)]
    exact hstored

theorem PostsOperation.updatesWithin {op : PostsOperation} (hop : op.Within M c) {id : String}
    {user : JwtPayload} {body : Value} (hchange : Posts.changeOf env op = some (id, user, body))
    {d : Doc} (hid : M.castId (.str id) = some d.id) (hd : c.get d.id = some d)
    (howner : Posts.MayChange user d) : UpdatesWithin M PostSchema d body := by
  cases op with
  | update id' user' dto =>
    cases hchange
    exact hop d hid hd howner
  | publish id' user' =>
    cases hchange
    refine updatesWithin_single (by decide) d ?_
    intro p hp _
    cases hp
    have hcast : M.cast .string (.str "published") = some (.str "published") := M.cast_accepts rfl
    exact ⟨by simp [SchemaPath.set, Value.nullish, hcast, SchemaPath.setters], by decide, rfl⟩
  | delete id' user' =>
    cases hchange
    exact updatesWithin_deletedAt (Service.hasDeletedAt .posts) d env.now
  | create | list | getUserPosts | findById | like | unlike => cases hchange

theorem PostsOperation.allConform (hM : M.Typed) {op : PostsOperation}
    (h : AllConform PostSchema c) (hop : op.Within M c) :
    AllConform PostSchema ((op.run M env).exec c).2 := by
  have hS : Service.posts.schema.all SchemaPath.coherent = true := Service.coherent nofun
  have heffect := @Posts.apiEffect M env c op
  generalize Posts.eventOf op ((op.run M env).exec c).1 = event at heffect
  generalize ((op.run M env).exec c).2 = posts at heffect
  cases heffect with
  | idle => exact h
  | created hnew hd hvalid => exact h.insert hnew (construct_conforms hM hS hd hvalid hop)
  | changed hchange hid hd howner hf hfields =>
    have hstored := h _ (Collection.mem_of_get hd)
    have hbody := PostsOperation.updatesWithin hop hchange hid hd howner
    exact h.put ((hstored.update hM hS hbody hf hfields).touch hS env _)
  | reacted hreaction hd hedit =>
    rename_i d r edited
    cases edited with
    | none => exact h
    | some post =>
      have hstored := h d (Collection.mem_of_get hd)
      exact h.put ((conforms_overwrite hstored r hedit).touch hS env d.id)

/-! ## Runs -/

/-- What is kept over a run. -/
def Valid (db : Collections) : Prop := ∀ service ≠ .users, AllConform service.schema (db service)

theorem Valid.after (hM : M.Typed) {db : Collections} (h : Valid db) {call : Call}
    (hcall : call.Within M db) : Valid (call.after M db) := by
  obtain ⟨env, op⟩ := call
  have hlist : ∀ {filterQuery : Filter} {options : QueryOptions} {S : Schema} {c : Collection},
      ((Answer.page <$> AbstractRepository.findPage M S env filterQuery options).exec c).2 = c := by
    intro filterQuery options S c
    rw [exec_map]
    exact AbstractRepository.exec_findPage _ _ _
  intro service hservice
  unfold Call.after
  by_cases hself : service = op.service
  · subst hself
    rw [Function.update_self]
    have hstored := h op.service hservice
    cases op with
    | users op => exact absurd rfl hservice
    | todos op => exact op.allConform hM (Service.coherent hservice) rfl hstored hcall
    | books op => exact op.allConform hM (Service.coherent hservice) rfl hstored hcall
    | posts op => exact op.allConform hM hstored hcall
    | todosByStatus | booksByReadStatus | booksByGenre =>
      refine Eq.mpr (congrArg _ ?_) hstored
      exact hlist
  · rw [Function.update_of_ne hself]
    exact h service hservice

theorem Valid.conforming {db : Collections} (h : Valid db) : Conforming db where
  rating d hd := SchemaPath.promises_bounds (h .books nofun d hd "rating" _ rfl) rfl rfl
  todoStatus d hd := SchemaPath.promises_enum (h .todos nofun d hd "status" _ rfl) nofun
  postStatus d hd := SchemaPath.promises_enum (h .posts nofun d hd "status" _ rfl) nofun
  required service hservice d hd k p hp :=
    SchemaPath.promises_required (h service hservice d hd k p hp)

/-- In every run of the services whose bodies keep to the schemas, the stored todos, books and
posts are what their schemas declare. -/
theorem run_conforming (hM : M.Typed) {calls : List Call} {db : Collections}
    (h : Run (Meeting (Step M) (Call.Within M)) (fun _ => .empty) calls db) : Conforming db := by
  have hinit : Valid fun _ => .empty := by
    intro service _ d hd
    cases hd
  have hstep : ∀ db call db', Valid db → Meeting (Step M) (Call.Within M) db call db' →
      Valid db' := by
    rintro db call _ hdb ⟨rfl, hcall⟩
    exact hdb.after hM hcall
  exact (h.invariant hstep hinit).conforming

/-! ### One book -/

def emmaId : ObjectId := ⟨"0000000000000000000000b0", by decide⟩

def addEmma : Call :=
  ⟨⟨0, emmaId, 0⟩, .books (.create (.str "0000000000000000000000a1")
    [("userId", .str "0000000000000000000000a1"), ("title", .str "Emma"),
     ("author", .str "Jane Austen")])⟩

def rateEmma (rating : ℕ) : Call :=
  ⟨⟨1, emmaId, 0⟩, .books (.update (.str emmaId.toString)
    [("id", .str emmaId.toString), ("rating", .nat rating)])⟩

/-- Ann adds a book and rates it. -/
theorem run_conforming_rated :
    Conforming ((rateEmma 4).after .plain (addEmma.after .plain fun _ => .empty)) := by
  have hadd : addEmma.Within .plain fun _ => .empty := by
    intro k p hp hrestricted
    obtain rfl : k = "rating" := by
      obtain ⟨hmem, rfl⟩ := path_mem hp
      have hone : ∀ p ∈ BookSchema, p.restricted = true → p.name = "rating" := by decide
      exact hone p hmem hrestricted
    refine ⟨by decide, ?_⟩
    intro v hv
    have hkey : "rating" ∉ ["userId", "title", "author"] := by decide
    exact absurd (List.mem_map_of_mem (f := Prod.fst) hv) hkey
  have hrate : (rateEmma 4).Within .plain (addEmma.after .plain fun _ => .empty) := by
    intro p d _ _ k q hq _
    constructor
    · have hnone : operatorEntries [("id", .str emmaId.toString), ("rating", .nat 4)] = [] := by
        decide
      simp [hnone, mentions]
    · intro v w hv hset
      simp only [Value.entries_obj, List.mem_cons, Prod.mk.injEq, List.not_mem_nil, or_false] at hv
      rcases hv with ⟨rfl, -⟩ | ⟨rfl, rfl⟩
      · cases hq
      · cases hq
        cases hset
        decide
  exact run_conforming Mongoose.plain_typed (.snoc (.snoc (.nil _) ⟨rfl, hadd⟩) ⟨rfl, hrate⟩)

/-- Ann rates a book with seven out of five. -/
theorem rated_seven :
    Run (Step .plain) (fun _ => .empty) [addEmma, rateEmma 7]
        ((rateEmma 7).after .plain (addEmma.after .plain fun _ => .empty)) ∧
      ¬ Conforming ((rateEmma 7).after .plain (addEmma.after .plain fun _ => .empty)) := by
  refine ⟨.snoc (.snoc (.nil _) rfl) rfl, ?_⟩
  intro h
  obtain ⟨book, hbook, hrating⟩ :
      ∃ book ∈ ((rateEmma 7).after .plain (addEmma.after .plain fun _ => .empty) .books).docs,
        book.fields "rating" = .nat 7 := by
    refine ⟨_, List.mem_singleton_self _, ?_⟩
    decide
  obtain ⟨n, hn, -, hle⟩ := h.rating book hbook
  obtain rfl := Value.num.inj (hrating.symm.trans hn)
  revert hle
  decide

end Services
