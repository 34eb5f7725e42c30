-- SUMMARY: The list queries of the four services, and when their pages partition the documents they match.
import NestPlatform.Lib.Pages
import NestPlatform.Services.Operations

/-!
# Pages of the list queries

A page is a query of its own with `skip` and `limit`. The server sorts by the keys that the
query names, or not at all, and may order documents that compare equal anew for each query.
-/
namespace Services

open Js Mongo Common Database

/-! ## The order of the server -/

/-- The order of documents by one sort key, where `true` is descending. -/
def keyLE (le : Value → Value → Bool) : String × Bool → Doc → Doc → Bool
  | (k, false), a, b => le (a.fields k) (b.fields k)
  | (k, true), a, b => le (b.fields k) (a.fields k)

/-- The order of documents by sort keys. -/
def docLE (le : Value → Value → Bool) : List (String × Bool) → Doc → Doc → Bool
  | [] => fun _ _ => true
  | key :: sort => Pages.lex (keyLE le key) (docLE le sort)

/-- The server sorts by an order of values, then skips and limits. The order of the scan is
what orders documents that compare equal. -/
structure SortsBy (M : Mongoose) (le : Value → Value → Bool) : Prop where
  order : Pages.Order le
  window : ∀ {skip limit : ℕ} {sort docs}, 0 < limit →
    M.window { skip := .nat skip, limit := .nat limit, sort } docs =
      some (((docs.mergeSort (docLE le sort)).drop skip).take limit)

/-- `M` with another order of scans. -/
def rescan (M : Mongoose) (scan : ℕ → List Doc → List Doc)
    (hperm : ∀ seed docs, (scan seed docs).Perm docs) : Mongoose :=
  { M with scan := scan, scan_perm := hperm }

variable {M : Mongoose} {le : Value → Value → Bool}

theorem docLE_order (hle : Pages.Order le) (sort : List (String × Bool)) :
    Pages.Order (docLE le sort) := by
  induction sort with
  | nil => exact ⟨fun _ _ => .inl rfl, fun _ _ _ _ _ => rfl⟩
  | cons key sort ih =>
    refine .lex ?_ ih
    rcases key with ⟨k, _ | _⟩
    · exact hle.comap fun d : Doc => d.fields k
    · exact (hle.comap fun d : Doc => d.fields k).flip

theorem SortsBy.rescan (h : SortsBy M le) {scan : ℕ → List Doc → List Doc}
    {hperm : ∀ seed docs, (scan seed docs).Perm docs} : SortsBy (rescan M scan hperm) le :=
  ⟨h.order, h.window⟩

/-! ## The queries -/

inductive ListQuery where
  | todosByUser (userId : String)
  | todosByStatus (userId status : String)
  | booksByUser (userId : String)
  | booksByReadStatus (userId : String) (isRead : Bool)
  | booksByGenre (userId genre : String)
  | postsByUser (userId : String)
  | publishedPosts
  | postsByTag (tag : String)
  | users

namespace ListQuery

open Items Posts Users

def service : ListQuery → Service
  | todosByUser _ | todosByStatus _ _ => .todos
  | booksByUser _ | booksByReadStatus _ _ | booksByGenre _ _ => .books
  | postsByUser _ | publishedPosts | postsByTag _ => .posts
  | users => .users

def run (M : Mongoose) (env : Env) (skip limit : Value) : ListQuery → Store Page
  | todosByUser userId => TodosRepository.findByUser M env (.str userId) skip limit
  | todosByStatus userId status =>
    TodosRepository.findByStatus M env (.str userId) (.str status) skip limit
  | booksByUser userId => BooksRepository.findByUser M env (.str userId) skip limit
  | booksByReadStatus userId isRead =>
    BooksRepository.findByReadStatus M env (.str userId) (.bool isRead) skip limit
  | booksByGenre userId genre =>
    BooksRepository.findByGenre M env (.str userId) (.str genre) skip limit
  | postsByUser userId => PostsRepository.findByUser M env (.str userId) skip limit
  | publishedPosts => PostsRepository.findPublished M env skip limit
  | postsByTag tag => PostsRepository.findByTag M env (.str tag) skip limit
  | users => UsersRepository.list M env skip limit

/-- The filter that the query sends. -/
def filter : ListQuery → Filter
  | todosByUser userId | booksByUser userId | postsByUser userId =>
    [("userId", .str userId), ("deletedAt", .null)]
  | todosByStatus userId status =>
    [("userId", .str userId), ("status", .str status), ("deletedAt", .null)]
  | booksByReadStatus userId isRead =>
    [("userId", .str userId), ("isRead", .bool isRead), ("deletedAt", .null)]
  | booksByGenre userId genre =>
    [("userId", .str userId), ("genres", .str genre), ("deletedAt", .null)]
  | publishedPosts => [("status", .str "published"), ("deletedAt", .null)]
  | postsByTag tag => [("tags", .str tag), ("status", .str "published"), ("deletedAt", .null)]
  | users => []

/-- The sort that the query asks for. -/
def sort : ListQuery → List (String × Bool)
  | todosByStatus _ _ => [("priority", true), ("createdAt", true)]
  | users => []
  | _ => [("createdAt", true)]

theorem run_eq (q : ListQuery) (env : Env) (skip limit : Value) :
    q.run M env skip limit =
      AbstractRepository.findPage M q.service.schema env q.filter { skip, limit, sort := q.sort } := by
  cases q <;> rfl

/-- The documents that the filter selects. -/
def matching (M : Mongoose) (q : ListQuery) (c : Collection) : List Doc :=
  match q.filter.matcher M q.service.schema with
  | some p => c.docs.filter p
  | none => []

/-- The pages that one client asks for with the given page size, each in its own
environment, have each matching document once and the number of all. -/
def Partition (M : Mongoose) (q : ListQuery) (c : Collection) (L : ℕ) (envs : ℕ → Env) : Prop :=
  ∃ pages : ℕ → Page,
    (∀ k, (q.run M (envs k) (.nat (k * L)) (.nat L)).exec c = (.ok (pages k), c)) ∧
    (∀ k, (pages k).total = (q.matching M c).length) ∧
    ((List.range (Pages.count L (q.matching M c).length)).flatMap fun k => (pages k).items).Perm
      ((q.matching M c).map (hydrate q.service.schema [])) ∧
    ∀ k, Pages.count L (q.matching M c).length ≤ k → (pages k).items = []

/-- The pages are a partition however the scans are ordered. -/
def Partitions (M : Mongoose) (q : ListQuery) (c : Collection) (L : ℕ) : Prop :=
  ∀ scan hperm envs, Partition (rescan M scan hperm) q c L envs

/-! ## What a query matches -/

theorem matcher_rescan {scan : ℕ → List Doc → List Doc}
    {hperm : ∀ seed docs, (scan seed docs).Perm docs} (S : Schema) (f : Filter) :
    f.matcher (rescan M scan hperm) S = f.matcher M S := by
  induction f with
  | nil => rfl
  | cons e f ih =>
    simp only [Filter.matcher, ih]
    rfl

/-- A condition on a path that its type takes as it is. -/
def Direct (p : SchemaPath) : Value → Prop
  | .null => True
  | .bool _ => p.type = .boolean
  | .str _ => p.type = .string ∨ p.type = .stringArray
  | _ => False

theorem condition_isSome {p : SchemaPath} {v : Value} (h : Direct p v) :
    (p.condition M v).isSome := by
  unfold SchemaPath.condition
  cases v with
  | null => cases hp : p.type <;> simp [isOperatorObject, SchemaPath.set, Value.nullish]
  | bool b =>
    have hcast : M.cast .boolean (.bool b) = some (.bool b) := M.cast_accepts rfl
    have hp : p.type = .boolean := h
    simp [isOperatorObject, SchemaPath.set, Value.nullish, hp, hcast]
  | str s =>
    have hcast : M.cast .string (.str s) = some (.str s) := M.cast_accepts rfl
    rcases h with hp | hp <;>
      simp [isOperatorObject, SchemaPath.set, Value.nullish, hp, hcast]
  | _ => exact h.elim

theorem matcher_isSome {S : Schema} {f : Filter}
    (h : ∀ e ∈ f, e.1 ≠ "_id" ∧ ∃ p, S.path e.1 = some p ∧ Direct p e.2) :
    ∃ p, f.matcher M S = some p := by
  induction f with
  | nil => exact ⟨_, rfl⟩
  | cons e f ih =>
    obtain ⟨rest, hrest⟩ := ih fun e he => h e (List.mem_cons_of_mem _ he)
    obtain ⟨hid, p, hp, hdirect⟩ := h e List.mem_cons_self
    obtain ⟨here, hhere⟩ := Option.isSome_iff_exists.mp (condition_isSome (M := M) hdirect)
    refine ⟨fun d => here (d.fields e.1) && rest d, ?_⟩
    simp [Filter.matcher, hrest, hid, fieldMatcher, hp, hhere]

/-- Every list query reaches the server. -/
theorem matching_eq (M : Mongoose) (q : ListQuery) (c : Collection) :
    ∃ p, q.filter.matcher M q.service.schema = some p ∧ q.matching M c = c.docs.filter p := by
  obtain ⟨p, hp⟩ : ∃ p, q.filter.matcher M q.service.schema = some p := by
    refine matcher_isSome ?_
    cases q <;> simp [filter, service, Service.schema, Schema.path, TodoSchema, BookSchema, PostSchema, Direct]
  exact ⟨p, hp, by rw [matching, hp]⟩

theorem matching_rescan {scan : ℕ → List Doc → List Doc}
    {hperm : ∀ seed docs, (scan seed docs).Perm docs} (q : ListQuery) (c : Collection) :
    q.matching (rescan M scan hperm) c = q.matching M c := by
  rw [matching, matching, matcher_rescan]

/-! ## Pages -/

def zeroId : ObjectId := ⟨"000000000000000000000000", by decide⟩

/-- The matching documents as the server orders them for one query. -/
def ordered (M : Mongoose) (le : Value → Value → Bool) (q : ListQuery) (c : Collection)
    (env : Env) : List Doc :=
  (M.scan env.seed (q.matching M c)).mergeSort (docLE le q.sort)

theorem ordered_arranges (hM : SortsBy M le) (q : ListQuery) (c : Collection) (env : Env) :
    Pages.Arranges (docLE le q.sort) (q.matching M c) (q.ordered M le c env) where
  perm := (List.mergeSort_perm _ _).trans (M.scan_perm _ _)
  sorted := by
    have horder := docLE_order hM.order q.sort
    refine List.pairwise_mergeSort horder.trans (fun a b => ?_) _
    simpa using horder.total a b

/-- A query returns the page of its order. -/
theorem exec_run (hM : SortsBy M le) (q : ListQuery) (c : Collection) (env : Env) {L : ℕ}
    (hL : 0 < L) (k : ℕ) :
    (q.run M env (.nat (k * L)) (.nat L)).exec c =
      (.ok { items := (Pages.page L k (q.ordered M le c env)).map (hydrate q.service.schema [])
             total := (q.matching M c).length }, c) := by
  obtain ⟨p, hp, hmatching⟩ := matching_eq M q c
  have hwindow : M.window { skip := .nat (k * L), limit := .nat L, sort := q.sort }
      (M.scan env.seed (c.docs.filter p)) = _ := hM.window hL
  rw [run_eq, AbstractRepository.findPage, AbstractRepository.find,
    AbstractRepository.countDocuments, Effect.exec_bind, exec_query]
  simp only [Mongo.find, hp, hwindow]
  rw [Effect.exec_bind, exec_query]
  simp only [Mongo.countDocuments, hp, ordered, hmatching, List.countP_eq_length_filter]
  rfl

/-- The items of all pages are the pages of the orders. -/
theorem items_eq (q : ListQuery) (c : Collection) (L : ℕ) (envs : ℕ → Env) :
    ((List.range (Pages.count L (q.matching M c).length)).flatMap fun k =>
        (Pages.page L k (q.ordered M le c (envs k))).map (hydrate q.service.schema [])) =
      (Pages.concat L (q.matching M c).length fun k => q.ordered M le c (envs k)).map
        (hydrate q.service.schema []) :=
  List.map_flatMap.symm

theorem partition_of_cut (hM : SortsBy M le) (q : ListQuery) (c : Collection) {L : ℕ} (hL : 0 < L)
    (hcut : Pages.Cut (docLE le q.sort) L (q.matching M c)) (envs : ℕ → Env) :
    q.Partition M c L envs := by
  have harranges := fun k => q.ordered_arranges hM c (envs k)
  refine ⟨_, fun k => q.exec_run hM c (envs k) hL k, fun _ => rfl, ?_, fun k hk => ?_⟩
  · dsimp only
    rw [items_eq]
    exact (hcut.concat_perm (docLE_order hM.order _) hL harranges).map _
  · dsimp only
    rw [← (harranges k).perm.length_eq] at hk
    rw [Pages.page_eq_nil hL hk, List.map_nil]

/-- A client whose pages are a partition meets no document twice. -/
theorem Partition.nodup {q : ListQuery} {c : Collection} {L : ℕ} {envs : ℕ → Env}
    (hM : SortsBy M le) (hL : 0 < L) (h : q.Partition M c L envs) :
    (Pages.concat L (q.matching M c).length fun k => q.ordered M le c (envs k)).Nodup := by
  obtain ⟨pages, hpages, -, hitems, -⟩ := h
  have hpage : ∀ k, (pages k).items =
      (Pages.page L k (q.ordered M le c (envs k))).map (hydrate q.service.schema []) := by
    intro k
    have hrun := (hpages k).symm.trans (q.exec_run hM c (envs k) hL k)
    simp only [Prod.mk.injEq, Except.ok.injEq, and_true] at hrun
    rw [hrun]
  simp only [hpage, items_eq] at hitems
  have hids := hitems.map Doc.id
  rw [List.map_map, List.map_map] at hids
  obtain ⟨p, -, hmatching⟩ := matching_eq M q c
  have hnodup : ((q.matching M c).map (Doc.id ∘ hydrate q.service.schema [])).Nodup := by
    rw [hmatching]
    exact c.nodup.sublist (List.filter_sublist.map Doc.id)
  exact .of_map _ (hids.nodup_iff.mpr hnodup)

open Classical in
/-- The scans that show the matching documents in the given orders. -/
theorem cut_of_partitions (hM : SortsBy M le) (q : ListQuery) (c : Collection) {L : ℕ} (hL : 0 < L)
    (h : q.Partitions M c L) : Pages.Cut (docLE le q.sort) L (q.matching M c) := by
  refine Pages.cut_of_nodup (docLE_order hM.order _) hL (q.ordered_arranges hM c ⟨0, zeroId, 0⟩) ?_
  intro lists hlists
  let scan (seed : ℕ) (docs : List Doc) := if docs = q.matching M c then lists seed else docs
  have hperm : ∀ seed docs, (scan seed docs).Perm docs := by
    intro seed docs
    by_cases hdocs : docs = q.matching M c
    · simp only [scan, if_pos hdocs]
      exact hdocs ▸ (hlists seed).perm
    · simp only [scan, if_neg hdocs]
      exact .refl _
  have hnodup := (h scan hperm fun k => ⟨0, zeroId, k⟩).nodup hM.rescan hL
  have hordered : ∀ k, q.ordered (rescan M scan hperm) le c ⟨0, zeroId, k⟩ = lists k := by
    intro k
    rw [ordered, matching_rescan]
    change (scan k (q.matching M c)).mergeSort _ = _
    simp only [scan, if_pos]
    exact List.mergeSort_of_pairwise (hlists k).sorted
  simpa only [hordered, matching_rescan] using hnodup

/-- The pages of a list query are a partition, however the scans are ordered, exactly if no
page ends between documents that compare equal. -/
theorem partitions_iff (hM : SortsBy M le) (q : ListQuery) (c : Collection) {L : ℕ} (hL : 0 < L) :
    q.Partitions M c L ↔ Pages.Cut (docLE le q.sort) L (q.matching M c) := by
  constructor
  · exact q.cut_of_partitions hM c hL
  · intro hcut scan hperm envs
    refine q.partition_of_cut hM.rescan c hL ?_ envs
    rw [matching_rescan]
    exact hcut

/-! ## Two collections -/

/-- Dates by time, after everything else. -/
def timeLE : Value → Value → Bool
  | .date x, .date y => x ≤ y
  | .date _, _ => false
  | _, _ => true

theorem timeLE_total (a b : Value) : timeLE a b = true ∨ timeLE b a = true := by
  cases a with
  | date x =>
    cases b with
    | date y => simpa [timeLE] using Int.le_total x y
    | _ => exact .inr rfl
  | _ => exact .inl rfl

theorem timeLE_trans {a b c : Value} (hab : timeLE a b = true) (hbc : timeLE b c = true) :
    timeLE a c = true := by
  cases a with
  | date x =>
    cases b with
    | date y =>
      cases c with
      | date z =>
        simp only [timeLE, decide_eq_true_eq] at hab hbc ⊢
        exact hab.trans hbc
      | _ => cases hbc
    | _ => cases hab
  | _ => rfl

def natOf : Value → ℕ
  | .num (.fin q) => q.num.toNat
  | _ => 0

/-- The server, for sorts by dates. -/
def byTime : Mongoose :=
  { Mongoose.plain with
    window := fun o docs =>
      some (((docs.mergeSort (docLE timeLE o.sort)).drop (natOf o.skip)).take (natOf o.limit))
    window_subset := by
      rintro o docs out h d hd
      cases h
      exact List.mem_mergeSort.mp (List.mem_of_mem_drop (List.mem_of_mem_take hd)) }

theorem sortsBy_byTime : SortsBy byTime timeLE where
  order :=
    { total := timeLE_total
      trans := fun _ _ _ => timeLE_trans }
  window _ := rfl

def firstId : ObjectId := ⟨"0000000000000000000000e1", by decide⟩
def secondId : ObjectId := ⟨"0000000000000000000000e2", by decide⟩

/-- Two documents of one user, made at the given times. -/
def twoMade (first second : ℤ) : Collection where
  docs :=
    [⟨firstId, Fields.assign (fun _ => .undefined) [("userId", .str "u1"), ("createdAt", .date first)]⟩,
     ⟨secondId, Fields.assign (fun _ => .undefined) [("userId", .str "u1"), ("createdAt", .date second)]⟩]
  nodup := (by decide : [firstId, secondId].Nodup)

theorem matching_twoMade (first second : ℤ) :
    (todosByUser "u1").matching byTime (twoMade first second) = (twoMade first second).docs := rfl

theorem partitions_twoMade : (todosByUser "u1").Partitions byTime (twoMade 5 7) 1 := by
  refine (partitions_iff sortsBy_byTime _ _ (by decide)).mpr ?_
  intro k hpos hinside
  rw [matching_twoMade] at hinside ⊢
  obtain rfl : k = 1 := by
    change k * 1 < 2 at hinside
    omega
  exact ⟨_, List.mem_cons_of_mem _ List.mem_cons_self, by decide⟩

/-- Two todos of one millisecond, on pages of one: the same todo can be on both. -/
theorem not_partitions_twoMade : ¬ (todosByUser "u1").Partitions byTime (twoMade 5 5) 1 := by
  intro h
  obtain ⟨d, hd, hcount⟩ :=
    (todosByUser "u1").cut_of_partitions sortsBy_byTime (twoMade 5 5) (by decide) h 1 (by decide)
      (by rw [matching_twoMade]; decide)
  rw [matching_twoMade] at hd hcount
  rcases List.mem_cons.mp hd with rfl | hd
  · revert hcount
    decide
  · obtain rfl := List.mem_singleton.mp hd
    revert hcount
    decide

end ListQuery
end Services
