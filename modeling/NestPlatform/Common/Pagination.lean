-- SUMMARY: The pagination helpers: what is asked for, normalised, and the links between the pages of a result.
import NestPlatform.Js.Double
import NestPlatform.Js.Math
import NestPlatform.Lib.Pages

/-!
# Pagination helpers

`normalizePagination` turns the query of a list request into numbers, and
`buildPaginatedResult` describes one page of what was found, with the links to the pages
before and after it.
-/
namespace Common

open Js

/-! ## The helpers -/

/-- `page` or `limit` of a request: absent, a number, or the text of the URL. -/
inductive QueryParam where
  | absent
  | num (n : Number)
  | str (s : String)
  deriving DecidableEq

/-- `Number(v)`; an absent parameter is `undefined`. -/
def QueryParam.toNumber : QueryParam → Number
  | .absent => .nan
  | .num n => n
  | .str s => stringToNumber s

/-- `Number(v)`, as the double that it is. -/
def QueryParam.toDouble (v : QueryParam) : Number := v.toNumber.rounded

def QueryParam.toValue : QueryParam → Value
  | .absent => .undefined
  | .num n => .num n
  | .str s => .str s

/-- A parameter of a controller that has a default. -/
def QueryParam.orDefault (n : ℕ) : QueryParam → QueryParam
  | .absent => .num n
  | v => v

@[simp] theorem QueryParam.toNumber_num (n : Number) : (QueryParam.num n).toNumber = n := rfl

/-- The properties of the query that the helper reads. -/
structure PaginationQuery where
  page : QueryParam := .absent
  limit : QueryParam := .absent
  sortBy : Option String := none
  sortOrder : Option String := none

structure NormalizedPagination where
  page : Number
  limit : Number
  skip : Number
  sort : String × Int
  deriving DecidableEq

def normalizePagination (query : PaginationQuery) : NormalizedPagination :=
  let page := Number.max (.fin 1) (query.page.toNumber.or (.fin 1))
  let limit := Number.min (.fin 100) (Number.max (.fin 1) (query.limit.toNumber.or (.fin 20)))
  -- an empty name is as good as none
  let sortBy := if query.sortBy.getD "" = "" then "createdAt" else query.sortBy.getD ""
  let sortOrder := if query.sortOrder = some "asc" then 1 else -1
  { page, limit, skip := (page - .fin 1) * limit, sort := (sortBy, sortOrder) }

structure PaginatedResult.Meta where
  total : Number
  page : Number
  limit : Number
  totalPages : Number
  hasNext : Bool
  hasPrev : Bool

structure PaginatedResult (α : Type*) where
  data : List α
  «meta» : PaginatedResult.Meta

def buildPaginatedResult {α : Type*} (data : List α) (total page limit : Number) :
    PaginatedResult α :=
  let totalPages := Number.max (.fin 1) (Number.ceil (total / limit))
  { data
    «meta» :=
      { total, page, limit, totalPages
        hasNext := page < totalPages
        hasPrev := .fin 1 < page } }

/-! ## Normalised queries -/

section Normalized

/-- A finite number without fraction. -/
def Whole (n : Number) : Prop := ∃ z : ℤ, n = .fin z

/-- What the doc promises of `normalizePagination`: values that the database takes as they
are, the values of the request if they are such, and the same again for the result. -/
structure MongoReady (query : PaginationQuery) : Prop where
  page : ∃ n : ℕ, 1 ≤ n ∧ (normalizePagination query).page = .fin n
  limit : ∃ n : ℕ, 1 ≤ n ∧ n ≤ 100 ∧ (normalizePagination query).limit = .fin n
  skip : (normalizePagination query).skip =
    ((normalizePagination query).page - .fin 1) * (normalizePagination query).limit
  skip_nat : ∃ n : ℕ, (normalizePagination query).skip = .fin n
  keeps : ∀ n m : ℕ, 1 ≤ n → 1 ≤ m → m ≤ 100 → query.page.toNumber = .fin n →
    query.limit.toNumber = .fin m →
    (normalizePagination query).page = .fin n ∧ (normalizePagination query).limit = .fin m
  again : normalizePagination { query with
    page := .num (normalizePagination query).page
    limit := .num (normalizePagination query).limit } = normalizePagination query

theorem page_cases (x : Number) :
    Number.fin 1 < x ∧ Number.max (.fin 1) (x.or (.fin 1)) = x ∨
      ¬ Number.fin 1 < x ∧ Number.max (.fin 1) (x.or (.fin 1)) = .fin 1 := by
  cases x with
  | nan => exact .inr ⟨id, by simp⟩
  | posInf => exact .inl ⟨trivial, rfl⟩
  | negInf => exact .inr ⟨id, rfl⟩
  | fin a =>
    rw [Number.fin_lt_fin]
    by_cases ha : a = 0
    · exact .inr ⟨by rw [ha]; norm_num, by simp [ha]⟩
    · rw [Number.fin_or ha, Number.max_fin]
      rcases lt_or_ge 1 a with hlt | hge
      · exact .inl ⟨hlt, by rw [max_eq_right hlt.le]⟩
      · exact .inr ⟨not_lt.mpr hge, by rw [max_eq_left hge]⟩

theorem limit_cases (x : Number) :
    Number.fin 1 < x ∧ Number.max (.fin 1) (x.or (.fin 20)) = x ∨
      ¬ Number.fin 1 < x ∧ ∃ n : ℕ, 1 ≤ n ∧ n ≤ 100 ∧
        Number.max (.fin 1) (x.or (.fin 20)) = .fin n := by
  cases x with
  | nan => exact .inr ⟨id, 20, by omega, by omega, by norm_num⟩
  | posInf => exact .inl ⟨trivial, rfl⟩
  | negInf => exact .inr ⟨id, 1, by omega, by omega, by norm_num⟩
  | fin a =>
    rw [Number.fin_lt_fin]
    by_cases ha : a = 0
    · exact .inr ⟨by rw [ha]; norm_num, 20, by omega, by omega, by norm_num [ha]⟩
    · rw [Number.fin_or ha, Number.max_fin]
      rcases lt_or_ge 1 a with hlt | hge
      · exact .inl ⟨hlt, by rw [max_eq_right hlt.le]⟩
      · refine .inr ⟨not_lt.mpr hge, 1, le_rfl, by omega, ?_⟩
        rw [max_eq_left hge, Nat.cast_one]

/-- The numeric values of page and limit are not between the whole numbers that are let
through: each is whole, or replaced by a bound or a default. -/
def Clamped (query : PaginationQuery) : Prop :=
  (¬ Number.fin 1 < query.page.toNumber ∨ Whole query.page.toNumber) ∧
    (¬ Number.fin 1 < query.limit.toNumber ∨ Number.fin 100 ≤ query.limit.toNumber ∨
      Whole query.limit.toNumber)

variable {query : PaginationQuery}

theorem one_lt_whole {x : Number} (hone : Number.fin 1 < x) (hx : Whole x) :
    ∃ n : ℕ, 1 ≤ n ∧ x = .fin n := by
  obtain ⟨z, rfl⟩ := hx
  have hz : 1 < z := by exact_mod_cast (Number.fin_lt_fin.mp hone)
  refine ⟨z.toNat, by omega, ?_⟩
  have hcast : ((z.toNat : ℤ) : ℚ) = z := by rw [Int.toNat_of_nonneg (by omega)]
  rw [← hcast, Int.cast_natCast]

theorem page_whole_iff : (∃ n : ℕ, 1 ≤ n ∧ (normalizePagination query).page = .fin n) ↔
    ¬ Number.fin 1 < query.page.toNumber ∨ Whole query.page.toNumber := by
  simp only [normalizePagination]
  rcases page_cases query.page.toNumber with ⟨hone, hpage⟩ | ⟨hone, hpage⟩
  · rw [hpage, or_iff_right (not_not.mpr hone)]
    exact ⟨fun ⟨n, _, hn⟩ => ⟨n, by rw [hn, Int.cast_natCast]⟩, one_lt_whole hone⟩
  · rw [hpage]
    exact iff_of_true ⟨1, le_rfl, by rw [Nat.cast_one]⟩ (.inl hone)

theorem limit_whole_iff :
    (∃ n : ℕ, 1 ≤ n ∧ n ≤ 100 ∧ (normalizePagination query).limit = .fin n) ↔
      ¬ Number.fin 1 < query.limit.toNumber ∨ Number.fin 100 ≤ query.limit.toNumber ∨
        Whole query.limit.toNumber := by
  simp only [normalizePagination]
  rcases limit_cases query.limit.toNumber with ⟨hone, hlimit⟩ | ⟨hone, n, hpos, hle, hlimit⟩
  · rw [hlimit, or_iff_right (not_not.mpr hone)]
    cases hx : query.limit.toNumber with
    | nan => rw [hx] at hone; exact hone.elim
    | negInf => rw [hx] at hone; exact hone.elim
    | posInf => exact iff_of_true ⟨100, by omega, le_rfl, by norm_num⟩ (.inl trivial)
    | fin a =>
      rw [hx] at hone
      rw [Number.min_fin, Number.fin_le_fin]
      rcases le_or_gt 100 a with hbig | hsmall
      · rw [min_eq_left hbig]
        exact iff_of_true ⟨100, by omega, le_rfl, by norm_num⟩ (.inl hbig)
      · rw [min_eq_right hsmall.le, or_iff_right (not_le.mpr hsmall)]
        constructor
        · rintro ⟨n, -, -, hn⟩
          exact ⟨n, by rw [hn, Int.cast_natCast]⟩
        · intro hwhole
          obtain ⟨n, hpos, hn⟩ := one_lt_whole hone hwhole
          cases hn
          exact ⟨n, hpos, by exact_mod_cast hsmall.le, rfl⟩
  · rw [hlimit, Number.min_fin]
    have hle' : (n : ℚ) ≤ 100 := by exact_mod_cast hle
    exact iff_of_true ⟨n, hpos, hle, by rw [min_eq_right hle']⟩ (.inl hone)

theorem page_kept {a : ℚ} (ha : 1 ≤ a) :
    Number.max (.fin 1) ((Number.fin a).or (.fin 1)) = .fin a := by
  rw [Number.fin_or (by linarith), Number.max_fin, max_eq_right ha]

theorem limit_kept {a : ℚ} (ha : 1 ≤ a) (ha' : a ≤ 100) :
    Number.min (.fin 100) (Number.max (.fin 1) ((Number.fin a).or (.fin 20))) = .fin a := by
  rw [Number.fin_or (by linarith), Number.max_fin, max_eq_right ha, Number.min_fin,
    min_eq_right ha']

theorem limit_bounds (query : PaginationQuery) :
    ∃ a : ℚ, 1 ≤ a ∧ a ≤ 100 ∧ (normalizePagination query).limit = .fin a := by
  simp only [normalizePagination]
  rcases limit_cases query.limit.toNumber with ⟨hone, hlimit⟩ | ⟨-, n, hpos, hle, hlimit⟩
  · rw [hlimit]
    cases hx : query.limit.toNumber with
    | nan => rw [hx] at hone; exact hone.elim
    | negInf => rw [hx] at hone; exact hone.elim
    | posInf => exact ⟨100, by norm_num, le_rfl, rfl⟩
    | fin a =>
      rw [hx, Number.fin_lt_fin] at hone
      exact ⟨min 100 a, le_min (by norm_num) hone.le, min_le_left _ _, by rw [Number.min_fin]⟩
  · have hpos' : (1 : ℚ) ≤ n := by exact_mod_cast hpos
    have hle' : (n : ℚ) ≤ 100 := by exact_mod_cast hle
    exact ⟨n, hpos', hle', by rw [hlimit, Number.min_fin, min_eq_right hle']⟩

theorem normalizePagination_again (query : PaginationQuery) :
    normalizePagination { query with
      page := .num (normalizePagination query).page
      limit := .num (normalizePagination query).limit } = normalizePagination query := by
  obtain ⟨a, ha, ha', hlimit⟩ := limit_bounds query
  have hlimit_again := limit_kept ha ha'
  have hpage_again : Number.max (.fin 1) ((normalizePagination query).page.or (.fin 1)) =
      (normalizePagination query).page := by
    simp only [normalizePagination]
    rcases page_cases query.page.toNumber with ⟨-, hpage⟩ | ⟨-, hpage⟩
    · rw [hpage, hpage]
    · rw [hpage]
      exact page_kept le_rfl
  rw [← hlimit] at hlimit_again
  simp only [normalizePagination] at hlimit_again hpage_again ⊢
  simp only [QueryParam.toNumber_num, hlimit_again, hpage_again]

/-- The result is what the doc promises exactly for queries without fractions and without an
infinite page. -/
theorem mongoReady_iff (query : PaginationQuery) : MongoReady query ↔ Clamped query := by
  constructor
  · intro h
    exact ⟨page_whole_iff.mp h.page, limit_whole_iff.mp h.limit⟩
  · rintro ⟨hpage, hlimit⟩
    obtain ⟨n, hn, hnpage⟩ := page_whole_iff.mpr hpage
    obtain ⟨m, hm, hm', hmlimit⟩ := limit_whole_iff.mpr hlimit
    refine ⟨⟨n, hn, hnpage⟩, ⟨m, hm, hm', hmlimit⟩, rfl, ⟨(n - 1) * m, ?_⟩, ?_,
      normalizePagination_again query⟩
    · change ((normalizePagination query).page - .fin 1) * (normalizePagination query).limit = _
      rw [hnpage, hmlimit, Number.fin_sub_fin, Number.fin_mul_fin]
      push_cast [Nat.cast_sub hn]
      rfl
    · intro n' m' hn' hm' hm'' hpage' hlimit'
      simp only [normalizePagination, hpage', hlimit']
      exact ⟨page_kept (by exact_mod_cast hn'),
        limit_kept (by exact_mod_cast hm') (by exact_mod_cast hm'')⟩

/-- `?page=1.5&limit=1` stays a fraction. -/
theorem mongoReady_fraction : ¬ MongoReady { page := .str "1.5", limit := .str "1" } := by
  intro h
  obtain ⟨n, -, hn⟩ := h.page
  have hpage : (normalizePagination { page := .str "1.5", limit := .str "1" }).page =
      .fin (3 / 2) := by decide +kernel
  rw [hpage] at hn
  have hhalf : (3 / 2 : ℚ) = n := Number.fin.inj hn
  have htwice : (3 : ℚ) = 2 * n := by linarith
  have hwhole : 3 = 2 * n := by exact_mod_cast htwice
  omega

end Normalized

/-! ## The links between pages -/

section Links

variable {α : Type*} {xs : List α} {limit : ℕ}

/-- `xs.slice((page - 1) * limit, page * limit)` -/
def slice (xs : List α) (limit page : ℕ) : List α := xs.extract ((page - 1) * limit) (page * limit)

/-- The result that describes one page of `xs`. -/
def pageOf (xs : List α) (limit page : ℕ) : PaginatedResult α :=
  buildPaginatedResult (slice xs limit page) xs.length page limit

def hasNext (xs : List α) (limit page : ℕ) : Bool := (pageOf xs limit page).meta.hasNext

def hasPrev (xs : List α) (limit page : ℕ) : Bool := (pageOf xs limit page).meta.hasPrev

/-- The number of the last page; an empty list has one page, too. -/
def lastPage (limit total : ℕ) : ℕ := max 1 (Pages.count limit total)

theorem slice_eq_page (xs : List α) (limit k : ℕ) : slice xs limit (k + 1) = Pages.page limit k xs := by
  rw [slice, List.extract_eq_take_drop, Pages.page, Nat.add_sub_cancel, Nat.add_mul, Nat.one_mul,
    Nat.add_sub_cancel_left]

theorem ceil_div (hlimit : 1 ≤ limit) (total : ℕ) :
    ⌈(total / limit : ℚ)⌉ = (Pages.count limit total : ℤ) := by
  have hpos : (0 : ℚ) < limit := by exact_mod_cast hlimit
  have hle : ∀ k : ℕ, ⌈(total / limit : ℚ)⌉ ≤ (k : ℤ) ↔ Pages.count limit total ≤ k := by
    intro k
    rw [Int.ceil_le, div_le_iff₀ hpos, ← not_lt (b := Pages.count limit total),
      Pages.lt_count_iff hlimit, not_lt, Int.cast_natCast]
    norm_cast
  have hnonneg : 0 ≤ ⌈(total / limit : ℚ)⌉ := by positivity
  obtain ⟨n, hn⟩ := Int.eq_ofNat_of_zero_le hnonneg
  rw [hn] at hle ⊢
  have hup : Pages.count limit total ≤ n := (hle n).mp le_rfl
  have hdown := (hle (Pages.count limit total)).mpr le_rfl
  omega

theorem totalPages_pageOf (hlimit : 1 ≤ limit) (xs : List α) (page : ℕ) :
    (pageOf xs limit page).meta.totalPages = (lastPage limit xs.length : Number) := by
  have hne : (limit : ℚ) ≠ 0 := by exact_mod_cast Nat.one_le_iff_ne_zero.mp hlimit
  simp only [pageOf, buildPaginatedResult, Number.natCast_def, Number.fin_div_fin _ hne,
    Number.ceil_fin, ceil_div hlimit, Number.max_fin, lastPage]
  push_cast
  rfl

theorem hasNext_iff (hlimit : 1 ≤ limit) (xs : List α) (page : ℕ) :
    hasNext xs limit page = true ↔ page < lastPage limit xs.length := by
  have hlink : hasNext xs limit page =
      decide ((page : Number) < (pageOf xs limit page).meta.totalPages) := rfl
  rw [hlink, totalPages_pageOf hlimit, decide_eq_true_iff, Number.natCast_def, Number.natCast_def,
    Number.fin_lt_fin, Nat.cast_lt]

theorem hasPrev_iff (xs : List α) (limit page : ℕ) : hasPrev xs limit page = true ↔ 1 < page := by
  simp [hasPrev, pageOf, buildPaginatedResult, Number.natCast_def]

/-- The pages that following `hasNext` visits. -/
theorem follows_hasNext (hlimit : 1 ≤ limit) (xs : List α) :
    Pages.Follows (hasNext xs limit) (· + 1) 1 (List.range' 1 (lastPage limit xs.length)) := by
  have hfirst : 1 ≤ lastPage limit xs.length := le_max_left _ _
  obtain ⟨n, hn⟩ := Nat.exists_eq_add_of_le hfirst
  rw [hn, Nat.add_comm 1 n]
  exact .up (hasNext_iff hlimit xs) n (by omega)

/-- The pages that following `hasPrev` visits from the last one. -/
theorem follows_hasPrev (xs : List α) (limit n : ℕ) :
    Pages.Follows (hasPrev xs limit) (· - 1) (n + 1) (List.range' 1 (n + 1)).reverse := by
  have hdown := Pages.Follows.down (hasPrev_iff xs limit) n
  rwa [Nat.add_comm 1 n] at hdown

theorem slice_of_empty (limit page : ℕ) : slice ([] : List α) limit page = [] := by
  simp [slice, List.extract_eq_take_drop]

/-- Up to the last page there is something on every page of a list that is not empty. -/
theorem slice_ne_nil (hlimit : 1 ≤ limit) (hxs : xs ≠ []) {k : ℕ} (hk : k < lastPage limit xs.length) :
    slice xs limit (k + 1) ≠ [] := by
  have hpages : 0 < Pages.count limit xs.length := by
    rw [Pages.lt_count_iff hlimit, Nat.zero_mul]
    exact List.length_pos_iff.mpr hxs
  have hinside : k * limit < xs.length := by
    rw [← Pages.lt_count_iff hlimit]
    exact hk.trans_le (max_le hpages le_rfl)
  rw [slice_eq_page, Pages.page, ← List.length_pos_iff, List.length_take, List.length_drop]
  omega

theorem flatMap_slice (hlimit : 1 ≤ limit) (xs : List α) :
    (List.range' 1 (lastPage limit xs.length)).flatMap (slice xs limit) = xs := by
  rcases xs with - | ⟨x, xs⟩
  · simp [slice_of_empty]
  · have hpages : 0 < Pages.count limit (x :: xs).length := by
      rw [Pages.lt_count_iff hlimit, Nat.zero_mul]
      exact Nat.succ_pos _
    rw [lastPage, max_eq_right hpages, List.range'_eq_map_range, List.flatMap_map]
    simp only [Nat.add_comm 1, slice_eq_page]
    exact Pages.concat_const hlimit

/-- What a reader sees who follows the links over the pages of `xs`. -/
structure Visits (xs : List α) (limit : ℕ) (pages : List ℕ) : Prop where
  /-- Every page that is visited names their number. -/
  totalPages : ∀ page ∈ pages, (pageOf xs limit page).meta.totalPages = (pages.length : Number)
  slices : pages.flatMap (slice xs limit) = xs
  nonempty : xs ≠ [] → ∀ page ∈ pages, slice xs limit page ≠ []
  /-- The way back along `hasPrev` visits the same pages and ends at page 1. -/
  back : ∀ h : pages ≠ [], Pages.Follows (hasPrev xs limit) (· - 1) (pages.getLast h) pages.reverse
  first : pages.head? = some 1

/-- Following `hasNext` from page 1 ends, and it visits every item once. -/
theorem visits_every_item {α : Type*} (xs : List α) (limit : ℕ) (hlimit : 1 ≤ limit) :
    (∃ pages, Pages.Follows (hasNext xs limit) (· + 1) 1 pages ∧
      (∀ pages', Pages.Follows (hasNext xs limit) (· + 1) 1 pages' → pages' = pages) ∧
      Visits xs limit pages) ∧
    ∀ page, 1 ≤ page → (hasNext xs limit page = true ↔ xs.drop (page * limit) ≠ []) := by
  refine ⟨⟨_, follows_hasNext hlimit xs, fun _ h => h.unique (follows_hasNext hlimit xs), ?_⟩, ?_⟩
  · obtain ⟨n, hn⟩ : ∃ n, lastPage limit xs.length = n + 1 :=
      Nat.exists_eq_add_one.mpr (lt_max_of_lt_left Nat.one_pos)
    refine ⟨?_, flatMap_slice hlimit xs, ?_, ?_, ?_⟩
    · intro page _
      rw [totalPages_pageOf hlimit, List.length_range']
    · intro hxs page hpage
      obtain ⟨k, hk, rfl⟩ := List.mem_range'.mp hpage
      rw [Nat.one_mul, Nat.add_comm 1 k]
      exact slice_ne_nil hlimit hxs hk
    · intro h
      simp only [hn, List.getLast_range', Nat.add_sub_cancel_left]
      exact follows_hasPrev xs limit n
    · rw [hn, List.range'_succ, List.head?_cons]
  · intro page hpage
    rw [hasNext_iff hlimit, lastPage, lt_max_iff, Pages.lt_count_iff hlimit, Ne, List.drop_eq_nil_iff]
    omega

theorem visits_every_item_two :
    (∃ pages, Pages.Follows (hasNext [10, 20, 30, 40] 2) (· + 1) 1 pages ∧
      (∀ pages', Pages.Follows (hasNext [10, 20, 30, 40] 2) (· + 1) 1 pages' → pages' = pages) ∧
      Visits [10, 20, 30, 40] 2 pages) ∧
    ∀ page, 1 ≤ page → (hasNext [10, 20, 30, 40] 2 page = true ↔
      [10, 20, 30, 40].drop (page * 2) ≠ []) :=
  visits_every_item [10, 20, 30, 40] 2 (by decide)

end Links
end Common
