-- SUMMARY: What the page and limit of a list request become on the way to the database, and when the query is bounded.
import NestPlatform.Gateway.Items
import NestPlatform.Gateway.Users
import NestPlatform.Services.Pagination

/-!
# Page requests

The pipes leave `page` and `limit` as they came in the URL: a controller multiplies texts, in
doubles, and the limit stays a text on its way to the database. Between the gateway and the
services for todos, books and users a message is JSON, which has no `NaN` and no infinities.
-/
namespace Services

open Js Mongo Nest Common Database

/-- The endpoints that list, with the caller where it matters. -/
inductive ListRoute where
  | items (kind : Gateway.ItemKind) (user : JwtPayload)
  | users (user : JwtPayload)
  | posts (tag : Option String)
  | userPosts (userId : String) (user : JwtPayload)

/-- What a request comes to: it is rejected before there is a query, or a query is made with
the given values. -/
inductive Issued where
  | rejected (t : Thrown)
  | query (q : ListQuery) (skip limit : Value)

/-- What is issued is harmless: a rejection with a client error, or a query for at most `cap`
documents after a number of others. A missing `skip` is 0, and a `limit` of 0 is no limit. -/
def Issued.Bounded (cap : ℕ) : Issued → Prop
  | rejected t => ∃ e, t = .http e ∧ ∃ status : ℕ, 400 ≤ status ∧ status < 500 ∧ e.status = .nat status
  | query _ skip limit =>
    (∃ m : ℕ, skip.toDouble = some (.fin m)) ∧
      ∃ n : ℕ, 1 ≤ n ∧ n ≤ cap ∧ limit.toDouble = some (.fin n)

/-- A service throws at once, or makes its answer from the page that the query finds. -/
inductive Issues (answer : Mongoose → Env → Option (Store Value)) : Issued → Prop where
  | rejected {t : Thrown} (h : ∀ M env, answer M env = some (throw t)) : Issues answer (.rejected t)
  | query {q : ListQuery} {skip limit : Value} (f : Page → Value)
      (h : ∀ M env, answer M env = some (f <$> q.run M env skip limit)) :
      Issues answer (.query q skip limit)

namespace ListRoute

/-- A parameter that is absent or a text. -/
def param (v : Option String) : QueryParam := v.elim .absent .str

/-- The call that the gateway makes for its routes for todos and books. -/
def itemsRpc (kind : Gateway.ItemKind) (user : JwtPayload) (page limit : Option String) :
    Gateway.Rpc :=
  (Gateway.ItemsController.operation user (.list (param page) (param limit))).rpc kind.service

/-- The call that the gateway makes for its route for users. -/
def usersRpc (user : JwtPayload) (page limit : Option String) : Gateway.Rpc :=
  Gateway.UsersController.rpc user (.findAll (param page) (param limit))

/-- The message of a call as a service receives it. -/
def message (rpc : Gateway.Rpc) : Entries := Gateway.encode rpc.payload.entries

/-- What the service does for a request, once the request has reached it. -/
def answer (page limit : Option String) (M : Mongoose) (env : Env) :
    ListRoute → Option (Store Value)
  | items kind user =>
    let rpc := itemsRpc kind user page limit
    kind.handle M env rpc.pattern (message rpc)
  | users user =>
    let rpc := usersRpc user page limit
    Users.UsersController.handle M env rpc.pattern (message rpc)
  | posts tag =>
    some (Page.toObject PostSchema <$> Posts.PostsController.list M env (param page).toValue
      (param limit).toValue (param tag).toValue)
  | userPosts userId user =>
    some (Page.toObject PostSchema <$> Posts.PostsController.getUserPosts M env userId
      (param page).toValue (param limit).toValue user)

/-- `page - 1` -/
def before (page : Option String) : Number := ((param page).orDefault 1).toDouble.minus (1 : ℕ)

def limitNumber (limit : Option String) : Number := ((param limit).orDefault 10).toDouble

/-- The query that the posts service makes: no message is between the URL and the query. -/
def postsQuery (q : ListQuery) (page limit : Option String) : Issued :=
  .query q (.num ((before page).times (limitNumber limit))) ((param limit).orDefault 10).toValue

/-- What a request comes to. -/
def issued (page limit : Option String) : ListRoute → Issued
  | items .todos user =>
    let dto := message (itemsRpc .todos user page limit)
    .query (.todosByUser user.sub) (Items.skip dto) (Items.limit dto)
  | items .books user =>
    let dto := message (itemsRpc .books user page limit)
    .query (.booksByUser user.sub) (Items.skip dto) (Items.limit dto)
  | users user =>
    let dto := message (usersRpc user page limit)
    .query .users (dto.get "skip") (dto.get "limit")
  | posts tag =>
    postsQuery (if tag.getD "" = "" then .publishedPosts else .postsByTag (tag.getD "")) page limit
  | userPosts userId user =>
    if user.sub ≠ userId ∧ user.role ≠ Constants.UserRole.ADMIN then .rejected (.error "Error")
    else postsQuery (.postsByUser userId) page limit

/-! ## The query of a request -/

theorem orDefault_param (v : Option String) (n : ℕ) :
    Posts.PostsController.orDefault (param v).toValue n = ((param v).orDefault n).toValue := by
  cases v <;> rfl

theorem toDouble_param (v : Option String) (n : ℕ) :
    ((param v).orDefault n).toValue.toDouble = some ((param v).orDefault n).toDouble := by
  cases v with
  | none => exact congrArg (Option.map Number.rounded) (Value.toNumber_num _)
  | some s =>
    have hnumber : (Value.str s).toNumber = some (stringToNumber s) := by simp [Value.toNumber]
    exact congrArg (Option.map Number.rounded) hnumber

theorem paged_param (page limit : Option String) (go : Value → Value → Store Page) :
    Posts.PostsController.paged (param page).toValue (param limit).toValue go =
      go (.num ((before page).times (limitNumber limit))) ((param limit).orDefault 10).toValue := by
  simp only [Posts.PostsController.paged, Posts.PostsController.skip, orDefault_param, toDouble_param]
  rfl

/-- The message of a request for items, value by value. -/
theorem get_itemsRpc (kind : Gateway.ItemKind) (user : JwtPayload) (page limit : Option String)
    (k : String) : (message (itemsRpc kind user page limit)).get k = Gateway.encodeValue
      (Entries.get [("userId", .str user.sub),
        ("skip", .num ((before page).times (limitNumber limit))),
        ("limit", ((param limit).orDefault 10).toValue)] k) := by
  refine Gateway.get_encode ?_ k
  exact (by decide : ["userId", "skip", "limit"].Nodup)

theorem get_usersRpc (user : JwtPayload) (page limit : Option String) (k : String) :
    (message (usersRpc user page limit)).get k = Gateway.encodeValue
      (Entries.get [("skip", .num ((before page).times (limitNumber limit))),
        ("limit", ((param limit).orDefault 10).toValue)] k) := by
  have hpayload : (usersRpc user page limit).payload.entries =
      [("skip", .num ((before page).times (limitNumber limit))),
        ("limit", ((param limit).orDefault 10).toValue)] := by
    -- the service has the defaults once more
    cases page <;> cases limit <;> rfl
  rw [message, hpayload]
  refine Gateway.get_encode ?_ k
  exact (by decide : ["skip", "limit"].Nodup)

theorem issues_issued (route : ListRoute) (page limit : Option String) :
    Issues (fun M env => route.answer page limit M env) (route.issued page limit) := by
  cases route with
  | items kind user =>
    have huser : (message (itemsRpc kind user page limit)).get "userId" = .str user.sub :=
      get_itemsRpc kind user page limit "userId"
    cases kind with
    | todos =>
      refine .query (Page.toObject TodoSchema) fun M env => ?_
      have hhandle := @Gateway.ItemKind.handle_findByUser M env .todos
        (message (itemsRpc .todos user page limit))
      rw [huser] at hhandle
      exact hhandle
    | books =>
      refine .query (Page.toObject BookSchema) fun M env => ?_
      have hhandle := @Gateway.ItemKind.handle_findByUser M env .books
        (message (itemsRpc .books user page limit))
      rw [huser] at hhandle
      exact hhandle
  | users user =>
    refine .query (Page.toObject UserSchema ∘ fun page =>
      { page with items := page.items.map Users.UsersService.sanitizeUser }) fun M env => ?_
    rw [comp_map]
    rfl
  | posts tag =>
    refine .query (Page.toObject PostSchema) fun M env => ?_
    simp only [answer, Posts.PostsController.list, paged_param]
    cases tag with
    | none => rfl
    | some tag =>
      by_cases htag : tag = ""
      · subst htag
        rfl
      · have htruthy : (param (some tag)).toValue.truthy = true := decide_eq_true htag
        simp only [htruthy, if_true, Option.getD_some, if_neg htag]
        rfl
  | userPosts userId user =>
    simp only [answer, issued, Posts.PostsController.getUserPosts, paged_param]
    by_cases hother : user.sub ≠ userId ∧ user.role ≠ Constants.UserRole.ADMIN
    · simp only [if_pos hother]
      exact .rejected fun M env => rfl
    · simp only [if_neg hother]
      exact .query (Page.toObject PostSchema) fun M env => rfl

end ListRoute

/-! ## Bounded queries -/

/-- The exact product is finite and rounded to a natural number. -/
def Starts (start : Number) : Prop :=
  ∃ q, start = .fin q ∧ ¬ Number.Overflows q ∧ Number.NearNatural q

/-- The exact product is rounded to a natural number, if what it is rounded to is finite. -/
def StartsSent (start : Number) : Prop :=
  ∀ q, start = .fin q → ¬ Number.Overflows q → Number.NearNatural q

theorem toDouble_rounded (x : Number) : (Value.num x.rounded).toDouble = some x.rounded := by
  simp [Value.toDouble]

theorem start_direct (start : Number) :
    (∃ m : ℕ, (Value.num start.rounded).toDouble = some (.fin m)) ↔ Starts start := by
  simp only [toDouble_rounded, Option.some.injEq]
  cases start with
  | fin q =>
    rw [Number.exists_rounded_eq_natCast_iff]
    simp [Starts]
  | nan | posInf | negInf =>
    exact iff_of_false (fun ⟨m, hm⟩ => Number.noConfusion hm) fun ⟨q, hq, _⟩ => Number.noConfusion hq

theorem encodeValue_num {x : Number} (hx : ∀ q, x ≠ .fin q) : Gateway.encodeValue (.num x) = .null := by
  cases x with
  | fin q => exact absurd rfl (hx q)
  | nan | posInf | negInf => rfl

/-- In a message, a start that is not finite has become `null`. -/
theorem start_sent (start : Number) :
    (∃ m : ℕ, (Gateway.encodeValue (.num start.rounded)).toDouble = some (.fin m)) ↔
      StartsSent start := by
  have hnull : ∃ m : ℕ, Value.null.toDouble = some (.fin m) := by
    refine ⟨0, ?_⟩
    simp [Value.toDouble, Value.toNumber, Number.rounded_zero]
  cases start with
  | fin q =>
    have hsent : StartsSent (.fin q) ↔ (¬ Number.Overflows q → Number.NearNatural q) := by
      simp [StartsSent]
    rw [hsent]
    by_cases hq : Number.Overflows q
    · rw [encodeValue_num (Number.rounded_of_overflows hq)]
      exact iff_of_true hnull fun hnot => absurd hq hnot
    · have hkept : Gateway.encodeValue (.num (Number.fin q).rounded) = .num (Number.fin q).rounded := by
        rw [Number.rounded_of_not_overflows hq]
        rfl
      rw [hkept]
      simp only [toDouble_rounded, Option.some.injEq]
      rw [Number.exists_rounded_eq_natCast_iff, and_iff_right hq]
      exact ⟨fun h _ => h, fun h => h hq⟩
  | nan | posInf | negInf =>
    exact iff_of_true hnull fun q hq => Number.noConfusion hq

theorem toDouble_or_zero (x : Number) :
    ((Gateway.encodeValue (.num x)).or (.nat 0)).toDouble =
      (Gateway.encodeValue (.num x)).toDouble := by
  cases x with
  | fin q =>
    by_cases hq : q = 0
    · subst hq
      rfl
    · have htruthy : (Value.num (.fin q)).truthy = true := by simp [Value.truthy, hq]
      simp only [Gateway.encodeValue, Value.or, htruthy, if_true]
  | nan | posInf | negInf =>
    simp [Gateway.encodeValue, Value.or, Value.truthy, Value.toDouble, Value.toNumber]

namespace ListRoute

/-- The limit is a whole number from 1 to `cap`. -/
def Limits (cap : ℕ) (limit : Option String) : Prop :=
  ∃ n : ℕ, limitNumber limit = .fin n ∧ 1 ≤ n ∧ n ≤ cap

/-- What the skip is rounded from. -/
def start (page limit : Option String) : Number := before page * limitNumber limit

/-- The requests that stay within `cap`. -/
def Within (cap : ℕ) (page limit : Option String) : ListRoute → Prop
  -- these two services replace an empty limit by 10
  | items _ _ => Limits cap limit ∧ StartsSent (start page limit) ∨ limit = some "" ∧ 10 ≤ cap
  | users _ => Limits cap limit ∧ StartsSent (start page limit)
  | posts _ => Limits cap limit ∧ Starts (start page limit)
  | userPosts userId user =>
    (user.sub = userId ∨ user.role = Constants.UserRole.ADMIN) ∧
      Limits cap limit ∧ Starts (start page limit)

variable {cap : ℕ} {page limit : Option String}

theorem limits_iff : (∃ n : ℕ, 1 ≤ n ∧ n ≤ cap ∧ limitNumber limit = .fin n) ↔ Limits cap limit := by
  constructor
  · rintro ⟨n, hn, hcap, hnumber⟩
    exact ⟨n, hnumber, hn, hcap⟩
  · rintro ⟨n, hnumber, hn, hcap⟩
    exact ⟨n, hn, hcap, hnumber⟩

theorem bounded_users (user : JwtPayload) :
    (issued page limit (users user)).Bounded cap ↔
      Limits cap limit ∧ StartsSent (start page limit) := by
  have hskip : (message (usersRpc user page limit)).get "skip" =
      Gateway.encodeValue (.num (start page limit).rounded) :=
    get_usersRpc user page limit "skip"
  have hlimit : (message (usersRpc user page limit)).get "limit" =
      ((param limit).orDefault 10).toValue := by
    rw [get_usersRpc]
    cases limit <;> rfl
  simp only [issued, Issued.Bounded, hskip, hlimit, toDouble_param, Option.some.injEq]
  rw [start_sent, and_comm]
  exact and_congr_left' limits_iff

theorem limitNumber_empty : limitNumber (some "") = .fin 0 := Number.rounded_zero

theorem not_limits_empty : ¬ Limits cap (some "") := by
  rintro ⟨n, hn, hpos, -⟩
  rw [limitNumber_empty] at hn
  have hzero : (0 : ℚ) = n := Number.fin.inj hn
  have : 0 = n := by exact_mod_cast hzero
  omega

/-- Pages without documents all start at 0, or nowhere. -/
theorem start_empty (page : Option String) : StartsSent (start page (some "")) := by
  intro q hq _
  rw [start, limitNumber_empty] at hq
  cases hbefore : before page with
  | fin p =>
    rw [hbefore, Number.fin_mul_fin, mul_zero, Number.fin.injEq] at hq
    subst hq
    refine ⟨0, ?_⟩
    rw [Nat.cast_zero, sub_zero, abs_zero]
    exact div_nonneg (Rounding.Format.two_zpow_pos _).le zero_le_two
  | nan | posInf | negInf =>
    rw [hbefore] at hq
    exact absurd hq Number.noConfusion

theorem bounded_items (kind : Gateway.ItemKind) (user : JwtPayload) :
    (issued page limit (items kind user)).Bounded cap ↔
      Limits cap limit ∧ StartsSent (start page limit) ∨ limit = some "" ∧ 10 ≤ cap := by
  have hskip : (Items.skip (message (itemsRpc kind user page limit))).toDouble =
      (Gateway.encodeValue (.num (start page limit).rounded)).toDouble := by
    rw [Items.skip, get_itemsRpc]
    exact toDouble_or_zero _
  have hlimit : Items.limit (message (itemsRpc kind user page limit)) =
      if limit = some "" then .nat 10 else ((param limit).orDefault 10).toValue := by
    rw [Items.limit, get_itemsRpc]
    rcases limit with - | s
    · rfl
    · by_cases hs : s = ""
      · subst hs
        rfl
      · have htruthy : (Value.str s).truthy = true := decide_eq_true hs
        rw [if_neg (by simpa using hs)]
        exact if_pos htruthy
  have hissued : (issued page limit (items kind user)).Bounded cap ↔
      (∃ m : ℕ, (Items.skip (message (itemsRpc kind user page limit))).toDouble = some (.fin m)) ∧
        ∃ n : ℕ, 1 ≤ n ∧ n ≤ cap ∧
          (Items.limit (message (itemsRpc kind user page limit))).toDouble = some (.fin n) := by
    cases kind <;> exact Iff.rfl
  rw [hissued, hskip, hlimit, start_sent]
  by_cases hempty : limit = some ""
  · subst hempty
    have hten : (Value.nat 10).toDouble = some (.fin (10 : ℕ)) := Value.toDouble_nat (by norm_num)
    rw [if_pos rfl, hten, and_iff_right (start_empty page), or_iff_right fun h => not_limits_empty h.1,
      and_iff_right rfl]
    constructor
    · rintro ⟨n, -, hcap, hn⟩
      have hcast : ((10 : ℕ) : ℚ) = n := Number.fin.inj (Option.some.inj hn)
      have : 10 = n := by exact_mod_cast hcast
      omega
    · intro hcap
      exact ⟨10, by omega, hcap, rfl⟩
  · rw [if_neg hempty, or_iff_left (fun h => hempty h.1)]
    simp only [toDouble_param, Option.some.injEq]
    rw [and_comm]
    exact and_congr_left' limits_iff

theorem bounded_postsQuery (q : ListQuery) :
    (postsQuery q page limit).Bounded cap ↔ Limits cap limit ∧ Starts (start page limit) := by
  have hstart : (before page).times (limitNumber limit) = (start page limit).rounded := rfl
  simp only [postsQuery, Issued.Bounded, toDouble_param, Option.some.injEq, hstart]
  rw [start_direct, and_comm]
  exact and_congr_left' limits_iff

/-- What a list request issues is bounded exactly if it stays within the cap. -/
theorem bounded_iff_within (route : ListRoute) (page limit : Option String) :
    Issues (fun M env => route.answer page limit M env) (route.issued page limit) ∧
      ∀ cap, (route.issued page limit).Bounded cap ↔ route.Within cap page limit := by
  refine ⟨issues_issued route page limit, fun cap => ?_⟩
  cases route with
  | items kind user => exact bounded_items kind user
  | users user => exact bounded_users user
  | posts tag => exact bounded_postsQuery _
  | userPosts userId user =>
    by_cases hother : user.sub ≠ userId ∧ user.role ≠ Constants.UserRole.ADMIN
    · have hissued : issued page limit (userPosts userId user) = .rejected (.error "Error") :=
        if_pos hother
      rw [hissued]
      refine iff_of_false (fun ⟨e, he, _⟩ => Thrown.noConfusion he) fun ⟨hallowed, _⟩ => ?_
      exact hallowed.elim hother.1 hother.2
    · have hallowed : user.sub = userId ∨ user.role = Constants.UserRole.ADMIN := by tauto
      have hissued : issued page limit (userPosts userId user) =
          postsQuery (.postsByUser userId) page limit := if_neg hother
      rw [hissued, Within, and_iff_right hallowed]
      exact bounded_postsQuery _

/-- `GET /users?limit=0` asks for all of them. -/
theorem users_limit_zero (user : JwtPayload) (cap : ℕ) :
    ¬ (issued none (some "0") (users user)).Bounded cap := by
  rw [bounded_users]
  rintro ⟨⟨n, hn, hpos, -⟩, -⟩
  have hnumber : limitNumber (some "0") = .fin 0 := by decide +kernel
  have hzero : (0 : ℚ) = n := Number.fin.inj (hnumber.symm.trans hn)
  have : 0 = n := by exact_mod_cast hzero
  omega

/-- No cap bounds all requests. -/
theorem no_cap : ¬ ∃ cap, ∀ (route : ListRoute) page limit, (route.issued page limit).Bounded cap := by
  rintro ⟨cap, h⟩
  exact users_limit_zero ⟨"u1", "u1@example.com", "user"⟩ cap (h (users _) none (some "0"))

end ListRoute
end Services
