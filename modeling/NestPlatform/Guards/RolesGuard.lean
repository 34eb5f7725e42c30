-- SUMMARY: The rank-based `RolesGuard` of `@app/guards`, and the roles it decides soundly.
import NestPlatform.Common.Guards
import NestPlatform.Js.Math
import NestPlatform.Js.ToNumber

/-!
# Roles by rank

The guard of `@app/guards` looks the role of the token and the required roles up in a table of
ranks. The table is a plain object, so a name that it does not declare may still be found: it
inherits the members of `Object.prototype`, which are no numbers.
-/
namespace Guards

open Js Nest Constants
open Common (JwtPayload)

/-! ## The table of ranks -/

abbrev Ranks := List (String × ℕ)

def ROLE_RANK : Ranks :=
  [(UserRole.SUPER_ADMIN, 100), (UserRole.ADMIN, 50), (UserRole.USER, 10), (UserRole.GUEST, 1)]

def nativeCode (name : String) : String := "function " ++ name ++ "() \x7b [native code] \x7d"

/-- The members of `Object.prototype`, with their string forms. -/
def objectPrototype : List (String × String) :=
  [("constructor", nativeCode "Object"), ("__proto__", "[object Object]")] ++
    ["__defineGetter__", "__defineSetter__", "hasOwnProperty", "__lookupGetter__",
      "__lookupSetter__", "isPrototypeOf", "propertyIsEnumerable", "toString", "valueOf",
      "toLocaleString"].map fun name => (name, nativeCode name)

/-- What a name stands for in the table. -/
inductive Property where
  | rank (n : Number)
  /-- A member of `Object.prototype`, with its string form. -/
  | inherited (text : String)

/-- The number that a property is compared as. -/
def Property.toNumber : Property → Number
  | .rank n => n
  | .inherited text => stringToNumber text

/-- `ranks[name]` -/
def property (ranks : Ranks) (name : String) : Option Property :=
  match ranks.lookup name with
  | some n => some (.rank n)
  | none => (objectPrototype.lookup name).map .inherited

/-! ## The guard -/

/-- `ranks[name] ?? default`, compared as a number. -/
def rankOr (ranks : Ranks) (default : Number) (name : String) : Number :=
  ((property ranks name).getD (.rank default)).toNumber

/-- `ranks` is the table `ROLE_RANK` and `required` the metadata of the route. -/
def RolesGuard.canActivate (ranks : Ranks) (required : Option (List String))
    (user : Option JwtPayload) : Except HttpException Bool :=
  match required with
  | none | some [] => .ok true
  | some required =>
    match user with
    | none => .error (ForbiddenException "Authentication required")
    | some user =>
      let userRank := rankOr ranks (.fin 0) user.role
      let minRequiredRank := Number.minimum (required.map (rankOr ranks .posInf))
      if userRank < minRequiredRank then .error (ForbiddenException "Insufficient role")
      else .ok true

variable (ranks : Ranks) (required : List String) (user : JwtPayload)

/-- The guard admits the user on a route that requires one of the roles. -/
def Admits : Prop := RolesGuard.canActivate ranks (some required) (some user) = .ok true

/-! ## What a name is compared as -/

/-- The name is not declared in the table but found in `Object.prototype`. -/
def Inherited (name : String) : Prop :=
  ranks.lookup name = none ∧ (objectPrototype.lookup name).isSome

instance (name : String) : Decidable (Inherited ranks name) :=
  inferInstanceAs (Decidable (_ ∧ _))

/-- A declared name is the own property of the table. -/
theorem not_inherited {ranks : Ranks} {name : String} {n : ℕ} (h : ranks.lookup name = some n) :
    ¬ Inherited ranks name := by
  rintro ⟨hnone, -⟩
  rw [h] at hnone
  cases hnone

/-- No member of `Object.prototype` is a number. -/
theorem stringToNumber_objectPrototype : ∀ e ∈ objectPrototype, stringToNumber e.2 = .nan := by
  decide +kernel

theorem mem_of_lookup {α : Type*} {table : List (String × α)} {name : String} {a : α}
    (h : table.lookup name = some a) : (name, a) ∈ table := by
  obtain ⟨before, after, rfl, -⟩ := List.lookup_eq_some_iff.mp h
  simp

/-- A name is compared as its rank, as `NaN`, or as the default. -/
theorem rankOr_cases (default : Number) (name : String) :
    (∃ n, ranks.lookup name = some n ∧ rankOr ranks default name = .fin n) ∨
      (Inherited ranks name ∧ rankOr ranks default name = .nan) ∨
      (ranks.lookup name = none ∧ ¬ Inherited ranks name ∧ rankOr ranks default name = default) := by
  unfold rankOr property
  cases hrank : ranks.lookup name with
  | some n => exact .inl ⟨n, rfl, rfl⟩
  | none =>
    right
    cases hinherited : objectPrototype.lookup name with
    | some text =>
      left
      refine ⟨⟨hrank, by simp [hinherited]⟩, ?_⟩
      change stringToNumber text = .nan
      exact stringToNumber_objectPrototype (name, text) (mem_of_lookup hinherited)
    | none =>
      right
      refine ⟨rfl, ?_, rfl⟩
      rintro ⟨-, hsome⟩
      simp [hinherited] at hsome

/-- A required role that a rank reaches: an inherited one is reached by every rank. -/
theorem not_lt_rankOr (n : ℕ) (name : String) :
    ¬ .fin n < rankOr ranks .posInf name ↔
      Inherited ranks name ∨ ∃ m, ranks.lookup name = some m ∧ m ≤ n := by
  rcases rankOr_cases ranks .posInf name with
    ⟨m, hrank, heq⟩ | ⟨hinherited, heq⟩ | ⟨hrank, hinherited, heq⟩
  · simp [heq, hrank, not_inherited hrank]
  · have hlt : ¬ Number.fin n < .nan := id
    simp [heq, hinherited, hlt]
  · have hlt : Number.fin n < .posInf := trivial
    simp [heq, hinherited, hrank, hlt]

variable {required}

/-- The roles that the guard admits, inherited names included. -/
theorem admits_iff (h : required ≠ []) :
    Admits ranks required user ↔
      Inherited ranks user.role ∨ ∃ name ∈ required, Inherited ranks name ∨
        ∃ m, ranks.lookup name = some m ∧ m ≤ (ranks.lookup user.role).getD 0 := by
  have hlt : Admits ranks required user ↔
      ¬ rankOr ranks (.fin 0) user.role <
        Number.minimum (required.map (rankOr ranks .posInf)) := by
    unfold Admits RolesGuard.canActivate
    cases required with
    | nil => exact absurd rfl h
    | cons name required => simp
  have hranked : ∀ n : ℕ, (¬ .fin n < Number.minimum (required.map (rankOr ranks .posInf))) ↔
      ∃ name ∈ required, Inherited ranks name ∨ ∃ m, ranks.lookup name = some m ∧ m ≤ n := by
    intro n
    rw [Number.fin_lt_minimum]
    simp [not_lt_rankOr]
  rw [hlt]
  rcases rankOr_cases ranks (.fin 0) user.role with
    ⟨n, hrank, heq⟩ | ⟨hinherited, heq⟩ | ⟨hrank, hinherited, heq⟩
  · simp [heq, hranked, hrank, not_inherited hrank]
  · have hnan : ∀ x : Number, ¬ .nan < x := fun x => by cases x <;> exact id
    simp [heq, hinherited, hnan]
  · have hzero := hranked 0
    rw [Nat.cast_zero] at hzero
    simp [heq, hzero, hrank, hinherited]

/-! ## The order of ranks -/

/-- The role is ranked, at least as high as the lowest of the required roles that are. -/
def HasRank (ranks : Ranks) (required : List String) (role : String) : Prop :=
  ∃ n m, ranks.lookup role = some n ∧
    (required.filterMap fun name => ranks.lookup name).min? = some m ∧ m ≤ n

theorem hasRank_iff (role : String) :
    HasRank ranks required role ↔
      ∃ n, ranks.lookup role = some n ∧
        ∃ name ∈ required, ∃ m, ranks.lookup name = some m ∧ m ≤ n := by
  constructor
  · rintro ⟨n, m, hn, hmin, hle⟩
    have hm := (List.min?_eq_some_iff.mp hmin).1
    obtain ⟨name, hname, hrank⟩ := List.mem_filterMap.mp hm
    exact ⟨n, hn, name, hname, m, hrank, hle⟩
  · rintro ⟨n, hn, name, hname, m, hrank, hle⟩
    have hm : m ∈ required.filterMap fun name => ranks.lookup name :=
      List.mem_filterMap.mpr ⟨name, hname, hrank⟩
    obtain ⟨least, hleast⟩ := Option.isSome_iff_exists.mp (List.isSome_min?_of_mem hm)
    have hlow : least ≤ m := (List.min?_eq_some_iff.mp hleast).2 m hm
    exact ⟨n, least, hn, hleast, hlow.trans hle⟩

/-- The table with another rank for a role that it declares. -/
def Ranks.raise (ranks : Ranks) (role : String) (n : ℕ) : Ranks :=
  ranks.map fun e => if e.1 = role then (e.1, n) else e

theorem lookup_raise (role : String) (n : ℕ) (name : String) :
    (ranks.raise role n).lookup name =
      (ranks.lookup name).map fun m => if name = role then n else m := by
  induction ranks with
  | nil => rfl
  | cons e ranks ih =>
    unfold Ranks.raise at ih ⊢
    rw [List.map_cons, List.lookup_cons, List.lookup_cons, ih]
    by_cases hname : name = e.1
    · subst hname
      by_cases hrole : e.1 = role <;> simp [hrole]
    · have hfirst : (if e.1 = role then (e.1, n) else e).1 = e.1 := by
        split <;> rfl
      have hbeq : (name == e.1) = false := beq_false_of_ne hname
      rw [hfirst, hbeq]

theorem inherited_raise (role : String) (n : ℕ) (name : String) :
    Inherited (ranks.raise role n) name ↔ Inherited ranks name := by
  simp [Inherited, lookup_raise]

/-- A higher rank in the same table does not cost a user the admission. -/
theorem Admits.raise_role {ranks : Ranks} {user user' : JwtPayload} (hrequired : required ≠ [])
    {n n' : ℕ} (hn : ranks.lookup user.role = some n) (hn' : ranks.lookup user'.role = some n')
    (hle : n ≤ n') (h : Admits ranks required user) : Admits ranks required user' := by
  apply (admits_iff ranks user' hrequired).mpr
  rcases (admits_iff ranks user hrequired).mp h with hinherited | ⟨name, hname, hreached⟩
  · exact absurd hinherited (not_inherited hn)
  · refine .inr ⟨name, hname, hreached.imp id ?_⟩
    rintro ⟨m, hm, hmn⟩
    rw [hn] at hmn
    rw [hn']
    exact ⟨m, hm, le_trans hmn hle⟩

/-- Nor does a table in which the role of the user has a higher rank. -/
theorem Admits.raise_rank {ranks : Ranks} {user : JwtPayload} (hrequired : required ≠ [])
    {n n' : ℕ} (hn : ranks.lookup user.role = some n) (hle : n ≤ n')
    (h : Admits ranks required user) : Admits (ranks.raise user.role n') required user := by
  apply (admits_iff _ user hrequired).mpr
  rcases (admits_iff ranks user hrequired).mp h with hinherited | ⟨name, hname, hreached⟩
  · exact absurd hinherited (not_inherited hn)
  · refine .inr ⟨name, hname, ?_⟩
    rw [inherited_raise, lookup_raise, lookup_raise]
    refine hreached.imp id ?_
    rintro ⟨m, hm, hmn⟩
    rw [hn] at hmn
    by_cases hown : name = user.role
    · exact ⟨n', by simp [hown, hn], by simp [hn]⟩
    · exact ⟨m, by simp [hm, hown], by simpa [hn] using le_trans hmn hle⟩

/-! ## The guard and the ranks -/

/-- The guard decides on the role of a token as the ranks say. -/
structure Sound (required : List String) (user : JwtPayload) : Prop where
  admits : Admits ROLE_RANK required user ↔ HasRank ROLE_RANK required user.role
  undeclared : user.role ∉ ROLE_RANK.map Prod.fst → ¬ Admits ROLE_RANK required user
  raise_role : ∀ (user' : JwtPayload) (n n' : ℕ), ROLE_RANK.lookup user.role = some n →
    ROLE_RANK.lookup user'.role = some n' → n ≤ n' → Admits ROLE_RANK required user →
    Admits ROLE_RANK required user'
  raise_rank : ∀ n n' : ℕ, ROLE_RANK.lookup user.role = some n → n ≤ n' →
    Admits ROLE_RANK required user → Admits (ROLE_RANK.raise user.role n') required user

theorem ROLE_RANK_pos {name : String} {n : ℕ} (h : ROLE_RANK.lookup name = some n) : 0 < n := by
  have hall : ∀ e ∈ ROLE_RANK, 0 < e.2 := by decide
  exact hall _ (mem_of_lookup h)

theorem HasRank.declared {role : String} (h : HasRank ROLE_RANK required role) :
    role ∈ ROLE_RANK.map Prod.fst := by
  obtain ⟨n, -, hn, -⟩ := h
  exact List.mem_map.mpr ⟨_, mem_of_lookup hn, rfl⟩

theorem HasRank.admits {user : JwtPayload} (hrequired : required ≠ [])
    (h : HasRank ranks required user.role) : Admits ranks required user := by
  obtain ⟨n, hn, name, hname, m, hm, hle⟩ := (hasRank_iff ranks _).mp h
  apply (admits_iff ranks user hrequired).mpr
  exact .inr ⟨name, hname, .inr ⟨m, hm, by simpa [hn] using hle⟩⟩

/-- Where no name is inherited, only a ranked role reaches a required one: every rank is above
the default of the role. -/
theorem Admits.hasRank {user : JwtPayload} (hrequired : required ≠ [])
    (hrole : ¬ Inherited ROLE_RANK user.role) (hnames : ∀ name ∈ required, ¬ Inherited ROLE_RANK name)
    (h : Admits ROLE_RANK required user) : HasRank ROLE_RANK required user.role := by
  rcases (admits_iff _ user hrequired).mp h with hinherited | ⟨name, hname, hreached⟩
  · exact absurd hinherited hrole
  obtain ⟨m, hm, hle⟩ := hreached.resolve_left (hnames name hname)
  apply (hasRank_iff _ _).mpr
  cases hn : ROLE_RANK.lookup user.role with
  | some n => exact ⟨n, rfl, name, hname, m, hm, by simpa [hn] using hle⟩
  | none =>
    have hpos := ROLE_RANK_pos hm
    simp [hn] at hle
    omega

/-- The guard is sound for a role that is no inherited name, as long as no required role is one
either, or the role has the rank anyway. -/
theorem RolesGuard.sound_iff (hrequired : required ≠ []) (user : JwtPayload) :
    Sound required user ↔ ¬ Inherited ROLE_RANK user.role ∧
      ((∀ name ∈ required, ¬ Inherited ROLE_RANK name) ∨ HasRank ROLE_RANK required user.role) := by
  constructor
  · intro h
    constructor
    · intro hinherited
      obtain ⟨n, -, hn, -⟩ := h.admits.mp ((admits_iff _ user hrequired).mpr (.inl hinherited))
      exact not_inherited hn hinherited
    · by_contra hneither
      push Not at hneither
      obtain ⟨⟨name, hname, hinherited⟩, hrank⟩ := hneither
      apply hrank
      exact h.admits.mp ((admits_iff _ user hrequired).mpr (.inr ⟨name, hname, .inl hinherited⟩))
  · rintro ⟨hrole, hcondition⟩
    have hadmits : Admits ROLE_RANK required user ↔ HasRank ROLE_RANK required user.role := by
      refine ⟨fun h => ?_, HasRank.admits _ hrequired⟩
      rcases hcondition with hnames | hrank
      · exact h.hasRank hrequired hrole hnames
      · exact hrank
    exact {
      admits := hadmits
      undeclared := fun hundeclared h => hundeclared (hadmits.mp h).declared
      raise_role := fun _ _ _ hn hn' hle h => h.raise_role hrequired hn hn' hle
      raise_rank := fun _ _ hn hle h => h.raise_rank hrequired hn hle }

def userWith (role : String) : JwtPayload := { sub := "u1", email := "ann@example.com", role }

/-- A user on a route for administrators. -/
theorem RolesGuard.sound_user : Sound [UserRole.ADMIN] (userWith UserRole.USER) :=
  (RolesGuard.sound_iff (by decide) _).mpr ⟨by decide, .inl (by decide)⟩

/-- The role `constructor` is not declared, and it is admitted to a route for administrators. -/
theorem RolesGuard.constructor_admitted :
    "constructor" ∉ ROLE_RANK.map Prod.fst ∧
      Admits ROLE_RANK [UserRole.ADMIN] (userWith "constructor") ∧
      ¬ Sound [UserRole.ADMIN] (userWith "constructor") := by
  have hundeclared : "constructor" ∉ ROLE_RANK.map Prod.fst := by decide
  have hadmits : Admits ROLE_RANK [UserRole.ADMIN] (userWith "constructor") := by
    apply (admits_iff _ _ (by simp)).mpr
    exact .inl (by decide)
  exact ⟨hundeclared, hadmits, fun h => h.undeclared hundeclared hadmits⟩

end Guards
