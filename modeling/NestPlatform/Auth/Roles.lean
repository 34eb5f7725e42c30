-- SUMMARY: Which of the stored roles the guard of the routes goes by.
import NestPlatform.Auth.Provenance
import NestPlatform.Posts.Authorization

/-!
# Roles

A user has a list of roles, and a token has one: the first. The guard of a route
looks for this one among the roles that the route names.
-/
namespace Auth

open Js Mongo Nest Common Database Effect

/-- The roles of the user schema. -/
def rolesPath : SchemaPath :=
  { name := "roles", type := .stringArray, enum := [UserRole.ADMIN, UserRole.USER, UserRole.GUEST],
    default := .arr [.str UserRole.USER] }

/-- The first role; an empty list counts as `user`. -/
def leadingRole (roles : List String) : String := roles.head?.getD UserRole.USER

/-- The list has the role; an empty list counts as `user`. -/
def HasRole (roles : List String) (role : String) : Prop :=
  role ∈ roles ∨ (roles = [] ∧ role = UserRole.USER)

/-- The guard admits the caller that the payload describes. -/
def Admitted (required : List String) (payload : Entries) : Prop :=
  RolesGuard.canActivate required (Posts.currentUser payload) = .ok ()

variable {jwt : Jwt} {config : AuthConfig} {roles required : List String}

/-- A role of the schema is not empty. -/
theorem ne_empty_of_valid (hvalid : rolesPath.valid (.arr (roles.map .str)) = true) {role : String}
    (hrole : role ∈ roles) : role ≠ "" := by
  have hall : ∀ role ∈ roles,
      role = UserRole.ADMIN ∨ role = UserRole.USER ∨ role = UserRole.GUEST := by
    simpa [SchemaPath.valid, rolesPath, Value.nullish] using hvalid
  rcases hall role hrole with rfl | rfl | rfl
  all_goals decide

/-- The token of a user has the first role. -/
theorem role_eq_leadingRole {user : Doc}
    (hvalid : rolesPath.valid (.arr (roles.map .str)) = true)
    (hroles : user.fields "roles" = .arr (roles.map .str)) :
    AuthService.role user = some (.str (leadingRole roles)) := by
  cases roles with
  | nil => simp [AuthService.role, hroles, Value.nullish, Value.entries, Value.or, Value.truthy,
      leadingRole]
  | cons role roles =>
    exact Posts.role_eq_head hroles (ne_empty_of_valid hvalid List.mem_cons_self)

theorem hasRole_leadingRole (roles : List String) : HasRole roles (leadingRole roles) := by
  cases roles with
  | nil => exact .inr ⟨rfl, rfl⟩
  | cons role roles => exact .inl List.mem_cons_self

/-- The guard admits a user with a token exactly if the first role is required; then the user has
a required role. -/
theorem admitted_iff_leadingRole (hjwt : jwt.Faithful) {user : Doc}
    (hvalid : rolesPath.valid (.arr (roles.map .str)) = true)
    (hroles : user.fields "roles" = .arr (roles.map .str)) (hrequired : required ≠ []) {now later : ℤ}
    {tokens : Tokens} (htokens : AuthService.generateTokens jwt config now user = .ok tokens)
    {payload : Entries}
    (hverify : JwtStrategy.validate jwt config tokens.accessToken later = some payload) :
    (Admitted required payload ↔ leadingRole roles ∈ required) ∧
      (Admitted required payload → ∃ role ∈ required, HasRole roles role) := by
  obtain ⟨email, huser⟩ := Posts.currentUser_of_role hjwt.sub hjwt.role hjwt.decodes
    (role_eq_leadingRole hvalid hroles) htokens hverify
  have hiff : Admitted required payload ↔ leadingRole roles ∈ required := by
    unfold Admitted RolesGuard.canActivate
    rw [huser, if_neg hrequired]
    dsimp only
    split <;> simp_all
  exact ⟨hiff, fun h => ⟨_, hiff.mp h, hasRole_leadingRole roles⟩⟩

/-! ### A user with two roles -/

/-- Dana is a user first and then an admin. -/
def danaAdmin : Doc :=
  ⟨danaId, Fields.assign (fun _ => .undefined)
    [("email", .str "dana@example.com"), ("roles", .arr [.str UserRole.USER, .str UserRole.ADMIN])]⟩

theorem single_faithful : (Jwt.single danaPayload).Faithful :=
  ⟨Jwt.single_carries _ _, Jwt.single_carries _ _, Jwt.single_carries _ _, Jwt.single_decodes _⟩

theorem danaAdmin_tokens : AuthService.generateTokens (.single danaPayload) accessOnly 0 danaAdmin =
    .ok ⟨"access", "access"⟩ := rfl

theorem danaAdmin_verified :
    JwtStrategy.validate (.single danaPayload) accessOnly "access" 0 = some danaPayload := rfl

/-- As a user she is admitted. -/
theorem admitted_dana :
    (Admitted [UserRole.USER] danaPayload ↔ leadingRole [UserRole.USER, UserRole.ADMIN] ∈
      [UserRole.USER]) ∧
    (Admitted [UserRole.USER] danaPayload → ∃ role ∈ [UserRole.USER],
      HasRole [UserRole.USER, UserRole.ADMIN] role) := by
  have hroles : danaAdmin.fields "roles" = .arr ([UserRole.USER, UserRole.ADMIN].map .str) := rfl
  exact admitted_iff_leadingRole single_faithful rfl hroles (by decide) danaAdmin_tokens
    danaAdmin_verified

/-- As an admin she is not. -/
theorem second_role_ignored :
    AuthService.generateTokens (.single danaPayload) accessOnly 0 danaAdmin =
        .ok ⟨"access", "access"⟩ ∧
      JwtStrategy.validate (.single danaPayload) accessOnly "access" 0 = some danaPayload ∧
      ¬ (Admitted [UserRole.ADMIN] danaPayload ↔
        ∃ role ∈ [UserRole.ADMIN], HasRole [UserRole.USER, UserRole.ADMIN] role) := by
  refine ⟨danaAdmin_tokens, danaAdmin_verified, fun h => ?_⟩
  have hadmin : HasRole [UserRole.USER, UserRole.ADMIN] UserRole.ADMIN := .inl (by decide)
  have hadmitted := h.mpr ⟨_, List.mem_singleton_self _, hadmin⟩
  have hrefused : RolesGuard.canActivate [UserRole.ADMIN] (Posts.currentUser danaPayload) =
      .error (ForbiddenException "Insufficient permissions") := rfl
  unfold Admitted at hadmitted
  rw [hrefused] at hadmitted
  cases hadmitted

end Auth
