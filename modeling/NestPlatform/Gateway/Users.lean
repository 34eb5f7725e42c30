-- SUMMARY: The `/users` routes of the gateway, and when a run of them keeps privileges intact.
import NestPlatform.Common.Guards
import NestPlatform.Gateway.Call
import NestPlatform.Lib.Transition
import NestPlatform.Users.Service

/-!
# The `/users` routes

The body of an update is typed inline, so `ValidationPipe` has no class to check it
against and hands it to the controller as it came. The guards see the role of the
token; nothing compares the id of the path with the user of the token.
-/
namespace Gateway

open Js Mongo Nest Common Database Effect Transition

inductive UsersRequest where
  | findAll (page limit : QueryParam)
  | getMe
  | findById (id : String)
  | update (id : String) (dto : Value)
  | delete (id : String)

/-- One request, made with a verified token. -/
structure UsersCall where
  user : JwtPayload
  env : Env
  network : Network
  request : UsersRequest

namespace UsersController

/-- The `@Roles` metadata of the route. -/
def roles : UsersRequest → List String
  | .update _ _ => [UserRole.ADMIN, UserRole.USER]
  | .delete _ => [UserRole.ADMIN]
  | _ => []

def rpc (user : JwtPayload) : UsersRequest → Rpc
  | .findAll page limit => UsersService.findAll (page.orDefault 1) (limit.orDefault 10)
  | .getMe => UsersService.findById user.sub
  | .findById id => UsersService.findById id
  | .update id dto => UsersService.update id dto
  | .delete id => UsersService.delete id

end UsersController

variable (M : Mongoose)

/-- What the request answers and does to the users collection. -/
def UsersCall.run (call : UsersCall) : Effect Collection HttpException Value :=
  match RolesGuard.canActivate (UsersController.roles call.request) (some call.user) with
  | .error e => throw e
  | .ok () => (UsersController.rpc call.user call.request).call
      (Users.UsersController.handle M call.env) call.network

def UsersStep (c : Collection) (call : UsersCall) (c' : Collection) : Prop :=
  c' = ((call.run M).exec c).2

/-! ## What a request can do -/

variable {M}

/-- An update of the user service is refused or changes the one record its id is
cast to. -/
theorem exec_update (env : Env) (id : String) (updates : Value) (c : Collection) :
    ((Users.UsersService.update M env (.str id) updates).exec c).2 = c ∨
      ∃ d f fields, c.get d.id = some d ∧ M.castId (.str id) = some d.id ∧
        (Update.body updates).compile M UserSchema = some f ∧ f d.id d.fields = some fields ∧
        ((Users.UsersService.update M env (.str id) updates).exec c).2 =
          c.put (touch env d.id fields) := by
  unfold Users.UsersService.update
  rw [exec_map]
  dsimp only
  rcases AbstractRepository.state_findOneAndUpdate (M := M) (S := UserSchema) (byId (.str id))
      (.body updates) c with hkeep | ⟨p, f, d, fields, hp, hf, hd, hfields, hput⟩
  · exact .inl hkeep
  · obtain ⟨hmem, hsel⟩ := find?_scan_eq_some hd
    exact .inr ⟨d, f, fields, Collection.get_of_mem hmem, castId_of_byId hp hsel, hf, hfields, hput⟩

/-- The pattern of a handler that only reads. -/
def IsRead (pattern : String) : Prop :=
  pattern ≠ USER_PATTERNS.UPDATE ∧ pattern ≠ USER_PATTERNS.DELETE

theorem isRead_list : IsRead USER_PATTERNS.LIST := by unfold IsRead; decide

theorem isRead_findById : IsRead USER_PATTERNS.FIND_BY_ID := by unfold IsRead; decide

/-- The handlers that read leave the store alone. -/
theorem handle_keeps {env : Env} {pattern : String} {dto : Entries} {x : Store Value}
    (h : Users.UsersController.handle M env pattern dto = some x)
    (hread : IsRead pattern) (c : Collection) : (x.exec c).2 = c := by
  unfold Users.UsersController.handle at h
  simp only [hread.1, hread.2, if_false] at h
  split at h
  · cases h
    simp only [exec_map, Users.UsersService.findById]
    exact AbstractRepository.exec_findById _ _
  split at h
  · cases h
    simp only [exec_map, Users.UsersService.findByEmail, Users.UsersRepository.findByEmail]
    exact AbstractRepository.exec_findOne _ _
  split at h
  · cases h
    simp only [exec_map, Users.UsersService.list, Users.UsersRepository.list]
    exact AbstractRepository.exec_findPage _ _ _
  · cases h

theorem payload_update (id : String) (dto : Value) :
    (encode (UsersService.update id dto).payload.entries).get "id" = .str id ∧
      (encode (UsersService.update id dto).payload.entries).get "updates" = encodeValue dto := by
  cases dto with
  | num n => cases n <;> exact ⟨rfl, rfl⟩
  | _ => exact ⟨rfl, rfl⟩

theorem exec_call_keeps {rpc : Rpc} {env : Env} (network : Network) (c : Collection)
    (hread : IsRead rpc.pattern) :
    ((rpc.call (Users.UsersController.handle M env) network).exec c).2 = c := by
  rcases rpc.exec_call (Users.UsersController.handle M env) network c with h | ⟨x, hx, h⟩
  · exact h
  · rw [h]
    exact handle_keeps hx hread c

/-- Without the role `admin` a request changes nothing, unless it is an update with
the role `user`: then it changes at most the record that the id of the path names. -/
theorem UsersStep.cases {c c' : Collection} {call : UsersCall} (h : UsersStep M c call c')
    (hrole : call.user.role ≠ UserRole.ADMIN) :
    c' = c ∨ ∃ id dto d f fields, call.request = .update id dto ∧
      call.user.role = UserRole.USER ∧ c.get d.id = some d ∧ M.castId (.str id) = some d.id ∧
      (Update.body (encodeValue dto)).compile M UserSchema = some f ∧
      f d.id d.fields = some fields ∧ c' = c.put (touch call.env d.id fields) := by
  obtain rfl := h
  unfold UsersCall.run
  cases hreq : call.request with
  | findAll page limit => exact .inl (exec_call_keeps _ _ isRead_list)
  | getMe => exact .inl (exec_call_keeps _ _ isRead_findById)
  | findById id => exact .inl (exec_call_keeps _ _ isRead_findById)
  | delete id =>
    have hguard : RolesGuard.canActivate (UsersController.roles (.delete id)) (some call.user) =
        .error (ForbiddenException "Insufficient permissions") := by
      simp [RolesGuard.canActivate, UsersController.roles, hrole]
    rw [hguard]
    exact .inl rfl
  | update id dto =>
    by_cases huser : call.user.role = UserRole.USER
    case neg =>
      have hguard : RolesGuard.canActivate (UsersController.roles (.update id dto)) (some call.user) =
          .error (ForbiddenException "Insufficient permissions") := by
        simp [RolesGuard.canActivate, UsersController.roles, hrole, huser]
      rw [hguard]
      exact .inl rfl
    have hguard : RolesGuard.canActivate (UsersController.roles (.update id dto)) (some call.user) =
        .ok () := by
      simp [RolesGuard.canActivate, UsersController.roles, huser]
    rw [hguard]
    rcases (UsersService.update id dto).exec_call
        (Users.UsersController.handle M call.env) call.network c with h | ⟨x, hx, h⟩
    · exact .inl h
    · -- the handler reads the id and the body back from the message
      obtain ⟨hid, hdto⟩ := payload_update id dto
      have hhandle : Users.UsersController.handle M call.env (UsersService.update id dto).pattern
          (encode (UsersService.update id dto).payload.entries) =
          some (toObject UserSchema <$> Users.UsersService.update M call.env (.str id)
            (encodeValue dto)) := by
        rw [← hid, ← hdto]
        rfl
      obtain rfl := Option.some.inj (hhandle.symm.trans hx)
      rw [exec_map] at h
      rcases exec_update call.env id (encodeValue dto) c with
        hkeep | ⟨d, f, fields, hd, hcast, hf, hfields, hput⟩
      · exact .inl (h.trans hkeep)
      · exact .inr ⟨id, dto, d, f, fields, rfl, huser, hd, hcast, hf, hfields, h.trans hput⟩

/-! ## Privileges -/

/-- The fields of a record that only an administrator may change. -/
def privileged : List String := ["roles", "password", "deletedAt"]

/-- Every record whose user made no request is unchanged, and every record keeps its
privileged fields. -/
structure Intact (calls : List UsersCall) (c c' : Collection) : Prop where
  others : ∀ id, (∀ call ∈ calls, call.user.sub ≠ id.toString) → c'.get id = c.get id
  own : ∀ id, ∀ k ∈ privileged, (c'.get id).map (·.fields k) = (c.get id).map (·.fields k)

/-- The request is made without the role `admin`. If it is an update and its path names
a record, that is the record of the caller, and the body is an object that mentions
no privileged field. -/
def HarmlessUpdate (M : Mongoose) (c : Collection) (call : UsersCall) : Prop :=
  call.user.role ≠ UserRole.ADMIN ∧
    ∀ id dto, call.request = .update id dto → call.user.role = UserRole.USER →
      ∀ oid d, M.castId (.str id) = some oid → c.get oid = some d →
        call.user.sub = oid.toString ∧ (∀ stages, dto ≠ .arr stages) ∧
          ∀ k ∈ privileged, k ∉ mentions dto.entries

theorem Intact.refl (c : Collection) : Intact [] c c := ⟨fun _ _ => rfl, fun _ _ _ => rfl⟩

theorem Intact.snoc {calls : List UsersCall} {c c' c'' : Collection} {call : UsersCall}
    (h : Intact calls c c') (hstep : UsersStep M c' call c'') (hcall : HarmlessUpdate M c' call) :
    Intact (calls ++ [call]) c c'' := by
  rcases hstep.cases hcall.1 with rfl | ⟨id, dto, d, f, fields, hreq, huser, hd, hcast, hf, hfields, rfl⟩
  · exact ⟨fun id hid => h.others id fun call' hcall' => hid call' (List.mem_append_left _ hcall'),
      h.own⟩
  obtain ⟨hsub, harr, hprivileged⟩ := hcall.2 id dto hreq huser d.id d hcast hd
  refine ⟨?_, ?_⟩
  · intro oid hoid
    have hne : oid ≠ d.id := by
      rintro rfl
      exact hoid call (by simp) hsub
    rw [Collection.get_put_ne (d := touch call.env d.id fields) hne]
    exact h.others oid fun call' hcall' => hoid call' (List.mem_append_left _ hcall')
  · intro oid k hk
    rw [← h.own oid k hk]
    by_cases hoid : oid = d.id
    · subst hoid
      have hput : (c'.put (touch call.env d.id fields)).get d.id = some (touch call.env d.id fields) :=
        Collection.get_put_self hd
      have hupdatedAt : k ≠ "updatedAt" := by
        rintro rfl
        revert hk
        decide
      have hframe : fields k = d.fields k := by
        refine Update.compile_frame ?_ hf hfields ?_
        · intro stages hstages
          exact harr stages (encodeValue_eq_arr.mp hstages)
        · rw [entries_encodeValue]
          exact hprivileged k hk
      rw [hput, hd, Option.map_some, Option.map_some, touch_of_ne hupdatedAt, hframe]
    · rw [Collection.get_put_ne (d := touch call.env d.id fields) hoid]

/-- A run of `/users` requests without administrators leaves privileges intact, as
long as every update that finds a record finds the caller's own and mentions no
privileged field. -/
theorem run_intact {c c' : Collection} {calls : List UsersCall}
    (h : Run (Meeting (UsersStep M) (HarmlessUpdate M)) c calls c') : Intact calls c c' := by
  induction h with
  | nil => exact .refl _
  | snoc _ hlast ih => exact ih.snoc hlast.1 hlast.2

/-! ### One user -/

def aliceId : ObjectId := ⟨"000000000000000000000001", by decide⟩

def alice : JwtPayload := ⟨aliceId.toString, "alice@example.com", UserRole.USER⟩

def aliceOnly : Collection where
  docs := [⟨aliceId, Fields.assign (fun _ => .undefined)
    [("email", .str "alice@example.com"), ("password", .str "$2b$12$hash"),
     ("name", .str "Alice"), ("roles", .arr [.str "user"]), ("lastLoginAt", .null),
     ("deletedAt", .null), ("createdAt", .date 0), ("updatedAt", .date 0), ("__v", .nat 0)]⟩]
  nodup := List.nodup_singleton _

/-- `PUT /users/:id` by Alice on her own record. -/
def putAlice (dto : Entries) : UsersCall where
  user := alice
  env := ⟨0, aliceId, 0⟩
  network := .up
  request := .update aliceId.toString (.obj dto)

def rootId : ObjectId := ⟨"000000000000000000000002", by decide⟩

def rootAccount : Doc where
  id := rootId
  fields := Fields.assign (fun _ => .undefined)
    [("email", .str "root@example.com"), ("password", .str "$2b$12$other"), ("name", .str "Root"),
     ("roles", .arr [.str "admin"]), ("lastLoginAt", .null), ("deletedAt", .null),
     ("createdAt", .date 0), ("updatedAt", .date 0), ("__v", .nat 0)]

def aliceAndRoot : Collection := aliceOnly.insert rootAccount (by decide)

def renamed : Collection :=
  (((putAlice [("name", .str "Al")]).run .plain).exec aliceAndRoot).2

/-- Renaming oneself is harmless, also to the account of another user. -/
theorem run_intact_rename :
    (renamed.get aliceId).map (·.fields "name") = some (.str "Al") ∧
      (renamed.get rootId).isSome = true ∧
      Intact [putAlice [("name", .str "Al")]] aliceAndRoot renamed := by
  have hharmless : HarmlessUpdate .plain aliceAndRoot (putAlice [("name", .str "Al")]) := by
    refine ⟨by decide, ?_⟩
    intro id dto hreq _ oid d hcast _
    cases hreq
    rw [Mongoose.plain.castId_toString] at hcast
    cases hcast
    exact ⟨rfl, by simp, by decide⟩
  refine ⟨by decide +kernel, by decide +kernel, ?_⟩
  exact run_intact (M := .plain) (.snoc (.nil _) ⟨rfl, hharmless⟩)

/-- A user makes themselves an administrator. -/
theorem put_roles_not_intact :
    (putAlice [("roles", .arr [.str "admin"])]).user.role ≠ UserRole.ADMIN ∧
      ¬ Intact [putAlice [("roles", .arr [.str "admin"])]] aliceOnly
        (((putAlice [("roles", .arr [.str "admin"])]).run .plain).exec aliceOnly).2 := by
  refine ⟨by decide, ?_⟩
  intro h
  have hroles := h.own aliceId "roles" (by decide)
  revert hroles
  decide

end Gateway
