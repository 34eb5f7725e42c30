-- SUMMARY: Registrations interleaved step by step, and when they are as clean as one after the other.
import NestPlatform.Auth.Registration

/-!
# Concurrent registrations

Any number of registrations share the users collection. Two of them can both find
that an email is free; the unique index then stops one of them, with another error
than the check has.
-/
namespace Auth

open Js Mongo Nest Common Database Effect Transition

/-! ## Interleavings -/

structure Registrations (ι : Type) where
  shared : AuthState
  stage : ι → RegisterStage

section

variable (M : Mongoose) (bcrypt : Bcrypt) (jwt : Jwt) (config : AuthConfig)
variable {ι : Type} [DecidableEq ι] (request : ι → RegisterRequest)

/-- The state with registration `i` at the given stage. -/
def Registrations.moveTo (w : Registrations ι) (i : ι) (stage : RegisterStage) : Registrations ι :=
  { w with stage := Function.update w.stage i stage }

/-- The state with user `d` stored. -/
def Registrations.insert (w : Registrations ι) (d : Doc) (hnew : w.shared.users.get d.id = none) :
    Registrations ι :=
  { w with shared := { w.shared with users := w.shared.users.insert d hnew } }

/-- Registration `i` takes its next step. -/
def Registrations.next (w : Registrations ι) (i : ι) : Registrations ι :=
  let after := (request i).advance M bcrypt jwt config {} (w.stage i) w.shared
  Registrations.moveTo { w with shared := after.2 } i after.1

def RegisterStep (w : Registrations ι) (i : ι) (w' : Registrations ι) : Prop :=
  w' = w.next M bcrypt jwt config request i

end

/-! ## The property and the condition -/

/-- The user that a registration has created, as it is returned. -/
def RegisterStage.user : RegisterStage → Option Doc
  | .signing user | .emitting user _ => some (AuthService.sanitizeUser user)
  | .finished (.ok result) => some result.user
  | _ => none

/-- The email that a request registers, in lower case and trimmed. -/
def RegisterRequest.email (M : Mongoose) (request : RegisterRequest) : Value :=
  emailPath.setters M (request.dto.get "email")

def EmailTaken : Thrown := .http (BadRequestException "Email already registered")

variable {ι : Type}

/-- What the registrations should have come to, from `w₀` to `w`. -/
structure Serialised (M : Mongoose) (request : ι → RegisterRequest) (w₀ w : Registrations ι) :
    Prop where
  distinct : EmailsDistinct M w.shared.users
  one : ∀ email, (∀ d ∈ w₀.shared.users.docs, d.fields "email" ≠ email) →
    (∃ i, (request i).email M = email) →
    ∃ i, (request i).email M = email ∧ (∃ result, w.stage i = .finished (.ok result)) ∧
      ∀ j, (request j).email M = email → j ≠ i → w.stage j = .finished (.error EmailTaken)
  /-- The events are those of registrations that have succeeded, each at most once, about the
  stored user. -/
  events : ∃ emitted : List (ι × Doc), (emitted.map Prod.fst).Nodup ∧
    (∀ p ∈ emitted, p.2 ∈ w.shared.users.docs ∧
      ∃ tokens, w.stage p.1 = .finished (.ok { user := AuthService.sanitizeUser p.2, tokens })) ∧
    w.shared.events = w₀.shared.events ++ emitted.map fun p => userCreated p.2

section Condition

variable (M : Mongoose) (bcrypt : Bcrypt) (jwt : Jwt) (config : AuthConfig)
variable (request : ι → RegisterRequest)

/-- The request is a valid one, and no user with its email has been stored between its check and
its insert. -/
def Unhindered (w : Registrations ι) (i : ι) : Prop :=
  (∃ email, (request i).dto.get "email" = .str email) ∧
  match w.stage i with
  | .hashing =>
    (bcrypt.hash ((request i).dto.get "password") config.bcryptRounds (request i).env.salt).isSome
  | .creating hashedPassword =>
    ∃ d, construct M UserSchema (request i).env.env (newUser (request i).dto hashedPassword) =
        some d ∧ validate UserSchema d.fields = true ∧ w.shared.users.get d.id = none ∧
      ∀ e ∈ w.shared.users.docs, same (e.fields "email") (d.fields "email") = false
  | .signing user => Signs jwt config (request i).env.env.now user
  | .finding | .emitting _ _ | .finished _ => True

end Condition

/-! ## Creating a user -/

variable {M : Mongoose} {bcrypt : Bcrypt} {jwt : Jwt} {config : AuthConfig}

/-- A document that is valid and clashes with no other is created. -/
theorem create_eq {S : Schema} {env : Env} {dto : Entries} {c : Collection} {d : Doc}
    (hd : construct M S env dto = some d) (hvalid : validate S d.fields = true)
    (hnew : c.get d.id = none) (hunique : uniqueOk S c d = true) :
    Mongo.create M S env dto c = .ok (d, c.insert d hnew) := by
  simp only [Mongo.create, hd, hvalid, hnew, hunique, if_true, dif_pos]

theorem same_comm (v w : Value) : same v w = same w v := by
  unfold same
  rw [Bool.and_comm]
  congr 1
  exact decide_eq_decide.mpr eq_comm

/-- The email of a user is the only unique path. -/
theorem uniqueOk_of_email {c : Collection} {d : Doc}
    (h : ∀ e ∈ c.docs, same (e.fields "email") (d.fields "email") = false) :
    Mongo.uniqueOk UserSchema c d = true := by
  refine List.all_eq_true.mpr fun e he => ?_
  simp [UserSchema, versionKey, h e he]

/-- A created user has the email of the request, in lower case and trimmed. -/
theorem email_of_construct {request : RegisterRequest} {email hashedPassword : String}
    (hemail : request.dto.get "email" = .str email) {d : Doc}
    (hd : construct M UserSchema request.env.env (newUser request.dto hashedPassword) = some d)
    (hvalid : validate UserSchema d.fields = true) : d.fields "email" = request.email M := by
  have hpath : UserSchema.path "email" = some emailPath := rfl
  have hdotted : "email" ∉ dottedRoots (newUser request.dto hashedPassword) := by
    have hnone : dottedRoots (newUser request.dto hashedPassword) = [] := by
      simp [dottedRoots, newUser, Entries.keys, isDottedKey]
    rw [hnone]
    exact List.not_mem_nil
  rcases construct_cases hd hpath hdotted (by decide) with hdefault | ⟨v, hv, hset, -⟩
  · have hrequired : emailPath.valid (d.fields "email") = true :=
      List.all_eq_true.mp hvalid emailPath List.mem_cons_self
    rw [hdefault] at hrequired
    cases hrequired
  · have hvemail : v = .str email := by
      simpa [newUser, hemail] using hv
    rw [hvemail] at hset
    unfold RegisterRequest.email
    rw [hemail]
    simpa [SchemaPath.set, Value.nullish, emailPath, SchemaPath.setters,
      M.cast_accepts (t := .string) (v := .str email) rfl] using hset.symm

/-! ## The invariant -/

section Invariant

variable (M : Mongoose) (request : ι → RegisterRequest)

/-- The stored users are the old ones and those of the registrations, each of its own. -/
structure Accounted (w₀ w : Registrations ι) : Prop where
  kept : ∀ d ∈ w₀.shared.users.docs, d ∈ w.shared.users.docs
  covered : ∀ d ∈ w.shared.users.docs, d ∈ w₀.shared.users.docs ∨
    ∃ i, (w.stage i).user = some (AuthService.sanitizeUser d)
  stored : ∀ i user, (w.stage i).user = some user → w₀.shared.users.get user.id = none ∧
    ∃ d ∈ w.shared.users.docs, user = AuthService.sanitizeUser d ∧
      d.fields "email" = (request i).email M
  own : ∀ i j user user', (w.stage i).user = some user → (w.stage j).user = some user' →
    user.id = user'.id → i = j

/-- What has been published: the users of registrations that have succeeded. -/
def Published (w₀ w : Registrations ι) (emitted : List (ι × Doc)) : Prop :=
  (emitted.map Prod.fst).Nodup ∧
    (∀ p ∈ emitted, p.2 ∈ w.shared.users.docs ∧
      ∃ tokens, w.stage p.1 = .finished (.ok { user := AuthService.sanitizeUser p.2, tokens })) ∧
    w.shared.events = w₀.shared.events ++ emitted.map fun p => userCreated p.2

structure Orderly (w₀ w : Registrations ι) : Prop where
  accounted : Accounted M request w₀ w
  normal : ∀ d ∈ w.shared.users.docs, emailPath.setters M (d.fields "email") = d.fields "email"
  distinct : EmailsDistinct M w.shared.users
  refused : ∀ i e, w.stage i = .finished (.error e) → e = EmailTaken ∧
    ∃ d ∈ w.shared.users.docs, d.fields "email" = (request i).email M
  published : ∃ emitted, Published w₀ w emitted

end Invariant

variable [DecidableEq ι] {request : ι → RegisterRequest} {w₀ w w' : Registrations ι} {i : ι}

/-! ### Moving one registration -/

@[simp] theorem Registrations.stage_moveTo_self (w : Registrations ι) (i : ι)
    (stage : RegisterStage) : (w.moveTo i stage).stage i = stage := Function.update_self ..

theorem Registrations.stage_moveTo_ne {stage : RegisterStage} {j : ι} (h : j ≠ i) :
    (w.moveTo i stage).stage j = w.stage j := Function.update_of_ne h _ _

/-- Moving a registration on with the same user changes no registration's user. -/
theorem Registrations.user_moveTo {stage : RegisterStage} (h : stage.user = (w.stage i).user) (j : ι) :
    ((w.moveTo i stage).stage j).user = (w.stage j).user := by
  by_cases hj : j = i
  · subst hj
    rw [stage_moveTo_self, h]
  · rw [stage_moveTo_ne hj]

theorem Accounted.moveTo (h : Accounted M request w₀ w) {stage : RegisterStage}
    (hstage : stage.user = (w.stage i).user) : Accounted M request w₀ (w.moveTo i stage) where
  kept := h.kept
  covered d hd := (h.covered d hd).imp_right fun ⟨j, hj⟩ =>
    ⟨j, (Registrations.user_moveTo hstage j).trans hj⟩
  stored j user hj := h.stored j user ((Registrations.user_moveTo hstage j).symm.trans hj)
  own j k user user' hj hk := h.own j k user user'
    ((Registrations.user_moveTo hstage j).symm.trans hj)
    ((Registrations.user_moveTo hstage k).symm.trans hk)

theorem Published.moveTo {emitted : List (ι × Doc)} (h : Published w₀ w emitted)
    {stage : RegisterStage} (hopen : ∀ result, w.stage i ≠ .finished result) :
    Published w₀ (w.moveTo i stage) emitted := by
  obtain ⟨hnodup, hsucceeded, hevents⟩ := h
  refine ⟨hnodup, fun p hp => ?_, hevents⟩
  obtain ⟨hstored, tokens, hstage⟩ := hsucceeded p hp
  have hne : p.1 ≠ i := by
    rintro rfl
    exact hopen _ hstage
  exact ⟨hstored, tokens, (Registrations.stage_moveTo_ne hne).trans hstage⟩

/-- A registration that moves on without a write keeps the invariant. -/
theorem Orderly.moveTo (h : Orderly M request w₀ w) {stage : RegisterStage}
    (hopen : ∀ result, w.stage i ≠ .finished result) (hstage : stage.user = (w.stage i).user)
    (hrefused : ∀ e, stage = .finished (.error e) → e = EmailTaken ∧
      ∃ d ∈ w.shared.users.docs, d.fields "email" = (request i).email M) :
    Orderly M request w₀ (w.moveTo i stage) where
  accounted := h.accounted.moveTo hstage
  normal := h.normal
  distinct := h.distinct
  refused := by
    intro j e hj
    by_cases hji : j = i
    · subst hji
      rw [Registrations.stage_moveTo_self] at hj
      exact hrefused e hj
    · rw [Registrations.stage_moveTo_ne hji] at hj
      exact h.refused j e hj
  published := by
    obtain ⟨emitted, hpublished⟩ := h.published
    exact ⟨emitted, hpublished.moveTo hopen⟩

/-! ### Creating and publishing -/

omit [DecidableEq ι] in
@[simp] theorem Registrations.mem_insert {d e : Doc} {hnew : w.shared.users.get d.id = none} :
    e ∈ (w.insert d hnew).shared.users.docs ↔ e ∈ w.shared.users.docs ∨ e = d := by
  simp [Registrations.insert, Collection.insert]

omit [DecidableEq ι] in
/-- A new user has an id that no registration's user has. -/
theorem Accounted.ne_of_new (h : Accounted M request w₀ w) {d user : Doc}
    (hnew : w.shared.users.get d.id = none) {j : ι} (hj : (w.stage j).user = some user) :
    user.id ≠ d.id := by
  obtain ⟨-, e, he, rfl, -⟩ := h.stored j user hj
  exact (Collection.ne_of_get hnew he : e.id ≠ d.id)

omit [DecidableEq ι] in
/-- A new user was not there at the start. -/
theorem Accounted.get_of_new (h : Accounted M request w₀ w) {d : Doc}
    (hnew : w.shared.users.get d.id = none) : w₀.shared.users.get d.id = none := by
  by_contra hold
  obtain ⟨e, he⟩ := Option.ne_none_iff_exists'.mp hold
  have hmem : e ∈ w.shared.users.docs := h.kept e (Collection.mem_of_get he)
  exact Collection.ne_of_get hnew hmem (Collection.id_of_get he)

/-- A user who is created belongs to the registration that creates it. -/
theorem Accounted.create (h : Accounted M request w₀ w) {d : Doc}
    {hnew : w.shared.users.get d.id = none} (hnone : (w.stage i).user = none)
    (hemail : d.fields "email" = (request i).email M) :
    Accounted M request w₀ ((w.insert d hnew).moveTo i (.signing d)) := by
  have hself : ∀ {w : Registrations ι}, ((w.moveTo i (.signing d)).stage i).user =
      some (AuthService.sanitizeUser d) := by
    intro w
    rw [Registrations.stage_moveTo_self]
    rfl
  constructor
  · intro e he
    exact Registrations.mem_insert.mpr (.inl (h.kept e he))
  · intro e he
    rcases Registrations.mem_insert.mp he with hold | rfl
    · refine (h.covered e hold).imp_right fun ⟨j, hj⟩ => ⟨j, ?_⟩
      have hji : j ≠ i := by
        rintro rfl
        rw [hnone] at hj
        cases hj
      rw [Registrations.stage_moveTo_ne hji]
      exact hj
    · exact .inr ⟨i, hself⟩
  · intro j user hj
    by_cases hji : j = i
    · subst hji
      rw [hself] at hj
      cases hj
      exact ⟨h.get_of_new hnew, d, Registrations.mem_insert.mpr (.inr rfl), rfl, hemail⟩
    · rw [Registrations.stage_moveTo_ne hji] at hj
      obtain ⟨hold, e, he, huser, hmail⟩ := h.stored j user hj
      exact ⟨hold, e, Registrations.mem_insert.mpr (.inl he), huser, hmail⟩
  · intro j k user user' hj hk hid
    by_cases hji : j = i
    · by_cases hki : k = i
      · rw [hji, hki]
      · -- the id of the new user is that of no older one
        subst hji
        rw [hself] at hj
        cases hj
        rw [Registrations.stage_moveTo_ne hki] at hk
        exact absurd hid.symm (h.ne_of_new hnew hk)
    · rw [Registrations.stage_moveTo_ne hji] at hj
      by_cases hki : k = i
      · subst hki
        rw [hself] at hk
        cases hk
        exact absurd hid (h.ne_of_new hnew hj)
      · rw [Registrations.stage_moveTo_ne hki] at hk
        exact h.own j k user user' hj hk hid

theorem Orderly.create (h : Orderly M request w₀ w) {d : Doc}
    {hnew : w.shared.users.get d.id = none} {hashedPassword : String}
    (hcreating : w.stage i = .creating hashedPassword)
    (hemail : d.fields "email" = (request i).email M)
    (hnormal : emailPath.setters M (d.fields "email") = d.fields "email")
    (hfree : ∀ e ∈ w.shared.users.docs, same (e.fields "email") (d.fields "email") = false) :
    Orderly M request w₀ ((w.insert d hnew).moveTo i (.signing d)) where
  accounted := h.accounted.create (by rw [hcreating]; rfl) hemail
  normal := by
    intro e he
    rcases Registrations.mem_insert.mp he with hold | rfl
    · exact h.normal e hold
    · exact hnormal
  distinct := by
    have hnew : ∀ e ∈ w.shared.users.docs, same (emailPath.setters M (e.fields "email"))
        (emailPath.setters M (d.fields "email")) = false := by
      intro e he
      rw [h.normal e he, hnormal]
      exact hfree e he
    intro e he e' he' hne
    -- two old users, an old and the new one, either way round
    rcases Registrations.mem_insert.mp he with hold | rfl
    · rcases Registrations.mem_insert.mp he' with hold' | rfl
      · exact h.distinct e hold e' hold' hne
      · exact hnew e hold
    · rcases Registrations.mem_insert.mp he' with hold' | rfl
      · rw [same_comm]
        exact hnew e' hold'
      · exact absurd rfl hne
  refused := by
    intro j e hj
    have hji : j ≠ i := by
      rintro rfl
      rw [Registrations.stage_moveTo_self] at hj
      cases hj
    rw [Registrations.stage_moveTo_ne hji] at hj
    obtain ⟨htaken, d', hd', hmail⟩ := h.refused j e hj
    exact ⟨htaken, d', Registrations.mem_insert.mpr (.inl hd'), hmail⟩
  published := by
    obtain ⟨emitted, hnodup, hsucceeded, hevents⟩ := h.published
    have hstored : Published w₀
        { w with shared := { w.shared with users := w.shared.users.insert d hnew } } emitted :=
      ⟨hnodup, fun p hp => ⟨Registrations.mem_insert.mpr (.inl (hsucceeded p hp).1), (hsucceeded p hp).2⟩, hevents⟩
    exact ⟨emitted, hstored.moveTo fun result hresult => by
      rw [show w.stage i = .finished result from hresult] at hcreating
      cases hcreating⟩

omit [DecidableEq ι] in
/-- The event does not show the password. -/
theorem userCreated_sanitizeUser (user : Doc) :
    userCreated (AuthService.sanitizeUser user) = userCreated user := rfl

/-- A registration that emits its event has not done so before. -/
theorem Published.publish {emitted : List (ι × Doc)} (h : Published w₀ w emitted) {d user : Doc}
    {tokens : Tokens} (hstage : w.stage i = .emitting user tokens) (hd : d ∈ w.shared.users.docs)
    (huser : AuthService.sanitizeUser user = AuthService.sanitizeUser d) :
    ∃ emitted', Published w₀ (Registrations.moveTo
      { w with shared := (request i).announced user w.shared } i
      (.finished (.ok { user := AuthService.sanitizeUser user, tokens }))) emitted' := by
  have hopen : ∀ result, w.stage i ≠ .finished result := by
    intro result hresult
    rw [hstage] at hresult
    cases hresult
  have hmoved : Published w₀ (w.moveTo i
      (.finished (.ok { user := AuthService.sanitizeUser user, tokens }))) emitted := h.moveTo hopen
  obtain ⟨hnodup, hsucceeded, hevents⟩ := hmoved
  -- who has published is finished
  have hnot : i ∉ emitted.map Prod.fst := by
    intro hmem
    obtain ⟨p, hp, rfl⟩ := List.mem_map.mp hmem
    obtain ⟨-, _, hfinished⟩ := h.2.1 p hp
    exact hopen _ hfinished
  have hevent : userCreated user = userCreated d :=
    (userCreated_sanitizeUser user).symm.trans ((congrArg userCreated huser).trans
      (userCreated_sanitizeUser d))
  cases hpublishes : (request i).env.publishes with
  | false =>
    refine ⟨emitted, hnodup, hsucceeded, ?_⟩
    simp only [Registrations.moveTo, RegisterRequest.announced, hpublishes]
    exact hevents
  | true =>
    refine ⟨emitted ++ [(i, d)], ?_, ?_, ?_⟩
    · rw [List.map_append, List.nodup_append]
      refine ⟨hnodup, List.nodup_singleton _, ?_⟩
      rintro j hj _ hj' rfl
      rw [List.mem_singleton.mp hj'] at hj
      exact hnot hj
    · intro p hp
      rcases List.mem_append.mp hp with hold | hnew
      · exact hsucceeded p hold
      · obtain rfl := List.mem_singleton.mp hnew
        refine ⟨hd, tokens, ?_⟩
        rw [← huser]
        exact Registrations.stage_moveTo_self ..
    · simp only [Registrations.moveTo, RegisterRequest.announced, hpublishes, if_true,
        List.map_append, ← List.append_assoc]
      rw [hevent]
      exact congrArg (· ++ [userCreated d]) hevents

theorem Orderly.publish (h : Orderly M request w₀ w) {user : Doc} {tokens : Tokens}
    (hstage : w.stage i = .emitting user tokens) :
    Orderly M request w₀ (Registrations.moveTo
      { w with shared := (request i).announced user w.shared } i
      (.finished (.ok { user := AuthService.sanitizeUser user, tokens }))) := by
  obtain ⟨-, d, hd, huser, -⟩ := h.accounted.stored i (AuthService.sanitizeUser user)
    (by rw [hstage]; rfl)
  obtain ⟨emitted, hpublished⟩ := h.published
  have hmoved : Orderly M request w₀
      (w.moveTo i (.finished (.ok { user := AuthService.sanitizeUser user, tokens }))) :=
    h.moveTo (by simp [hstage]) (by rw [hstage]; rfl) (by simp)
  exact ⟨⟨hmoved.accounted.kept, hmoved.accounted.covered, hmoved.accounted.stored,
    hmoved.accounted.own⟩, hmoved.normal, hmoved.distinct, hmoved.refused,
    hpublished.publish hstage hd huser⟩

/-! ## One step -/

/-- A registration that looks for its email goes on, or is refused because it is there. -/
theorem Orderly.find (h : Orderly M request w₀ w) (hstage : w.stage i = .finding) {email : String}
    (hemail : (request i).dto.get "email" = .str email) :
    Orderly M request w₀ (w.next M bcrypt jwt config request i) := by
  have hmail : (request i).email M = emailPath.setters M (.str email) := by
    unfold RegisterRequest.email
    rw [hemail]
  unfold Registrations.next
  rw [hstage, RegisterRequest.advance_finding rfl, hemail]
  unfold Mongo.findOne
  rw [matcher_email]
  dsimp only
  cases hfound : (M.scan (request i).env.env.seed w.shared.users.docs).find?
      (fun d => same (emailPath.setters M (.str email)) (d.fields "email") && true) with
  | none => exact h.moveTo (by simp [hstage]) (by rw [hstage]; rfl) (by simp)
  | some d =>
    refine h.moveTo (by simp [hstage]) (by rw [hstage]; rfl) fun e he => ?_
    cases he
    obtain ⟨hd, hmatch⟩ := find?_scan_eq_some hfound
    rw [Bool.and_true, same_email, ← hmail] at hmatch
    exact ⟨rfl, d, hd, hmatch.symm⟩

theorem Orderly.next (hM : ∀ v, emailPath.setters M (emailPath.setters M v) = emailPath.setters M v)
    (h : Orderly M request w₀ w) (hi : Unhindered M bcrypt jwt config request w i) :
    Orderly M request w₀ (w.next M bcrypt jwt config request i) := by
  obtain ⟨⟨email, hemail⟩, hi⟩ := hi
  cases hstage : w.stage i with
  | finding => exact h.find hstage hemail
  | hashing =>
    rw [hstage] at hi
    obtain ⟨hashedPassword, hhash⟩ := Option.isSome_iff_exists.mp hi
    unfold Registrations.next
    rw [hstage, RegisterRequest.advance_hashing rfl, hhash]
    exact h.moveTo (by simp [hstage]) (by rw [hstage]; rfl) (by simp)
  | creating hashedPassword =>
    rw [hstage] at hi
    obtain ⟨d, hd, hvalid, hnew, hfree⟩ := hi
    unfold Registrations.next
    rw [hstage, RegisterRequest.advance_creating rfl,
      create_eq hd hvalid hnew (uniqueOk_of_email hfree)]
    have hdmail : d.fields "email" = (request i).email M := email_of_construct hemail hd hvalid
    refine h.create hstage hdmail ?_ hfree
    rw [hdmail]
    exact hM _
  | signing user =>
    rw [hstage] at hi
    obtain ⟨tokens, htokens⟩ := exists_generateTokens_iff.mpr hi
    unfold Registrations.next
    rw [hstage, RegisterRequest.advance_signing rfl, htokens]
    exact h.moveTo (by simp [hstage]) (by rw [hstage]; rfl) (by simp)
  | emitting user tokens =>
    unfold Registrations.next
    rw [hstage, RegisterRequest.advance_emitting]
    exact h.publish hstage
  | finished result =>
    have hsame : w.moveTo i (.finished result) = w := by
      unfold Registrations.moveTo
      rw [← hstage, Function.update_eq_self]
    unfold Registrations.next
    rw [hstage]
    change Orderly M request w₀ (w.moveTo i (.finished result))
    rw [hsame]
    exact h

/-! ## Completed registrations -/

omit [DecidableEq ι] in
/-- Of two registrations that have created a user, each has its own email. -/
theorem Orderly.eq_of_email (h : Orderly M request w₀ w) {i j : ι} {user user' : Doc}
    (hi : (w.stage i).user = some user) (hj : (w.stage j).user = some user')
    (hemail : (request i).email M = (request j).email M) : i = j := by
  obtain ⟨-, d, hd, rfl, hmail⟩ := h.accounted.stored i user hi
  obtain ⟨-, e, he, rfl, hmail'⟩ := h.accounted.stored j user' hj
  apply h.accounted.own i j _ _ hi hj
  by_contra hne
  have hsame := h.distinct d hd e he hne
  rw [hmail, hmail', hemail] at hsame
  simp [same] at hsame

omit [DecidableEq ι] in
/-- A registration that was refused a free email has lost it to one that has succeeded. -/
theorem Orderly.exists_owner (h : Orderly M request w₀ w)
    (hdone : ∀ i, ∃ result, w.stage i = .finished result) {email : Value}
    (hfree : ∀ d ∈ w₀.shared.users.docs, d.fields "email" ≠ email) {i : ι}
    (hi : (request i).email M = email) :
    ∃ j result, (request j).email M = email ∧ w.stage j = .finished (.ok result) := by
  obtain ⟨outcome, houtcome⟩ := hdone i
  cases outcome with
  | ok result => exact ⟨i, result, hi, houtcome⟩
  | error e =>
    obtain ⟨-, d, hd, hmail⟩ := h.refused i e houtcome
    rcases h.accounted.covered d hd with hold | ⟨j, hj⟩
    · exact absurd (hmail.trans hi) (hfree d hold)
    · obtain ⟨-, d', hd', huser, hmail'⟩ := h.accounted.stored j _ hj
      have hid : (AuthService.sanitizeUser d).id = (AuthService.sanitizeUser d').id :=
        congrArg Doc.id huser
      obtain rfl : d = d' := Collection.eq_of_id hd hd' hid
      obtain ⟨outcome', houtcome'⟩ := hdone j
      cases outcome' with
      | ok result => exact ⟨j, result, hmail'.symm.trans (hmail.trans hi), houtcome'⟩
      | error e' =>
        rw [houtcome'] at hj
        cases hj

omit [DecidableEq ι] in
theorem Orderly.serialised (h : Orderly M request w₀ w)
    (hdone : ∀ i, ∃ result, w.stage i = .finished result) : Serialised M request w₀ w where
  distinct := h.distinct
  one := by
    rintro email hfree ⟨i₀, hi₀⟩
    obtain ⟨i, result, hi, hsucceeded⟩ := h.exists_owner hdone hfree hi₀
    refine ⟨i, hi, ⟨result, hsucceeded⟩, fun j hj hne => ?_⟩
    obtain ⟨outcome, houtcome⟩ := hdone j
    cases outcome with
    | error e =>
      rw [houtcome, (h.refused j e houtcome).1]
    | ok result' =>
      have huser : (w.stage j).user = some result'.user := by
        rw [houtcome]
        rfl
      have huser' : (w.stage i).user = some result.user := by
        rw [hsucceeded]
        rfl
      exact absurd (h.eq_of_email huser huser' (hj.trans hi.symm)) hne
  events := h.published

/-! ## Runs -/

/-- In every run of registrations that are not hindered, exactly one of those that register a free
email succeeds, and the others find it registered. -/
theorem run_serialised
    (hM : ∀ v, emailPath.setters M (emailPath.setters M v) = emailPath.setters M v)
    (hnormal : ∀ d ∈ w₀.shared.users.docs,
      emailPath.setters M (d.fields "email") = d.fields "email")
    (hdistinct : EmailsDistinct M w₀.shared.users) (hstart : ∀ i, w₀.stage i = .finding)
    {steps : List ι}
    (h : Run (Meeting (RegisterStep M bcrypt jwt config request)
      (Unhindered M bcrypt jwt config request)) w₀ steps w)
    (hdone : ∀ i, ∃ result, w.stage i = .finished result) : Serialised M request w₀ w := by
  have hinit : Orderly M request w₀ w₀ := by
    refine ⟨⟨fun d hd => hd, fun d hd => .inl hd, ?_, ?_⟩, hnormal, hdistinct, ?_, [], List.nodup_nil,
      ?_, ?_⟩
    · intro i user hi
      rw [hstart] at hi
      cases hi
    · intro i j user user' hi
      rw [hstart] at hi
      cases hi
    · intro i e hi
      rw [hstart] at hi
      cases hi
    · intro p hp
      cases hp
    · exact (List.append_nil _).symm
  have hstep : ∀ w i w', Orderly M request w₀ w → Meeting (RegisterStep M bcrypt jwt config request)
      (Unhindered M bcrypt jwt config request) w i w' → Orderly M request w₀ w' := by
    rintro w i _ hw ⟨rfl, hi⟩
    exact hw.next hM hi
  exact (h.invariant hstep hinit).serialised hdone

/-! ### Two requests for one email -/

/-- An email in lower case and trimmed stays so. -/
theorem setters_plain (v : Value) :
    emailPath.setters .plain (emailPath.setters .plain v) = emailPath.setters .plain v := by
  cases v with
  | str s =>
    have hmap : trim (List.map Char.toLower (trim s.toList)) = List.map Char.toLower (trim s.toList) := by
      rw [trim_map isSpace_toLower, trim_trim]
    have hlower : Char.toLower ∘ Char.toLower = Char.toLower := funext toLower_toLower
    simp [SchemaPath.setters, emailPath, Mongoose.plain, String.toList_ofList, hmap, hlower]
  | undefined | null | bool | num | date | arr | obj => rfl

/-- Erin's browser sends her registration twice. -/
def erinTwice : Bool → RegisterRequest
  | false => erin
  | true => { erin with env := ⟨⟨0, ⟨"0000000000000000000000e6", by decide⟩, 1⟩, "salt", true⟩ }

def erinConfig : AuthConfig := ⟨"access", some "refresh", none, none, .fin 12⟩

def beforeErin : Registrations Bool := ⟨danaOnly.state, fun _ => .finding⟩

/-- The state after the given steps. -/
def afterErin (steps : List Bool) : Registrations Bool :=
  steps.foldl (Registrations.next .plain .plain .timed erinConfig erinTwice) beforeErin

/-- The second request begins after the first has ended. -/
theorem run_serialised_erin :
    Serialised .plain erinTwice beforeErin (afterErin [false, false, false, false, false, true]) := by
  have hdana : ∀ d ∈ beforeErin.shared.users.docs, d.fields "email" = .str "dana@example.com" := by
    intro d hd
    obtain rfl := List.mem_singleton.mp hd
    rfl
  have hnext : ∀ {steps w i}, Run (Meeting (RegisterStep .plain .plain .timed erinConfig erinTwice)
      (Unhindered .plain .plain .timed erinConfig erinTwice)) beforeErin steps w →
      Unhindered .plain .plain .timed erinConfig erinTwice w i →
      Run (Meeting (RegisterStep .plain .plain .timed erinConfig erinTwice)
        (Unhindered .plain .plain .timed erinConfig erinTwice)) beforeErin (steps ++ [i])
        (w.next .plain .plain .timed erinConfig erinTwice i) :=
    fun hrun hi => hrun.snoc ⟨rfl, hi⟩
  refine run_serialised setters_plain ?_ (emailsDistinct_dana _) (fun _ => rfl)
    (hnext (hnext (hnext (hnext (hnext (hnext (.nil _) ?_) ?_) ?_) ?_) ?_) ?_)
    (Bool.forall_bool.mpr ⟨⟨_, rfl⟩, ⟨_, rfl⟩⟩)
  · intro d hd
    rw [hdana d hd]
    decide
  · exact ⟨⟨_, rfl⟩, trivial⟩
  · exact ⟨⟨_, rfl⟩, rfl⟩
  · refine ⟨⟨_, rfl⟩, _, rfl, rfl, rfl, fun e he => ?_⟩
    rw [hdana e he]
    rfl
  · exact ⟨⟨_, rfl⟩, _, rfl, rfl, rfl⟩
  · exact ⟨⟨_, rfl⟩, trivial⟩
  · exact ⟨⟨_, rfl⟩, trivial⟩

/-- Both requests find the email free before either stores a user. -/
theorem register_twice :
    Run (RegisterStep .plain .plain .timed erinConfig erinTwice) beforeErin
      [false, true, false, true, false, true, false, false]
      (afterErin [false, true, false, true, false, true, false, false]) ∧
    (∀ i, ∃ result, (afterErin [false, true, false, true, false, true, false, false]).stage i =
      .finished result) ∧
    ¬ Serialised .plain erinTwice beforeErin
      (afterErin [false, true, false, true, false, true, false, false]) := by
  refine ⟨.snoc (.snoc (.snoc (.snoc (.snoc (.snoc (.snoc (.snoc (.nil _) rfl) rfl) rfl) rfl) rfl)
    rfl) rfl) rfl,
    Bool.forall_bool.mpr ⟨⟨_, rfl⟩, ⟨_, rfl⟩⟩, fun h => ?_⟩
  have hloser : (afterErin [false, true, false, true, false, true, false, false]).stage true =
      .finished (.error (.error "MongoServerError")) := rfl
  obtain ⟨i, -, ⟨result, hresult⟩, hothers⟩ := h.one (.str "erin@example.com") (by decide) ⟨false, rfl⟩
  cases i with
  | false =>
    have htaken := hothers true rfl (by decide)
    rw [hloser] at htaken
    cases htaken
  | true =>
    rw [hloser] at hresult
    cases hresult

end Auth
