-- SUMMARY: When a login identifies one account: the email of the body is a query condition.
import NestPlatform.Auth.Deleted

/-!
# Logging in

Nothing checks the body of a login, and its email goes into a filter as it is: a
condition object or a list selects accounts as well as a string does.
-/
namespace Auth

open Js Mongo Nest Common Database Effect

/-! ## The property -/

/-- The email of the user schema. -/
def emailPath : SchemaPath :=
  { name := "email", type := .string, required := true, unique := true, lowercase := true,
    trim := true }

section Property

variable (M : Mongoose) (bcrypt : Bcrypt) (jwt : Jwt)

/-- No two accounts have the same email in lower case and trimmed; `same` is the equality of
the unique index. -/
def EmailsDistinct (c : Collection) : Prop :=
  ∀ d ∈ c.docs, ∀ e ∈ c.docs, d.id ≠ e.id →
    same (emailPath.setters M (d.fields "email")) (emailPath.setters M (e.fields "email")) = false

/-- The email of the body is a string and, in lower case and trimmed, that of the account,
and the password has the account's hash. -/
def Admits (dto : Entries) (c : Collection) (d : Doc) : Prop :=
  d ∈ c.docs ∧
    (∃ email, dto.get "email" = .str email ∧ emailPath.setters M (.str email) = d.fields "email") ∧
    bcrypt.compare (dto.get "password") (d.fields "password") = some true

/-- What the login should come to: tokens for the account that the credentials belong to,
and otherwise an error that leaves the collection alone. -/
structure Identifies (dto : Entries) (c : Collection)
    (outcome : Except Thrown AuthResult × AuthState) : Prop where
  admits : ∀ d, Admits M bcrypt dto c d → ∃ result, outcome.1 = .ok result ∧
    jwt.claim result.tokens.accessToken "sub" = .str d.id.toString ∧
    jwt.claim result.tokens.refreshToken "sub" = .str d.id.toString
  rejects : (∀ d, ¬ Admits M bcrypt dto c d) →
    (∃ e, outcome.1 = .error e) ∧ outcome.2.users = c

end Property

/-! ## The condition -/

section Condition

variable (M : Mongoose) (bcrypt : Bcrypt) (jwt : Jwt) (config : AuthConfig) (env : AuthEnv)

/-- As a query condition, the email selects the account, and the password has its hash. -/
def Selects (dto : Entries) (c : Collection) (user : Doc) : Prop :=
  Mongo.findOne M UserSchema env.env [("email", dto.get "email")] ["password"] c = .ok (some user) ∧
    bcrypt.compare (dto.get "password") (user.fields "password") = some true

/-- The roles of the account are there, and the JWT library signs both tokens. -/
def Signs (now : ℤ) (user : Doc) : Prop :=
  ∃ role, AuthService.role user = some role ∧
    let payload : Entries :=
      [("sub", .str user.id.toString), ("email", user.fields "email"), ("role", role)]
    (jwt.sign payload (config.secretKey (some config.JWT_ACCESS_SECRET))
        (orText config.JWT_ACCESS_EXPIRES_IN "15m") now).isSome ∧
      (jwt.sign payload (config.secretKey config.JWT_REFRESH_SECRET)
        (orText config.JWT_REFRESH_EXPIRES_IN "7d") now).isSome

/-- Recording the login would change nothing: the account was written at this very time. -/
def Stamped (now : ℤ) (user : Doc) : Prop :=
  user.fields "lastLoginAt" = .date now ∧ user.fields "updatedAt" = .date now

/-- An account that the email selects is selected by a string and can be issued tokens. An
account selected otherwise does no harm only if it can neither be issued tokens nor marked
as logged in. -/
def SelectsSafely (dto : Entries) (c : Collection) : Prop :=
  ∀ user, Selects M bcrypt env dto c user →
    ((∃ email, dto.get "email" = .str email) ∧ Signs jwt config env.env.now user) ∨
    ((¬ ∃ email, dto.get "email" = .str email) ∧ ¬ Signs jwt config env.env.now user ∧
      Stamped env.env.now user)

end Condition

/-! ## What a login does -/

variable {M : Mongoose} {bcrypt : Bcrypt} {jwt : Jwt} {config : AuthConfig} {env : AuthEnv}
variable {dto : Entries} {s : AuthState}

theorem exists_generateTokens_iff {now : ℤ} {user : Doc} :
    (∃ tokens, AuthService.generateTokens jwt config now user = .ok tokens) ↔
      Signs jwt config now user := by
  unfold AuthService.generateTokens Signs
  cases AuthService.role user with
  | none => simp
  | some role =>
    simp only [Option.some.injEq, exists_eq_left']
    split
    · rename_i haccess hrefresh
      simp [haccess, hrefresh]
    · rename_i hneither
      simp only [reduceCtorEq, exists_false, Option.isSome_iff_exists, false_iff]
      rintro ⟨⟨accessToken, haccess⟩, refreshToken, hrefresh⟩
      exact hneither _ _ haccess hrefresh

/-- The update that records a login. -/
theorem compile_lastLoginAt (M : Mongoose) (now : ℤ) :
    (Update.body (.obj [("lastLoginAt", .date now)])).compile M UserSchema =
      some fun _ fields => some (fields.assign [("lastLoginAt", .date now)]) := by
  refine compile_single (by decide) (by decide) rfl ?_
  simp [SchemaPath.set, Value.nullish, M.cast_accepts (t := .date) (v := .date now) rfl,
    SchemaPath.setters]

theorem same_setters {p : SchemaPath} {v w : Value} (h : same v w = true) :
    same (p.setters M v) (p.setters M w) = true := by
  have hnullish : ∀ x : Value, x.nullish = true → (p.setters M x).nullish = true := by
    intro x hx
    cases x <;> exact hx
  rcases Bool.or_eq_true_iff.mp h with hnull | heq
  · obtain ⟨hv, hw⟩ := Bool.and_eq_true_iff.mp hnull
    simp [same, hnullish v hv, hnullish w hw]
  · obtain rfl : v = w := by simpa using heq
    simp [same]

/-- Two accounts whose emails are the same are one. -/
theorem EmailsDistinct.id_eq {c : Collection} (h : EmailsDistinct M c) {d e : Doc} (hd : d ∈ c.docs)
    (he : e ∈ c.docs) (hsame : same (d.fields "email") (e.fields "email") = true) : d.id = e.id := by
  by_contra hne
  have hsetters := same_setters (M := M) (p := emailPath) hsame
  rw [h d hd e he hne] at hsetters
  cases hsetters

/-- Writing an account without a change of its email clashes with no other account. -/
theorem EmailsDistinct.uniqueOk {c : Collection} (h : EmailsDistinct M c) {d d' : Doc}
    (hd : d ∈ c.docs) (hid : d'.id = d.id) (hemail : d'.fields "email" = d.fields "email") :
    Mongo.uniqueOk UserSchema c d' = true := by
  refine List.all_eq_true.mpr fun e he => ?_
  by_cases hsame : same (e.fields "email") (d.fields "email") = true
  · have heq : e.id = d'.id := (h.id_eq he hd hsame).trans hid.symm
    simp [heq]
  · simp [UserSchema, versionKey, hemail, hsame]

/-- The hidden path is there if a query asks for it. -/
theorem password_hydrate (d : Doc) :
    (hydrate UserSchema ["password"] d).fields "password" = d.fields "password" :=
  hydrate_of_noDefault
    (p := { name := "password", type := .string, required := true, minlength := some 6,
            select := false })
    rfl (by decide) rfl d

/-- A login that no account matches throws and changes nothing. -/
theorem exec_login_unselected (jwt : Jwt) (config : AuthConfig)
    (h : ∀ user, ¬ Selects M bcrypt env dto s.users user) :
    ∃ e, (AuthService.login M bcrypt jwt config env dto).exec s = (.error e, s) := by
  unfold AuthService.login AuthService.findByEmail
  rw [exec_bind, exec_onUsers, exec_query]
  cases hfound : Mongo.findOne M UserSchema env.env [("email", dto.get "email")] ["password"]
      s.users with
  | error fault => exact ⟨_, rfl⟩
  | ok found =>
    cases found with
    | none => exact ⟨_, rfl⟩
    | some user =>
      dsimp only
      rw [exec_bind]
      cases hcompare : bcrypt.compare (dto.get "password") (user.fields "password") with
      | none => exact ⟨_, rfl⟩
      | some valid =>
        cases valid with
        | false => exact ⟨_, rfl⟩
        | true => exact absurd ⟨hfound, hcompare⟩ (h user)

/-- The account that a login has recorded. -/
def stamped (env : Env) (d : Doc) : Doc :=
  touch env d.id (d.fields.assign [("lastLoginAt", .date env.now)])

/-- A login with an account that matches records it and generates its tokens. -/
theorem exec_login_selected (jwt : Jwt) (config : AuthConfig)
    (hdistinct : EmailsDistinct M s.users) {user : Doc}
    (h : Selects M bcrypt env dto s.users user) :
    ∃ d ∈ s.users.docs, user = hydrate UserSchema ["password"] d ∧
      (AuthService.login M bcrypt jwt config env dto).exec s =
        ((AuthService.generateTokens jwt config env.env.now user).map fun tokens =>
          { user := AuthService.sanitizeUser user, tokens },
         { s with users := s.users.put (stamped env.env d) }) := by
  obtain ⟨hfound, hcompare⟩ := h
  obtain ⟨p, d, hp, hd, rfl⟩ := findOne_eq_some hfound
  have hmem : d ∈ s.users.docs := (find?_scan_eq_some hd).1
  refine ⟨d, hmem, rfl, ?_⟩
  have hupdate : Mongo.update M UserSchema env.env
      (byId (.str (hydrate UserSchema ["password"] d).id.toString))
      (.body (.obj [("lastLoginAt", .date env.env.now)])) s.users =
        .ok (some (stamped env.env d), s.users.put (stamped env.env d)) :=
    update_str_eq_ok (M.castId_toString d.id) (compile_lastLoginAt M env.env.now)
      (Collection.get_of_mem hmem) rfl (hdistinct.uniqueOk hmem rfl rfl)
  have hquery : (onUsers (AuthService.findByEmail M env (dto.get "email") ["password"])).exec s =
      (.ok (some (hydrate UserSchema ["password"] d)), s) := by
    unfold AuthService.findByEmail
    rw [exec_onUsers, exec_query, hfound]
  have hvalid : (orThrow (bcrypt.compare (dto.get "password")
      ((hydrate UserSchema ["password"] d).fields "password"))).exec s = (.ok true, s) := by
    rw [hcompare]
    rfl
  have hwrite : (onUsers (command (Mongo.update M UserSchema env.env
      (byId (.str (hydrate UserSchema ["password"] d).id.toString))
      (.body (.obj [("lastLoginAt", .date env.env.now)]))))).exec s =
        (.ok (some (stamped env.env d)),
          { s with users := s.users.put (stamped env.env d) }) := by
    rw [exec_onUsers, exec_command, hupdate]
  unfold AuthService.login
  rw [exec_bind_ok hquery]
  dsimp only
  rw [exec_bind_ok hvalid, if_pos rfl, exec_bind_ok hwrite]
  unfold AuthService.tokensFor
  rw [exec_bind]
  cases AuthService.generateTokens jwt config env.env.now (hydrate UserSchema ["password"] d) <;> rfl

/-! ## Selecting by a string -/

/-- A string selects by the email in lower case and trimmed. -/
theorem matcher_email (email : String) :
    Filter.matcher M UserSchema [("email", .str email)] =
      some fun d => same (emailPath.setters M (.str email)) (d.fields "email") && true := by
  have hset : emailPath.set M (.str email) = some (emailPath.setters M (.str email)) := by
    simp [SchemaPath.set, Value.nullish, emailPath,
      M.cast_accepts (t := .string) (v := .str email) rfl]
  have hcondition : fieldMatcher M UserSchema "email" (.str email) =
      some (same (emailPath.setters M (.str email))) := by
    change (emailPath.set M (.str email)).map same = _
    rw [hset]
    rfl
  simp only [Filter.matcher, hcondition, Option.bind_eq_bind, Option.bind_some]
  rfl

theorem same_email {email : String} {v : Value} :
    same (emailPath.setters M (.str email)) v = true ↔ emailPath.setters M (.str email) = v := by
  unfold same SchemaPath.setters
  simp [Value.nullish]

/-- The account that a string selects is the one whose email it is. -/
theorem admits_iff_selects (hdistinct : EmailsDistinct M s.users) {email : String}
    (hemail : dto.get "email" = .str email) {d : Doc} (hd : d ∈ s.users.docs) :
    Admits M bcrypt dto s.users d ↔
      Selects M bcrypt env dto s.users (hydrate UserSchema ["password"] d) := by
  have hsame := fun v => @same_email M email v
  unfold Selects
  rw [hemail, password_hydrate]
  constructor
  · rintro ⟨-, ⟨email', hemail', hd_email⟩, hcompare⟩
    obtain rfl : email = email' := Value.str.inj (hemail.symm.trans hemail')
    refine ⟨?_, hcompare⟩
    unfold Mongo.findOne
    rw [matcher_email]
    dsimp only
    cases hfind : (M.scan env.env.seed s.users.docs).find?
        (fun d => same (emailPath.setters M (.str email)) (d.fields "email") && true) with
    | none =>
      have hmiss := find?_scan_eq_none.mp hfind d hd
      rw [Bool.and_true, (hsame _).mpr hd_email] at hmiss
      cases hmiss
    | some e =>
      obtain ⟨he, hmatch⟩ := find?_scan_eq_some hfind
      rw [Bool.and_true, hsame, hd_email] at hmatch
      have hid : e.id = d.id := hdistinct.id_eq he hd (by simp [same, hmatch])
      rw [Collection.eq_of_id he hd hid]
      rfl
  · rintro ⟨hfound, hcompare⟩
    refine ⟨hd, ⟨email, hemail, ?_⟩, hcompare⟩
    obtain ⟨p, e, hp, hfind, heq⟩ := findOne_eq_some hfound
    obtain ⟨he, hmatch⟩ := find?_scan_eq_some hfind
    have hid : (hydrate UserSchema ["password"] d).id = (hydrate UserSchema ["password"] e).id :=
      congrArg Doc.id heq
    obtain rfl : d = e := Collection.eq_of_id hd he hid
    rw [matcher_email] at hp
    obtain rfl := Option.some.inj hp
    dsimp only at hmatch
    rw [Bool.and_true] at hmatch
    exact (hsame _).mp hmatch

/-! ## The property and the condition -/

/-- Recording a login changes nothing exactly when the account carries this time already. -/
theorem put_stamped_eq {c : Collection} {d : Doc} (hd : d ∈ c.docs) (env : Env) :
    c.put (stamped env d) = c ↔ Stamped env.now (hydrate UserSchema ["password"] d) := by
  have hlast : UserSchema.path "lastLoginAt" =
      some { name := "lastLoginAt", type := .date, default := .null } := rfl
  have hupdated : UserSchema.path "updatedAt" = none := rfl
  have hdefault : (if d.fields "lastLoginAt" = .undefined then .null else d.fields "lastLoginAt") =
      Value.date env.now ↔ d.fields "lastLoginAt" = .date env.now := by
    by_cases h : d.fields "lastLoginAt" = .undefined <;> simp [h]
  have hid : (stamped env d).id = d.id := rfl
  rw [Collection.put_eq_self hd hid]
  simp only [Stamped, hydrate, hlast, hupdated, Bool.true_or, if_true, hdefault]
  constructor
  · intro h
    have hfields : (stamped env d).fields = d.fields := congrArg Doc.fields h
    rw [← hfields]
    exact ⟨rfl, rfl⟩
  · rintro ⟨hlastLogin, hupdatedAt⟩
    unfold stamped touch Fields.assign
    simp only [List.foldl_cons, List.foldl_nil]
    rw [← hlastLogin, Function.update_eq_self, hlastLogin, ← hupdatedAt, Function.update_eq_self]

theorem selectsSafely_of_identifies (hdistinct : EmailsDistinct M s.users)
    (h : Identifies M bcrypt jwt dto s.users
      ((AuthService.login M bcrypt jwt config env dto).exec s)) :
    SelectsSafely M bcrypt jwt config env dto s.users := by
  intro user hselects
  obtain ⟨d, hd, rfl, hexec⟩ := exec_login_selected jwt config hdistinct hselects
  rw [hexec] at h
  by_cases hstr : ∃ email, dto.get "email" = .str email
  · -- the account of that email, which is to be admitted
    obtain ⟨email, hemail⟩ := hstr
    obtain ⟨result, hresult, -⟩ := h.admits d ((admits_iff_selects hdistinct hemail hd).mpr hselects)
    refine .inl ⟨⟨email, hemail⟩, exists_generateTokens_iff.mp ?_⟩
    cases htokens : AuthService.generateTokens jwt config env.env.now
        (hydrate UserSchema ["password"] d) with
    | ok tokens => exact ⟨tokens, rfl⟩
    | error e =>
      rw [htokens] at hresult
      cases hresult
  · -- an account that a condition has selected, which is to be refused
    obtain ⟨⟨e, he⟩, husers⟩ := h.rejects fun d ⟨_, ⟨email, hemail, _⟩, _⟩ => hstr ⟨email, hemail⟩
    refine .inr ⟨hstr, ?_, (put_stamped_eq hd _).mp husers⟩
    intro hsigns
    obtain ⟨tokens, htokens⟩ := exists_generateTokens_iff.mpr hsigns
    rw [htokens] at he
    cases he

theorem SelectsSafely.identifies (hjwt : jwt.Carries "sub") (hdistinct : EmailsDistinct M s.users)
    (h : SelectsSafely M bcrypt jwt config env dto s.users) :
    Identifies M bcrypt jwt dto s.users
      ((AuthService.login M bcrypt jwt config env dto).exec s) := by
  constructor
  · intro d hadmits
    obtain ⟨hd, ⟨email, hemail, -⟩, -⟩ := id hadmits
    have hselects : Selects M bcrypt env dto s.users (hydrate UserSchema ["password"] d) :=
      (admits_iff_selects hdistinct hemail hd).mp hadmits
    rcases h _ hselects with ⟨-, hsigns⟩ | ⟨hnot, -⟩
    · obtain ⟨tokens, htokens⟩ := exists_generateTokens_iff.mpr hsigns
      obtain ⟨_, -, -, hexec⟩ := exec_login_selected jwt config hdistinct hselects
      obtain ⟨role, -, hclaims⟩ := generateTokens_claims hjwt htokens
      rw [Entries.get_cons_self] at hclaims
      rw [hexec, htokens]
      exact ⟨_, rfl, hclaims⟩
    · exact absurd ⟨email, hemail⟩ hnot
  · intro hnone
    by_cases hany : ∃ user, Selects M bcrypt env dto s.users user
    · -- a condition has selected an account: only the signing can refuse it
      obtain ⟨user, hselects⟩ := hany
      obtain ⟨d, hd, rfl, hexec⟩ := exec_login_selected jwt config hdistinct hselects
      rcases h _ hselects with ⟨⟨email, hemail⟩, -⟩ | ⟨-, hsigns, hstamped⟩
      · exact absurd ((admits_iff_selects hdistinct hemail hd).mpr hselects) (hnone d)
      · rw [hexec]
        refine ⟨?_, (put_stamped_eq hd _).mpr hstamped⟩
        cases htokens : AuthService.generateTokens jwt config env.env.now
            (hydrate UserSchema ["password"] d) with
        | error e => exact ⟨e, rfl⟩
        | ok tokens => exact absurd (exists_generateTokens_iff.mp ⟨tokens, htokens⟩) hsigns
    · obtain ⟨e, hexec⟩ := exec_login_unselected jwt config fun user hselects =>
        hany ⟨user, hselects⟩
      rw [hexec]
      exact ⟨⟨e, rfl⟩, rfl⟩

/-- A login identifies one account if and only if its email, as a query condition, selects an
account with this password only by being its email. -/
theorem login_identifies_iff (hjwt : jwt.Carries "sub") (hdistinct : EmailsDistinct M s.users) :
    Identifies M bcrypt jwt dto s.users ((AuthService.login M bcrypt jwt config env dto).exec s) ↔
      SelectsSafely M bcrypt jwt config env dto s.users :=
  ⟨selectsSafely_of_identifies hdistinct, fun h => h.identifies hjwt hdistinct⟩

/-! ### One account -/

/-- Mongoose with the query operator `$ne`. -/
def notEqual : Mongoose :=
  { Mongoose.plain with
    operatorCondition := fun p es =>
      match es with
      | [("$ne", v)] => (p.set .plain v).map fun w x => ! same w x
      | _ => none }

def accessOnly : AuthConfig := ⟨"access", none, none, none, .fin 12⟩

/-- A login on the collection that has only Dana's account. -/
def danaLogs (M : Mongoose) (email : Value) : Except Thrown AuthResult × AuthState :=
  (AuthService.login M .plain .plain accessOnly danaEnv
    [("email", email), ("password", .str "secret")]).exec danaOnly.state

theorem emailsDistinct_dana (M : Mongoose) : EmailsDistinct M danaOnly.state.users := by
  intro d hd e he hne
  obtain rfl := List.mem_singleton.mp hd
  obtain rfl := List.mem_singleton.mp he
  exact absurd rfl hne

/-- Dana's email in capitals and with a blank is her email. -/
theorem login_identifies_dana :
    Identifies .plain .plain .plain
      [("email", .str " DANA@example.com"), ("password", .str "secret")] danaOnly.state.users
      (danaLogs .plain (.str " DANA@example.com")) := by
  refine (login_identifies_iff Jwt.plain_carries (emailsDistinct_dana _)).mpr ?_
  rintro user ⟨hfound, -⟩
  obtain ⟨p, d, -, hd, rfl⟩ := findOne_eq_some hfound
  obtain rfl := List.mem_singleton.mp (find?_scan_eq_some hd).1
  exact .inl ⟨⟨_, rfl⟩, _, rfl, rfl, rfl⟩

/-- With `{ $ne: '' }` for the email the password alone logs in. -/
theorem login_by_operator :
    EmailsDistinct notEqual danaOnly.state.users ∧
      ¬ Identifies notEqual .plain .plain
        [("email", .obj [("$ne", .str "")]), ("password", .str "secret")] danaOnly.state.users
        (danaLogs notEqual (.obj [("$ne", .str "")])) := by
  refine ⟨emailsDistinct_dana _, fun h => ?_⟩
  obtain ⟨⟨e, he⟩, -⟩ := h.rejects fun d ⟨_, ⟨email, hemail, _⟩, _⟩ => by
    cases hemail
  have hok : ∃ result, (danaLogs notEqual (.obj [("$ne", .str "")])).1 = .ok result := ⟨_, rfl⟩
  obtain ⟨result, hresult⟩ := hok
  rw [he] at hresult
  cases hresult

end Auth
