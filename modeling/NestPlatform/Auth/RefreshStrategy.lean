-- SUMMARY: The refresh strategy: the token that its extractors select, and the one that it reports after verification.
import Mathlib.Data.List.Basic
import NestPlatform.Js.ToNumber

/-!
# `JwtRefreshStrategy`

The strategy reads the token of a request twice: the extractors select the one that is verified,
and `validate` looks for it again to put it next to the payload.
-/
namespace Auth

open Js

/-! ## Words -/

/-- The first word of a text and what follows it. -/
def word (cs : List Char) : List Char × List Char :=
  let cs := cs.dropWhile isSpace
  (cs.takeWhile (! isSpace ·), cs.dropWhile (! isSpace ·))

/-- The texts without white space. -/
def Solid (cs : List Char) : Prop := ∀ c ∈ cs, isSpace c = false

/-- The texts of white space. -/
def Blank (cs : List Char) : Prop := ∀ c ∈ cs, isSpace c = true

theorem solid_word (cs : List Char) : Solid (word cs).1 := by
  intro c hc
  have hall := List.all_eq_true.mp (List.all_takeWhile (p := (! isSpace ·)) (l := cs.dropWhile isSpace))
  simpa using hall c hc

theorem word_of_solid {cs : List Char} (h : Solid cs) : word cs = (cs, []) := by
  have hall : ∀ c ∈ cs, (! isSpace c) = true := fun c hc => by simp [h c hc]
  have htake : (cs ++ []).takeWhile (! isSpace ·) = cs ++ [] := List.takeWhile_append_of_pos hall
  have hdrop : (cs ++ []).dropWhile (! isSpace ·) = [] := List.dropWhile_append_of_pos hall
  rw [List.append_nil] at htake hdrop
  rw [word, dropWhile_isSpace_eq_self h, htake, hdrop]

theorem word_of_blank_append {blank : List Char} (h : Blank blank) (cs : List Char) :
    word (blank ++ cs) = word cs := by
  rw [word, List.dropWhile_append_of_pos h]
  rfl

/-- A word ends at the first white space. -/
theorem word_append {w : List Char} (hw : Solid w) (hne : w ≠ []) {c : Char} (hc : isSpace c = true)
    (cs : List Char) : word (w ++ c :: cs) = (w, c :: cs) := by
  have hall : ∀ c ∈ w, (! isSpace c) = true := fun c hc => by simp [hw c hc]
  have hstart : (w ++ c :: cs).dropWhile isSpace = w ++ c :: cs := by
    cases w with
    | nil => exact absurd rfl hne
    | cons b w => exact List.dropWhile_cons_of_neg (by simp [hw b List.mem_cons_self])
  rw [word, hstart, List.takeWhile_append_of_pos hall, List.dropWhile_append_of_pos hall,
    List.takeWhile_cons_of_neg (by simp [hc]), List.dropWhile_cons_of_neg (by simp [hc]),
    List.append_nil]

/-! ## The request -/

structure Request where
  /-- `req.cookies`, with the cookies that are there. -/
  cookies : Option (String → Option String)
  authorization : Option String

/-- `req.cookies?.refreshToken` -/
def Request.refreshToken (req : Request) : Option String := req.cookies.bind (· "refreshToken")

/-! ## Extraction -/

namespace ExtractJwt

/-- What `/(\S+)\s+(\S+)/` captures: the first two words. -/
def parseAuthHeader (header : String) : Option (String × String) :=
  let (scheme, rest) := word header.toList
  let (value, _) := word rest
  if value = [] then none else some (.ofList scheme, .ofList value)

/-- `fromAuthHeaderAsBearerToken` -/
def fromAuthHeaderAsBearerToken (req : Request) : Option String := do
  let (scheme, value) ← parseAuthHeader (← req.authorization)
  if scheme.toList.map Char.toLower = "bearer".toList then some value else none

/-- A token that is there and not empty. -/
def truthy (token : Option String) : Bool := token.any (· ≠ "")

/-- `fromExtractors`: each is asked until one gives a truthy token. -/
def fromExtractors (extractors : List (Request → Option String)) (req : Request) : Option String :=
  extractors.foldl (fun token extractor => if truthy token then token else extractor req) none

end ExtractJwt

namespace JwtRefreshStrategy

def jwtFromRequest : Request → Option String :=
  ExtractJwt.fromExtractors [Request.refreshToken, ExtractJwt.fromAuthHeaderAsBearerToken]

/-- `authorization.replace(/^Bearer\s+/, '')` -/
def withoutBearer (cs : List Char) : List Char :=
  match "Bearer".toList.isPrefixOf? cs with
  | some (c :: rest) => if isSpace c then rest.dropWhile isSpace else cs
  | _ => cs

/-- The token that `validate` finds in the request; `none` is `null`. -/
def reported (req : Request) : Option String :=
  req.refreshToken.or (req.authorization.map fun header => .ofList (withoutBearer header.toList))

def validate (req : Request) (payload : Entries) : Entries :=
  payload.set "refreshToken" ((reported req).elim .null .str)

/-- What becomes of a request: the token that is selected is verified, and the payload is
validated. -/
def authenticate (verify : String → Option Entries) (req : Request) : Option Entries := do
  let token ← jwtFromRequest req
  if token = "" then none
  else do
    let payload ← verify token
    some (validate req payload)

/-! ## The two readings of a request -/

/-- There is a refresh cookie that is not empty, or no such cookie and a header that is the
scheme as it is usually written, white space and a token without any. -/
def Unambiguous (req : Request) : Prop :=
  match req.refreshToken with
  | some cookie => cookie ≠ ""
  | none => ∃ blank token, blank ≠ [] ∧ Blank blank ∧ Solid token ∧
      req.authorization = some (.ofList ("Bearer".toList ++ (blank ++ token)))

theorem solid_bearer : Solid "Bearer".toList := by
  have hall : ("Bearer".toList.all fun c => ! isSpace c) = true := by decide
  intro c hc
  simpa using List.all_eq_true.mp hall c hc

theorem withoutBearer_cases (cs : List Char) :
    withoutBearer cs = cs ∨ ∃ c rest, isSpace c = true ∧ cs = "Bearer".toList ++ c :: rest ∧
      withoutBearer cs = rest.dropWhile isSpace := by
  cases hhead : "Bearer".toList.isPrefixOf? cs with
  | none => exact .inl (by simp only [withoutBearer, hhead])
  | some tail =>
    cases tail with
    | nil => exact .inl (by simp only [withoutBearer, hhead])
    | cons c rest =>
      by_cases hc : isSpace c = true
      · refine .inr ⟨c, rest, hc, (List.isPrefixOf?_eq_some_iff_append_eq.mp hhead).symm, ?_⟩
        simp only [withoutBearer, hhead, if_pos hc]
      · exact .inl (by simp only [withoutBearer, hhead, if_neg hc])

/-- What is left of a header without its prefix is the second word exactly for headers in
the usual form. -/
theorem withoutBearer_eq_iff {cs : List Char} (hvalue : (word (word cs).2).1 ≠ []) :
    withoutBearer cs = (word (word cs).2).1 ↔
      ∃ blank token, blank ≠ [] ∧ Blank blank ∧ Solid token ∧
        cs = "Bearer".toList ++ (blank ++ token) := by
  constructor
  · intro h
    have hsolid : Solid (withoutBearer cs) := h ▸ solid_word _
    rcases withoutBearer_cases cs with hsame | ⟨c, rest, hc, rfl, hrest⟩
    · rw [hsame] at hsolid
      rw [word_of_solid hsolid] at hvalue
      exact absurd rfl hvalue
    · rw [hrest] at hsolid
      refine ⟨c :: rest.takeWhile isSpace, rest.dropWhile isSpace, List.cons_ne_nil _ _, ?_, hsolid, ?_⟩
      · intro b hb
        rcases List.mem_cons.mp hb with rfl | hb
        · exact hc
        · exact List.all_eq_true.mp List.all_takeWhile b hb
      · rw [List.cons_append, List.takeWhile_append_dropWhile]
  · rintro ⟨blank, token, hne, hblank, hsolid, rfl⟩
    obtain ⟨c, blank, rfl⟩ := List.exists_cons_of_ne_nil hne
    have hc : isSpace c = true := hblank c List.mem_cons_self
    have hhead : "Bearer".toList.isPrefixOf? ("Bearer".toList ++ (c :: blank ++ token)) =
        some (c :: (blank ++ token)) := List.isPrefixOf?_eq_some_iff_append_eq.mpr rfl
    have hstripped : withoutBearer ("Bearer".toList ++ (c :: blank ++ token)) = token := by
      unfold withoutBearer
      rw [hhead]
      simp only [hc, if_true]
      rw [List.dropWhile_append_of_pos fun b hb => hblank b (List.mem_cons_of_mem _ hb),
        dropWhile_isSpace_eq_self hsolid]
    rw [hstripped, List.cons_append, word_append solid_bearer (by decide) hc, ← List.cons_append,
      word_of_blank_append hblank, word_of_solid hsolid]

/-- A header with a token under the scheme has two words, and the token is the second. -/
theorem bearer_eq_some {req : Request} {t : String}
    (h : ExtractJwt.fromAuthHeaderAsBearerToken req = some t) :
    ∃ header, req.authorization = some header ∧ (word (word header.toList).2).1 ≠ [] ∧
      t = .ofList (word (word header.toList).2).1 := by
  simp only [ExtractJwt.fromAuthHeaderAsBearerToken, Option.bind_eq_bind,
    Option.bind_eq_some_iff] at h
  obtain ⟨header, hheader, ⟨scheme, value⟩, hparse, hscheme⟩ := h
  simp only [ExtractJwt.parseAuthHeader] at hparse
  split at hparse
  · cases hparse
  · rename_i hvalue
    cases hparse
    split at hscheme
    · exact ⟨header, hheader, hvalue, (Option.some.inj hscheme).symm⟩
    · cases hscheme

/-- The token that is verified comes from the cookie, or from the header if there is none or an
empty one. -/
theorem jwtFromRequest_cases {req : Request} {t : String} (h : jwtFromRequest req = some t) :
    req.refreshToken = some t ∨ (∀ cookie, req.refreshToken = some cookie → cookie = "") ∧
      ExtractJwt.fromAuthHeaderAsBearerToken req = some t := by
  simp only [jwtFromRequest, ExtractJwt.fromExtractors, List.foldl_cons, List.foldl_nil] at h
  have hfirst : ExtractJwt.truthy none = false := rfl
  rw [hfirst] at h
  simp only [Bool.false_eq_true, if_false] at h
  split at h
  · exact .inl h
  · rename_i hfalsy
    refine .inr ⟨fun cookie hcookie => ?_, h⟩
    simpa [ExtractJwt.truthy, hcookie] using hfalsy

theorem get_validate (req : Request) (payload : Entries) :
    (validate req payload).get "refreshToken" = (reported req).elim .null .str :=
  Entries.get_set_self _ _ _

theorem elim_eq_str {v : Option String} {t : String} :
    v.elim Value.null .str = .str t ↔ v = some t := by
  cases v <;> simp

/-- The strategy reports the token that it verified exactly for the unambiguous requests. -/
theorem validate_reports_iff {verify : String → Option Entries} {req : Request} {t : String}
    {payload : Entries} (hselect : jwtFromRequest req = some t) (htruthy : t ≠ "")
    (hverify : verify t = some payload) :
    authenticate verify req = some (validate req payload) ∧
      ((validate req payload).get "refreshToken" = .str t ↔ Unambiguous req) := by
  constructor
  · simp [authenticate, hselect, htruthy, hverify]
  · rw [get_validate, elim_eq_str, reported]
    rcases jwtFromRequest_cases hselect with hcookie | ⟨hcookie, hbearer⟩
    · simp only [Unambiguous, hcookie]
      exact iff_of_true rfl htruthy
    · cases hgot : req.refreshToken with
      | some cookie =>
        obtain rfl := hcookie cookie hgot
        simp only [Unambiguous, hgot]
        exact iff_of_false (fun h => htruthy (Option.some.inj h).symm) (not_not.mpr rfl)
      | none =>
        obtain ⟨header, hheader, hvalue, rfl⟩ := bearer_eq_some hbearer
        simp only [Unambiguous, hgot, hheader, Option.none_or, Option.map_some, Option.some.injEq,
          String.ofList_inj, withoutBearer_eq_iff hvalue]
        constructor
        · rintro ⟨blank, token, hne, hblank, hsolid, hlist⟩
          exact ⟨blank, token, hne, hblank, hsolid, by rw [← hlist, String.ofList_toList]⟩
        · rintro ⟨blank, token, hne, hblank, hsolid, rfl⟩
          exact ⟨blank, token, hne, hblank, hsolid, String.toList_ofList⟩

/-- A request of a browser, which sends the cookie. -/
theorem validate_reports_iff_cookie :
    let req : Request := ⟨some fun name => if name = "refreshToken" then some "t1" else none, none⟩
    authenticate (fun _ => some [("sub", .str "u1")]) req =
        some (validate req [("sub", .str "u1")]) ∧
      ((validate req [("sub", .str "u1")]).get "refreshToken" = .str "t1" ↔ Unambiguous req) :=
  validate_reports_iff (by decide) (by decide) rfl

/-- The extractor takes the scheme in lower case, `validate` does not. -/
theorem lowerCase_scheme : ¬ ∀ (verify : String → Option Entries) req t payload,
    jwtFromRequest req = some t → t ≠ "" → verify t = some payload →
      (validate req payload).get "refreshToken" = .str t := by
  intro h
  have hreport := h (fun _ => some []) ⟨none, some "bearer t1"⟩ "t1" [] (by decide) (by decide) rfl
  exact absurd hreport (by decide)

end JwtRefreshStrategy
end Auth
