-- SUMMARY: What is read back from the cache: every value but the strings that are JSON text.
import NestPlatform.Js.Json
import NestPlatform.Lib.Transition
import NestPlatform.Redis.Failures

/-!
# Round trips through the cache

A string is stored as it is and read as the JSON text it may happen to be. Every other
value is stored as JSON text, which is read as that value.
-/
namespace Redis

open Js Transition Effect

/-- The service's use of `JSON`. -/
def codec (N : Spelling) : Json where
  stringify := stringify N
  parse := parse

/-! ## Time -/

namespace Server

/-- Time has passed, and nobody has written the key. -/
structure Untouched (key : String) (server server' : Server) : Prop where
  now : server.now ≤ server'.now
  entry : server'.entries key = server.entries key

/-- What was stored at the time of `server` has not expired at the time of `server'`. -/
def Unexpired (ttlSeconds : ℤ) (server server' : Server) : Prop :=
  0 < ttlSeconds → server'.now < server.now + 1000 * ttlSeconds

theorem Untouched.trans {key : String} {server server' server'' : Server}
    (h : server.Untouched key server') (h' : server'.Untouched key server'') :
    server.Untouched key server'' where
  now := h.now.trans h'.now
  entry := h'.entry.trans h.entry

end Server

/-! ## Specification -/

/-- A call of `getOrSet` at a later time, before what was stored at the time of `start` expires. The
label is its answer. -/
inductive LaterCall {ε : Type} (json : Json) (key : String) (ttlSeconds : ℤ) (start : Server) :
    World → Except ε Value → World → Prop where
  | call {w : World} {server : Server} (ttl : ℤ) (fetch : Except ε Value) :
      w.server.Untouched key server → start.Unexpired ttlSeconds server →
      LaterCall json key ttlSeconds start w
        ((Failing.getOrSet json Failing.reliable key ttl fetch).exec { w with server := server }).1
        ((Failing.getOrSet json Failing.reliable key ttl fetch).exec { w with server := server }).2

/-- What is stored is read back until it expires. -/
structure RoundTrips (json : Json) (v : Value) : Prop where
  get : ∀ key ttl server server', (RedisService.set json key v ttl server).Untouched key server' →
    server.Unexpired ttl server' → RedisService.get json key server' = v
  /-- Once a call of `getOrSet` has fetched the value, each later one answers it and only reads. -/
  getOrSet : v ≠ .null → ∀ {ε : Type} key ttl (w : World), RedisService.get json key w.server = .null →
    ∀ r w', (Failing.getOrSet json (Failing.reliable : Failures ε) key ttl (.ok v)).exec w = (r, w') →
      r = .ok v ∧ ∀ rs w'', Run (LaterCall (ε := ε) json key ttl w.server) w' rs w'' →
        (∀ r ∈ rs, r = .ok v) ∧ w''.accesses = w'.accesses ++ List.replicate rs.length .read

/-! ## What is stored -/

section

variable {json : Json} {key : String} {ttl : ℤ} {v : Value} {server server' : Server}

/-- The text of a stored value is there until it expires. -/
theorem get_of_untouched (h : (RedisService.set json key v ttl server).Untouched key server')
    (hlive : server.Unexpired ttl server') :
    server'.get key = some (RedisService.payload json v) := by
  have hentry := h.entry
  simp only [RedisService.set, Server.put, Function.update_self] at hentry
  rw [Server.get, hentry]
  dsimp only
  apply if_pos
  by_cases httl : 0 < ttl
  · simpa [httl] using hlive httl
  · simp [httl]

theorem getService_of_untouched (h : (RedisService.set json key v ttl server).Untouched key server')
    (hlive : server.Unexpired ttl server') :
    RedisService.get json key server' =
      (json.parse (RedisService.payload json v)).getD (.str (RedisService.payload json v)) := by
  rw [RedisService.get, get_of_untouched h hlive]

/-! ## Later calls -/

section

variable {ε : Type} {start : Server} {w w' : World} {r : Except ε Value}
  (hget : ∀ server', (RedisService.set json key v ttl start).Untouched key server' →
    start.Unexpired ttl server' → RedisService.get json key server' = v)
  (hv : v ≠ .null)

include hget hv

/-- One call. -/
theorem LaterCall.hit (h : LaterCall json key ttl start w r w')
    (hw : (RedisService.set json key v ttl start).Untouched key w.server) :
    r = .ok v ∧ w'.accesses = w.accesses ++ [.read] ∧
      (RedisService.set json key v ttl start).Untouched key w'.server := by
  cases h with
  | @call server ttl' fetch huntouched hlive =>
    have hlater := hw.trans huntouched
    have hread : Failing.hit json (Failing.reliable : Failures ε) key { w with server := server } = v :=
      hget server hlater hlive
    rw [Failing.exec_getOrSet_hit (by rwa [hread]), hread]
    exact ⟨rfl, rfl, hlater⟩

theorem LaterCall.run_hit {rs : List (Except ε Value)} (h : Run (LaterCall json key ttl start) w rs w')
    (hw : (RedisService.set json key v ttl start).Untouched key w.server) :
    (∀ r ∈ rs, r = .ok v) ∧ w'.accesses = w.accesses ++ List.replicate rs.length .read ∧
      (RedisService.set json key v ttl start).Untouched key w'.server := by
  induction h with
  | nil => exact ⟨by simp, by simp, hw⟩
  | snoc _ hlast ih =>
    obtain ⟨hanswers, haccesses, hbefore⟩ := ih
    obtain ⟨hr, haccess, hafter⟩ := hlast.hit hget hv hbefore
    refine ⟨?_, ?_, hafter⟩
    · intro r hmem
      rcases List.mem_append.mp hmem with hmem | hmem
      · exact hanswers r hmem
      · rw [List.mem_singleton.mp hmem]
        exact hr
    · rw [haccess, haccesses, List.append_assoc, List.length_append, List.length_singleton,
        List.replicate_succ']

end

/-- A value that can be read back is also shared by the calls of `getOrSet`. -/
theorem RoundTrips.of_get (hget : ∀ key ttl server server',
    (RedisService.set json key v ttl server).Untouched key server' → server.Unexpired ttl server' →
      RedisService.get json key server' = v) (hnullish : v.nullish = true → v = .null) :
    RoundTrips json v where
  get := hget
  getOrSet := by
    intro hv ε key ttl w hmiss r w' hexec
    have hreliable := Failing.getOrSet_reliable (ε := ε) json key ttl v w
    rw [hexec] at hreliable
    have hcached : RedisService.getOrSet json key ttl v w.server =
        (v, RedisService.set json key v ttl w.server) := by
      rw [RedisService.getOrSet, if_pos hmiss, RedisService.cache, if_neg fun h => hv (hnullish h)]
    rw [hcached] at hreliable
    refine ⟨hreliable.1, fun rs w'' hrun => ?_⟩
    have hw' : (RedisService.set json key v ttl w.server).Untouched key w'.server := by
      rw [hreliable.2]
      exact ⟨le_rfl, rfl⟩
    obtain ⟨hanswers, haccesses, -⟩ := LaterCall.run_hit (hget key ttl w.server) hv hrun hw'
    exact ⟨hanswers, haccesses⟩

end

/-! ## What is read back -/

variable {N : Spelling} {v : Value}

/-- The two encodings overlap on the strings that are JSON text, none of which is the text of itself. -/
theorem decode_payload (h : IsJson N v) :
    ((codec N).parse (RedisService.payload (codec N) v)).getD (.str (RedisService.payload (codec N) v)) = v ↔
      ∀ s, v = .str s → parse s = none := by
  cases v with
  | str s =>
    change (parse s).getD (.str s) = .str s ↔ _
    constructor
    · rintro hsame s' hs'
      cases hs'
      cases hparse : parse s with
      | none => rfl
      | some v =>
        rw [hparse] at hsame
        cases hsame
        have hlength := length_of_parse_str hparse
        omega
    · intro hnone
      rw [hnone s rfl]
      rfl
  | _ =>
    refine iff_of_true ?_ fun s hs => nomatch hs
    change (parse (stringify N _)).getD _ = _
    rw [parse_stringify h]
    rfl

/-- A value is read back exactly if it is no string that is JSON text. -/
theorem roundTrips_iff (h : IsJson N v) : RoundTrips (codec N) v ↔ ∀ s, v = .str s → parse s = none := by
  rw [← decode_payload h]
  constructor
  · intro hround
    have hread := hround.get "" 0 ⟨fun _ => none, 0⟩ _ ⟨le_rfl, rfl⟩ fun h => absurd h (lt_irrefl 0)
    rwa [getService_of_untouched ⟨le_rfl, rfl⟩ fun h => absurd h (lt_irrefl 0)] at hread
  · intro hdecode
    apply RoundTrips.of_get
    · intro key ttl server server' huntouched hlive
      rw [getService_of_untouched huntouched hlive, hdecode]
    · intro hnullish
      cases v with
      | null => rfl
      | undefined => simp [IsJson] at h
      | _ => cases hnullish

theorem roundTrips_iff_object :
    RoundTrips (codec (.integers fun ms => ms.repr)) (.obj [("name", .str "42"), ("tags", .arr [.null, .bool true])]) :=
  (roundTrips_iff (by simp [IsJson, EntriesJson, AllJson, Entries.keys])).mpr fun s hs => nomatch hs

/-- A code of digits comes back as a number. -/
theorem roundTrips_digits : IsJson (.integers fun ms => ms.repr) (.str "123456") ∧
    ¬ RoundTrips (codec (.integers fun ms => ms.repr)) (.str "123456") := by
  refine ⟨by simp [IsJson], fun h => ?_⟩
  have hread := h.get "otp" 60 ⟨fun _ => none, 0⟩ _ ⟨le_rfl, rfl⟩ fun _ => by decide
  have hparse : parse "123456" = some (.num (.fin 123456)) := by decide +kernel
  rw [getService_of_untouched ⟨le_rfl, rfl⟩ fun _ => by decide] at hread
  change (parse "123456").getD _ = _ at hread
  rw [hparse] at hread
  cases hread

end Redis
