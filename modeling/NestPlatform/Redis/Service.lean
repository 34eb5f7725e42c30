-- SUMMARY: `RedisService` over the keys of one Redis server: get, set and del.
import NestPlatform.Js.Value

/-!
# `RedisService`

A server maps keys to texts that may expire. The service stores a string as it is
and any other value as JSON, and reads whatever parses as JSON.
-/
namespace Redis

open Js

/-- `JSON.stringify`, and `JSON.parse` with `none` for a `SyntaxError`. -/
structure Json where
  stringify : Value → String
  parse : String → Option Value

/-! ## The server -/

structure Entry where
  payload : String
  /-- In milliseconds. -/
  expiresAt : Option ℤ
  deriving DecidableEq

structure Server where
  entries : String → Option Entry
  now : ℤ

namespace Server

variable (server : Server)

/-- The text of the key, unless it has expired. -/
def get (key : String) : Option String :=
  match server.entries key with
  | some e => if e.expiresAt.all fun t => decide (server.now < t) then some e.payload else none
  | none => none

def put (key : String) (e : Option Entry) : Server :=
  { server with entries := Function.update server.entries key e }

/-- `DEL`: the number of keys that were there, and the server without them. -/
def del (keys : List String) : ℕ × Server :=
  keys.foldl
    (fun (n, server) key => (if (server.get key).isSome then n + 1 else n, server.put key none))
    (0, server)

/-- Time passes. -/
def Elapses (server server' : Server) : Prop :=
  server.now ≤ server'.now ∧ server'.entries = server.entries

end Server

/-! ## The service -/

namespace RedisService

variable (json : Json) (key : String)

/-- `get<T>(key)` -/
def get (server : Server) : Value :=
  match server.get key with
  | none => .null
  | some raw => (json.parse raw).getD (.str raw)

/-- The text that a value is stored as. -/
def payload (value : Value) : String :=
  match value with
  | .str s => s
  | value => json.stringify value

/-- `set<T>(key, value, ttlSeconds)` -/
def set (value : Value) (ttlSeconds : ℤ) (server : Server) : Server :=
  server.put key (some
    { payload := payload json value
      expiresAt := if 0 < ttlSeconds then some (server.now + 1000 * ttlSeconds) else none })

/-- `del(...keys)` -/
def del (keys : List String) (server : Server) : ℕ × Server :=
  if keys = [] then (0, server) else server.del keys

/-- The end of `getOrSet` after a miss: what has been fetched is cached unless it is `undefined` or
`null`. -/
def cache (ttlSeconds : ℤ) (value : Value) (server : Server) : Server :=
  if value.nullish then server else set json key value ttlSeconds server

/-- `getOrSet<T>(key, ttlSeconds, fetch)`, the answers of the server and of the source permitting. -/
def getOrSet (ttlSeconds : ℤ) (fetch : Value) (server : Server) : Value × Server :=
  let hit := get json key server
  if hit = .null then (fetch, cache json key ttlSeconds fetch server) else (hit, server)

end RedisService

/-! ## Facts -/

variable {json : Json} {key : String} {server server' : Server}

theorem Server.get_put_eq_some {e : Entry} {raw : String}
    (h : (server.put key (some e)).get key = some raw) : raw = e.payload := by
  unfold get put at h
  simp only [Function.update_self] at h
  split at h
  · exact (Option.some.inj h).symm
  · cases h

theorem RedisService.get_del : (RedisService.del [key] server).2.get key = none := by
  simp [del, Server.del, Server.get, Server.put]

/-- What is read later was there before. -/
theorem Server.Elapses.get_eq_some (h : server.Elapses server') {raw : String}
    (hraw : server'.get key = some raw) : server.get key = some raw := by
  obtain ⟨hnow, hentries⟩ := h
  unfold Server.get at hraw ⊢
  rw [hentries] at hraw
  cases he : server.entries key with
  | none =>
    rw [he] at hraw
    cases hraw
  | some e =>
    rw [he] at hraw
    dsimp only at hraw ⊢
    split at hraw
    · rename_i hlive
      rw [if_pos, hraw]
      cases hexpires : e.expiresAt with
      | none => rfl
      | some t =>
        rw [hexpires] at hlive
        have hlater : server'.now < t := by simpa using hlive
        have hbefore : server.now < t := by omega
        simpa using hbefore
    · cases hraw

end Redis
