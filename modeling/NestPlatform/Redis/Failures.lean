-- SUMMARY: The read-through cache when Redis fails: its errors stay inside, and the source is asked once.
import NestPlatform.Lib.Effect
import NestPlatform.Redis.Service

/-!
# `getOrSet` with failures

The read and the write are guarded one by one, the source between them is not. What a call
does to the outside is kept in the order of the accesses.
-/
namespace Redis

open Js Effect

/-! ## The commands that may fail -/

inductive Access where
  | read
  | fetch
  | write
  deriving DecidableEq

/-- The error that each guarded step rejects with, if any. -/
structure Failures (ε : Type) where
  read : Option ε
  serialize : Option ε
  /-- With whether the server has stored the value all the same. -/
  write : Option (ε × Bool)

structure World where
  server : Server
  accesses : List Access

def World.add (w : World) (a : Access) : World := { w with accesses := w.accesses ++ [a] }

namespace Failing

variable {ε : Type} (json : Json) (failures : Failures ε) (key : String)

def access (a : Access) : Effect World ε Unit :=
  modify fun w => w.add a

def rejects : Option ε → Effect World ε Unit
  | none => pure ()
  | some e => throw e

/-- `get<T>(key)` -/
def get : Effect World ε Value := do
  access .read
  rejects failures.read
  return RedisService.get json key (← MonadState.get).server

/-- The server has the value. -/
def store (ttlSeconds : ℤ) (value : Value) : Effect World ε Unit :=
  modify fun w => { w with server := RedisService.set json key value ttlSeconds w.server }

/-- The text of a value; a string is its own. -/
def serialize (value : Value) : Effect World ε Unit :=
  match value with
  | .str _ => pure ()
  | _ => rejects failures.serialize

/-- `set<T>(key, value, ttlSeconds)` -/
def set (ttlSeconds : ℤ) (value : Value) : Effect World ε Unit := do
  serialize failures value
  access .write
  match failures.write with
  | none => store json key ttlSeconds value
  | some (e, stored) =>
    if stored then store json key ttlSeconds value
    throw e

/-- `getOrSet<T>(key, ttlSeconds, fetch)`, where `fetch` is what the source does when asked. -/
def getOrSet (ttlSeconds : ℤ) (fetch : Except ε Value) : Effect World ε Value := do
  let hit ← tryCatch (get json failures key) fun _ => pure .null
  if hit ≠ .null then
    return hit
  access .fetch
  let value ← ofExcept fetch
  tryCatch (if value.nullish then pure () else set json failures key ttlSeconds value) fun _ => pure ()
  return value

/-! ## The steps of a call -/

/-- What the guarded read makes of the key: a failure is a miss. -/
def hit (w : World) : Value :=
  match failures.read with
  | none => RedisService.get json key w.server
  | some _ => .null

variable {json failures key} {ttl : ℤ} {w : World}

theorem exec_access (a : Access) :
    (access a : Effect World ε Unit).exec w = (.ok (), w.add a) := rfl

theorem exec_read : (tryCatch (get json failures key) fun _ => pure .null).exec w =
    (.ok (hit json failures key w), w.add .read) := by
  rw [exec_tryCatch, get, exec_bind_ok (exec_access .read), hit]
  cases failures.read <;> rfl

/-- The write has not been sent, or it has been with or without success. -/
theorem exec_set (value : Value) : ∃ r w', (set json failures key ttl value).exec w = (r, w') ∧
    (w' = w ∨ w'.accesses = w.accesses ++ [.write] ∧
      (w'.server = w.server ∨ w'.server = RedisService.set json key value ttl w.server)) := by
  have hserialize : ∃ r, (serialize failures value).exec w = (r, w) := by
    unfold serialize
    split
    · exact ⟨_, rfl⟩
    · cases failures.serialize <;> exact ⟨_, rfl⟩
  obtain ⟨r, hr⟩ := hserialize
  cases r with
  | error e => exact ⟨_, _, exec_bind_error hr, .inl rfl⟩
  | ok _ =>
    rw [set, exec_bind_ok hr, exec_bind_ok (exec_access .write)]
    rcases failures.write with - | ⟨e, _ | _⟩
    · exact ⟨_, _, rfl, .inr ⟨rfl, .inr rfl⟩⟩
    · exact ⟨_, _, rfl, .inr ⟨rfl, .inl rfl⟩⟩
    · exact ⟨_, _, rfl, .inr ⟨rfl, .inr rfl⟩⟩

/-- The write as `getOrSet` guards it. -/
theorem exec_write (value : Value) :
    ∃ w', (tryCatch (if value.nullish then pure () else set json failures key ttl value)
        fun _ => pure ()).exec w = (.ok (), w') ∧
      (w' = w ∨ value.nullish = false ∧ w'.accesses = w.accesses ++ [.write] ∧
        (w'.server = w.server ∨ w'.server = RedisService.set json key value ttl w.server)) := by
  rw [exec_tryCatch]
  by_cases hvalue : value.nullish = true
  · rw [if_pos hvalue]
    exact ⟨w, rfl, .inl rfl⟩
  · rw [if_neg hvalue]
    obtain ⟨r, w', hset, hw'⟩ := @exec_set ε json failures key ttl w value
    rw [hset]
    refine ⟨w', by cases r <;> rfl, hw'.imp_right fun h => ⟨by simpa using hvalue, h⟩⟩

/-! ## A whole call -/

/-- What the caller and the outside see of a call that starts in `w`, answers `r` and ends in
`w'`. -/
structure Resilient (json : Json) (failures : Failures ε) (key : String) (ttl : ℤ)
    (fetch : Except ε Value) (w : World) (r : Except ε Value) (w' : World) : Prop where
  /-- A value that has been read is the answer, and nothing else happens. -/
  hit : failures.read = none → RedisService.get json key w.server ≠ .null →
    r = .ok (RedisService.get json key w.server) ∧ w'.accesses = w.accesses ++ [.read] ∧
      w'.server = w.server
  /-- Otherwise the source is asked once, and its outcome is the answer. -/
  miss : failures.read ≠ none ∨ RedisService.get json key w.server = .null →
    r = fetch ∧ (w'.accesses = w.accesses ++ [.read, .fetch] ∧ w'.server = w.server ∨
      ∃ v, fetch = .ok v ∧ v.nullish = false ∧
        w'.accesses = w.accesses ++ [.read, .fetch, .write] ∧
        (w'.server = w.server ∨ w'.server = RedisService.set json key v ttl w.server))
  /-- If the source throws, the server is as before. -/
  thrown : ∀ e, r = .error e → fetch = .error e ∧ w'.server = w.server

theorem exec_getOrSet_hit {fetch : Except ε Value} (h : hit json failures key w ≠ .null) :
    (getOrSet json failures key ttl fetch).exec w = (.ok (hit json failures key w), w.add .read) := by
  rw [getOrSet, exec_bind_ok exec_read, if_pos h]
  rfl

theorem exec_getOrSet_miss {fetch : Except ε Value} (h : hit json failures key w = .null) :
    ∃ w', (getOrSet json failures key ttl fetch).exec w = (fetch, w') ∧
      (w' = (w.add .read).add .fetch ∨ ∃ v, fetch = .ok v ∧ v.nullish = false ∧
        w'.accesses = w.accesses ++ [.read, .fetch, .write] ∧
        (w'.server = w.server ∨ w'.server = RedisService.set json key v ttl w.server)) := by
  rw [getOrSet, exec_bind_ok exec_read, if_neg (not_not.mpr h)]
  change ∃ w', (access .fetch >>= fun _ => _).exec _ = _ ∧ _
  rw [exec_bind_ok (exec_access .fetch)]
  cases fetch with
  | error e => exact ⟨_, exec_bind_error (exec_ofExcept _ _), .inl rfl⟩
  | ok v =>
    rw [exec_bind_ok (exec_ofExcept _ _)]
    obtain ⟨w', hwrite, hw'⟩ :=
      @exec_write ε json failures key ttl ((w.add .read).add .fetch) v
    refine ⟨w', exec_bind_ok hwrite, hw'.imp_right ?_⟩
    rintro ⟨hvalue, haccesses, hserver⟩
    exact ⟨v, rfl, hvalue, by rw [haccesses]; simp [World.add], hserver⟩

/-- No failure of Redis and none of the serialization reaches the caller. -/
theorem getOrSet_resilient (json : Json) (failures : Failures ε) (key : String) (ttl : ℤ)
    (fetch : Except ε Value) (w : World) :
    Resilient json failures key ttl fetch w ((getOrSet json failures key ttl fetch).exec w).1
      ((getOrSet json failures key ttl fetch).exec w).2 := by
  by_cases hhit : hit json failures key w = .null
  · obtain ⟨w', hexec, hw'⟩ := @exec_getOrSet_miss ε json failures key ttl w fetch hhit
    rw [hexec]
    refine ⟨fun hread hvalue => ?_, fun _ => ⟨rfl, ?_⟩, fun e he => ⟨he, ?_⟩⟩
    · rw [hit, hread] at hhit
      exact absurd hhit hvalue
    · rcases hw' with rfl | hwritten
      · exact .inl ⟨by simp [World.add], rfl⟩
      · exact .inr hwritten
    · rcases hw' with rfl | ⟨v, hv, -⟩
      · rfl
      · cases he.symm.trans hv
  · rw [exec_getOrSet_hit hhit]
    cases hread : failures.read with
    | none =>
      have hvalue : hit json failures key w = RedisService.get json key w.server := by
        rw [hit, hread]
      rw [hvalue] at hhit ⊢
      exact ⟨fun _ _ => ⟨rfl, rfl, rfl⟩, fun h => absurd hhit (not_not.mpr (h.resolve_left (· hread))),
        fun e he => nomatch he⟩
    | some e =>
      rw [hit, hread] at hhit
      exact absurd rfl hhit

/-- Nothing is rejected. -/
def reliable : Failures ε := ⟨none, none, none⟩

theorem exec_write_reliable (value : Value) (w : World) :
    ∃ w', (tryCatch (if value.nullish then pure () else set json (reliable : Failures ε) key ttl value)
        fun _ => pure ()).exec w = (.ok (), w') ∧
      w'.server = RedisService.cache json key ttl value w.server := by
  by_cases hvalue : value.nullish = true
  · rw [if_pos hvalue, RedisService.cache, if_pos hvalue]
    exact ⟨w, rfl, rfl⟩
  · have hserialize : (serialize (reliable : Failures ε) value).exec w = (.ok (), w) := by
      cases value <;> rfl
    have hset : (set json (reliable : Failures ε) key ttl value).exec w =
        (.ok (), { w.add .write with server := RedisService.set json key value ttl w.server }) := by
      rw [set, exec_bind_ok hserialize, exec_bind_ok (exec_access .write)]
      rfl
    rw [if_neg hvalue, RedisService.cache, if_neg hvalue, exec_tryCatch, hset]
    exact ⟨_, rfl, rfl⟩

/-- Without failures a call is the read-through cache. -/
theorem getOrSet_reliable (json : Json) (key : String) (ttl : ℤ) (v : Value) (w : World) :
    let run := (getOrSet json (reliable : Failures ε) key ttl (.ok v)).exec w
    run.1 = .ok (RedisService.getOrSet json key ttl v w.server).1 ∧
      run.2.server = (RedisService.getOrSet json key ttl v w.server).2 := by
  have hread : hit json (reliable : Failures ε) key w = RedisService.get json key w.server := rfl
  unfold RedisService.getOrSet
  by_cases hhit : RedisService.get json key w.server = .null
  · rw [getOrSet, exec_bind_ok exec_read, hread, if_neg (not_not.mpr hhit)]
    dsimp only
    rw [if_pos hhit]
    change ((access .fetch >>= fun _ => _).exec _).1 = _ ∧ ((access .fetch >>= fun _ => _).exec _).2.server = _
    rw [exec_bind_ok (exec_access .fetch), exec_bind_ok (exec_ofExcept _ _)]
    obtain ⟨w', hwrite, hserver⟩ :=
      @exec_write_reliable ε json key ttl v ((w.add .read).add .fetch)
    rw [exec_bind_ok hwrite]
    exact ⟨rfl, hserver⟩
  · rw [exec_getOrSet_hit (by rwa [hread]), hread]
    dsimp only
    rw [if_neg hhit]
    exact ⟨rfl, rfl⟩

end Failing
end Redis
