-- SUMMARY: `getOrSet` and invalidating updates of one key, interleaved: when the cached value is left stale.
import NestPlatform.Lib.ReadThrough
import NestPlatform.Redis.Service

/-!
# Invalidation

Clients of one key: a `getOrSet` reads the cache, fetches on a miss and then sets; an
update writes the source and then deletes the key. A value fetched before a write can
be set after the key was deleted.
-/
namespace Redis

open Js Transition

variable (json : Json) (key : String) (ttlSeconds : ℤ)

/-- The key as a cache of its source. -/
def keyCache : ReadThrough.Cache Value Server where
  hit server := RedisService.get json key server ≠ .null
  set value server := RedisService.cache json key ttlSeconds value server
  del server := (RedisService.del [key] server).2
  Elapses := Server.Elapses

/-- The cached text, if there is one, is that of the source's value. -/
def Shows (server : Server) (source : Value) : Prop :=
  ∀ raw, server.get key = some raw → source.nullish = false ∧ raw = RedisService.payload json source

variable {json key ttlSeconds}

/-- A value that is set is what is then cached. -/
theorem shows_set {server : Server} {value : Value} (hvalue : value.nullish = false) :
    Shows json key (RedisService.set json key value ttlSeconds server) value := by
  intro raw hraw
  exact ⟨hvalue, Server.get_put_eq_some hraw⟩

theorem keyCache_lawful : (keyCache json key ttlSeconds).Lawful (Shows json key) where
  set := by
    intro server value h
    change Shows json key (RedisService.cache json key ttlSeconds value server) value
    unfold RedisService.cache
    split
    · exact h
    · rename_i hvalue
      exact shows_set (by simpa using hvalue)
  del := by
    intro server value raw hraw
    have hnone : (RedisService.del [key] server).2.get key = none := RedisService.get_del
    rw [show ((keyCache json key ttlSeconds).del server) = (RedisService.del [key] server).2 from rfl,
      hnone] at hraw
    cases hraw
  elapse := by
    intro server server' value helapses h raw hraw
    exact h raw (Server.Elapses.get_eq_some helapses hraw)

/-! ## Clients -/

variable {ι : Type*} [DecidableEq ι]

/-- A reader that steps alone does what `getOrSet` does. -/
theorem exists_run_getOrSet {job : ι → ReadThrough.Job Value} {s : ReadThrough.State ι Value Server}
    {i : ι} (hjob : job i = .read) (hwaiting : s.stage i = .waiting) :
    ∃ ls, Run (ReadThrough.Step (keyCache json key ttlSeconds) job) s ls
      (ReadThrough.State.moveTo
        { s with cache := (RedisService.getOrSet json key ttlSeconds s.source s.cache).2 } i
        .done) := by
  unfold RedisService.getOrSet
  by_cases hhit : RedisService.get json key s.cache = .null
  · rw [if_pos hhit]
    have hmiss : ReadThrough.Step (keyCache json key ttlSeconds) job s (.get i)
        (s.moveTo i .missed) := .miss hjob hwaiting (by simpa [keyCache] using hhit)
    have hfetch : ReadThrough.Step (keyCache json key ttlSeconds) job (s.moveTo i .missed) (.fetch i)
        ((s.moveTo i .missed).moveTo i (.fetched s.source)) := .fetch (Function.update_self ..)
    have hset : ReadThrough.Step (keyCache json key ttlSeconds) job
        ((s.moveTo i .missed).moveTo i (.fetched s.source)) (.set i)
        (ReadThrough.State.moveTo
          { (s.moveTo i .missed).moveTo i (.fetched s.source) with
            cache := RedisService.cache json key ttlSeconds s.source s.cache } i .done) :=
      .set (Function.update_self ..)
    simp only [ReadThrough.State.moveTo, Function.update_idem] at hmiss hfetch hset
    exact ⟨_, .snoc (.snoc (.snoc (.nil s) hmiss) hfetch) hset⟩
  · rw [if_neg hhit]
    exact ⟨_, .snoc (.nil s) (.hit hjob hwaiting hhit)⟩

/-- A `getOrSet` sets a value that is still the source's, or `undefined` or `null`, or an update is
between its write and its `del`. -/
def SetsInTime (s : ReadThrough.State ι Value Server) : ReadThrough.Label ι → Prop
  | .set i => ∀ value, s.stage i = .fetched value →
    value = s.source ∨ value.nullish = true ∨ ∃ j, s.stage j = .written
  | _ => True

/-- In every run whose sets are in time, the cached value is that of the source when all clients
have completed. -/
theorem run_shows {job : ι → ReadThrough.Job Value} {s s' : ReadThrough.State ι Value Server}
    {ls : List (ReadThrough.Label ι)} (hstart : Shows json key s.cache s.source)
    (h : Run (Meeting (ReadThrough.Step (keyCache json key ttlSeconds) job) SetsInTime) s ls s')
    (hdone : ∀ i, s'.stage i = .done) : Shows json key s'.cache s'.source := by
  have htimely : ∀ (s : ReadThrough.State ι Value Server) l, SetsInTime s l →
      ReadThrough.Timely (keyCache json key ttlSeconds) s l := by
    intro s l hl
    cases l with
    | set i =>
      intro value hfetched
      rcases hl value hfetched with hsource | hnothing | hpending
      · exact .inl hsource
      · exact .inr (.inl (if_pos hnothing))
      · exact .inr (.inr hpending)
    | get | fetch | write | del | elapse => trivial
  exact ReadThrough.shows_of_run keyCache_lawful hstart
    (h.mono fun s l _ hstep => ⟨hstep.1, htimely s l hstep.2⟩) hdone

/-! ### Two clients -/

/-- No text is JSON. -/
def Json.plain : Json where
  stringify _ := ""
  parse _ := none

/-- The first client reads, the second updates the value. -/
def readAndUpdate : Bool → ReadThrough.Job Value
  | false => .read
  | true => .update (.str "new")

/-- Nothing is cached yet. -/
def oldValue : ReadThrough.State Bool Value Server := ⟨.str "old", ⟨fun _ => none, 0⟩, fun _ => .waiting⟩

theorem shows_oldValue : Shows .plain "key" oldValue.cache oldValue.source := by
  intro raw hraw
  cases hraw

theorem not_hit_oldValue : ¬ (keyCache .plain "key" 60).hit oldValue.cache := fun h => h rfl

abbrev KeyStep := ReadThrough.Step (ι := Bool) (keyCache .plain "key" 60) readAndUpdate

/-- The reader sets the old value before the update deletes it. -/
theorem run_shows_inTime : ∃ s', Run (Meeting KeyStep SetsInTime) oldValue
      [.get false, .fetch false, .write true, .set false, .del true] s' ∧
    Shows .plain "key" s'.cache s'.source := by
  have hnil : Run (Meeting KeyStep SetsInTime) oldValue [] oldValue := .nil _
  have hget := hnil.snoc (l := .get false) ⟨.miss rfl rfl not_hit_oldValue, by trivial⟩
  have hfetch := hget.snoc (l := .fetch false) ⟨.fetch rfl, by trivial⟩
  have hwrite := hfetch.snoc (l := .write true)
    ⟨.write (i := true) (a := .str "new") rfl rfl, by trivial⟩
  have hset := hwrite.snoc (l := .set false) ⟨.set rfl, by exact fun _ _ => .inr (.inr ⟨true, rfl⟩)⟩
  have hdel := hset.snoc (l := .del true) ⟨.del rfl, by trivial⟩
  exact ⟨_, hdel, run_shows shows_oldValue hdel (Bool.forall_bool.mpr ⟨rfl, rfl⟩)⟩

/-- The reader sets the old value after the update has deleted the key. -/
theorem stale_after_update : Shows .plain "key" oldValue.cache oldValue.source ∧ ∃ s',
    Run KeyStep oldValue [.get false, .fetch false, .write true, .del true, .set false] s' ∧
      (∀ i, s'.stage i = .done) ∧ ¬ Shows .plain "key" s'.cache s'.source := by
  have hnil : Run KeyStep oldValue [] oldValue := .nil _
  have hget := hnil.snoc (l := .get false) (.miss rfl rfl not_hit_oldValue)
  have hfetch := hget.snoc (l := .fetch false) (.fetch rfl)
  have hwrite := hfetch.snoc (l := .write true) (.write (i := true) (a := .str "new") rfl rfl)
  have hdel := hwrite.snoc (l := .del true) (.del rfl)
  have hset := hdel.snoc (l := .set false) (.set rfl)
  refine ⟨shows_oldValue, _, hset, Bool.forall_bool.mpr ⟨rfl, rfl⟩, fun h => ?_⟩
  obtain ⟨-, hraw⟩ := h "old" rfl
  revert hraw
  decide

end Redis
