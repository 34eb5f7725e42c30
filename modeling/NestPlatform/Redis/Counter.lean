-- SUMMARY: Counters that expire: `incrWithTtl` counts the calls of fixed windows.
import Mathlib.Data.List.Induction
import Std.Data.String.ToInt
import NestPlatform.Redis.Service

/-!
# `incrWithTtl`

The two commands of a call run as one block. Only the first call of a window finds a counter
without an expiry, so the calls that follow do not move the end of the window.
-/
namespace Redis

/-! ## The commands -/

namespace Server

variable (server : Server) (key : String)

/-- The entry of the key, unless it has expired. -/
def live : Option Entry :=
  (server.entries key).filter fun e => e.expiresAt.all fun t => decide (server.now < t)

/-- The integer that a text denotes the way `INCR` writes integers. -/
def integer (text : String) : Option ℤ := text.toInt?.filter fun n => n.repr = text

/-- `INCR`: the reply, which is `none` for the error that the value is no integer, and the server. -/
def incr : Option ℤ × Server :=
  match server.live key with
  | none => (some 1, server.put key (some { payload := (1 : ℤ).repr, expiresAt := none }))
  | some e =>
    match integer e.payload with
    | none => (none, server)
    | some n => (some (n + 1), server.put key (some { e with payload := (n + 1).repr }))

/-- `EXPIRE … NX` -/
def expireNX (seconds : ℤ) : Server :=
  match server.live key with
  | some { payload, expiresAt := none } =>
    server.put key (if 0 < seconds then
      some { payload, expiresAt := some (server.now + 1000 * seconds) } else none)
  | _ => server

/-- The server at another time. -/
def atTime (t : ℤ) : Server := { server with now := t }

end Server

/-- `incrWithTtl(key, ttlSeconds)`: the second command runs even if the first one has failed. -/
def RedisService.incrWithTtl (key : String) (ttlSeconds : ℤ) (server : Server) : ℤ × Server :=
  let (reply, server) := server.incr key
  (reply.getD 0, server.expireNX key ttlSeconds)

/-! ## Runs -/

/-- A call of `incrWithTtl`, in milliseconds. -/
structure Call where
  client : ℕ
  time : ℤ

namespace Counter

variable (key : String) (ttl : ℤ)

/-- The server after some calls. -/
def after (server : Server) (calls : List Call) : Server :=
  calls.foldl (fun server call => (RedisService.incrWithTtl key ttl (server.atTime call.time)).2) server

/-- What a call returns that follows others. -/
def reply (server : Server) (earlier : List Call) (call : Call) : ℤ :=
  (RedisService.incrWithTtl key ttl ((after key ttl server earlier).atTime call.time)).1

/-- The start of the window that a call at `t` falls into, after a window from `start` on. -/
def window (start : Option ℤ) (t : ℤ) : ℤ :=
  match start with
  | some s => if t < s + 1000 * ttl then s else t
  | none => t

/-- The start of the window of the last call. A window opens with the first call after the one
before has expired, and lasts `ttl` seconds. -/
def opening (calls : List Call) : Option ℤ :=
  calls.foldl (fun start call => some (window ttl start call.time)) none

/-- The calls of the window that opened at `s`. -/
def count (s : ℤ) (calls : List Call) : ℕ := calls.countP fun call => decide (s ≤ call.time)

end Counter

/-! ## One call -/

variable {key : String} {ttl : ℤ} {server : Server}

namespace Server

theorem get_eq_live (server : Server) (key : String) :
    server.get key = (server.live key).map Entry.payload := by
  unfold get live
  cases server.entries key with
  | none => rfl
  | some e =>
    rw [Option.filter_some]
    dsimp only
    split <;> rfl

theorem integer_repr (n : ℤ) : integer n.repr = some n := by simp [integer]

theorem live_of_entry {e : Entry} (h : server.entries key = some e)
    (hlive : e.expiresAt.all (fun t => decide (server.now < t)) = true) : server.live key = some e := by
  rw [live, h, Option.filter_some, if_pos hlive]

theorem live_expired {e : Entry} {t : ℤ} (h : server.entries key = some e) (ht : e.expiresAt = some t)
    (hnow : t ≤ server.now) : server.live key = none := by
  rw [live, h, Option.filter_some, ht, if_neg (by simpa using hnow)]

/-- What is not there stays away. -/
theorem live_atTime (h : server.live key = none) {t : ℤ} (ht : server.now ≤ t) :
    (server.atTime t).live key = none := by
  unfold live atTime at *
  cases he : server.entries key with
  | none => rfl
  | some e =>
    rw [he, Option.filter_some] at h
    split at h
    · cases h
    · rename_i hdead
      rw [Option.filter_some, if_neg]
      cases hexpires : e.expiresAt with
      | none => simp [hexpires] at hdead
      | some end' =>
        simp only [hexpires, Option.all_some, decide_eq_true_eq] at hdead ⊢
        omega

theorem live_put (server : Server) (key : String) (e : Entry) (hlive : e.expiresAt.all (fun t => decide (server.now < t)) = true) :
    (server.put key (some e)).live key = some e :=
  live_of_entry (by simp [put]) hlive

theorem put_put (e e' : Option Entry) : (server.put key e).put key e' = server.put key e' := by
  simp [put]

end Server

open Server RedisService

/-- The first call of a window. -/
theorem incrWithTtl_opens (httl : 1 ≤ ttl) (h : server.live key = none) :
    incrWithTtl key ttl server = (1, server.put key (some
      { payload := (1 : ℤ).repr, expiresAt := some (server.now + 1000 * ttl) })) := by
  have hincr : server.incr key =
      (some 1, server.put key (some { payload := (1 : ℤ).repr, expiresAt := none })) := by
    rw [incr, h]
  have hput := live_put server key { payload := (1 : ℤ).repr, expiresAt := none } rfl
  have hpos : 0 < ttl := by omega
  simp only [incrWithTtl, hincr, expireNX, hput, if_pos hpos, put_put]
  rfl

/-- A later call of a window leaves the expiry as it is. -/
theorem incrWithTtl_counts (ttl : ℤ) {n t : ℤ}
    (h : server.entries key = some { payload := n.repr, expiresAt := some t }) (ht : server.now < t) :
    incrWithTtl key ttl server = (n + 1, server.put key (some
      { payload := (n + 1).repr, expiresAt := some t })) := by
  have hlive := live_of_entry h (by simpa using ht)
  have hincr : server.incr key =
      (some (n + 1), server.put key (some { payload := (n + 1).repr, expiresAt := some t })) := by
    simp only [incr, hlive, integer_repr]
  have hput := live_put server key { payload := (n + 1).repr, expiresAt := some t } (by simpa using ht)
  simp only [incrWithTtl, hincr, expireNX, hput]
  rfl

/-! ## All calls -/

namespace Counter

variable {earlier calls : List Call} {call : Call} {s : ℤ}

/-- A run at times that do not decrease, from a server that has no counter yet. -/
structure Run (key : String) (server : Server) (calls : List Call) : Prop where
  fresh : server.get key = none
  start : ∀ call ∈ calls, server.now ≤ call.time
  sorted : calls.Pairwise fun call call' => call.time ≤ call'.time

/-- The counter of a window that opened at `s`, after some calls. -/
structure Window (key : String) (ttl : ℤ) (server : Server) (calls : List Call) (s : ℤ) : Prop where
  entry : (after key ttl server calls).entries key =
    some { payload := (count s calls : ℤ).repr, expiresAt := some (s + 1000 * ttl) }
  opened : ∃ call ∈ calls, call.time = s
  inside : ∀ call ∈ calls, call.time < s + 1000 * ttl

theorem after_append (earlier : List Call) (call : Call) :
    after key ttl server (earlier ++ [call]) =
      (incrWithTtl key ttl ((after key ttl server earlier).atTime call.time)).2 := by
  simp [after]

theorem opening_append (earlier : List Call) (call : Call) :
    opening ttl (earlier ++ [call]) = some (window ttl (opening ttl earlier) call.time) := by
  simp [opening]

theorem count_append (earlier : List Call) (h : s ≤ call.time) :
    count s (earlier ++ [call]) = count s earlier + 1 := by
  simp [count, h]

theorem Run.init (h : Run key server (earlier ++ [call])) : Run key server earlier :=
  ⟨h.fresh, fun c hc => h.start c (List.mem_append_left _ hc), (List.pairwise_append.mp h.sorted).1⟩

theorem Run.earlier_le (h : Run key server (earlier ++ [call])) :
    ∀ c ∈ earlier, c.time ≤ call.time :=
  fun c hc => (List.pairwise_append.mp h.sorted).2.2 c hc call (List.mem_singleton_self _)

/-- A call that finds no counter opens a window. -/
theorem Window.opens (httl : 1 ≤ ttl)
    (hmissing : ((after key ttl server earlier).atTime call.time).live key = none)
    (hearlier : ∀ c ∈ earlier, c.time < call.time) :
    reply key ttl server earlier call = 1 + count call.time earlier ∧
      Window key ttl server (earlier ++ [call]) call.time := by
  have hcall := incrWithTtl_opens httl hmissing
  have hcount : count call.time earlier = 0 :=
    List.countP_eq_zero.mpr fun c hc => by simpa using hearlier c hc
  refine ⟨by rw [reply, hcall, hcount]; rfl, ?_, ⟨call, by simp, rfl⟩, ?_⟩
  · rw [after_append, hcall, count_append earlier le_rfl, hcount]
    simp [put, atTime]
  · intro c hc
    rcases List.mem_append.mp hc with hc | hc
    · have := hearlier c hc
      omega
    · rw [List.mem_singleton.mp hc]
      omega

/-- A call before the end of a window is counted in it. -/
theorem Window.counts (h : Window key ttl server earlier s) (hfrom : s ≤ call.time)
    (hto : call.time < s + 1000 * ttl) :
    reply key ttl server earlier call = 1 + count s earlier ∧
      Window key ttl server (earlier ++ [call]) s := by
  have hentry : ((after key ttl server earlier).atTime call.time).entries key =
      some { payload := (count s earlier : ℤ).repr, expiresAt := some (s + 1000 * ttl) } := h.entry
  have hcall := incrWithTtl_counts ttl hentry hto
  refine ⟨by rw [reply, hcall, add_comm], ?_, ?_, ?_⟩
  · rw [after_append, hcall, count_append earlier hfrom]
    simp [put]
  · obtain ⟨c, hc, hs⟩ := h.opened
    exact ⟨c, List.mem_append_left _ hc, hs⟩
  · intro c hc
    rcases List.mem_append.mp hc with hc | hc
    · exact h.inside c hc
    · rw [List.mem_singleton.mp hc]
      exact hto

/-- After a call of a run there is a window, and the call was counted in it. -/
theorem Run.step (httl : 1 ≤ ttl) (hrun : Run key server (earlier ++ [call]))
    (hbefore : earlier = [] ∨ ∃ s, opening ttl earlier = some s ∧ Window key ttl server earlier s) :
    ∃ s, opening ttl (earlier ++ [call]) = some s ∧
      reply key ttl server earlier call = 1 + count s earlier ∧
      Window key ttl server (earlier ++ [call]) s := by
  rcases hbefore with rfl | ⟨s, hs, hwindow⟩
  · refine ⟨call.time, by simp [opening, window], Window.opens httl ?_ (by simp)⟩
    have hfresh : server.live key = none := by
      have hget := hrun.fresh
      rwa [get_eq_live, Option.map_eq_none_iff] at hget
    exact live_atTime hfresh (hrun.start call (by simp))
  · by_cases hto : call.time < s + 1000 * ttl
    · refine ⟨s, ?_, hwindow.counts ?_ hto⟩
      · rw [opening_append, hs, window, if_pos hto]
      · obtain ⟨c, hc, rfl⟩ := hwindow.opened
        exact hrun.earlier_le c hc
    · refine ⟨call.time, ?_, Window.opens httl ?_ ?_⟩
      · rw [opening_append, hs, window, if_neg hto]
      · have hentry : ((after key ttl server earlier).atTime call.time).entries key =
            some { payload := (count s earlier : ℤ).repr, expiresAt := some (s + 1000 * ttl) } :=
          hwindow.entry
        exact live_expired hentry rfl (not_lt.mp hto)
      · intro c hc
        have := hwindow.inside c hc
        omega

theorem Run.window (httl : 1 ≤ ttl) (hrun : Run key server calls) :
    calls = [] ∨ ∃ s, opening ttl calls = some s ∧ Window key ttl server calls s := by
  induction calls using List.reverseRecOn with
  | nil => exact .inl rfl
  | append_singleton earlier call ih =>
    obtain ⟨s, hs, -, hwindow⟩ := hrun.step httl (ih hrun.init)
    exact .inr ⟨s, hs, hwindow⟩

/-- Each call returns its place in its window, and leaves a counter that expires with it. -/
theorem reply_fixedWindow (httl : 1 ≤ ttl) (hrun : Run key server (earlier ++ [call])) :
    ∃ s, opening ttl (earlier ++ [call]) = some s ∧
      reply key ttl server earlier call = 1 + count s earlier ∧
      ∃ payload, (after key ttl server (earlier ++ [call])).entries key =
        some { payload, expiresAt := some (s + 1000 * ttl) } := by
  obtain ⟨s, hs, hreply, hwindow⟩ := hrun.step httl (hrun.init.window httl)
  exact ⟨s, hs, hreply, _, hwindow.entry⟩

theorem reply_fixedWindow_second :
    ∃ s, opening 60 [⟨1, 1000⟩, ⟨2, 61000⟩] = some s ∧
      reply "hits" 60 ⟨fun _ => none, 0⟩ [⟨1, 1000⟩] ⟨2, 61000⟩ = 1 + count s [⟨1, 1000⟩] ∧
      ∃ payload, (after "hits" 60 ⟨fun _ => none, 0⟩ [⟨1, 1000⟩, ⟨2, 61000⟩]).entries "hits" =
        some { payload, expiresAt := some (s + 1000 * 60) } :=
  @reply_fixedWindow "hits" 60 ⟨fun _ => none, 0⟩ [⟨1, 1000⟩] ⟨2, 61000⟩ (by decide)
    ⟨rfl, by decide, by decide⟩

end Counter
end Redis
