-- SUMMARY: `deletePattern` over a client with a key prefix: what is deleted in every scan that the server may make.
import Mathlib.Data.List.Nodup
import NestPlatform.Redis.Service

/-!
# `deletePattern`

The client puts its prefix in front of the keys of `get`, `set` and `del`. A scan knows nothing
of it: its pattern is compared with the whole key, and its replies are whole keys. What the loop
deletes are these keys with the prefix in front once more.
-/
namespace Redis

open Js

/-! ## The loop -/

/-- A reply of `SCAN`: the next cursor and some keys. -/
structure ScanReply where
  cursor : String
  batch : List String
  deriving DecidableEq

namespace RedisService

variable (keyPrefix : String)

/-- The keys as the client sends them. -/
def sent (keys : List String) : List String := keys.map (keyPrefix ++ ·)

/-- What the loop does for one batch. -/
def deleteBatch (state : ℕ × Server) (batch : List String) : ℕ × Server :=
  if batch = [] then state
  else
    let (n, server) := state.2.del (sent keyPrefix batch)
    (state.1 + n, server)

/-- `deletePattern(pattern)`, for the replies that the scan gives; `none` while it goes on. -/
def deletePattern (server : Server) : List ScanReply → ℕ → Option (ℕ × Server)
  | [], _ => none
  | reply :: replies, deleted =>
    let (deleted, server) := deleteBatch keyPrefix (deleted, server) reply.batch
    if reply.cursor ≠ "0" then deletePattern server replies deleted else some (deleted, server)

end RedisService

/-! ## Deleting keys -/

namespace Server

variable {server : Server} {key : String}

/-- `DEL` for one more key. -/
def delStep (state : ℕ × Server) (key : String) : ℕ × Server :=
  (if (state.2.get key).isSome then state.1 + 1 else state.1, state.2.put key none)

theorem get_put_none (server : Server) (key x : String) :
    (server.put key none).get x = if x = key then none else server.get x := by
  unfold get put
  by_cases hx : x = key
  · subst hx
    simp
  · simp [hx]

/-- What a list of keys deletes of a server: how many were there, each counted once, and what is
read afterwards. -/
theorem del_spec (keys : List String) (server : Server) (n : ℕ) :
    ∃ removed : List String, removed.Nodup ∧
      (∀ x, x ∈ removed ↔ x ∈ keys ∧ (server.get x).isSome) ∧
      (keys.foldl delStep (n, server)).1 = n + removed.length ∧
      ∀ x, (keys.foldl delStep (n, server)).2.get x = if x ∈ keys then none else server.get x := by
  induction keys generalizing server n with
  | nil => exact ⟨[], List.nodup_nil, by simp, rfl, by simp⟩
  | cons key keys ih =>
    obtain ⟨removed, hnodup, hmem, hcount, hget⟩ := ih (server.put key none)
      (if (server.get key).isSome then n + 1 else n)
    have hlive : ∀ x, ((server.put key none).get x).isSome ↔ x ≠ key ∧ (server.get x).isSome := by
      intro x
      rw [get_put_none]
      split <;> simp_all
    have hread : ∀ x, ((key :: keys).foldl delStep (n, server)).2.get x =
        if x ∈ key :: keys then none else server.get x := by
      intro x
      refine (hget x).trans ?_
      rw [get_put_none]
      by_cases hx : x = key <;> by_cases hmem : x ∈ keys <;> simp [hx, hmem]
    by_cases hkey : (server.get key).isSome
    · refine ⟨key :: removed, List.nodup_cons.mpr ⟨?_, hnodup⟩, ?_, ?_, hread⟩
      · rw [hmem, hlive]
        simp
      · intro x
        rw [List.mem_cons, hmem, hlive, List.mem_cons]
        by_cases hx : x = key
        · subst hx
          simp [hkey]
        · simp [hx]
      · refine hcount.trans ?_
        rw [if_pos hkey, List.length_cons]
        omega
    · refine ⟨removed, hnodup, ?_, ?_, hread⟩
      · intro x
        rw [hmem, hlive, List.mem_cons]
        by_cases hx : x = key
        · subst hx
          simp [hkey]
        · simp [hx]
      · refine hcount.trans ?_
        rw [if_neg hkey]

theorem delStep_add (keys : List String) (server : Server) (n m : ℕ) :
    keys.foldl delStep (n + m, server) =
      (n + (keys.foldl delStep (m, server)).1, (keys.foldl delStep (m, server)).2) := by
  induction keys generalizing server m with
  | nil => rfl
  | cons key keys ih =>
    simp only [List.foldl_cons, delStep]
    split
    · exact ih (server.put key none) (m + 1)
    · exact ih (server.put key none) m

end Server

open RedisService Server

section

variable (keyPrefix : String) (selects : String → Bool) (server : Server)

/-- The keys that the loop deletes for some replies, as the server gets them. -/
def targets (replies : List ScanReply) : List String :=
  replies.flatMap fun reply => sent keyPrefix reply.batch

/-- The server when the loop has deleted what some replies name. -/
def after (replies : List ScanReply) : Server :=
  ((targets keyPrefix replies).foldl delStep (0, server)).2

/-- The replies of a scan, while the loop deletes: keys that are there when the reply is made and that
the pattern selects, once or more often, and all those that are there from the first reply to the
last. -/
structure Scan (replies : List ScanReply) : Prop where
  ends : ∃ init batch, replies = init ++ [⟨"0", batch⟩] ∧ ∀ reply ∈ init, reply.cursor ≠ "0"
  present : ∀ pre reply post, replies = pre ++ reply :: post → ∀ x ∈ reply.batch,
    selects x = true ∧ ((after keyPrefix server pre).get x).isSome
  complete : ∀ x, selects x = true →
    (∀ pre reply post, replies = pre ++ reply :: post →
      ((after keyPrefix server pre).get x).isSome) →
    ∃ reply ∈ replies, x ∈ reply.batch

/-- The servers whose keys the service has set. -/
inductive Written (json : Json) : Server → Prop where
  | empty (now : ℤ) : Written json ⟨fun _ => none, now⟩
  | set {server : Server} (key : String) (value : Value) (ttlSeconds : ℤ) (h : Written json server) :
      Written json (RedisService.set json (keyPrefix ++ key) value ttlSeconds server)
  | elapse {server server' : Server} (h : Written json server) (htime : server.Elapses server') :
      Written json server'

/-- What the invalidation of the selected keys is to do. -/
structure Invalidates (json : Json) (result : ℕ × Server) : Prop where
  gone : ∀ key, selects key = true → RedisService.get json (keyPrefix ++ key) result.2 = .null
  kept : ∀ key, selects key = false → result.2.get (keyPrefix ++ key) = server.get (keyPrefix ++ key)
  counted : ∃ removed : List String, removed.Nodup ∧
    (∀ x, x ∈ removed ↔ (server.get x).isSome ∧ result.2.get x = none) ∧ result.1 = removed.length

end

variable {keyPrefix : String} {selects : String → Bool} {server : Server} {json : Json}
variable {replies : List ScanReply}

/-! ## The loop and its replies -/

theorem deleteBatch_eq (state : ℕ × Server) (batch : List String) :
    deleteBatch keyPrefix state batch = (sent keyPrefix batch).foldl delStep state := by
  unfold deleteBatch
  split
  · rename_i hbatch
    rw [hbatch]
    rfl
  · exact (delStep_add (sent keyPrefix batch) state.2 state.1 0).symm

/-- The loop ends with the cursor of the last reply. -/
theorem deletePattern_eq (server : Server) (n : ℕ) {init : List ScanReply} (batch : List String)
    (hinit : ∀ reply ∈ init, reply.cursor ≠ "0") :
    deletePattern keyPrefix server (init ++ [⟨"0", batch⟩]) n =
      some ((targets keyPrefix (init ++ [⟨"0", batch⟩])).foldl delStep (n, server)) := by
  induction init generalizing server n with
  | nil => simp [deletePattern, deleteBatch_eq, targets]
  | cons reply init ih =>
    have hgo : reply.cursor ≠ "0" := hinit reply List.mem_cons_self
    simp only [List.cons_append, deletePattern, hgo, ne_eq, not_false_eq_true, if_true]
    rw [ih _ _ fun r hr => hinit r (List.mem_cons_of_mem _ hr)]
    simp only [deleteBatch_eq, targets, List.flatMap_cons, List.foldl_append]

theorem get_after (pre : List ScanReply) (x : String) :
    (after keyPrefix server pre).get x = if x ∈ targets keyPrefix pre then none else server.get x := by
  obtain ⟨-, -, -, -, hget⟩ := del_spec (targets keyPrefix pre) server 0
  exact hget x

theorem mem_targets {x : String} : x ∈ targets keyPrefix replies ↔
    ∃ reply ∈ replies, ∃ key ∈ reply.batch, x = keyPrefix ++ key := by
  simp [targets, sent, eq_comm]

theorem append_mem_targets {key : String} : keyPrefix ++ key ∈ targets keyPrefix replies ↔
    ∃ reply ∈ replies, key ∈ reply.batch := by
  simp [mem_targets, String.append_right_inj]

theorem Written.keys (h : Written keyPrefix json server) :
    ∃ keys : List String, ∀ x, (server.get x).isSome → x ∈ keys ∧ ∃ key, x = keyPrefix ++ key := by
  induction h with
  | empty now => exact ⟨[], fun x hx => by simp [Server.get] at hx⟩
  | @set server key value ttl _ ih =>
    obtain ⟨keys, hkeys⟩ := ih
    refine ⟨(keyPrefix ++ key) :: keys, fun x hx => ?_⟩
    by_cases hxkey : x = keyPrefix ++ key
    · exact ⟨List.mem_cons.mpr (.inl hxkey), key, hxkey⟩
    · have hsame : (RedisService.set json (keyPrefix ++ key) value ttl server).get x = server.get x := by
        simp only [RedisService.set, Server.get, Server.put, Function.update_of_ne hxkey]
        rfl
      rw [hsame] at hx
      exact ⟨List.mem_cons_of_mem _ (hkeys x hx).1, (hkeys x hx).2⟩
  | elapse _ htime ih =>
    obtain ⟨keys, hkeys⟩ := ih
    refine ⟨keys, fun x hx => hkeys x ?_⟩
    obtain ⟨raw, hraw⟩ := Option.isSome_iff_exists.mp hx
    rw [htime.get_eq_some hraw]
    rfl

/-! ## What is deleted -/

/-- The whole loop, for the replies of a scan. -/
theorem Scan.result (h : Scan keyPrefix selects server replies) :
    ∃ result, deletePattern keyPrefix server replies 0 = some result ∧
      (∀ x, result.2.get x = if x ∈ targets keyPrefix replies then none else server.get x) ∧
      ∃ removed : List String, removed.Nodup ∧
        (∀ x, x ∈ removed ↔ x ∈ targets keyPrefix replies ∧ (server.get x).isSome) ∧
        result.1 = removed.length := by
  obtain ⟨init, batch, rfl, hinit⟩ := h.ends
  obtain ⟨removed, hnodup, hmem, hcount, hget⟩ :=
    del_spec (targets keyPrefix (init ++ [⟨"0", batch⟩])) server 0
  exact ⟨_, deletePattern_eq server 0 batch hinit, hget, removed, hnodup, hmem, by simpa using hcount⟩

/-- Every key of a reply is selected, and was there from the start. -/
theorem Scan.selected (h : Scan keyPrefix selects server replies) {reply : ScanReply}
    (hreply : reply ∈ replies) {x : String} (hx : x ∈ reply.batch) :
    selects x = true ∧ (server.get x).isSome := by
  obtain ⟨pre, post, rfl⟩ := List.append_of_mem hreply
  obtain ⟨hselects, hlive⟩ := h.present pre reply post rfl x hx
  rw [get_after] at hlive
  split at hlive
  · cases hlive
  · exact ⟨hselects, hlive⟩

/-- The cached key is the prefix in front of another cached key, and no reply of a scan can name that
other key itself. -/
def Doubled (keyPrefix : String) (selects : String → Bool) (server : Server) (key : String) : Prop :=
  ∃ key', key = keyPrefix ++ key' ∧ (server.get (keyPrefix ++ key')).isSome ∧
    ¬ (selects key' = true ∧ (server.get key').isSome)

theorem get_null_of_missing {key : String} (h : server.get key = none) :
    RedisService.get json key server = .null := by
  rw [RedisService.get, h]

theorem get_congr {key : String} {server' : Server} (h : server'.get key = server.get key) :
    RedisService.get json key server' = RedisService.get json key server := by
  rw [RedisService.get, RedisService.get, h]

/-- A key that is doubled is named by some reply: nothing deletes it before. -/
theorem Scan.names (h : Scan keyPrefix selects server replies) {key : String}
    (hselects : selects key = true) (hdoubled : Doubled keyPrefix selects server key) :
    ∃ reply ∈ replies, key ∈ reply.batch := by
  obtain ⟨key', rfl, hlive, hsafe⟩ := hdoubled
  refine h.complete _ hselects fun pre reply post hsplit => ?_
  rw [get_after, if_neg]
  · exact hlive
  · intro htarget
    obtain ⟨reply', hreply', hnamed⟩ := append_mem_targets.mp htarget
    exact hsafe (h.selected (hsplit ▸ List.mem_append_left _ hreply') hnamed)

/-- Without a prefix every selected key is named or deleted before. -/
theorem Scan.names_plain (h : Scan "" selects server replies) {key : String}
    (hselects : selects key = true) (hlive : (server.get key).isSome) :
    ∃ reply ∈ replies, key ∈ reply.batch := by
  by_contra hnone
  refine hnone (h.complete key hselects fun pre reply post hsplit => ?_)
  rw [get_after, if_neg]
  · exact hlive
  · intro htarget
    rw [← String.empty_append (s := key), append_mem_targets] at htarget
    obtain ⟨reply', hreply', hnamed⟩ := htarget
    exact hnone ⟨reply', hsplit ▸ List.mem_append_left _ hreply', hnamed⟩

/-- What every scan leads to: nothing else is deleted, and the keys are counted. -/
theorem Scan.invalidates_iff (json : Json) (h : Scan keyPrefix selects server replies) :
    ∃ result, deletePattern keyPrefix server replies 0 = some result ∧
      (Invalidates keyPrefix selects server json result ↔
        ∀ key, selects key = true → RedisService.get json (keyPrefix ++ key) server ≠ .null →
          ∃ reply ∈ replies, key ∈ reply.batch) := by
  obtain ⟨result, hresult, hget, removed, hnodup, hmem, hcount⟩ := h.result
  refine ⟨result, hresult, ?_⟩
  constructor
  · intro hinvalidates key hselects hvalue
    by_contra hunnamed
    refine hvalue ((get_congr ?_).symm.trans (hinvalidates.gone key hselects))
    rw [hget, if_neg (mt append_mem_targets.mp hunnamed)]
  · intro hall
    refine ⟨fun key hselects => ?_, fun key hselects => ?_, removed, hnodup, fun x => ?_, hcount⟩
    · by_cases hdeleted : keyPrefix ++ key ∈ targets keyPrefix replies
      · refine get_null_of_missing ?_
        rw [hget, if_pos hdeleted]
      · have hsame : result.2.get (keyPrefix ++ key) = server.get (keyPrefix ++ key) := by
          rw [hget, if_neg hdeleted]
        by_contra hvalue
        rw [get_congr hsame] at hvalue
        exact hdeleted (append_mem_targets.mpr (hall key hselects hvalue))
    · rw [hget, if_neg]
      intro htarget
      obtain ⟨reply, hreply, hnamed⟩ := append_mem_targets.mp htarget
      rw [(h.selected hreply hnamed).1] at hselects
      cases hselects
    · rw [hmem, hget, and_comm, Option.isSome_iff_ne_none]
      by_cases hx : x ∈ targets keyPrefix replies
      · simp [hx]
      · simp only [hx, and_false, if_false]
        exact iff_of_false id fun hlive => hlive.1 hlive.2

/-! ## The scans that a server may make -/

/-- The selected keys of a server, among the given ones. -/
def found (selects : String → Bool) (server : Server) (keys : List String) : List String :=
  keys.filter fun x => selects x && (server.get x).isSome

theorem mem_found {keys : List String} {x : String} : x ∈ found selects server keys ↔
    x ∈ keys ∧ selects x = true ∧ (server.get x).isSome := by
  simp [found]

/-- All keys in one reply. -/
theorem scan_once {keys : List String} (hkeys : ∀ x, (server.get x).isSome → x ∈ keys) :
    Scan keyPrefix selects server [⟨"0", found selects server keys⟩] where
  ends := ⟨[], _, rfl, by simp⟩
  present := by
    intro pre reply post hsplit x hx
    obtain ⟨rfl, rfl, rfl⟩ : pre = [] ∧ reply = ⟨"0", found selects server keys⟩ ∧ post = [] := by
      cases pre <;> simp_all
    exact ⟨(mem_found.mp hx).2.1, (mem_found.mp hx).2.2⟩
  complete := by
    intro x hselects hlive
    have hx : (server.get x).isSome := hlive [] _ [] rfl
    exact ⟨_, List.mem_singleton_self _, mem_found.mpr ⟨hkeys x hx, hselects, hx⟩⟩

/-- A first reply of one key, which is deleted with the prefix before the others are listed. -/
theorem scan_twice {keys : List String} (hkeys : ∀ x, (server.get x).isSome → x ∈ keys) {key : String}
    (hselects : selects key = true) (hlive : (server.get key).isSome) :
    Scan keyPrefix selects server [⟨"1", [key]⟩,
      ⟨"0", found selects (after keyPrefix server [⟨"1", [key]⟩]) keys⟩] where
  ends := ⟨[⟨"1", [key]⟩], _, rfl, by simp⟩
  present := by
    intro pre reply post hsplit x hx
    rcases pre with - | ⟨first, - | ⟨second, pre⟩⟩
    · obtain ⟨rfl, -⟩ := List.cons.inj hsplit
      rw [List.mem_singleton.mp hx]
      exact ⟨hselects, hlive⟩
    · obtain ⟨rfl, hrest⟩ := List.cons.inj hsplit
      obtain ⟨rfl, -⟩ := List.cons.inj hrest
      exact ⟨(mem_found.mp hx).2.1, (mem_found.mp hx).2.2⟩
    · simp at hsplit
  complete := by
    intro x hselects hthroughout
    have hx := hthroughout [⟨"1", [key]⟩] _ [] rfl
    have hstart : (server.get x).isSome := hthroughout [] _ _ rfl
    exact ⟨_, List.mem_cons_of_mem _ (List.mem_singleton_self _),
      mem_found.mpr ⟨hkeys x hstart, hselects, hx⟩⟩

/-! ## When invalidation works -/

/-- Every scan invalidates the selected keys exactly if there is no prefix, or each of them that
has a value is doubled. -/
theorem deletePattern_invalidates_iff (hwritten : Written keyPrefix json server) :
    (∀ replies, Scan keyPrefix selects server replies →
      ∃ result, deletePattern keyPrefix server replies 0 = some result ∧
        Invalidates keyPrefix selects server json result) ↔
    keyPrefix = "" ∨ ∀ key, selects key = true →
      RedisService.get json (keyPrefix ++ key) server ≠ .null →
      Doubled keyPrefix selects server key := by
  constructor
  · intro h
    have hnamed : ∀ {replies}, Scan keyPrefix selects server replies → ∀ key, selects key = true →
        RedisService.get json (keyPrefix ++ key) server ≠ .null → ∃ reply ∈ replies, key ∈ reply.batch := by
      intro replies hscan
      obtain ⟨result, hresult, hiff⟩ := hscan.invalidates_iff json
      obtain ⟨result', hresult', hinvalidates⟩ := h replies hscan
      obtain rfl := Option.some.inj (hresult.symm.trans hresult')
      exact hiff.mp hinvalidates
    obtain ⟨keys, hkeys⟩ := hwritten.keys
    have hmem : ∀ x, (server.get x).isSome → x ∈ keys := fun x hx => (hkeys x hx).1
    by_cases hplain : keyPrefix = ""
    · exact .inl hplain
    refine .inr fun key hselects hvalue => ?_
    -- the scan in one reply names the key, so it is a whole key itself
    obtain ⟨reply, hreply, hkey⟩ := hnamed (scan_once hmem) key hselects hvalue
    rw [List.mem_singleton.mp hreply] at hkey
    have hlive := (mem_found.mp hkey).2.2
    obtain ⟨-, key', rfl⟩ := hkeys key hlive
    refine ⟨key', rfl, hlive, fun ⟨hselects', hlive'⟩ => ?_⟩
    -- else a scan could start with the other key
    obtain ⟨reply, hreply, hkey⟩ := hnamed (scan_twice hmem hselects' hlive') _ hselects hvalue
    rcases List.mem_cons.mp hreply with rfl | hreply
    · exact hplain (String.append_eq_right_iff.mp (List.mem_singleton.mp hkey))
    · rw [List.mem_singleton.mp hreply] at hkey
      have hdeleted := (mem_found.mp hkey).2.2
      rw [get_after, if_pos (append_mem_targets.mpr ⟨_, List.mem_singleton_self _,
        List.mem_singleton_self _⟩)] at hdeleted
      cases hdeleted
  · intro hcond replies hscan
    obtain ⟨result, hresult, hiff⟩ := hscan.invalidates_iff json
    refine ⟨result, hresult, hiff.mpr fun key hselects hvalue => ?_⟩
    rcases hcond with rfl | hdoubled
    · refine hscan.names_plain hselects ?_
      rw [String.empty_append] at hvalue
      by_contra hmissing
      exact hvalue (get_null_of_missing (Option.not_isSome_iff_eq_none.mp hmissing))
    · exact hscan.names hselects (hdoubled key hselects hvalue)

/-! ### The default prefix -/

/-- Patterns of `*`, `?` and plain characters. -/
def glob : List Char → List Char → Bool
  | [], cs => cs.isEmpty
  | '*' :: ps, cs => cs.tails.any (glob ps)
  | '?' :: ps, cs =>
    match cs with
    | [] => false
    | _ :: cs => glob ps cs
  | p :: ps, cs =>
    match cs with
    | [] => false
    | c :: cs => c = p && glob ps cs

/-- `user:*` -/
def users (key : String) : Bool := glob "user:*".toList key.toList

/-- Texts are no JSON here. -/
def texts : Json := ⟨fun _ => "", fun _ => none⟩

/-- One user is cached. -/
def cachedUser : Server :=
  RedisService.set texts ("app:" ++ "user:1") (.str "Ann") 60 ⟨fun _ => none, 0⟩

theorem written_cachedUser : Written "app:" texts cachedUser := .set "user:1" (.str "Ann") 60 (.empty 0)

theorem deletePattern_invalidates_iff_app :
    (∀ replies, Scan "app:" users cachedUser replies →
      ∃ result, deletePattern "app:" cachedUser replies 0 = some result ∧
        Invalidates "app:" users cachedUser texts result) ↔
    "app:" = "" ∨ ∀ key, users key = true →
      RedisService.get texts ("app:" ++ key) cachedUser ≠ .null → Doubled "app:" users cachedUser key :=
  deletePattern_invalidates_iff written_cachedUser

/-- The scan finds nothing for `user:*`, since all keys start with `app:`. -/
theorem cachedUser_stays : Written "app:" texts cachedUser ∧
    ¬ ∀ replies, Scan "app:" users cachedUser replies →
      ∃ result, deletePattern "app:" cachedUser replies 0 = some result ∧
        Invalidates "app:" users cachedUser texts result := by
  refine ⟨written_cachedUser, fun h => ?_⟩
  obtain ⟨keys, hkeys⟩ := written_cachedUser.keys
  have hscan : Scan "app:" users cachedUser [⟨"0", found users cachedUser keys⟩] :=
    scan_once fun x hx => (hkeys x hx).1
  obtain ⟨result, hresult, hiff⟩ := hscan.invalidates_iff texts
  obtain ⟨result', hresult', hinvalidates⟩ := h _ hscan
  obtain rfl := Option.some.inj (hresult.symm.trans hresult')
  obtain ⟨reply, hreply, hnamed⟩ := hiff.mp hinvalidates "user:1" (by decide) (by decide)
  rw [List.mem_singleton.mp hreply] at hnamed
  exact absurd (mem_found.mp hnamed).2.2 (by decide)

end Redis
