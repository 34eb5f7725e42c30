-- SUMMARY: The accounting invariant of the retrying consumers: every publication is one copy or one success per matching queue.
import NestPlatform.RabbitMQ.Delivery

/-!
# Accounting of copies

A publication is owed to each queue its message is routed to. The debt of a
queue is one copy, live or dead-lettered, or one successful handler run, never
both and never more. The invariant survives a retry only when the republished
message reaches no queue but the one whose handler failed.
-/
namespace RabbitMQ

open Amqp Js

variable {P : Type}

/-! ## What a copy keeps -/

structure Preserves (m₀ m : Message P) : Prop where
  content : m.content = m₀.content
  messageId : m.properties.messageId = m₀.properties.messageId
  correlationId : m.properties.correlationId = m₀.properties.correlationId
  headers : ∀ k, k ≠ ATTEMPT_HEADER → (headers m).get k = (headers m₀).get k

theorem Preserves.refl (m : Message P) : Preserves m m := ⟨rfl, rfl, rfl, fun _ _ => rfl⟩

theorem Preserves.retryCopy {m₀ m : Message P} (h : Preserves m₀ m) (a : Number) :
    Preserves m₀ (retryCopy m a) := by
  refine ⟨h.content, h.messageId, h.correlationId, ?_⟩
  intro k hk
  rw [headers_retryCopy, Entries.get_set_ne hk]
  exact h.headers k hk

/-- The copy that the dead-letter exchange makes of `c`. -/
def deadCopy (config : TopologyConfig) (c : Copy P) (key : String) (reason : DeathReason) :
    Copy P where
  message :=
    { c.message with
      exchange := config.dlx
      routingKey := key
      properties := { c.message.properties with expiration := none } }
  queue := config.dlq
  unacked := false
  deaths := ⟨c.queue, reason⟩ :: c.deaths
  origin := c.origin

theorem Preserves.deadCopy {config : TopologyConfig} {m₀ : Message P} {c : Copy P}
    (h : Preserves m₀ c.message) (key : String) (reason : DeathReason) :
    Preserves m₀ (deadCopy config c key reason).message :=
  ⟨h.content, h.messageId, h.correlationId, h.headers⟩

/-- The queue on whose account a copy exists: the queue it is in, or the queue it
was dead-lettered from. -/
def account (c : Copy P) : String :=
  match c.deaths with
  | [] => c.queue
  | d :: _ => d.queue

/-- The copies of publication `i` that exist on account of queue `q`. -/
def State.held (s : State P) (i : ℕ) (q : String) : ℕ :=
  s.copies.countP fun c => c.origin = i ∧ account c = q

/-! ## The invariant -/

section Invariant

variable (b : Broker) (config : TopologyConfig) (max : ℕ)

/-- A copy of `m₀` in a work queue, or in the hands of its consumer. -/
structure Waiting (failed : ℕ → String → ℕ) (m₀ : Message P) (c : Copy P) : Prop where
  work : config.IsWorkQueue c.queue
  deaths : c.deaths = []
  exchange : c.message.exchange = m₀.exchange
  routingKey : c.message.routingKey = m₀.routingKey
  expiration : c.message.properties.expiration = m₀.properties.expiration
  routed : c.queue ∈ b.route m₀.exchange m₀.routingKey
  attempt : ∃ a, attempt m₀ = some a ∧ (0 : ℕ) ≤ a ∧
    attempt c.message = some (a + (failed c.origin c.queue : ℕ))
  numeric : (∃ x, (headers m₀).get ATTEMPT_HEADER = .num x) →
    ∃ x, (headers c.message).get ATTEMPT_HEADER = .num x
  below : failed c.origin c.queue < max

/-- A copy of `m₀` in the dead-letter queue. -/
structure Dead (failed : ℕ → String → ℕ) (m₀ : Message P) (c : Copy P) : Prop where
  queue : c.queue = config.dlq
  unacked : c.unacked = false
  expiration : c.message.properties.expiration = none
  deaths : ∃ d, c.deaths = [d]
  work : config.IsWorkQueue (account c)
  spent : m₀.properties.expiration = none →
    ∃ a, attempt m₀ = some a ∧ max ≤ a + (failed c.origin (account c) : ℕ)

/-- How many copies or successes publication `i` owes to queue `q`. -/
def State.owed (s : State P) (i : ℕ) (q : String) : ℕ :=
  match s.original i with
  | none => 0
  | some m₀ => if q ∈ b.route m₀.exchange m₀.routingKey then 1 else 0

structure Accounted (s : State P) : Prop where
  traced : ∀ c ∈ s.copies, ∃ m₀, s.original c.origin = some m₀ ∧ Preserves m₀ c.message ∧
    (Waiting b config max s.failed m₀ c ∨ Dead config max s.failed m₀ c)
  balance : ∀ i q, s.held i q + s.succeeded i q = s.owed b i q
  runs : ∀ i q, s.failed i q + s.succeeded i q ≤ max
  unpublished : ∀ i q, s.original i = none → s.failed i q = 0

/-- The counter of a published message starts at zero or above, and a message that
is put back after a failed run reaches no other queue. -/
def RetriesIsolated : Event P → Prop
  | .publish _ routingKey payload options =>
      CountsFromZero (publish config.exchange routingKey payload options)
  | .finish c false =>
      (∃ a, RabbitMQ.attempt c.message = some a ∧ ¬ max ≤ a + (1 : ℕ)) →
        ∀ q ∈ b.route c.message.exchange c.message.routingKey, q = c.queue
  | _ => True

end Invariant

variable {b : Broker} {config : TopologyConfig} {max : ℕ}

theorem Waiting.account_eq {failed : ℕ → String → ℕ} {m₀ : Message P} {c : Copy P}
    (h : Waiting b config max failed m₀ c) : account c = c.queue := by
  rw [account, h.deaths]

theorem Waiting.congr {failed failed' : ℕ → String → ℕ} {m₀ : Message P} {c : Copy P}
    (h : Waiting b config max failed m₀ c)
    (heq : failed' c.origin c.queue = failed c.origin c.queue) :
    Waiting b config max failed' m₀ c := by
  have hattempt := h.attempt
  have hbelow := h.below
  rw [← heq] at hattempt hbelow
  exact { h with attempt := hattempt, below := hbelow }

theorem Dead.congr {failed failed' : ℕ → String → ℕ} {m₀ : Message P} {c : Copy P}
    (h : Dead config max failed m₀ c)
    (heq : failed' c.origin (account c) = failed c.origin (account c)) :
    Dead config max failed' m₀ c := by
  have hspent := h.spent
  rw [← heq] at hspent
  exact { h with spent := hspent }

theorem State.owed_le_one (s : State P) (i : ℕ) (q : String) : s.owed b i q ≤ 1 := by
  unfold State.owed
  split
  · exact Nat.zero_le _
  · split <;> omega

theorem Accounted.initial (b : Broker) (config : TopologyConfig) (max : ℕ) :
    Accounted b config max (State.initial : State P) :=
  ⟨by simp [State.initial], by simp [State.initial, State.held, State.owed],
    by simp [State.initial], by simp [State.initial]⟩

namespace Accounted

variable {s : State P}

/-- The copies that exist on one account for one publication are at most one. -/
theorem held_le_one (h : Accounted b config max s) (i : ℕ) (q : String) :
    s.held i q + s.succeeded i q ≤ 1 := (h.balance i q).trans_le (s.owed_le_one i q)

/-- While `c` exists, no other copy has its origin and account, and no handler of
its account has succeeded. -/
theorem alone (h : Accounted b config max s) {c : Copy P} {rest : Multiset (Copy P)}
    (hs : s.copies = c ::ₘ rest) :
    (∀ c' ∈ rest, ¬ (c'.origin = c.origin ∧ account c' = account c)) ∧
      s.succeeded c.origin (account c) = 0 := by
  have hle := h.held_le_one c.origin (account c)
  rw [State.held, hs, Multiset.countP_cons_of_pos _ ⟨rfl, rfl⟩] at hle
  refine ⟨?_, by omega⟩
  have hrest : rest.countP (fun c' => c'.origin = c.origin ∧ account c' = account c) = 0 := by omega
  exact fun c' hc' => Multiset.countP_eq_zero.mp hrest c' hc'

/-- Exchanging a copy for one with the same origin and account, which may use up
one more failed run on that account. -/
theorem replace (h : Accounted b config max s) {c : Copy P} {rest : Multiset (Copy P)}
    (hs : s.copies = c ::ₘ rest) (c' : Copy P) (failed : ℕ → String → ℕ)
    (horigin : c'.origin = c.origin) (haccount : account c' = account c)
    (hfailed : ∀ i q, ¬ (i = c.origin ∧ q = account c) → failed i q = s.failed i q)
    (hruns : failed c.origin (account c) ≤ max)
    (htraced : ∀ m₀, s.original c.origin = some m₀ → Preserves m₀ c.message →
      Waiting b config max s.failed m₀ c ∨ Dead config max s.failed m₀ c →
      Preserves m₀ c'.message ∧
        (Waiting b config max failed m₀ c' ∨ Dead config max failed m₀ c')) :
    Accounted b config max { s with copies := c' ::ₘ rest, failed := failed } := by
  obtain ⟨hothers, hnone⟩ := h.alone hs
  obtain ⟨m₀, horig, hpres, hfate⟩ := h.traced c (by simp [hs])
  refine ⟨?_, ?_, ?_, ?_⟩
  · intro d hd
    rcases Multiset.mem_cons.mp hd with rfl | hd
    · exact ⟨m₀, horigin ▸ horig, htraced m₀ horig hpres hfate⟩
    · obtain ⟨n₀, hn₀, hdpres, hdfate⟩ := h.traced d (by simp [hs, hd])
      have hkeep : failed d.origin (account d) = s.failed d.origin (account d) :=
        hfailed _ _ (hothers d hd)
      refine ⟨n₀, hn₀, hdpres, ?_⟩
      rcases hdfate with hw | hdead
      · exact .inl (hw.congr (hw.account_eq ▸ hkeep))
      · exact .inr (hdead.congr hkeep)
  · intro i q
    have hheld : Multiset.countP (fun d => d.origin = i ∧ account d = q) (c' ::ₘ rest) =
        s.held i q := by
      simp only [State.held, hs, Multiset.countP_cons, horigin, haccount]
    have hbal := h.balance i q
    rw [← hheld] at hbal
    exact hbal
  · intro i q
    by_cases hiq : i = c.origin ∧ q = account c
    · obtain ⟨rfl, rfl⟩ := hiq
      simpa [hnone] using hruns
    · simpa [hfailed i q hiq] using h.runs i q
  · intro i q hi
    have hiq : ¬ (i = c.origin ∧ q = account c) := by
      rintro ⟨rfl, -⟩
      simp [horig] at hi
    simpa [hfailed i q hiq] using h.unpublished i q hi

/-- The handler of a waiting copy succeeds: the copy is gone and the success stands
in its place. -/
theorem succeed (h : Accounted b config max s) {c : Copy P} {rest : Multiset (Copy P)}
    (hs : s.copies = c ::ₘ rest) (hwork : account c = c.queue)
    (hbelow : s.failed c.origin c.queue < max) :
    Accounted b config max
      { s with copies := rest, succeeded := bump s.succeeded c.origin c.queue } := by
  obtain ⟨-, hnone⟩ := h.alone hs
  rw [hwork] at hnone
  refine ⟨?_, ?_, ?_, h.unpublished⟩
  · intro d hd
    exact h.traced d (by simp [hs, hd])
  · intro i q
    have hbal := h.balance i q
    by_cases hiq : i = c.origin ∧ q = c.queue
    · obtain ⟨rfl, rfl⟩ := hiq
      rw [State.held, hs, Multiset.countP_cons, if_pos ⟨rfl, hwork⟩, add_assoc,
        Nat.add_comm 1] at hbal
      simp only [bump_self]
      exact hbal
    · have hno : ¬ (c.origin = i ∧ account c = q) := by
        rintro ⟨rfl, rfl⟩
        exact hiq ⟨rfl, hwork⟩
      rw [State.held, hs, Multiset.countP_cons, if_neg hno, add_zero] at hbal
      simp only [bump_ne hiq]
      exact hbal
  · intro i q
    by_cases hiq : i = c.origin ∧ q = c.queue
    · obtain ⟨rfl, rfl⟩ := hiq
      simp only [bump_self]
      omega
    · simp only [bump_ne hiq]
      exact h.runs i q

/-- Of the copies that a publication makes, the account of each queue it is routed to has
one. -/
theorem countP_enqueue (hd : config.Declared config.queues b) (m : Message P) (i i' : ℕ)
    (q : String) :
    Multiset.countP (fun c => c.origin = i' ∧ account c = q)
        (↑(b.enqueue m i []) : Multiset (Copy P)) =
      if i' = i ∧ q ∈ b.route m.exchange m.routingKey then 1 else 0 := by
  rw [Multiset.coe_countP]
  by_cases hi : i' = i
  · subst hi
    have hcount : List.countP (fun c => decide (c.origin = i' ∧ account c = q))
        (b.enqueue m i' []) = (b.route m.exchange m.routingKey).count q := by
      simp only [Broker.enqueue, List.countP_map, List.count]
      congr 1
      funext x
      simp [account, beq_eq_decide]
    rw [hcount, (hd.route_nodup _ _).count]
    simp
  · rw [if_neg fun h => hi h.1, List.countP_eq_zero]
    intro c hc
    simp only [Broker.enqueue, List.mem_map] at hc
    obtain ⟨_, _, rfl⟩ := hc
    simp [Ne.symm hi]

/-- A message published under a fresh number puts one copy in each queue it is
routed to. -/
theorem publish (h : Accounted b config max s) (hd : config.Declared config.queues b)
    (hne : config.exchange ≠ config.dlx) (hmax : 1 ≤ max) {i : ℕ} (hfresh : s.original i = none)
    {m : Message P} (hm : m.exchange = config.exchange) (hcount : CountsFromZero m) :
    Accounted b config max
      { s with
        copies := ↑(b.enqueue m i []) + s.copies
        original := Function.update s.original i (some m) } := by
  have hold : ∀ c ∈ s.copies, c.origin ≠ i := by
    rintro c hc rfl
    obtain ⟨m₀, horig, -⟩ := h.traced c hc
    simp [hfresh] at horig
  -- before its publication nothing is held or done under the number
  have hzero : ∀ q, s.held i q = 0 ∧ s.succeeded i q = 0 := by
    intro q
    have hbal := h.balance i q
    simp only [State.owed, hfresh] at hbal
    omega
  refine ⟨?_, ?_, h.runs, ?_⟩
  · intro c hc
    rcases Multiset.mem_add.mp hc with hnew | hc
    · simp only [Broker.enqueue, Multiset.mem_coe, List.mem_map] at hnew
      obtain ⟨q, hq, rfl⟩ := hnew
      obtain ⟨a, ha, hpos⟩ := hcount
      have hnofail : s.failed i q = 0 := h.unpublished i q hfresh
      have hwork : config.IsWorkQueue q := by
        rw [hm, hd.mem_route hne] at hq
        obtain ⟨qc, hqc, rfl, -⟩ := hq
        exact ⟨qc, hqc, rfl⟩
      refine ⟨m, by simp, .refl m, .inl ⟨hwork, rfl, rfl, rfl, rfl, hq,
        ⟨a, ha, hpos, ?_⟩, id, ?_⟩⟩
      · simp only [hnofail, ha]
        cases a <;> simp [Number.natCast_def]
      · rwa [hnofail]
    · obtain ⟨m₀, horig, hrest⟩ := h.traced c hc
      exact ⟨m₀, by simpa [hold c hc] using horig, hrest⟩
  · intro i' q
    have hbal := h.balance i' q
    simp only [State.held, State.owed] at hbal ⊢
    rw [Multiset.countP_add, countP_enqueue hd]
    by_cases hi : i' = i
    · subst hi
      have hheld : Multiset.countP (fun c => c.origin = i' ∧ account c = q) s.copies = 0 :=
        (hzero q).1
      simp [hheld, (hzero q).2]
    · simpa [hi] using hbal
  · intro i' q hnone
    apply h.unpublished i' q
    by_cases hi : i' = i
    · exact hi ▸ hfresh
    · simpa [hi] using hnone

end Accounted

/-! ## The steps -/

theorem TopologyConfig.Declared.deadLetter (hd : config.Declared config.queues b)
    (hne : config.exchange ≠ config.dlx) {c : Copy P} (hwork : config.IsWorkQueue c.queue)
    (reason : DeathReason) : ∃ key, b.deadLetter c reason = [deadCopy config c key reason] := by
  obtain ⟨qc, hqc, hname⟩ := hwork
  have hfind : b.findQueue c.queue = some (qc.decl config.dlx) := hname ▸ hd.work qc hqc
  refine ⟨qc.routingKey, ?_⟩
  simp [Broker.deadLetter, hfind, QueueConfig.decl, Broker.enqueue, hd.route_dlx hne, deadCopy]

/-- Below the limit the next run is still within it, because the counter started at
zero or above. -/
theorem below_of_not_le {a : Number} {n : ℕ} (hpos : (0 : ℕ) ≤ a)
    (h : ¬ (max : Number) ≤ a + n + (1 : ℕ)) : n + 1 < max := by
  cases a with
  | nan => simp at hpos
  | negInf => simp [Number.natCast_def] at hpos
  | posInf => simp [Number.natCast_def] at h
  | fin q =>
    simp only [Number.natCast_def, Number.fin_add_fin, Number.fin_le_fin, not_le,
      Nat.cast_zero] at hpos h
    have : ((n + 1 : ℕ) : ℚ) < max := by push_cast at h ⊢; linarith
    exact_mod_cast this

theorem add_natCast_succ (a : Number) (n : ℕ) : a + n + (1 : ℕ) = a + (n + 1 : ℕ) := by
  cases a <;> simp [Number.natCast_def, add_assoc]

namespace Accounted

variable {s : State P}

/-- A copy in the hands of a consumer is a waiting copy. -/
theorem waiting_of_unacked (h : Accounted b config max s) {c : Copy P} (hc : c ∈ s.copies)
    (hunacked : c.unacked = true) : ∃ m₀, s.original c.origin = some m₀ ∧
      Waiting b config max s.failed m₀ c := by
  obtain ⟨m₀, horig, -, hw | hdead⟩ := h.traced c hc
  · exact ⟨m₀, horig, hw⟩
  · simp [hdead.unacked] at hunacked

/-- Dead-lettering exchanges a waiting copy for one in the dead-letter queue. -/
theorem die (h : Accounted b config max s) (hd : config.Declared config.queues b)
    (hne : config.exchange ≠ config.dlx) {c : Copy P} {rest : Multiset (Copy P)}
    (hs : s.copies = c ::ₘ rest) {m₀ : Message P} (horig : s.original c.origin = some m₀)
    (hw : Waiting b config max s.failed m₀ c) (reason : DeathReason) (failed : ℕ → String → ℕ)
    (hfailed : ∀ i q, ¬ (i = c.origin ∧ q = c.queue) → failed i q = s.failed i q)
    (hruns : failed c.origin c.queue ≤ max)
    (hspent : m₀.properties.expiration = none →
      ∃ a, attempt m₀ = some a ∧ max ≤ a + (failed c.origin c.queue : ℕ)) :
    Accounted b config max
      { s with copies := ↑(b.deadLetter c reason) + rest, failed := failed } := by
  obtain ⟨key, hdead⟩ := hd.deadLetter hne hw.work reason
  have haccount : account (deadCopy config c key reason) = account c := hw.account_eq.symm
  rw [hdead]
  refine h.replace hs (deadCopy config c key reason) failed rfl haccount ?_ ?_ ?_
  · rwa [hw.account_eq]
  · rwa [hw.account_eq]
  · intro n₀ hn₀ hpres _
    obtain rfl : n₀ = m₀ := by simpa [horig] using hn₀.symm
    refine ⟨hpres.deadCopy key reason, .inr ⟨rfl, rfl, rfl, ?_, ?_, ?_⟩⟩
    · exact ⟨⟨c.queue, reason⟩, by simp [deadCopy, hw.deaths]⟩
    · rw [haccount, hw.account_eq]
      exact hw.work
    · rw [haccount, hw.account_eq]
      exact hspent

/-- Putting a message back exchanges its copy for one with the counter increased. -/
theorem retry (h : Accounted b config max s) (hd : config.Declared config.queues b)
    {c : Copy P} {rest : Multiset (Copy P)} (hs : s.copies = c ::ₘ rest) {m₀ : Message P}
    (horig : s.original c.origin = some m₀) (hw : Waiting b config max s.failed m₀ c)
    {a : Number} (ha : attempt c.message = some a) (hmax : ¬ max ≤ a + (1 : ℕ))
    (honly : ∀ q ∈ b.route c.message.exchange c.message.routingKey, q = c.queue) :
    Accounted b config max
      { s with
        copies := ↑(b.enqueue (retryCopy c.message (a + (1 : ℕ))) c.origin []) + rest
        failed := bump s.failed c.origin c.queue } := by
  obtain ⟨a₀, ha₀, hpos, hcount⟩ := hw.attempt
  obtain rfl : a = a₀ + (s.failed c.origin c.queue : ℕ) := by simpa [ha] using hcount
  have hroute : b.route c.message.exchange c.message.routingKey = [c.queue] := by
    have hmem : c.queue ∈ b.route c.message.exchange c.message.routingKey := by
      rw [hw.exchange, hw.routingKey]
      exact hw.routed
    have hnodup := hd.route_nodup c.message.exchange c.message.routingKey
    exact List.perm_singleton.mp
      ((List.perm_ext_iff_of_nodup hnodup (List.nodup_singleton _)).mpr fun q =>
        ⟨fun hq => by simpa using honly q hq, fun hq => by rw [List.mem_singleton.mp hq]; exact hmem⟩)
  let c' : Copy P :=
    ⟨retryCopy c.message (a₀ + (s.failed c.origin c.queue : ℕ) + (1 : ℕ)), c.queue, false, [], c.origin⟩
  have hnew : b.enqueue c'.message c.origin [] = [c'] := by
    change (b.route c.message.exchange c.message.routingKey).map _ = _
    rw [hroute]
    rfl
  rw [show b.enqueue (retryCopy c.message _) c.origin [] = [c'] from hnew]
  refine h.replace hs c' (bump s.failed c.origin c.queue) rfl hw.account_eq.symm ?_ ?_ ?_
  · intro i q hiq
    exact bump_ne (hw.account_eq ▸ hiq)
  · rw [hw.account_eq, bump_self]
    exact hw.below
  · intro n₀ hn₀ hpres _
    obtain rfl : n₀ = m₀ := by simpa [horig] using hn₀.symm
    refine ⟨hpres.retryCopy _, .inl ⟨hw.work, rfl, hw.exchange, hw.routingKey, hw.expiration,
      hw.routed, ⟨a₀, ha₀, hpos, ?_⟩, fun _ => ⟨_, Entries.get_set_self _ _ _⟩, ?_⟩⟩
    · simp [c', add_natCast_succ]
    · simpa [c'] using below_of_not_le hpos hmax

theorem step (h : Accounted b config max s) (hd : config.Declared config.queues b)
    (hne : config.exchange ≠ config.dlx) (hmax : 1 ≤ max) {e : Event P} {s' : State P}
    (hstep : Step b config max s e s') (hcond : RetriesIsolated b config max e) :
    Accounted b config max s' := by
  cases hstep with
  | publish routingKey payload options hfresh =>
    exact h.publish hd hne hmax hfresh rfl hcond
  | @deliver c rest hs hready hwork =>
    refine h.replace hs { c with unacked := true } s.failed rfl rfl (fun _ _ _ => rfl) ?_ ?_
    · exact (Nat.le_add_right _ _).trans (h.runs _ _)
    · intro m₀ _ hpres hfate
      refine ⟨hpres, ?_⟩
      rcases hfate with hw | hdead
      · exact .inl ⟨hw.work, hw.deaths, hw.exchange, hw.routingKey, hw.expiration, hw.routed,
          hw.attempt, hw.numeric, hw.below⟩
      · exact absurd (hdead.queue ▸ hwork) hd.dlq_not_work
  | @finish c rest ok ops hs hunacked hops =>
    obtain ⟨m₀, horig, hw⟩ := h.waiting_of_unacked (by simp [hs]) hunacked
    obtain ⟨a₀, ha₀, hpos, hcount⟩ := hw.attempt
    rcases consumeWithRetry_cases c.message ok max with ⟨hnone, _⟩ | ⟨a, ha, hexit⟩
    · simp [hnone] at hcount
    rcases hexit with ⟨rfl, hres⟩ | ⟨rfl, hlimit, hres⟩ | ⟨rfl, hlimit, hres⟩
    all_goals
      rw [hres] at hops
      cases hops
    · simpa [Broker.perform] using h.succeed hs hw.account_eq hw.below
    · have hspent : max ≤ a₀ + (s.failed c.origin c.queue + 1 : ℕ) := by
        obtain rfl : a = a₀ + (s.failed c.origin c.queue : ℕ) := by simpa [ha] using hcount
        rwa [← add_natCast_succ]
      have hdone := h.die hd hne hs horig hw .rejected (bump s.failed c.origin c.queue)
        (fun i q hiq => bump_ne hiq) (by rw [bump_self]; exact hw.below)
        (fun _ => ⟨a₀, ha₀, by rwa [bump_self]⟩)
      simpa [Broker.perform] using hdone
    · simpa [Broker.perform] using h.retry hd hs horig hw ha hlimit (hcond ⟨a, ha, hlimit⟩)
  | @expire c rest hs hready hexpires =>
    obtain ⟨m₀, horig, -, hw | hdead⟩ := h.traced c (by simp [hs])
    · refine h.die hd hne hs horig hw .expired s.failed (fun _ _ _ => rfl) hw.below.le ?_
      intro hnever
      exact absurd (hw.expiration.trans hnever) hexpires
    · exact absurd hdead.expiration hexpires

end Accounted
end RabbitMQ
