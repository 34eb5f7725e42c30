-- SUMMARY: The processes of the gateway: which requests they take, which are answered, and what ends them.
import NestPlatform.Gateway.Answers
import NestPlatform.Lib.Local

/-!
# The processes of the gateway

A request without a reply ends the process that has taken it. The other requests of this process are
abandoned: what they have asked for is done, but nobody hears of it. Until a process is there again,
requests are missed.
-/
namespace Gateway

open Js Mongo Nest Common Transition

/-- The processes of the gateway, and the platform behind them. -/
structure Site where
  processes : ℕ
  platform : Platform

inductive Event where
  /-- A process takes the request, and nothing but this request can end it before the reply. -/
  | request (a : Arrival)
  /-- The process has called a service when another request ends it. -/
  | abandoned (x : Exchange)
  /-- There is no process. -/
  | missed (a : Arrival)
  | started
  | ended

section

variable (M : Mongoose) (bcrypt : Auth.Bcrypt) (jwt : Auth.Jwt) (config : Auth.AuthConfig)

/-- What is to be sent and the platform after it. -/
def Exchange.act (x : Exchange) (b : Platform) : HttpResponse × Platform :=
  (x.response M bcrypt jwt config b, x.after M bcrypt jwt config b)

namespace Event

/-- The request that gets past the body parser. -/
def exchange : Event → Option Exchange
  | request a => a.parsed
  | abandoned x => some x
  | missed _ | started | ended => none

def reply (b : Platform) : Event → Option Reply
  | request a => a.reply M bcrypt jwt config b
  | _ => none

def after (e : Event) (b : Platform) : Platform :=
  (e.exchange.map fun x => x.after M bcrypt jwt config b).getD b

def act (e : Event) (b : Platform) : Option Reply × Platform :=
  (e.reply M bcrypt jwt config b, e.after M bcrypt jwt config b)

end Event

/-- Each step is labelled with the reply, if there is one. -/
inductive SiteStep : Site → Event × Option Reply → Site → Prop where
  | answered {s : Site} {a : Arrival} {r : Reply} : 0 < s.processes →
      a.reply M bcrypt jwt config s.platform = some r →
      SiteStep s (.request a, some r) { s with platform := a.after M bcrypt jwt config s.platform }
  | unanswered {s : Site} {a : Arrival} : 0 < s.processes →
      a.reply M bcrypt jwt config s.platform = none →
      SiteStep s (.request a, none)
        ⟨s.processes - 1, a.after M bcrypt jwt config s.platform⟩
  | abandoned {s : Site} {x : Exchange} :
      SiteStep s (.abandoned x, none) { s with platform := x.after M bcrypt jwt config s.platform }
  | missed {s : Site} {a : Arrival} : s.processes = 0 → SiteStep s (.missed a, none) s
  | started {s : Site} : SiteStep s (.started, none) { s with processes := s.processes + 1 }
  | ended {s : Site} : SiteStep s (.ended, none) { s with processes := s.processes - 1 }

end

variable {M : Mongoose} {bcrypt : Auth.Bcrypt} {jwt : Auth.Jwt} {config : Auth.AuthConfig}

/-! ## The platform -/

theorem SiteStep.act {s s' : Site} {l : Event × Option Reply}
    (h : SiteStep M bcrypt jwt config s l s') :
    l.1.act M bcrypt jwt config s.platform = (l.2, s'.platform) := by
  cases h with
  | answered _ hreply => exact Prod.ext hreply rfl
  | unanswered _ hreply => exact Prod.ext hreply rfl
  | abandoned | missed | started | ended => rfl

theorem SiteStep.platform {s s' : Site} {l : Event × Option Reply}
    (h : SiteStep M bcrypt jwt config s l s') :
    s'.platform = l.1.after M bcrypt jwt config s.platform :=
  (congrArg Prod.snd h.act).symm

/-- For the platform it does not matter when processes start and end. -/
theorem run_answered {s s' : Site} {ls : List (Event × Option Reply)}
    (h : Run (SiteStep M bcrypt jwt config) s ls s') :
    Run (Answered (Event.act M bcrypt jwt config)) s.platform ls s'.platform := by
  induction h with
  | nil => exact .nil _
  | snoc _ hlast ih => exact ih.snoc hlast.act

/-- What it goes through is a run of the requests that got past the body parser. -/
theorem run_exchanges {s s' : Site} {ls : List (Event × Option Reply)}
    (h : Run (SiteStep M bcrypt jwt config) s ls s') :
    Run (HttpStep M bcrypt jwt config) s.platform (ls.filterMap fun l => l.1.exchange) s'.platform := by
  apply h.project
  · intro s l s' x hstep hx
    have hafter := hstep.platform
    unfold Event.after at hafter
    rwa [hx] at hafter
  · intro s l s' hstep hnone
    have hafter := hstep.platform
    unfold Event.after at hafter
    rwa [hnone] at hafter

/-! ## Parts of the platform -/

theorem Event.reply_congr {e : Event} {b b' : Platform}
    (h : ∀ x, e.exchange = some x →
      x.response M bcrypt jwt config b = x.response M bcrypt jwt config b') :
    e.reply M bcrypt jwt config b = e.reply M bcrypt jwt config b' := by
  cases e with
  | abandoned | missed | started | ended => rfl
  | request a =>
    change a.reply M bcrypt jwt config b = a.reply M bcrypt jwt config b'
    cases hbody : a.express.bodyError with
    | some err =>
      unfold Arrival.reply Express.reply
      rw [hbody]
      rfl
    | none =>
      rw [Arrival.reply_parsed hbody, Arrival.reply_parsed hbody, h _ (Arrival.parsed_eq hbody)]

/-- What holds of the parts that requests are for, holds of events. -/
theorem Event.keyed {κ : Type} [DecidableEq κ] {τ : κ → Type} {view : ∀ k, Platform → τ k}
    {Allowed : Exchange → Prop} {key : Exchange → Option κ}
    (h : Keyed view (Exchange.act M bcrypt jwt config) Allowed key) :
    Keyed view (Event.act M bcrypt jwt config) (fun e => ∀ x, e.exchange = some x → Allowed x)
      (fun e => e.exchange.bind key) where
  answer e k b b' hallowed hkey hview := by
    obtain ⟨x, hx, hk⟩ := Option.bind_eq_some_iff.mp hkey
    apply reply_congr
    intro y hy
    obtain rfl := Option.some.inj (hx.symm.trans hy)
    exact h.answer x k b b' (hallowed x hx) hk hview
  part e k b b' hallowed hkey hview := by
    obtain ⟨x, hx, hk⟩ := Option.bind_eq_some_iff.mp hkey
    unfold act after
    rw [hx]
    exact h.part x k b b' (hallowed x hx) hk hview
  others e k b hallowed hkey := by
    unfold act after
    cases hx : e.exchange with
    | none => rfl
    | some x =>
      rw [hx] at hkey
      exact h.others x k b (hallowed x hx) hkey

/-! ### One process -/

abbrev FinnStep : Site → Event × Option Reply → Site → Prop :=
  SiteStep .plain .plain (.single finnPayload) Auth.accessOnly

def finnReply (x : Exchange) (b : Platform) : Option Reply :=
  x.plain.reply .plain .plain (.single finnPayload) Auth.accessOnly b

variable {n : ℕ} {x : Exchange} {b : Platform}

theorem finn_answered (h : (finnReply x b).isSome = true) :
    FinnStep ⟨n + 1, b⟩ (.request x.plain, finnReply x b) ⟨n + 1, finnAfter x b⟩ := by
  obtain ⟨r, hr⟩ := Option.isSome_iff_exists.mp h
  rw [hr]
  exact .answered n.succ_pos hr

theorem finn_unanswered (h : finnReply x b = none) :
    FinnStep ⟨n + 1, b⟩ (.request x.plain, none) ⟨n, finnAfter x b⟩ :=
  .unanswered n.succ_pos h

end Gateway
