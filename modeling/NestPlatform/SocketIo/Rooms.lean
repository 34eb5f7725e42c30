-- SUMMARY: Sockets in rooms: what a server sends reaches the sockets that are there then, in order.
import Mathlib.Data.List.Basic
import Mathlib.Logic.Function.Basic

/-!
# Rooms

A socket is in rooms from the time it joins them until it disconnects. What is sent to a room is
received by the sockets in it, each of which receives in the order of sending. `heard` is what one
socket receives, told without the others.
-/
namespace SocketIo

/-- `κ` are the sockets, `ρ` the rooms and `μ` the messages. -/
inductive Op (κ ρ μ : Type*) where
  | connect (k : κ)
  | join (k : κ) (r : ρ)
  | disconnect (k : κ)
  /-- To a room. -/
  | emit (r : ρ) (m : μ)
  /-- To one socket. -/
  | send (k : κ) (m : μ)

structure Server (κ ρ μ : Type*) where
  /-- The rooms of a socket that is connected. -/
  rooms : κ → Option (List ρ)
  received : κ → List μ

namespace Server

variable {κ ρ μ : Type*} [DecidableEq κ] [DecidableEq ρ]

def empty : Server κ ρ μ := ⟨fun _ => none, fun _ => []⟩

/-- The message reaches the sockets that `p` holds of. -/
def deliver (s : Server κ ρ μ) (p : κ → Bool) (m : μ) : Server κ ρ μ :=
  { s with received := fun k => if p k then s.received k ++ [m] else s.received k }

def apply (s : Server κ ρ μ) : Op κ ρ μ → Server κ ρ μ
  | .connect k => { s with rooms := Function.update s.rooms k (some []) }
  | .join k r => { s with rooms := Function.update s.rooms k ((s.rooms k).map (r :: ·)) }
  | .disconnect k => { s with rooms := Function.update s.rooms k none }
  | .emit r m => s.deliver (fun k => (s.rooms k).any (r ∈ ·)) m
  | .send k m => s.deliver (fun k' => k' = k ∧ (s.rooms k).isSome) m

def run (s : Server κ ρ μ) (ops : List (Op κ ρ μ)) : Server κ ρ μ := ops.foldl apply s

end Server

/-! ## One socket -/

section Moves

variable {κ ρ μ : Type*} [DecidableEq κ] {k : κ}

/-- The rooms of `k` after an operation. -/
def Op.moves (k : κ) (rooms : Option (List ρ)) : Op κ ρ μ → Option (List ρ)
  | .connect k' => if k' = k then some [] else rooms
  | .join k' r => if k' = k then rooms.map (r :: ·) else rooms
  | .disconnect k' => if k' = k then none else rooms
  | _ => rooms

/-- The operation is about the rooms of `k`. -/
def Op.Moves (k : κ) : Op κ ρ μ → Prop
  | .connect k' | .join k' _ | .disconnect k' => k' = k
  | _ => False

theorem moves_of_not {op : Op κ ρ μ} (h : ¬ op.Moves k) (rooms : Option (List ρ)) :
    op.moves k rooms = rooms := by
  cases op with
  | connect k' | join k' r | disconnect k' => exact if_neg h
  | emit | send => rfl

theorem foldl_moves_of_still {ops : List (Op κ ρ μ)} (h : ∀ op ∈ ops, ¬ op.Moves k)
    (rooms : Option (List ρ)) : ops.foldl (fun rooms op => op.moves k rooms) rooms = rooms := by
  induction ops with
  | nil => rfl
  | cons op ops ih =>
    rw [List.foldl_cons, moves_of_not (h op List.mem_cons_self)]
    exact ih fun op' hop' => h op' (List.mem_cons_of_mem _ hop')

theorem moves_none {op : Op κ ρ μ} (h : op ≠ .connect k) : op.moves k none = none := by
  cases op with
  | connect k' => exact if_neg fun hk => h (congrArg Op.connect hk)
  | join | disconnect => exact ite_self _
  | emit | send => rfl

theorem foldl_moves_none {ops : List (Op κ ρ μ)} (h : Op.connect k ∉ ops) :
    ops.foldl (fun rooms op => op.moves k rooms) none = none := by
  induction ops with
  | nil => rfl
  | cons op ops ih =>
    rw [List.foldl_cons, moves_none fun heq => h (heq ▸ List.mem_cons_self)]
    exact ih fun hmem => h (List.mem_cons_of_mem _ hmem)

end Moves

section

variable {κ ρ μ : Type*} [DecidableEq κ] [DecidableEq ρ]

/-- What `k`, in these rooms, receives of an operation. -/
def Op.reaches (k : κ) (rooms : Option (List ρ)) : Op κ ρ μ → List μ
  | .emit r m => if rooms.any (r ∈ ·) then [m] else []
  | .send k' m => if k' = k ∧ rooms.isSome then [m] else []
  | _ => []

/-- What `k`, at first in these rooms, receives. -/
def heard (k : κ) : Option (List ρ) → List (Op κ ρ μ) → List μ
  | _, [] => []
  | rooms, op :: ops => op.reaches k rooms ++ heard k (op.moves k rooms) ops

variable {k : κ} {s : Server κ ρ μ}

theorem rooms_apply (op : Op κ ρ μ) : (s.apply op).rooms k = op.moves k (s.rooms k) := by
  cases op with
  | connect k' | join k' r | disconnect k' =>
    by_cases hk : k' = k
    · subst hk
      simp [Server.apply, Op.moves]
    · simp [Server.apply, Op.moves, hk, Function.update_of_ne (Ne.symm hk)]
  | emit | send => rfl

theorem received_apply (op : Op κ ρ μ) :
    (s.apply op).received k = s.received k ++ op.reaches k (s.rooms k) := by
  cases op with
  | connect | join | disconnect => simp [Server.apply, Op.reaches]
  | emit r m =>
    simp only [Server.apply, Server.deliver, Op.reaches]
    split <;> simp
  | send k' m =>
    by_cases hk : k' = k
    · subst hk
      simp only [Server.apply, Server.deliver, Op.reaches, true_and]
      cases s.rooms k' <;> simp
    · simp [Server.apply, Server.deliver, Op.reaches, hk, Ne.symm hk]

/-- A socket receives what it hears, whatever becomes of the others. -/
theorem received_run (s : Server κ ρ μ) (ops : List (Op κ ρ μ)) :
    (s.run ops).received k = s.received k ++ heard k (s.rooms k) ops := by
  induction ops generalizing s with
  | nil => exact (List.append_nil _).symm
  | cons op ops ih =>
    have hstep := ih (s.apply op)
    rw [received_apply, rooms_apply, List.append_assoc] at hstep
    exact hstep

theorem heard_append (rooms : Option (List ρ)) (ops ops' : List (Op κ ρ μ)) :
    heard k rooms (ops ++ ops') =
      heard k rooms ops ++ heard k (ops.foldl (fun rooms op => op.moves k rooms) rooms) ops' := by
  induction ops generalizing rooms with
  | nil => rfl
  | cons op ops ih =>
    simp only [List.cons_append, heard, List.foldl_cons, ih, List.append_assoc]

/-- While its rooms stay as they are, a socket hears what reaches it there. -/
theorem heard_of_still {ops : List (Op κ ρ μ)} (h : ∀ op ∈ ops, ¬ op.Moves k)
    (rooms : Option (List ρ)) : heard k rooms ops = ops.flatMap (Op.reaches k rooms) := by
  induction ops with
  | nil => rfl
  | cons op ops ih =>
    rw [heard, moves_of_not (h op List.mem_cons_self), ih fun op' hop' => h op' (List.mem_cons_of_mem _ hop')]
    rfl

/-- A socket that is not connected hears nothing. -/
theorem heard_none {ops : List (Op κ ρ μ)} (h : Op.connect k ∉ ops) :
    heard k none ops = [] := by
  induction ops with
  | nil => rfl
  | cons op ops ih =>
    have hreaches : op.reaches k (none : Option (List ρ)) = [] := by
      cases op with
      | send => simp [Op.reaches]
      | connect | join | disconnect | emit => rfl
    rw [heard, moves_none fun heq => h (heq ▸ List.mem_cons_self), hreaches,
      ih fun hmem => h (List.mem_cons_of_mem _ hmem)]
    rfl

end

end SocketIo
