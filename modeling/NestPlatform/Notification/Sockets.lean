-- SUMMARY: The sockets of the notification worker, and what a client has received after any sequence of events.
import NestPlatform.Js.Json
import NestPlatform.Js.Text
import NestPlatform.Notification.Delivery
import NestPlatform.SocketIo.Rooms

/-!
# `NotificationGateway`

A client names a user when it connects and is put into the room of that name; nobody checks the
name. In-app notifications go to the room of their user. The clients come and go while the worker
handles its deliveries. A name that cannot be spelt ends the process, when its timers fire next.
-/
namespace Notification

open Amqp Js Nest Effect SocketIo

/-! ## The gateway -/

/-- The name of an event and its data. -/
abbrev SocketMessage := String × Value

variable {κ : Type*}

/-- `user:${userId}` -/
def userRoom (text : String) : String := "user:" ++ text

namespace NotificationGateway

variable (N : Spelling)

/-- A user id that has no text is thrown at. -/
def handleConnection (client : κ) (auth : Entries) :
    Except Thrown (List (Op κ String SocketMessage)) :=
  let userId := auth.get "userId"
  if userId.truthy then
    match userId.text N with
    | some text => .ok [.join client (userRoom text)]
    | none => .error (.error "TypeError")
  else .ok []

/-- It only logs; the server has forgotten the rooms of the client. -/
def handleDisconnect (_client : κ) : List (Op κ String SocketMessage) := []

def sendToUser (userId : Value) (data : Entries) : List (Op κ String SocketMessage) :=
  match userId.text N with
  | some text => [.emit (userRoom text) ("notification", .obj data)]
  | none => []

/-- The answer goes to the client that asks. -/
def handlePing (client : κ) (data : Value) : List (Op κ String SocketMessage) :=
  [.send client ("pong", data)]

end NotificationGateway

/-! ## Events -/

inductive SocketEvent (κ : Type*) where
  | connect (client : κ) (auth : Entries)
  | disconnect (client : κ)
  | ping (client : κ) (data : Value)
  /-- The worker handles a delivery, with transports and a channel as they are then. -/
  | deliver (packet : Packet) (t : Transports) (takes : ChannelOp Packet → Bool)
  /-- The timers of the process fire. -/
  | timers

/-- The calls of `sendToUser` that have not thrown. -/
def emitted (actions : List Action) : List (Value × Entries) :=
  actions.filterMap fun
    | .transport (.emit room data) true => some (room, data)
    | _ => none

section

variable (N : Spelling) (env : Entries)

/-- What happens at the server, in order. -/
def SocketEvent.ops : SocketEvent κ → List (Op κ String SocketMessage)
  | .connect client auth =>
    .connect client :: (NotificationGateway.handleConnection N client auth).toOption.getD []
  | .disconnect client => .disconnect client :: NotificationGateway.handleDisconnect client
  | .ping client data => NotificationGateway.handlePing client data
  | .deliver packet t takes =>
    (emitted (Work.actions env t takes packet)).flatMap fun (userId, data) =>
      NotificationGateway.sendToUser N userId data
  | .timers => []

def SocketEvent.throws : SocketEvent κ → Bool
  | .connect client auth => (NotificationGateway.handleConnection N client auth).toOption.isNone
  | _ => false

def SocketEvent.fires : SocketEvent κ → Bool
  | .timers => true
  | _ => false

/-- The events that the process lives to handle. `handleConnection` is called by a subscription of
the framework, which leaves an error to a timer. There nothing catches it, and the process ends. -/
def handled (doomed : Bool) : List (SocketEvent κ) → List (SocketEvent κ)
  | [] => []
  | e :: events =>
    if doomed && e.fires then [] else e :: handled (doomed || e.throws N) events

/-- The server after the events, up to the end of the process. -/
def serve [DecidableEq κ] (events : List (SocketEvent κ)) : Server κ String SocketMessage :=
  Server.empty.run ((handled N false events).flatMap (SocketEvent.ops N env))

/-! ## What a client should receive -/

/-- The user and the data of an in-app notification that the transport takes. -/
def inAppNotification (t : Transports) (packet : Packet) : Option (Value × Entries) :=
  let userId := fieldValue packet.data "userId"
  let data : Entries := [("subject", fieldValue packet.data "subject"),
    ("body", fieldValue packet.data "body"), ("metadata", fieldValue packet.data "metadata")]
  if packet.pattern = .NOTIFICATION_SEND ∧
      NotificationChannel.ofValue (fieldValue packet.data "channel") = some .IN_APP ∧
      userId.stringThrows = false ∧ t.emit userId data = true
  then some (userId, data) else none

/-- The client has named the user, in this way or in another with the same text. -/
def Names (auth : Entries) (userId : Value) : Prop :=
  (auth.get "userId").truthy = true ∧ (userId.text N).isSome = true ∧
    (auth.get "userId").text N = userId.text N

instance (auth : Entries) (userId : Value) : Decidable (Names N auth userId) :=
  inferInstanceAs (Decidable (_ ∧ _ ∧ _))

variable [DecidableEq κ]

/-- The messages of an event for a client that is connected. -/
def SocketEvent.messages (client : κ) (auth : Entries) : SocketEvent κ → List SocketMessage
  | .deliver packet t _ =>
    match inAppNotification t packet with
    | some (userId, data) => if Names N auth userId then [("notification", .obj data)] else []
    | none => []
  | .ping client' data => if client' = client then [("pong", data)] else []
  | _ => []

def SocketEvent.leaves (client : κ) : SocketEvent κ → Bool
  | .disconnect client' => client' = client
  | _ => false

end

/-! ## What the handlers emit -/

variable {N : Spelling} {env : Entries} {t : Transports} {takes : ChannelOp Packet → Bool}

theorem emitted_append (actions actions' : List Action) :
    emitted (actions ++ actions') = emitted actions ++ emitted actions' := List.filterMap_append

/-- What a handler does after the service reaches no transport. -/
theorem Settling.emitted {acked : Prop} {result : Except Thrown Unit} {rest : List Action}
    (h : Settling acked result rest) : emitted rest = [] := by
  cases h <;> rfl

/-- A request on another channel is no call of `sendToUser`. -/
theorem emitted_other {r : Request} (hr : r.channel ≠ .IN_APP) (completed : Bool) :
    emitted [.transport r completed] = [] := by
  cases r with
  | emit => exact absurd rfl hr
  | sendMail | messaging | createMessage => rfl

theorem channel_request (payload : Value) (c : NotificationChannel) :
    (c.request env payload).channel = c := by
  cases c <;> rfl

/-- Strategies that send to an address emit nothing. -/
theorem emitted_addressed {payload : Value} (h : payload.nullish = false) {c : NotificationChannel}
    (hc : c ≠ .IN_APP) : emitted ((strategies env t c payload).exec []).2 = [] := by
  obtain ⟨make, hmake, hrequest⟩ := @strategies_addressed env t c hc
  rw [hmake]
  cases haddress : (fieldValue payload c.recipientField).truthy with
  | false =>
    rw [exec_addressed_absent h haddress]
    rfl
  | true =>
    rw [exec_addressed h haddress (hrequest payload)]
    exact emitted_other ((channel_request payload c).trans_ne hc) _

theorem emitted_inApp {payload : Value} (h : payload.nullish = false)
    (hchannel : NotificationChannel.ofValue (fieldValue payload "channel") = some .IN_APP) :
    emitted ((InAppStrategy.send t payload).exec []).2 =
      (inAppNotification t ⟨.NOTIFICATION_SEND, payload⟩).toList := by
  rw [@exec_inApp [] t payload [] h]
  unfold inAppNotification
  dsimp only
  cases htext : (fieldValue payload "userId").stringThrows with
  | true => simp [emitted]
  | false =>
    simp only [hchannel, true_and]
    rw [if_neg Bool.false_ne_true]
    change emitted [.transport (.emit _ _) (t.emit _ _)] = _
    cases t.emit (fieldValue payload "userId") [("subject", fieldValue payload "subject"),
      ("body", fieldValue payload "body"), ("metadata", fieldValue payload "metadata")] <;> rfl

theorem inAppNotification_other {packet : Packet}
    (h : NotificationChannel.ofValue (fieldValue packet.data "channel") ≠ some .IN_APP) :
    inAppNotification t packet = none := by
  unfold inAppNotification
  exact if_neg fun hall => h hall.2.1

theorem inAppNotification_userCreated {data : Value} :
    inAppNotification t ⟨.USER_CREATED, data⟩ = none := by
  unfold inAppNotification
  exact if_neg fun hall => by cases hall.1

/-- The service emits the in-app notification that its payload is, if it is one. -/
theorem emitted_send (env : Entries) (t : Transports) (payload : Value) :
    emitted ((NotificationService.send env t payload).exec []).2 =
      (inAppNotification t ⟨.NOTIFICATION_SEND, payload⟩).toList := by
  unfold NotificationService.send
  cases h : payload.nullish with
  | true =>
    have hchannel : fieldValue payload "channel" = .undefined := by
      cases payload with
      | undefined | null => rfl
      | _ => cases h
    rw [inAppNotification_other (by rw [hchannel]; decide), exec_bind, exec_ofExcept,
      field_of_nullish h]
    rfl
  | false =>
    rw [exec_bind_ok (exec_field h "channel")]
    cases hchannel : NotificationChannel.ofValue (fieldValue payload "channel") with
    | none =>
      rw [inAppNotification_other (by rw [hchannel]; simp)]
      dsimp only
      rw [exec_ofExcept]
      rfl
    | some c =>
      by_cases hc : c = .IN_APP
      · subst hc
        exact emitted_inApp h hchannel
      · rw [inAppNotification_other (by rw [hchannel]; simpa using hc)]
        exact emitted_addressed h hc

/-- A delivery emits at most one notification, the one that it asks for. -/
theorem emitted_actions (packet : Packet) :
    emitted (Work.actions env t takes packet) = (inAppNotification t packet).toList := by
  obtain ⟨pattern, data⟩ := packet
  cases pattern with
  | NOTIFICATION_SEND =>
    cases hexec : (NotificationService.send env t data).exec [] with
    | mk result sends =>
      obtain ⟨rest, hactions, hsettling⟩ := @settling_notificationSend env t takes data _ Iff.rfl _ _ hexec
      have hsend := emitted_send env t data
      rw [hexec] at hsend
      rw [hactions, emitted_append, hsettling.emitted, List.append_nil]
      exact hsend
  | USER_CREATED =>
    rw [inAppNotification_userCreated]
    by_cases hnamed : data.nullish = true ∨ (fieldValue data "userId").stringThrows = true
    · rw [actions_userCreated_unnamed hnamed]
      rfl
    rw [not_or, Bool.not_eq_true, Bool.not_eq_true] at hnamed
    cases hexec : (NotificationService.send env t (Packet.payload ⟨.USER_CREATED, data⟩)).exec []
      with
    | mk result sends =>
      obtain ⟨rest, hactions, hsettling⟩ :=
        @settling_userCreated env t takes data _ Iff.rfl hnamed.1 hnamed.2 _ _ hexec
      have hsend := emitted_send env t (Packet.payload ⟨.USER_CREATED, data⟩)
      rw [hexec, inAppNotification_other (fun h => by cases h)] at hsend
      rw [hactions, emitted_append, hsettling.emitted, List.append_nil]
      exact hsend

/-! ## Any sequence of events -/

theorem emit_of_mem_sendToUser {userId : Value} {data : Entries} {op : Op κ String SocketMessage}
    (h : op ∈ NotificationGateway.sendToUser N userId data) : ∃ room m, op = .emit room m := by
  unfold NotificationGateway.sendToUser at h
  split at h
  · exact ⟨_, _, List.mem_singleton.mp h⟩
  · cases h

/-- A delivery only emits. -/
theorem emit_of_mem_ops {packet : Packet} {op : Op κ String SocketMessage}
    (h : op ∈ SocketEvent.ops N env (.deliver packet t takes)) : ∃ room m, op = .emit room m := by
  obtain ⟨notification, -, hop⟩ := List.mem_flatMap.mp h
  exact emit_of_mem_sendToUser hop

/-- A connection joins one room at most. -/
theorem join_of_mem_handleConnection {client : κ} {auth : Entries}
    {op : Op κ String SocketMessage}
    (h : op ∈ (NotificationGateway.handleConnection N client auth).toOption.getD []) :
    ∃ room, op = .join client room := by
  unfold NotificationGateway.handleConnection at h
  dsimp only at h
  split at h
  · split at h
    · exact ⟨_, List.mem_singleton.mp h⟩
    · cases h
  · cases h

/-- Only a connection connects. -/
theorem connect_of_mem_ops {client : κ} {e : SocketEvent κ} (h : .connect client ∈ e.ops N env) :
    ∃ auth', e = .connect client auth' := by
  cases e with
  | connect client' auth' =>
    rcases List.mem_cons.mp h with heq | hjoin
    · cases heq
      exact ⟨auth', rfl⟩
    · obtain ⟨room, heq⟩ := join_of_mem_handleConnection hjoin
      cases heq
  | disconnect client' => cases List.mem_singleton.mp h
  | ping client' data => cases List.mem_singleton.mp h
  | deliver packet t takes =>
    obtain ⟨room, m, heq⟩ := emit_of_mem_ops h
    cases heq
  | timers => cases h

theorem not_connect_mem {client : κ} {events : List (SocketEvent κ)}
    (h : ∀ auth', .connect client auth' ∉ events) :
    Op.connect client ∉ events.flatMap (SocketEvent.ops N env) := by
  intro hmem
  obtain ⟨e, he, hop⟩ := List.mem_flatMap.mp hmem
  obtain ⟨auth', rfl⟩ := connect_of_mem_ops hop
  exact h auth' he

theorem handled_prefix (doomed : Bool) (events : List (SocketEvent κ)) :
    handled N doomed events <+: events := by
  induction events generalizing doomed with
  | nil => exact List.prefix_rfl
  | cons e events ih =>
    unfold handled
    split
    · exact List.nil_prefix
    · exact List.cons_prefix_cons.mpr ⟨rfl, ih _⟩

/-- A process ends before an event, or it handles the event and some of those that follow. -/
theorem handled_cases (before rest : List (SocketEvent κ)) (e : SocketEvent κ) :
    handled N false (before ++ e :: rest) <+: before ∨
      ∃ lived, lived <+: rest ∧ handled N false (before ++ e :: rest) = before ++ e :: lived := by
  have hprefix := handled_prefix (N := N) false (before ++ e :: rest)
  by_cases hlength : (handled N false (before ++ e :: rest)).length ≤ before.length
  · exact .inl (List.prefix_of_prefix_length_le hprefix (List.prefix_append _ _) hlength)
  · obtain ⟨k, hk⟩ := Nat.exists_eq_add_of_lt (not_le.mp hlength)
    refine .inr ⟨rest.take k, List.take_prefix k rest, ?_⟩
    rw [List.prefix_iff_eq_take.mp hprefix, hk, Nat.add_assoc, List.take_length_add_append,
      List.take_succ_cons]

section

variable [DecidableEq κ] {client : κ} {auth : Entries}

/-- The rooms of a client that has connected. -/
def roomsOf (N : Spelling) (auth : Entries) : List String :=
  if (auth.get "userId").truthy then
    match (auth.get "userId").text N with
    | some text => [userRoom text]
    | none => []
  else []

theorem userRoom_inj {text text' : String} : userRoom text = userRoom text' ↔ text = text' := by
  constructor
  · intro h
    have hlist := congrArg String.toList h
    unfold userRoom at hlist
    rw [String.toList_append, String.toList_append] at hlist
    exact String.toList_inj.mp (List.append_cancel_left hlist)
  · rintro rfl
    rfl

theorem mem_roomsOf {text : String} : userRoom text ∈ roomsOf N auth ↔
    (auth.get "userId").truthy = true ∧ (auth.get "userId").text N = some text := by
  unfold roomsOf
  cases (auth.get "userId").truthy with
  | false => simp
  | true =>
    cases (auth.get "userId").text N with
    | none => simp
    | some text' => simp [userRoom_inj, eq_comm]

/-- What a notification sends reaches a connected client if it has named its user. -/
theorem reaches_deliver (packet : Packet) :
    (SocketEvent.ops N env (.deliver packet t takes)).flatMap
        (Op.reaches client (some (roomsOf N auth))) =
      SocketEvent.messages N client auth (.deliver packet t takes) := by
  unfold SocketEvent.ops SocketEvent.messages
  dsimp only
  rw [emitted_actions]
  cases inAppNotification t packet with
  | none => rfl
  | some notification =>
    obtain ⟨userId, data⟩ := notification
    simp only [Option.toList_some, List.flatMap_singleton, NotificationGateway.sendToUser]
    cases htext : userId.text N with
    | none => simp [Names, htext]
    | some text => simp [Op.reaches, Names, htext, mem_roomsOf]

/-- What a connected client receives of an event. -/
theorem reaches_ops (e : SocketEvent κ) :
    (e.ops N env).flatMap (Op.reaches client (some (roomsOf N auth))) =
      e.messages N client auth := by
  cases e with
  | connect client' auth' =>
    unfold SocketEvent.ops NotificationGateway.handleConnection SocketEvent.messages
    dsimp only
    split
    · split <;> rfl
    · rfl
  | disconnect | timers => rfl
  | ping client' data => simp [SocketEvent.ops, NotificationGateway.handlePing, Op.reaches,
      SocketEvent.messages]
  | deliver packet t takes => exact reaches_deliver packet

/-- A client is moved by its own connection and disconnection. -/
theorem still_ops {e : SocketEvent κ} (hconnect : ∀ auth', e ≠ .connect client auth')
    (hleaves : e.leaves client = false) : ∀ op ∈ e.ops N env, ¬ op.Moves client := by
  intro op hop
  cases e with
  | connect client' auth' =>
    have hne : client' ≠ client := by
      rintro rfl
      exact hconnect auth' rfl
    rcases List.mem_cons.mp hop with rfl | hjoin
    · exact hne
    · obtain ⟨room, rfl⟩ := join_of_mem_handleConnection hjoin
      exact hne
  | disconnect client' =>
    obtain rfl := List.mem_singleton.mp hop
    have hne : ¬ client' = client := of_decide_eq_false hleaves
    exact hne
  | ping client' data =>
    obtain rfl := List.mem_singleton.mp hop
    exact id
  | deliver packet t takes =>
    obtain ⟨room, m, rfl⟩ := emit_of_mem_ops hop
    exact id
  | timers => cases hop

/-- The connection itself: from no room into that of the user. -/
theorem foldl_moves_connect :
    (SocketEvent.ops N env (.connect client auth)).foldl (fun rooms op => op.moves client rooms)
      none = some (roomsOf N auth) := by
  unfold SocketEvent.ops NotificationGateway.handleConnection roomsOf
  dsimp only
  split
  · split <;> simp [Op.moves, Except.toOption]
  · simp [Op.moves, Except.toOption]

theorem heard_connect : heard client none (SocketEvent.ops N env (.connect client auth)) = [] := by
  unfold SocketEvent.ops NotificationGateway.handleConnection
  dsimp only
  split
  · split <;> rfl
  · rfl

/-- While a client stays, it hears the messages that are for it, and afterwards nothing. -/
theorem heard_rest {rest : List (SocketEvent κ)} (honce : ∀ auth', .connect client auth' ∉ rest) :
    heard client (some (roomsOf N auth)) (rest.flatMap (SocketEvent.ops N env)) =
      (rest.takeWhile fun e => ! e.leaves client).flatMap (SocketEvent.messages N client auth) := by
  induction rest with
  | nil => rfl
  | cons e rest ih =>
    have honce' : ∀ auth', .connect client auth' ∉ rest :=
      fun auth' hmem => honce auth' (List.mem_cons_of_mem _ hmem)
    rw [List.flatMap_cons, heard_append]
    cases hleaves : e.leaves client with
    | true =>
      obtain rfl : e = .disconnect client := by
        cases e with
        | disconnect client' => rw [of_decide_eq_true hleaves]
        | _ => cases hleaves
      have hgone : (SocketEvent.ops N env (.disconnect client)).foldl
          (fun rooms op => op.moves client rooms) (some (roomsOf N auth)) = none := if_pos rfl
      rw [hgone, heard_none (not_connect_mem honce'), List.takeWhile_cons_of_neg (by simp [hleaves])]
      rfl
    | false =>
      have hstill : ∀ op ∈ e.ops N env, ¬ op.Moves client :=
        still_ops (fun auth' heq => honce auth' (heq ▸ List.mem_cons_self)) hleaves
      rw [heard_of_still hstill, reaches_ops, foldl_moves_of_still hstill, ih honce',
        List.takeWhile_cons_of_pos (by simp [hleaves]), List.flatMap_cons]

/-- Whatever happens at the server, a client has received, in order, the notifications for the user
that it named and the answers to its own pings, from its connection to its disconnection or the
end of the process. -/
theorem received_serve {before rest : List (SocketEvent κ)}
    (honce : ∀ auth', .connect client auth' ∉ before ++ rest) :
    (serve N env (before ++ .connect client auth :: rest)).received client =
      (((handled N false (before ++ .connect client auth :: rest)).drop (before.length + 1)).takeWhile
        fun e => ! e.leaves client).flatMap (SocketEvent.messages N client auth) := by
  have hbefore : ∀ auth', .connect client auth' ∉ before :=
    fun auth' hmem => honce auth' (List.mem_append_left _ hmem)
  unfold serve
  rw [received_run]
  change [] ++ heard client none _ = _
  rw [List.nil_append]
  rcases handled_cases (N := N) before rest (.connect client auth) with hended | ⟨lived, hlived, hall⟩
  · have hnever : Op.connect client ∉ (handled N false (before ++ .connect client auth :: rest)).flatMap
        (SocketEvent.ops N env) :=
      not_connect_mem fun auth' hmem => hbefore auth' (hended.subset hmem)
    have hnone : (handled N false (before ++ .connect client auth :: rest)).drop (before.length + 1) =
        [] := List.drop_eq_nil_of_le (hended.length_le.trans (Nat.le_succ _))
    rw [heard_none hnever, hnone]
    rfl
  · have hrest : ∀ auth', .connect client auth' ∉ lived := fun auth' hmem =>
      honce auth' (List.mem_append_right _ (hlived.subset hmem))
    have hbefore' : Op.connect client ∉ before.flatMap (SocketEvent.ops N env) :=
      not_connect_mem hbefore
    have hlater : (before ++ SocketEvent.connect client auth :: lived).drop (before.length + 1) =
        lived := by simp
    rw [hall, hlater, List.flatMap_append, List.flatMap_cons, heard_append, heard_none hbefore',
      foldl_moves_none hbefore', List.nil_append, heard_append, heard_connect, foldl_moves_connect,
      List.nil_append, heard_rest hrest]

end

/-! ### Two clients -/

/-- A notification for user 7. -/
def forSeven : Packet where
  pattern := .NOTIFICATION_SEND
  data := .obj [("userId", .str "7"), ("channel", .str "in-app"), ("body", .str "Hello")]

/-- A transport and a channel that take everything. -/
def working : Transports := ⟨fun _ => true, fun _ => true, fun _ => true, fun _ _ => true⟩

def delivered : SocketEvent ℕ := .deliver forSeven working fun _ => true

/-- A client that names its user by an object without a text. -/
def unspelt : SocketEvent ℕ := .connect 3 [("userId", .obj [("toString", .nat 1)])]

/-- The first client names user 7 by a number. It hears what is sent while it is there, but nothing
after the third client has ended the process. -/
theorem received_serve_seven :
    (serve (.integers fun ms => ms.repr) [] ([.connect 2 [("userId", .str "8")], delivered] ++
        .connect 1 [("userId", .nat 7)] :: [delivered, unspelt, .timers, delivered])).received 1 =
      [("notification", .obj [("subject", .undefined), ("body", .str "Hello"),
        ("metadata", .undefined)])] := by
  have honce : ∀ auth', .connect 1 auth' ∉ [.connect 2 [("userId", .str "8")], delivered] ++
      [delivered, unspelt, .timers, delivered] := by
    simp [delivered, unspelt]
  rw [received_serve honce]
  rfl

end Notification
