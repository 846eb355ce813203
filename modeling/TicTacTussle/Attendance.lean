import TicTacTussle.Front
import TicTacTussle.Redelivery
import TicTacTussle.Replication
import TicTacTussle.Trace

/-!
# Who is there

The connection events of a client frame everything it sends: its join is asked for before its first
message is taken, and its departure as soon as it is gone.  A player on the server's log is
therefore connected or has left, and what a client itself says about joining comes too late.
-/

namespace TicTacTussle

open Wire GameDecider

/-- No client came or went, no connection event was queued or taken, what was sent stays sent. -/
structure RenetServer.SameClients (before after : RenetServer) : Prop where
  connected : ∀ clientId, after.IsConnected clientId ↔ before.IsConnected clientId
  events : after.events = before.events
  sent : ∀ clientId, before.sent clientId <+: after.sent clientId

namespace RenetServer.SameClients

theorem refl (server : RenetServer) : server.SameClients server :=
  ⟨fun _ => Iff.rfl, rfl, fun _ => List.prefix_refl _⟩

theorem trans {before middle after : RenetServer} (early : before.SameClients middle)
    (late : middle.SameClients after) : before.SameClients after :=
  ⟨fun clientId => (late.connected clientId).trans (early.connected clientId),
    late.events.trans early.events,
    fun clientId => (early.sent clientId).trans (late.sent clientId)⟩

theorem broadcastMessage (server : RenetServer) (message : Bytes) :
    server.SameClients (server.broadcastMessage message) where
  connected := server.isConnected_broadcastMessage message
  events := rfl
  sent clientId := by
    cases found : server.connections clientId <;>
      simp [RenetServer.sent, RenetServer.broadcastMessage, found, Connection.send]

theorem sendMessage (server : RenetServer) (receiver : UInt64) (message : Bytes) :
    server.SameClients (server.sendMessage receiver message) where
  connected clientId := server.isConnected_sendMessage receiver clientId message
  events := rfl
  sent clientId := by
    by_cases same : clientId = receiver
    · subst same
      cases found : server.connections clientId <;>
        simp [RenetServer.sent, RenetServer.sendMessage, found, Connection.send]
    · simp [RenetServer.sent, RenetServer.sendMessage, same]

variable {E : Type} [Anyhow E] [Bincode]

theorem broadcastAll (broadcaster : RenetBroadcaster E) (events : List GameEvent) :
    broadcaster.server.SameClients
      (GameService.broadcastAll (E := E) broadcaster events).1.server := by
  induction events generalizing broadcaster with
  | nil => exact refl _
  | cons event events induction =>
      have sending : NetworkBroadcaster.broadcast broadcaster event =
          broadcaster.broadcast event := rfl
      rw [GameService.broadcastAll, sending, RenetBroadcaster.broadcast]
      cases Bincode.encodeEvent event with
      | error text => exact refl _
      | ok bytes =>
          exact (broadcastMessage broadcaster.server bytes).trans
            (induction ⟨broadcaster.server.broadcastMessage bytes⟩)

theorem sendAll (receiver : UInt64) (broadcaster : RenetBroadcaster E)
    (envelopes : List GameEventEnvelope) :
    broadcaster.server.SameClients
      (GameService.sendAll (E := E) receiver broadcaster envelopes).1.server := by
  induction envelopes generalizing broadcaster with
  | nil => exact refl _
  | cons envelope envelopes induction =>
      have sending : NetworkBroadcaster.sendTo broadcaster receiver envelope.event =
          broadcaster.sendTo receiver envelope.event := rfl
      rw [GameService.sendAll, sending, RenetBroadcaster.sendTo]
      cases Bincode.encodeEvent envelope.event with
      | error text => exact refl _
      | ok bytes =>
          exact (sendMessage broadcaster.server receiver bytes).trans
            (induction ⟨broadcaster.server.sendMessage receiver bytes⟩)

omit [Bincode] in
theorem receiveMessages (server : RenetServer) (sender : UInt64) :
    server.SameClients (server.receiveMessages sender).1 := by
  cases found : server.connections sender with
  | none =>
      rw [RenetServer.receiveMessages, found]
      exact refl server
  | some connection =>
      rw [RenetServer.receiveMessages, found]
      refine ⟨fun clientId => ?_, rfl, fun clientId => ?_⟩
      · by_cases same : clientId = sender
        · simp [IsConnected, same, found]
        · simp [IsConnected, same]
      · by_cases same : clientId = sender
        · simp [RenetServer.sent, same, found]
        · simp [RenetServer.sent, same]

end RenetServer.SameClients

namespace RenetServer

variable {server : RenetServer} {clientId : UInt64}

theorem isConnected_processMessage (server : RenetServer) (sender clientId : UInt64)
    (message : Bytes) :
    (server.processMessage sender message).IsConnected clientId ↔ server.IsConnected clientId := by
  by_cases same : clientId = sender
  · subst same
    simp [IsConnected, processMessage]
  · simp [IsConnected, processMessage, same]

theorem leaves_addConnection (joiner : UInt64)
    (known : server.IsConnected clientId ∨ .clientDisconnected clientId ∈ server.events) :
    (server.addConnection joiner).IsConnected clientId ∨
      .clientDisconnected clientId ∈ (server.addConnection joiner).events := by
  by_cases again : server.IsConnected joiner
  · rwa [addConnection_of_isConnected again]
  rcases known with connected | left
  · have other : clientId ≠ joiner := by
      rintro rfl
      exact again connected
    left
    rwa [IsConnected, connections_addConnection_of_ne other]
  · right
    rw [events_addConnection again]
    exact List.mem_append_left _ left

theorem leaves_removeConnection (leaver : UInt64)
    (known : server.IsConnected clientId ∨ .clientDisconnected clientId ∈ server.events) :
    (server.removeConnection leaver).IsConnected clientId ∨
      .clientDisconnected clientId ∈ (server.removeConnection leaver).events := by
  by_cases there : server.IsConnected leaver
  case neg => rwa [removeConnection_of_not_isConnected there]
  rw [events_removeConnection there]
  by_cases same : clientId = leaver
  · right
    rw [same]
    exact List.mem_append_right _ (List.mem_singleton_self _)
  · refine known.imp (fun connected => ?_) (List.mem_append_left _)
    rwa [IsConnected, connections_removeConnection_of_ne same]

end RenetServer

namespace GameLoop

section Accounts

variable {E P : Type}

/-- Messages are taken from connected clients only. -/
theorem takeMessages_connected (loop : GameLoop E P) (polled : List UInt64) :
    loop.server.SameClients (loop.takeMessages polled).1.server ∧
      ∀ message ∈ (loop.takeMessages polled).2, loop.server.IsConnected message.1 := by
  induction polled generalizing loop with
  | nil => exact ⟨.refl _, fun message taken => by cases taken⟩
  | cons clientId polled induction =>
      have first := RenetServer.SameClients.receiveMessages loop.server clientId
      obtain ⟨rest, connected⟩ :=
        induction (loop.withServer (loop.server.receiveMessages clientId).1)
      refine ⟨first.trans rest, fun message taken => ?_⟩
      rcases List.mem_append.mp taken with now | later
      · obtain ⟨bytes, waits, rfl⟩ := List.mem_map.mp now
        have inbox : bytes ∈ loop.server.inbox clientId :=
          (loop.server.within_receiveMessages clientId).2 ▸ waits
        cases found : loop.server.connections clientId with
        | none =>
            rw [RenetServer.inbox, found] at inbox
            cases inbox
        | some connection => exact Option.isSome_of_eq_some found
      · exact (first.connected message.1).mp (connected message later)

/-! ## Everybody is accounted for -/

/-- The client is connected, or its disconnection is still to be handled, or its departure is in the
log. -/
def Accounted (loop : GameLoop E P) (pending : List ServerEvent) (clientId : UInt64) : Prop :=
  loop.server.IsConnected clientId ∨ .clientDisconnected clientId ∈ pending ∨
    .playerLeft ⟨clientId⟩ ∈ loop.log

/-- What holds while connection events are pending. -/
structure Attended (loop : GameLoop E P) (pending : List ServerEvent) : Prop where
  queue : loop.server.events = []
  /-- Whoever called is accounted for. -/
  callers : ∀ call ∈ loop.calls, ∀ clientId, call.origin = some clientId →
    loop.Accounted pending clientId
  /-- A pending connection still stands, unless its end is pending, too. -/
  stays : ∀ clientId front rest, pending = front ++ .clientConnected clientId :: rest →
    .clientDisconnected clientId ∉ rest → loop.server.IsConnected clientId
  /-- The join of whoever is connected has been handled or is pending. -/
  greeted : ∀ clientId, loop.server.IsConnected clientId →
    .clientConnected clientId ∈ pending ∨
      ∃ name, .joinGame ⟨clientId⟩ name ∈ callCommands loop.gameId loop.calls

/-- A step that keeps the clients, and whose new calls are accounted for, keeps the invariant. -/
theorem Attended.grow {before after : GameLoop E P} {pending : List ServerEvent}
    (attended : before.Attended pending) (same : before.server.SameClients after.server)
    (gameId : after.gameId = before.gameId) (log : before.log <+: after.log)
    {calls : List Call} (grown : after.calls = before.calls ++ calls)
    (known : ∀ call ∈ calls, ∀ clientId, call.origin = some clientId →
      before.Accounted pending clientId) : after.Attended pending := by
  have accounted {clientId : UInt64} (earlier : before.Accounted pending clientId) :
      after.Accounted pending clientId := by
    rcases earlier with connected | queued | left
    · exact .inl ((same.connected clientId).mpr connected)
    · exact .inr (.inl queued)
    · exact .inr (.inr (log.subset left))
  refine ⟨same.events.trans attended.queue, ?_, ?_, ?_⟩
  · intro call member clientId origin
    rw [grown] at member
    rcases List.mem_append.mp member with earlier | new
    · exact accounted (attended.callers call earlier clientId origin)
    · exact accounted (known call new clientId origin)
  · intro clientId front rest split absent
    exact (same.connected clientId).mpr (attended.stays clientId front rest split absent)
  · intro clientId connected
    rcases attended.greeted clientId ((same.connected clientId).mp connected) with queued | ⟨name,
      joined⟩
    · exact .inl queued
    · refine .inr ⟨name, ?_⟩
      rw [gameId, grown, callCommands, List.map_append, GameService.addressed_append]
      exact List.mem_append_left _ joined

/-- Who was connected still is, or its disconnection is queued. -/
theorem update_leavers {loop : GameLoop E P} {clientId : UInt64}
    (connected : loop.server.IsConnected clientId) (changes : List NetworkChange) :
    (loop.update changes).server.IsConnected clientId ∨
      .clientDisconnected clientId ∈ (loop.update changes).server.events := by
  induction changes using List.reverseRecOn with
  | nil => exact .inl connected
  | append_singleton changes change induction =>
      rw [update, List.foldl_append]
      cases change with
      | connect joiner name => exact RenetServer.leaves_addConnection joiner induction
      | disconnect leaver => exact RenetServer.leaves_removeConnection leaver induction
      | message sender bytes =>
          refine induction.imp_left fun stays => ?_
          exact (RenetServer.isConnected_processMessage _ sender clientId bytes).mpr stays

/-- The network's changes queue an event for everybody who comes or goes. -/
theorem Attended.opened {loop : GameLoop E P} (attended : loop.Attended [])
    (changes : List NetworkChange) :
    (loop.update changes).takeEvents.1.Attended (loop.update changes).takeEvents.2 := by
  have queues := loop.update_queues attended.queue changes
  have log_eq : (loop.update changes).takeEvents.1.log = loop.log := loop.update_log changes
  have calls_eq : (loop.update changes).takeEvents.1.calls = loop.calls := loop.update_calls changes
  refine ⟨rfl, ?_, queues.stays, ?_⟩
  · intro call member clientId origin
    rw [calls_eq] at member
    rcases attended.callers call member clientId origin with connected | queued | left
    · rcases update_leavers connected changes with stays | leaves
      · exact .inl stays
      · exact .inr (.inl leaves)
    · cases queued
    · exact .inr (.inr (log_eq ▸ left))
  · intro clientId connected
    by_cases recent : .clientConnected clientId ∈ (loop.update changes).takeEvents.2
    · exact .inl recent
    · obtain ⟨before, _⟩ := queues.kept clientId connected recent
      rcases attended.greeted clientId before with queued | joined
      · cases queued
      · have gameId : (loop.update changes).takeEvents.1.gameId = loop.gameId :=
          loop.update_gameId changes
        rw [calls_eq, gameId]
        exact .inr joined

theorem Attended.takeMessages {loop : GameLoop E P} (attended : loop.Attended [])
    (polled : List UInt64) : (loop.takeMessages polled).1.Attended [] := by
  have grown : (loop.takeMessages polled).1.calls = loop.calls ++ [] := by
    rw [takeMessages_calls, List.append_nil]
  refine attended.grow (loop.takeMessages_connected polled).1 ?_ ?_ grown (by simp)
  · exact (loop.takeMessages_keeps polled).1
  · rw [takeMessages_log]

/-- What is delivered was called before or comes from another producer. -/
theorem delivered_known (loop : GameLoop E P) (deliveries : List Delivery) :
    ∀ call ∈ loop.delivered deliveries, call ∈ loop.calls ∨ call.origin = none := by
  intro call member
  obtain ⟨⟨record, ack⟩, _, resolved⟩ := List.mem_filterMap.mp member
  cases record with
  | again index => exact .inl (List.mem_of_getElem? resolved)
  | injected envelope =>
      obtain rfl := Option.some.inj resolved
      exact .inr rfl

/-- A departure in the log of a running game stands in front of its start. -/
theorem departure_in_lobby (loop : GameLoop E P) (inGame : (hydrate loop.log).stage = .inGame)
    {leaver : PlayerId} (left : .playerLeft leaver ∈ loop.log) :
    ∃ before after, loop.log = before ++ .playerLeft leaver :: after ∧
      (hydrate before).stage = .lobby := by
  obtain ⟨before, after, split⟩ := List.append_of_mem left
  refine ⟨before, after, split, ?_⟩
  have logged : loop.log = decider.run [] (callCommands loop.gameId loop.calls) := loop.logged
  have correct := run_lifecycleCorrect (callCommands loop.gameId loop.calls)
  rw [← logged] at correct
  have front : GameFront loop.log := gameFront (logged.symm.trans (List.append_nil _).symm)
  have unfinished : endings loop.log = [] := by
    have settled := front.stage
    rw [inGame] at settled
    split_ifs at settled with ended
    exact not_not.mp ended
  rw [split, endings_append, List.append_eq_nil_iff] at unfinished
  have settled := (front.of_prefix ⟨_, split.symm⟩).stage
  rw [if_neg (not_not.mpr unfinished.1)] at settled
  split_ifs at settled with started
  · obtain ⟨rest, rfl⟩ := correct.departureEnds before leaver after split settled
    simp [endings] at unfinished
  · exact settled

end Accounts

section Attendance

variable {E P : Type} [Anyhow E] [EventPublisher E P] [Bincode]

theorem sameClients_handle (fresh : ℕ → Stamp) (loop : GameLoop E P) (call : Call) :
    loop.server.SameClients (loop.handle fresh call).server := by
  rcases loop.handle_cases fresh call with same | ⟨events, _, broadcaster⟩
  · rw [server, server, same]
    exact .refl _
  · rw [broadcaster]
    exact .broadcastAll loop.service.broadcaster events

theorem sameClients_handleConnection (fresh clock : ℕ → Stamp) (loop : GameLoop E P)
    (event : ServerEvent) :
    loop.server.SameClients (loop.handleConnection fresh clock event).server := by
  cases event with
  | clientConnected clientId =>
      have caughtUp : loop.server.SameClients (loop.catchUp clientId).server :=
        .sendAll clientId loop.service.broadcaster loop.service.store.snapshot
      exact caughtUp.trans (sameClients_handle fresh ((loop.catchUp clientId).publish _) _)
  | clientDisconnected clientId => exact sameClients_handle fresh (loop.publish _) _

theorem sameClients_handleMessage (fresh clock : ℕ → Stamp) (loop : GameLoop E P)
    (message : UInt64 × Bytes) :
    loop.server.SameClients (loop.handleMessage fresh clock message).server := by
  rw [handleMessage]
  split
  · exact sameClients_handle fresh (loop.publish _) _
  · exact .refl _

/-- A departure is never refused. -/
theorem playerLeft_of_disconnected (fresh clock : ℕ → Stamp) (loop : GameLoop E P)
    (clientId : UInt64) : .playerLeft ⟨clientId⟩ ∈
      (loop.handleConnection fresh clock (.clientDisconnected clientId)).log := by
  rw [handleConnection, submit_log, connectionCommand, next_leaveGame]
  simp

/-- Handling a connection event settles it. -/
theorem Attended.handleConnection {loop : GameLoop E P} {event : ServerEvent}
    {pending : List ServerEvent} (attended : loop.Attended (event :: pending))
    (fresh clock : ℕ → Stamp) : (loop.handleConnection fresh clock event).Attended pending := by
  have same := sameClients_handleConnection fresh clock loop event
  have log := loop.log_prefix_handleConnection fresh clock event
  have accounted {clientId : UInt64} (earlier : loop.Accounted (event :: pending) clientId) :
      (loop.handleConnection fresh clock event).Accounted pending clientId := by
    rcases earlier with connected | queued | left
    · exact .inl ((same.connected clientId).mpr connected)
    · rcases List.mem_cons.mp queued with rfl | later
      · exact .inr (.inr (playerLeft_of_disconnected fresh clock loop clientId))
      · exact .inr (.inl later)
    · exact .inr (.inr (log.subset left))
  have own : loop.Accounted (event :: pending) event.clientId := by
    cases event with
    | clientDisconnected leaver => exact .inr (.inl List.mem_cons_self)
    | clientConnected joiner =>
        by_cases leaves : .clientDisconnected joiner ∈ pending
        · exact .inr (.inl (List.mem_cons_of_mem _ leaves))
        · exact .inl (attended.stays joiner [] pending rfl leaves)
  refine ⟨same.events.trans attended.queue, ?_, ?_, ?_⟩
  · intro call member clientId origin
    rw [handleConnection_calls, List.mem_append, Option.toList_some, List.mem_singleton] at member
    rcases member with earlier | rfl
    · exact accounted (attended.callers call earlier clientId origin)
    · obtain rfl := Option.some.inj origin
      exact accounted own
  · intro clientId front rest split absent
    refine (same.connected clientId).mpr ?_
    exact attended.stays clientId (event :: front) rest (by rw [split]; rfl) absent
  · intro clientId connected
    rw [handleConnection_gameId, handleConnection_calls, callCommands, List.map_append,
      GameService.addressed_append]
    rcases attended.greeted clientId ((same.connected clientId).mp connected) with queued | ⟨name,
      joined⟩
    · rcases List.mem_cons.mp queued with rfl | later
      · refine .inr ⟨loop.userName clientId, List.mem_append_right _ ?_⟩
        simp [wrap, connectionCommand, GameService.addressed, CommandEnvelope.new]
      · exact .inl later
    · exact .inr ⟨name, List.mem_append_left _ joined⟩

/-- Handling the queued events leaves none pending. -/
theorem Attended.connecting {loop : GameLoop E P} (attended : loop.Attended [])
    (fresh clock : ℕ → Stamp) {input : TickInput} {done pending : List ServerEvent}
    (queued : (loop.update input.changes).takeEvents.2 = done ++ pending) :
    (loop.connecting fresh clock input done).Attended pending := by
  induction done using List.reverseRecOn generalizing pending with
  | nil =>
      have opened := attended.opened input.changes
      rw [queued] at opened
      exact opened
  | append_singleton done event induction =>
      have earlier := induction (queued.trans (List.append_assoc done [event] pending))
      rw [GameLoop.connecting, List.foldl_append]
      exact earlier.handleConnection fresh clock

theorem Attended.connected {loop : GameLoop E P} (attended : loop.Attended [])
    (fresh clock : ℕ → Stamp) (input : TickInput) :
    (loop.connected fresh clock input).Attended [] :=
  attended.connecting fresh clock (List.append_nil _).symm

/-- Handling a message of a connected client keeps the invariant. -/
theorem Attended.handleMessage {loop : GameLoop E P} (attended : loop.Attended [])
    (fresh clock : ℕ → Stamp) {message : UInt64 × Bytes}
    (connected : loop.server.IsConnected message.1) :
    (loop.handleMessage fresh clock message).Attended [] := by
  refine attended.grow (sameClients_handleMessage fresh clock loop message)
    (handleMessage_gameId fresh clock loop message)
    (loop.log_prefix_handleMessage fresh clock message)
    (handleMessage_calls fresh clock loop message) ?_
  intro call new clientId origin
  obtain ⟨command, _, rfl⟩ := Option.map_eq_some_iff.mp (Option.mem_toList.mp new)
  obtain rfl := Option.some.inj origin
  exact .inl connected

/-- Handling messages of connected clients keeps the invariant. -/
theorem Attended.receiving {loop : GameLoop E P} (attended : loop.Attended [])
    (fresh clock : ℕ → Stamp) {input : TickInput} {done left : List (UInt64 × Bytes)}
    (taken : ((loop.connected fresh clock input).takeMessages input.polled).2 = done ++ left) :
    (loop.receiving fresh clock input done).Attended [] ∧
      (loop.connected fresh clock input).server.SameClients
        (loop.receiving fresh clock input done).server := by
  obtain ⟨same, connected⟩ := (loop.connected fresh clock input).takeMessages_connected input.polled
  induction done using List.reverseRecOn generalizing left with
  | nil => exact ⟨(attended.connected fresh clock input).takeMessages input.polled, same⟩
  | append_singleton done message induction =>
      have takenEarlier := taken.trans (List.append_assoc done [message] left)
      obtain ⟨earlier, sameEarlier⟩ := induction takenEarlier
      have sender : (loop.connected fresh clock input).server.IsConnected message.1 := by
        apply connected
        rw [taken]
        simp
      rw [GameLoop.receiving, List.foldl_append]
      exact ⟨earlier.handleMessage fresh clock ((sameEarlier.connected _).mpr sender),
        sameEarlier.trans (sameClients_handleMessage fresh clock _ message)⟩

/-- Handling an earlier call again keeps the invariant, and so does a call of another producer. -/
theorem Attended.handle {loop : GameLoop E P} (attended : loop.Attended []) (fresh : ℕ → Stamp)
    {call : Call} (known : call ∈ loop.calls ∨ call.origin = none) :
    (loop.handle fresh call).Attended [] := by
  have grown : (loop.handle fresh call).calls = loop.calls ++ [call] := rfl
  refine attended.grow (sameClients_handle fresh loop call) rfl (loop.log_prefix_handle fresh call)
    grown ?_
  intro again member clientId origin
  obtain rfl := List.mem_singleton.mp member
  rcases known with earlier | foreign
  · exact attended.callers again earlier clientId origin
  · rw [foreign] at origin
    cases origin

theorem Attended.delivering {loop : GameLoop E P} (attended : loop.Attended [])
    (fresh clock : ℕ → Stamp) {input : TickInput} {done left : List Call}
    (delivered : (loop.drained fresh clock input).delivered input.deliveries = done ++ left) :
    (loop.delivering fresh clock input done).Attended [] := by
  induction done using List.reverseRecOn generalizing left with
  | nil => exact (attended.receiving fresh clock (List.append_nil _).symm).1
  | append_singleton done call induction =>
      have earlier := induction (delivered.trans (List.append_assoc done [call] left))
      have grown : (loop.drained fresh clock input).calls <+:
          (loop.delivering fresh clock input done).calls :=
        Schedule.prefix_foldl (calls_prefix_handle fresh) _ _
      have member : call ∈ (loop.drained fresh clock input).delivered input.deliveries := by
        rw [delivered]
        simp
      rw [GameLoop.delivering, List.foldl_append]
      exact earlier.handle fresh
        ((delivered_known _ _ call member).imp_left fun again => grown.subset again)

theorem Attended.tick {loop : GameLoop E P} (attended : loop.Attended [])
    (fresh clock : ℕ → Stamp) (input : TickInput) :
    (loop.tick fresh clock input).Attended [] :=
  attended.delivering fresh clock (List.append_nil _).symm

/-- Between the ticks of a run everybody who ever called is connected or has left. -/
theorem run_attended (fresh clock : ℕ → Stamp) (gameId : GameId) (publisher : P)
    (inputs : List TickInput) :
    ((start gameId publisher : GameLoop E P).run fresh clock inputs).Attended [] := by
  induction inputs using List.reverseRecOn with
  | nil =>
      refine ⟨rfl, ?_, by simp, ?_⟩
      · intro call member
        cases member
      · intro clientId connected
        cases connected
  | append_singleton inputs input induction =>
      rw [run, List.foldl_append]
      exact induction.tick fresh clock input

/-! ## Joins that come too late -/

/-- A running game is between players who are connected, unless they left before it started. -/
theorem seated_connected (fresh clock : ℕ → Stamp) (gameId : GameId) (publisher : P)
    (inputs : List TickInput) :
    let loop := (start gameId publisher : GameLoop E P).run fresh clock inputs
    Authentic loop.gameId loop.calls → (hydrate loop.log).stage = .inGame →
      ∀ playerId ∈ joins loop.log, loop.server.IsConnected playerId.raw ∨
        ∃ before after, loop.log = before ++ .playerLeft playerId :: after ∧
          (hydrate before).stage = .lobby := by
  intro loop authentic inGame playerId seated
  obtain ⟨name, joined⟩ := (mem_joins_iff loop.log playerId).mp seated
  obtain ⟨before, after, split⟩ := List.append_of_mem joined
  obtain ⟨call, appended, origin⟩ := authentic before _ after playerId
    (loop.logged.symm.trans split) rfl
  have attended : loop.Attended [] := run_attended fresh clock gameId publisher inputs
  rcases attended.callers call appended.mem playerId.raw origin with connected | queued | left
  · exact .inl connected
  · cases queued
  · exact .inr (loop.departure_in_lobby inGame left)

end Attendance

attribute [local instance] standardBincode

private def sameStamp : ℕ → Stamp := fun _ => ⟨⟨0⟩, ⟨0⟩⟩

private def bothArrive : List TickInput :=
  [⟨[.connect 1 "Ann"], [], []⟩, ⟨[.connect 2 "Bob"], [], []⟩]

private theorem bothArrive_networkFed : NetworkFed bothArrive := by
  intro input member delivery delivered
  simp only [bothArrive, List.mem_cons, List.not_mem_nil, or_false] at member
  rcases member with rfl | rfl <;> cases delivered

private theorem bothArrive_silent (clientId : UInt64) (bytes : Bytes) :
    .message clientId bytes ∉ bothArrive.flatMap TickInput.changes := by
  simp [bothArrive]

private abbrev begun : GameLoop ErrorChain NoopPublisher :=
  (start ⟨⟨0⟩⟩ .mk).run sameStamp sameStamp bothArrive

private theorem begun_authentic : Authentic begun.gameId begun.calls := by
  have authentic := honest_run_authentic (E := ErrorChain) sameStamp sameStamp ⟨⟨0⟩⟩
    NoopPublisher.mk bothArrive_networkFed
    fun clientId bytes _ changed _ => (bothArrive_silent clientId bytes changed).elim
  have fed := run_fed (E := ErrorChain) sameStamp sameStamp ⟨⟨0⟩⟩ NoopPublisher.mk
    bothArrive_networkFed
  exact fed.eventsAuthentic_iff.mp authentic

/-- Ann and Bob are there when their game starts. -/
theorem seated_connected_begun :
    ∀ playerId ∈ joins begun.log, begun.server.IsConnected playerId.raw ∨
      ∃ before after, begun.log = before ++ .playerLeft playerId :: after ∧
        (hydrate before).stage = .lobby := by
  have inGame : (hydrate begun.log).stage = .inGame := by decide +kernel
  exact seated_connected sameStamp sameStamp ⟨⟨0⟩⟩ NoopPublisher.mk bothArrive begun_authentic
    inGame

end GameLoop

end TicTacTussle
