import Mathlib.Logic.Function.Basic
import TicTacTussle.Bincode
import TicTacTussle.Service

/-!
# The network adapter

A renet server as its connected clients, each with the messages waiting to be received and those
sent since it connected, and a queue of connection events.  The broadcaster of the server encodes an
event and hands it to renet.
-/

namespace TicTacTussle

open Wire

/-- One client connection over the reliable ordered channel. -/
structure Connection where
  /-- Received messages the server has not taken yet. -/
  inbox : List Bytes
  /-- Messages sent since the connection was made. -/
  sent : List Bytes
  deriving DecidableEq, Repr

namespace Connection

/-- A connection without traffic. -/
def new : Connection := ⟨[], []⟩

def send (connection : Connection) (message : Bytes) : Connection :=
  { connection with sent := connection.sent ++ [message] }

def deliver (connection : Connection) (message : Bytes) : Connection :=
  { connection with inbox := connection.inbox ++ [message] }

end Connection

/-- What renet reports about its connections. -/
inductive ServerEvent where
  | clientConnected (clientId : UInt64)
  | clientDisconnected (clientId : UInt64)
  deriving DecidableEq, Repr

/-- A renet server. -/
structure RenetServer where
  connections : UInt64 → Option Connection
  /-- Events not taken by `get_event` yet. -/
  events : List ServerEvent

namespace RenetServer

/-- A server without clients. -/
def new : RenetServer := ⟨fun _ => none, []⟩

/-- Accept a client, unless it is connected already. -/
def addConnection (server : RenetServer) (clientId : UInt64) : RenetServer :=
  if (server.connections clientId).isSome then server
  else
    { connections := Function.update server.connections clientId (some .new)
      events := server.events ++ [.clientConnected clientId] }

/-- Drop a client, if it is connected. -/
def removeConnection (server : RenetServer) (clientId : UInt64) : RenetServer :=
  if (server.connections clientId).isSome then
    { connections := Function.update server.connections clientId none
      events := server.events ++ [.clientDisconnected clientId] }
  else server

/-- Queue a message that arrived from a client. -/
def processMessage (server : RenetServer) (clientId : UInt64) (message : Bytes) : RenetServer :=
  { server with
    connections := Function.update server.connections clientId
      ((server.connections clientId).map fun connection => connection.deliver message) }

/-- Take all queued events. -/
def takeEvents (server : RenetServer) : RenetServer × List ServerEvent :=
  ({ server with events := [] }, server.events)

/-- `receive_message` until it returns `None`. -/
def receiveMessages (server : RenetServer) (clientId : UInt64) : RenetServer × List Bytes :=
  match server.connections clientId with
  | none => (server, [])
  | some connection =>
      ({ server with
          connections := Function.update server.connections clientId
            (some { connection with inbox := [] }) },
        connection.inbox)

/-- Send a message to every connected client. -/
def broadcastMessage (server : RenetServer) (message : Bytes) : RenetServer :=
  { server with
    connections := fun clientId =>
      (server.connections clientId).map fun connection => connection.send message }

/-- Send a message to one client; nothing happens when it is not connected. -/
def sendMessage (server : RenetServer) (clientId : UInt64) (message : Bytes) : RenetServer :=
  { server with
    connections := Function.update server.connections clientId
      ((server.connections clientId).map fun connection => connection.send message) }

/-- Whether a client is connected. -/
def IsConnected (server : RenetServer) (clientId : UInt64) : Prop :=
  (server.connections clientId).isSome

instance (server : RenetServer) (clientId : UInt64) : Decidable (server.IsConnected clientId) :=
  inferInstanceAs (Decidable ((server.connections clientId).isSome = true))

/-- The messages sent to a client since it connected. -/
def sent (server : RenetServer) (clientId : UInt64) : List Bytes :=
  (server.connections clientId).elim [] Connection.sent

section Connections

variable {server : RenetServer} {clientId : UInt64}

theorem addConnection_of_isConnected (known : server.IsConnected clientId) :
    server.addConnection clientId = server := if_pos known

theorem events_addConnection (unknown : ¬ server.IsConnected clientId) :
    (server.addConnection clientId).events = server.events ++ [.clientConnected clientId] :=
  congrArg RenetServer.events (if_neg unknown)

theorem connections_addConnection_self (unknown : ¬ server.IsConnected clientId) :
    (server.addConnection clientId).connections clientId = some .new := by
  rw [addConnection]
  split
  · rename_i known
    exact (unknown known).elim
  · exact Function.update_self _ _ _

theorem connections_addConnection_of_ne {other : UInt64} (apart : other ≠ clientId) :
    (server.addConnection clientId).connections other = server.connections other := by
  rw [addConnection]
  split
  · rfl
  · exact Function.update_of_ne apart _ _

theorem removeConnection_of_not_isConnected (unknown : ¬ server.IsConnected clientId) :
    server.removeConnection clientId = server := if_neg unknown

theorem events_removeConnection (known : server.IsConnected clientId) :
    (server.removeConnection clientId).events = server.events ++ [.clientDisconnected clientId] :=
  congrArg RenetServer.events (if_pos known)

theorem connections_removeConnection_self :
    (server.removeConnection clientId).connections clientId = none := by
  rw [removeConnection]
  split
  · exact Function.update_self _ _ _
  · rename_i unknown
    exact Option.not_isSome_iff_eq_none.mp unknown

theorem connections_removeConnection_of_ne {other : UInt64} (apart : other ≠ clientId) :
    (server.removeConnection clientId).connections other = server.connections other := by
  rw [removeConnection]
  split
  · exact Function.update_of_ne apart _ _
  · rfl

end Connections

@[simp]
theorem isConnected_broadcastMessage (server : RenetServer) (message : Bytes) (clientId : UInt64) :
    (server.broadcastMessage message).IsConnected clientId ↔ server.IsConnected clientId := by
  simp [IsConnected, broadcastMessage]

theorem sent_broadcastMessage {server : RenetServer} {clientId : UInt64}
    (connected : server.IsConnected clientId) (message : Bytes) :
    (server.broadcastMessage message).sent clientId = server.sent clientId ++ [message] := by
  obtain ⟨connection, found⟩ := Option.isSome_iff_exists.mp connected
  simp [sent, broadcastMessage, found, Connection.send]

@[simp]
theorem isConnected_sendMessage (server : RenetServer) (receiver clientId : UInt64)
    (message : Bytes) :
    (server.sendMessage receiver message).IsConnected clientId ↔ server.IsConnected clientId := by
  by_cases same : clientId = receiver
  · subst same
    simp [IsConnected, sendMessage]
  · simp [IsConnected, sendMessage, Function.update_of_ne same]

theorem sent_sendMessage {server : RenetServer} {clientId : UInt64}
    (connected : server.IsConnected clientId) (receiver : UInt64) (message : Bytes) :
    (server.sendMessage receiver message).sent clientId =
      if clientId = receiver then server.sent clientId ++ [message] else server.sent clientId := by
  obtain ⟨connection, found⟩ := Option.isSome_iff_exists.mp connected
  by_cases same : clientId = receiver
  · subst same
    simp [sent, sendMessage, found, Connection.send]
  · simp [sent, sendMessage, same]

end RenetServer

/-! ## The broadcaster -/

/-- The broadcaster over a shared renet server, reporting failures as errors of type `E`. -/
structure RenetBroadcaster (E : Type) where
  server : RenetServer

namespace RenetBroadcaster

variable {E : Type} [Anyhow E] [Bincode]

/-- Encode an event and broadcast it. -/
def broadcast (broadcaster : RenetBroadcaster E) (event : GameEvent) :
    RenetBroadcaster E × Except E Unit :=
  match Bincode.encodeEvent event with
  | .error text => (broadcaster, .error (Anyhow.context "encode broadcast" (Anyhow.ofForeign text)))
  | .ok bytes => ({ broadcaster with server := broadcaster.server.broadcastMessage bytes }, .ok ())

/-- Encode an event and send it to one client. -/
def sendTo (broadcaster : RenetBroadcaster E) (clientId : UInt64) (event : GameEvent) :
    RenetBroadcaster E × Except E Unit :=
  match Bincode.encodeEvent event with
  | .error text => (broadcaster, .error (Anyhow.context "encode send_to" (Anyhow.ofForeign text)))
  | .ok bytes =>
      ({ broadcaster with server := broadcaster.server.sendMessage clientId bytes }, .ok ())

instance : NetworkBroadcaster E (RenetBroadcaster E) where
  broadcast := broadcast
  sendTo := sendTo

/-- The only failure of a broadcast is one of the codec, never a domain error. -/
theorem broadcast_error {broadcaster after : RenetBroadcaster E} {event : GameEvent} {error : E}
    (failed : broadcaster.broadcast event = (after, .error error)) :
    Anyhow.downcastRef error = none := by
  rw [broadcast] at failed
  split at failed
  · obtain ⟨rfl, rfl⟩ := failed
    rw [Anyhow.downcastRef_context, Anyhow.downcastRef_ofForeign]
  · cases failed

end RenetBroadcaster

/-! ## Connection events -/

namespace RenetServer

/-- A server whose queue was empty has applied changes of the network: the queue tells which
connections are new, and connection events of one client are separated by its disconnection. -/
structure Queues (before after : RenetServer) : Prop where
  kept : ∀ clientId, after.IsConnected clientId → .clientConnected clientId ∉ after.events →
    before.IsConnected clientId ∧ after.sent clientId = before.sent clientId
  recent : ∀ clientId, after.IsConnected clientId → .clientConnected clientId ∈ after.events →
    after.sent clientId = []
  stays : ∀ clientId front rest, after.events = front ++ .clientConnected clientId :: rest →
    .clientDisconnected clientId ∉ rest → after.IsConnected clientId
  separated : ∀ clientId front middle back,
    after.events =
        front ++ .clientConnected clientId :: middle ++ .clientConnected clientId :: back →
      .clientDisconnected clientId ∈ middle

theorem Queues.refl {server : RenetServer} (empty : server.events = []) : server.Queues server where
  kept _ connected _ := ⟨connected, rfl⟩
  recent clientId _ member := by
    rw [empty] at member
    cases member
  stays clientId front rest split _ := by
    rw [empty] at split
    simp at split
  separated clientId front middle back split := by
    rw [empty] at split
    simp at split

/-- The event queued last is split off, or the split lies before it. -/
private theorem split_queue {events front rest : List ServerEvent} {last event : ServerEvent}
    (split : events ++ [last] = front ++ event :: rest) :
    (rest = [] ∧ events = front ∧ last = event) ∨
      ∃ early, rest = early ++ [last] ∧ events = front ++ event :: early := by
  rcases EventSourcing.split_append split with ⟨early, events_eq, rest_eq⟩ | ⟨left, front_eq, tail⟩
  · exact .inr ⟨early, rest_eq, events_eq⟩
  · obtain ⟨rfl, same, rfl⟩ := EventSourcing.singleton_eq_append_cons.mp tail
    exact .inl ⟨rfl, by rw [front_eq, List.append_nil], same⟩

theorem Queues.addConnection {before after : RenetServer} (queues : before.Queues after)
    (joiner : UInt64) : before.Queues (after.addConnection joiner) := by
  by_cases known : after.IsConnected joiner
  · rw [addConnection_of_isConnected known]
    exact queues
  have events_eq := events_addConnection known
  have joined := connections_addConnection_self known
  constructor
  · intro clientId connected absent
    rw [events_eq, List.mem_append, List.mem_singleton, not_or] at absent
    have other : clientId ≠ joiner := fun same => absent.2 (same ▸ rfl)
    rw [IsConnected, connections_addConnection_of_ne other] at connected
    rw [sent, connections_addConnection_of_ne other]
    exact queues.kept clientId connected absent.1
  · intro clientId connected member
    by_cases same : clientId = joiner
    · rw [same, sent, joined]
      rfl
    · rw [events_eq, List.mem_append, List.mem_singleton] at member
      have earlier := member.resolve_right fun last => same (ServerEvent.clientConnected.inj last)
      rw [IsConnected, connections_addConnection_of_ne same] at connected
      rw [sent, connections_addConnection_of_ne same]
      exact queues.recent clientId connected earlier
  · intro clientId front rest split absent
    by_cases same : clientId = joiner
    · rw [IsConnected, same, joined]
      rfl
    · rw [IsConnected, connections_addConnection_of_ne same]
      rw [events_eq] at split
      rcases split_queue split with ⟨_, _, last⟩ | ⟨early, rfl, earlier⟩
      · exact (same (ServerEvent.clientConnected.inj last).symm).elim
      · exact queues.stays clientId front early earlier fun left =>
          absent (List.mem_append_left _ left)
  · intro clientId front middle back split
    rw [events_eq] at split
    rcases split_queue split with ⟨_, earlier, last⟩ | ⟨early, _, earlier⟩
    · by_contra absent
      have connected := queues.stays clientId front middle earlier absent
      obtain rfl := ServerEvent.clientConnected.inj last
      exact known connected
    · exact queues.separated clientId front middle early earlier

theorem Queues.removeConnection {before after : RenetServer} (queues : before.Queues after)
    (leaver : UInt64) : before.Queues (after.removeConnection leaver) := by
  by_cases known : after.IsConnected leaver
  case neg =>
    rw [removeConnection_of_not_isConnected known]
    exact queues
  have events_eq := events_removeConnection known
  have gone {clientId : UInt64} (connected : (after.removeConnection leaver).IsConnected clientId) :
      clientId ≠ leaver := by
    rintro rfl
    rw [IsConnected, connections_removeConnection_self] at connected
    cases connected
  have same_joins (clientId : UInt64) : .clientConnected clientId ∈
      (after.removeConnection leaver).events ↔ .clientConnected clientId ∈ after.events := by
    simp [events_eq]
  constructor
  · intro clientId connected absent
    have other := gone connected
    rw [same_joins] at absent
    rw [IsConnected, connections_removeConnection_of_ne other] at connected
    rw [sent, connections_removeConnection_of_ne other]
    exact queues.kept clientId connected absent
  · intro clientId connected member
    have other := gone connected
    rw [same_joins] at member
    rw [IsConnected, connections_removeConnection_of_ne other] at connected
    rw [sent, connections_removeConnection_of_ne other]
    exact queues.recent clientId connected member
  · intro clientId front rest split absent
    rw [events_eq] at split
    rcases split_queue split with ⟨_, _, last⟩ | ⟨early, rfl, earlier⟩
    · cases last
    · rw [List.mem_append, List.mem_singleton, not_or] at absent
      have other : clientId ≠ leaver := fun same => absent.2 (same ▸ rfl)
      rw [IsConnected, connections_removeConnection_of_ne other]
      exact queues.stays clientId front early earlier absent.1
  · intro clientId front middle back split
    rw [events_eq] at split
    rcases split_queue split with ⟨_, _, last⟩ | ⟨early, _, earlier⟩
    · cases last
    · exact queues.separated clientId front middle early earlier

theorem Queues.processMessage {before after : RenetServer} (queues : before.Queues after)
    (sender : UInt64) (message : Bytes) : before.Queues (after.processMessage sender message) := by
  have connected_iff (clientId : UInt64) :
      (after.processMessage sender message).IsConnected clientId ↔ after.IsConnected clientId := by
    by_cases same : clientId = sender
    · simp [IsConnected, RenetServer.processMessage, same]
    · simp [IsConnected, RenetServer.processMessage, same]
  have sent_eq (clientId : UInt64) :
      (after.processMessage sender message).sent clientId = after.sent clientId := by
    by_cases same : clientId = sender
    · subst same
      cases found : after.connections clientId <;>
        simp [sent, RenetServer.processMessage, found, Connection.deliver]
    · simp [sent, RenetServer.processMessage, same]
  constructor
  · intro clientId connected absent
    rw [sent_eq]
    exact queues.kept clientId ((connected_iff clientId).mp connected) absent
  · intro clientId connected member
    rw [sent_eq]
    exact queues.recent clientId ((connected_iff clientId).mp connected) member
  · intro clientId front rest split absent
    rw [connected_iff]
    exact queues.stays clientId front rest split absent
  · exact queues.separated

end RenetServer

namespace RenetServer

/-- Received messages of a client that the server has not taken yet. -/
def inbox (server : RenetServer) (clientId : UInt64) : List Bytes :=
  (server.connections clientId).elim [] Connection.inbox

/-- Nothing waits on one server that does not wait on the other. -/
structure Within (after before : RenetServer) : Prop where
  events : after.events ⊆ before.events
  inbox : ∀ clientId, after.inbox clientId ⊆ before.inbox clientId

theorem Within.refl (server : RenetServer) : server.Within server where
  events := List.Subset.refl server.events
  inbox clientId := List.Subset.refl (server.inbox clientId)

theorem Within.trans {after middle before : RenetServer} (late : after.Within middle)
    (early : middle.Within before) : after.Within before where
  events := List.Subset.trans late.events early.events
  inbox clientId := List.Subset.trans (late.inbox clientId) (early.inbox clientId)

theorem within_broadcastMessage (server : RenetServer) (message : Bytes) :
    (server.broadcastMessage message).Within server where
  events := List.Subset.refl server.events
  inbox clientId := by
    cases found : server.connections clientId <;>
      simp [inbox, broadcastMessage, found, Connection.send]

theorem within_sendMessage (server : RenetServer) (receiver : UInt64) (message : Bytes) :
    (server.sendMessage receiver message).Within server where
  events := List.Subset.refl server.events
  inbox clientId := by
    by_cases same : clientId = receiver
    · subst same
      cases found : server.connections clientId <;>
        simp [inbox, sendMessage, found, Connection.send]
    · simp [inbox, sendMessage, same]

/-- Only messages that wait are received. -/
theorem within_receiveMessages (server : RenetServer) (sender : UInt64) :
    (server.receiveMessages sender).1.Within server ∧
      (server.receiveMessages sender).2 = server.inbox sender := by
  cases found : server.connections sender with
  | none =>
      rw [receiveMessages, found, inbox, found]
      exact ⟨.refl server, rfl⟩
  | some connection =>
      rw [receiveMessages, found, inbox, found]
      refine ⟨⟨List.Subset.refl server.events, fun clientId => ?_⟩, rfl⟩
      by_cases same : clientId = sender
      · simp [inbox, same]
      · simp [inbox, same]

end RenetServer

section Adapter

variable {E : Type} [Anyhow E] [Bincode]

/-- Whether or not it fails, broadcasting takes nothing in. -/
theorem within_broadcastAll (broadcaster : RenetBroadcaster E) (events : List GameEvent) :
    (GameService.broadcastAll (E := E) broadcaster events).1.server.Within broadcaster.server := by
  induction events generalizing broadcaster with
  | nil => exact .refl _
  | cons event events induction =>
      have sending : NetworkBroadcaster.broadcast broadcaster event =
          broadcaster.broadcast event := rfl
      rw [GameService.broadcastAll, sending, RenetBroadcaster.broadcast]
      cases Bincode.encodeEvent event with
      | error text => exact .refl _
      | ok bytes =>
          exact (induction ⟨broadcaster.server.broadcastMessage bytes⟩).trans
            (broadcaster.server.within_broadcastMessage bytes)

theorem within_sendAll (receiver : UInt64) (broadcaster : RenetBroadcaster E)
    (envelopes : List GameEventEnvelope) :
    (GameService.sendAll (E := E) receiver broadcaster envelopes).1.server.Within
      broadcaster.server := by
  induction envelopes generalizing broadcaster with
  | nil => exact .refl _
  | cons envelope envelopes induction =>
      have sending : NetworkBroadcaster.sendTo broadcaster receiver envelope.event =
          broadcaster.sendTo receiver envelope.event := rfl
      rw [GameService.sendAll, sending, RenetBroadcaster.sendTo]
      cases Bincode.encodeEvent envelope.event with
      | error text => exact .refl _
      | ok bytes =>
          exact (induction ⟨broadcaster.server.sendMessage receiver bytes⟩).trans
            (broadcaster.server.within_sendMessage receiver bytes)

end Adapter

section Hearing

variable [Bincode]

/-- The event has an encoding, so that sending it does not fail. -/
def Sendable (event : GameEvent) : Prop :=
  ∃ bytes, Bincode.encodeEvent event = .ok bytes

/-- What a client decodes from the messages sent to it since it connected. -/
def RenetServer.heard (server : RenetServer) (clientId : UInt64) :
    List (Except String GameEvent) :=
  (server.sent clientId).map Bincode.decodeEvent

/-- Sending went out: no client came or went, and every connected one heard its events in order. -/
structure RenetServer.Spreads (before after : RenetServer) (news : UInt64 → List GameEvent) :
    Prop where
  events : after.events = before.events
  connected : ∀ clientId, after.IsConnected clientId ↔ before.IsConnected clientId
  heard : ∀ clientId, before.IsConnected clientId →
    after.heard clientId = before.heard clientId ++ (news clientId).map .ok

namespace RenetServer

theorem Spreads.refl (server : RenetServer) : server.Spreads server fun _ => [] where
  events := rfl
  connected _ := Iff.rfl
  heard _ _ := by simp

theorem Spreads.trans {before middle after : RenetServer} {first second : UInt64 → List GameEvent}
    (early : before.Spreads middle first) (late : middle.Spreads after second) :
    before.Spreads after fun clientId => first clientId ++ second clientId where
  events := late.events.trans early.events
  connected clientId := (late.connected clientId).trans (early.connected clientId)
  heard clientId connected := by
    have stays := (early.connected clientId).mpr connected
    rw [late.heard clientId stays, early.heard clientId connected, List.map_append,
      List.append_assoc]

theorem Spreads.congr {before after : RenetServer} {news other : UInt64 → List GameEvent}
    (spreads : before.Spreads after news) (same : ∀ clientId, news clientId = other clientId) :
    before.Spreads after other :=
  (funext same : news = other) ▸ spreads

/-- Taking messages sends nothing. -/
theorem spreads_receiveMessages (server : RenetServer) (sender : UInt64) :
    server.Spreads (server.receiveMessages sender).1 fun _ => [] := by
  cases found : server.connections sender with
  | none =>
      rw [receiveMessages, found]
      exact .refl server
  | some connection =>
      have others {clientId : UInt64} (other : clientId ≠ sender) :
          (server.receiveMessages sender).1.connections clientId = server.connections clientId := by
        rw [receiveMessages, found]
        exact Function.update_of_ne other _ _
      have own : (server.receiveMessages sender).1.connections sender =
          some { connection with inbox := [] } := by
        rw [receiveMessages, found]
        exact Function.update_self _ _ _
      constructor
      · rw [receiveMessages, found]
      · intro clientId
        by_cases same : clientId = sender
        · simp [IsConnected, same, own, found]
        · simp [IsConnected, others same]
      · intro clientId _
        by_cases same : clientId = sender
        · simp [heard, sent, same, own, found]
        · simp [heard, sent, others same]

theorem spreads_broadcastMessage (server : RenetServer) {event : GameEvent} {bytes : Bytes}
    (encoded : Bincode.encodeEvent event = .ok bytes) :
    server.Spreads (server.broadcastMessage bytes) fun _ => [event] where
  events := rfl
  connected := server.isConnected_broadcastMessage bytes
  heard clientId connected := by
    have decoded := Bincode.decodeEvent_encodeEvent encoded
    simp [heard, sent_broadcastMessage connected, decoded]

theorem spreads_sendMessage (server : RenetServer) (receiver : UInt64) {event : GameEvent}
    {bytes : Bytes} (encoded : Bincode.encodeEvent event = .ok bytes) :
    server.Spreads (server.sendMessage receiver bytes) fun clientId =>
      if clientId = receiver then [event] else [] where
  events := rfl
  connected clientId := server.isConnected_sendMessage receiver clientId bytes
  heard clientId connected := by
    have decoded := Bincode.decodeEvent_encodeEvent encoded
    rw [heard, sent_sendMessage connected]
    split <;> simp [heard, decoded]

end RenetServer

variable {E : Type} [Anyhow E]

/-- A batch of sendable events reaches every connected client. -/
theorem spreads_broadcastAll (broadcaster : RenetBroadcaster E) {events : List GameEvent}
    (sendable : ∀ event ∈ events, Sendable event) :
    broadcaster.server.Spreads (GameService.broadcastAll (E := E) broadcaster events).1.server
      fun _ => events := by
  induction events generalizing broadcaster with
  | nil => exact .refl _
  | cons event events induction =>
      obtain ⟨bytes, encoded⟩ := sendable event List.mem_cons_self
      have sending : NetworkBroadcaster.broadcast broadcaster event =
          ((⟨broadcaster.server.broadcastMessage bytes⟩ : RenetBroadcaster E), .ok ()) := by
        change broadcaster.broadcast event = _
        rw [RenetBroadcaster.broadcast, encoded]
      have later := induction (⟨broadcaster.server.broadcastMessage bytes⟩ : RenetBroadcaster E)
        fun other member => sendable other (List.mem_cons_of_mem _ member)
      rw [GameService.broadcastAll, sending]
      exact (broadcaster.server.spreads_broadcastMessage encoded).trans later

/-- A sendable history reaches the one client it is sent to. -/
theorem spreads_sendAll (receiver : UInt64) (broadcaster : RenetBroadcaster E)
    {envelopes : List GameEventEnvelope}
    (sendable : ∀ envelope ∈ envelopes, Sendable envelope.event) :
    broadcaster.server.Spreads
      (GameService.sendAll (E := E) receiver broadcaster envelopes).1.server
      fun clientId =>
        if clientId = receiver then envelopes.map GameEventEnvelope.event else [] := by
  induction envelopes generalizing broadcaster with
  | nil =>
      simp only [List.map_nil, ite_self]
      exact .refl _
  | cons envelope envelopes induction =>
      obtain ⟨bytes, encoded⟩ := sendable envelope List.mem_cons_self
      have sending : NetworkBroadcaster.sendTo broadcaster receiver envelope.event =
          ((⟨broadcaster.server.sendMessage receiver bytes⟩ : RenetBroadcaster E), .ok ()) := by
        change broadcaster.sendTo receiver envelope.event = _
        rw [RenetBroadcaster.sendTo, encoded]
      have later := induction (⟨broadcaster.server.sendMessage receiver bytes⟩ : RenetBroadcaster E)
        fun other member => sendable other (List.mem_cons_of_mem _ member)
      have both := (broadcaster.server.spreads_sendMessage receiver encoded).trans later
      rw [GameService.sendAll, sending]
      apply both.congr
      intro clientId
      split <;> rfl

end Hearing

end TicTacTussle
