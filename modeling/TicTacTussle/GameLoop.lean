import TicTacTussle.Broker

/-!
# The server's game loop

One tick lets the transport apply what happened on the network, handles the connection events it
queued, drains the messages of the connected clients and then the commands of the broker.  The loop
remembers every call of `handle` with the client it is owed to, which is what the broker can deliver
again.
-/

namespace TicTacTussle

open Wire GameDecider

/-- The netcode transport: the name every connected client gave in its user data. -/
structure NetcodeServerTransport where
  userNames : UInt64 → Option String

/-- What `transport.update` learns from the network. -/
inductive NetworkChange where
  | connect (clientId : UInt64) (name : String)
  | disconnect (clientId : UInt64)
  | message (clientId : UInt64) (bytes : Bytes)

/-- A call of `handle`, with the client whose connection event or message it came from. -/
structure Call where
  /-- No client for a command that another producer put on the broker. -/
  origin : Option UInt64
  envelope : CommandEnvelope
  deriving DecidableEq, Repr

/-- A record of the commands topic. -/
inductive BrokerRecord where
  /-- The command of an earlier call, as published or delivered before. -/
  | again (call : ℕ)
  /-- A command of another producer. -/
  | injected (envelope : CommandEnvelope)

/-- A record on its way to the game loop. -/
structure Delivery where
  record : BrokerRecord
  ack : AckHandle

def callCommands (gameId : GameId) (calls : List Call) : List GameCommand :=
  GameService.addressed gameId (calls.map Call.envelope)

structure GameLoop (E P : Type) where
  gameId : GameId
  transport : NetcodeServerTransport
  service : GameService P (RenetBroadcaster E)
  /-- Every call of `handle` so far. -/
  calls : List Call
  own : service.store.gameId = gameId
  /-- The log is what the calls made of the empty one. -/
  logged : service.store.events = decider.run [] (callCommands gameId calls)

/-- What the environment contributes to one tick. -/
structure TickInput where
  changes : List NetworkChange
  /-- The order in which `clients_id` lists the clients. -/
  polled : List UInt64
  deliveries : List Delivery

namespace GameLoop

section State

variable {E P : Type}

def server (loop : GameLoop E P) : RenetServer := loop.service.broadcaster.server

def log (loop : GameLoop E P) : List GameEvent := loop.service.store.events

/-- The loop before its first tick. -/
def start (gameId : GameId) (publisher : P) : GameLoop E P where
  gameId := gameId
  transport := ⟨fun _ => none⟩
  service := .build gameId publisher ⟨.new⟩
  calls := []
  own := rfl
  logged := rfl

def withServer (loop : GameLoop E P) (server : RenetServer) : GameLoop E P :=
  { loop with
    service := { loop.service with broadcaster := ⟨server⟩ }
    own := loop.own
    logged := loop.logged }

/-- Apply one change of the network to the transport and to renet. -/
def applyChange (loop : GameLoop E P) : NetworkChange → GameLoop E P
  | .connect clientId name =>
      let userNames :=
        if loop.server.IsConnected clientId then loop.transport.userNames
        else Function.update loop.transport.userNames clientId (some name)
      { loop.withServer (loop.server.addConnection clientId) with transport := ⟨userNames⟩ }
  | .disconnect clientId =>
      { loop.withServer (loop.server.removeConnection clientId) with
        transport := ⟨Function.update loop.transport.userNames clientId none⟩ }
  | .message clientId bytes => loop.withServer (loop.server.processMessage clientId bytes)

def update (loop : GameLoop E P) (changes : List NetworkChange) : GameLoop E P :=
  changes.foldl applyChange loop

def userName (loop : GameLoop E P) (clientId : UInt64) : String :=
  (loop.transport.userNames clientId).getD ("Player-" ++ toString clientId)

def connectionCommand (loop : GameLoop E P) : ServerEvent → GameCommand
  | .clientConnected clientId => .joinGame ⟨clientId⟩ (loop.userName clientId)
  | .clientDisconnected clientId => .leaveGame ⟨clientId⟩

def takeEvents (loop : GameLoop E P) : GameLoop E P × List ServerEvent :=
  (loop.withServer loop.server.takeEvents.1, loop.server.takeEvents.2)

def takeMessages (loop : GameLoop E P) : List UInt64 → GameLoop E P × List (UInt64 × Bytes)
  | [] => (loop, [])
  | clientId :: polled =>
      let (server, messages) := loop.server.receiveMessages clientId
      let (loop, later) := takeMessages (loop.withServer server) polled
      (loop, messages.map (fun bytes => (clientId, bytes)) ++ later)

/-- The call that a record of the broker leads to. -/
def resolve (loop : GameLoop E P) : BrokerRecord → Option Call
  | .again call => loop.calls[call]?
  | .injected envelope => some ⟨none, envelope⟩

def delivered (loop : GameLoop E P) (deliveries : List Delivery) : List Call :=
  deliveries.filterMap fun delivery => loop.resolve delivery.record

/-- The log of a loop is the history of a session. -/
theorem exists_session (loop : GameLoop E P) :
    ∃ session, sessions.History loop.log session := by
  rw [log, loop.logged]
  exact sessions.exists_history _

theorem log_prefix_foldl {α : Type} {step : GameLoop E P → α → GameLoop E P}
    (grows : ∀ loop item, loop.log <+: (step loop item).log) (loop : GameLoop E P)
    (items : List α) : loop.log <+: (items.foldl step loop).log := by
  apply List.foldlRecOn (motive := fun moment => loop.log <+: moment.log) items step
    (List.prefix_refl loop.log)
  intro moment grown item _
  exact grown.trans (grows moment item)

/-- The log after some of the items is the beginning of the log after all of them. -/
theorem log_prefix_split {α : Type} {step : GameLoop E P → α → GameLoop E P}
    (grows : ∀ loop item, loop.log <+: (step loop item).log) (loop : GameLoop E P)
    {items done left : List α} (split : items = done ++ left) :
    (done.foldl step loop).log <+: (items.foldl step loop).log := by
  rw [split, List.foldl_append]
  exact log_prefix_foldl grows _ left

@[simp]
theorem update_log (loop : GameLoop E P) (changes : List NetworkChange) :
    (loop.update changes).log = loop.log := by
  induction changes generalizing loop with
  | nil => rfl
  | cons change changes induction =>
      have same : (loop.applyChange change).log = loop.log := by
        cases change <;> rfl
      exact (induction (loop.applyChange change)).trans same

@[simp]
theorem takeMessages_log (loop : GameLoop E P) (polled : List UInt64) :
    (loop.takeMessages polled).1.log = loop.log := by
  induction polled generalizing loop with
  | nil => rfl
  | cons clientId polled induction => exact induction _

end State

/-! ## One tick -/

section Steps

variable {E P : Type} [Anyhow E] [EventPublisher E P] [Bincode]

def handle (fresh : ℕ → Stamp) (loop : GameLoop E P) (call : Call) : GameLoop E P :=
  { loop with
    service := (loop.service.handle fresh call.envelope).1
    calls := loop.calls ++ [call]
    own := (GameService.handle_gameId fresh loop.service call.envelope).trans loop.own
    logged := by
      rw [GameService.handle_extends_run fresh loop.own loop.logged, callCommands, List.map_append]
      rfl }

def publish (loop : GameLoop E P) (message : BrokerMessage) : GameLoop E P :=
  { loop with
    service := (loop.service.publish message).1
    own := loop.own
    logged := loop.logged }

def catchUp (loop : GameLoop E P) (clientId : UInt64) : GameLoop E P :=
  { loop with
    service := (loop.service.catchUp clientId).1
    own := loop.own
    logged := loop.logged }

/-- Wrap a command of a client, publish it and handle it. -/
def submit (fresh clock : ℕ → Stamp) (loop : GameLoop E P) (clientId : UInt64)
    (command : GameCommand) : GameLoop E P :=
  let cmdEnv := CommandEnvelope.new (clock loop.calls.length) loop.gameId command
  (loop.publish (.command cmdEnv)).handle fresh ⟨some clientId, cmdEnv⟩

def handleConnection (fresh clock : ℕ → Stamp) (loop : GameLoop E P) (event : ServerEvent) :
    GameLoop E P :=
  let command := loop.connectionCommand event
  match event with
  | .clientConnected clientId => (loop.catchUp clientId).submit fresh clock clientId command
  | .clientDisconnected clientId => loop.submit fresh clock clientId command

def handleConnections (fresh clock : ℕ → Stamp) (loop : GameLoop E P) : GameLoop E P :=
  loop.takeEvents.2.foldl (handleConnection fresh clock) loop.takeEvents.1

/-- Handle one message of a client; a message that does not decode is only logged. -/
def handleMessage (fresh clock : ℕ → Stamp) (loop : GameLoop E P) (message : UInt64 × Bytes) :
    GameLoop E P :=
  match Bincode.decodeCommand message.2 with
  | .ok command => loop.submit fresh clock message.1 command
  | .error _ => loop

def drainClientCommands (fresh clock : ℕ → Stamp) (loop : GameLoop E P) (polled : List UInt64) :
    GameLoop E P :=
  (loop.takeMessages polled).2.foldl (handleMessage fresh clock) (loop.takeMessages polled).1

def drainBroker (fresh : ℕ → Stamp) (loop : GameLoop E P) (deliveries : List Delivery) :
    GameLoop E P :=
  (loop.delivered deliveries).foldl (handle fresh) loop

def tick (fresh clock : ℕ → Stamp) (loop : GameLoop E P) (input : TickInput) : GameLoop E P :=
  let loop := loop.update input.changes
  let loop := loop.handleConnections fresh clock
  let loop := loop.drainClientCommands fresh clock input.polled
  loop.drainBroker fresh input.deliveries

def run (fresh clock : ℕ → Stamp) (loop : GameLoop E P) (inputs : List TickInput) :
    GameLoop E P :=
  inputs.foldl (tick fresh clock) loop

/-- Handling a call of this game advances the decider's log by its command. -/
theorem handle_log (fresh : ℕ → Stamp) (loop : GameLoop E P) {call : Call}
    (forUs : call.envelope.gameId = loop.gameId) :
    (loop.handle fresh call).log = decider.next loop.log call.envelope.command :=
  GameService.handle_events fresh loop.service call.envelope (forUs.trans loop.own.symm)

/-- Handling a call of another game changes nothing but the record of calls. -/
theorem handle_service_of_wrongGame (fresh : ℕ → Stamp) (loop : GameLoop E P) {call : Call}
    (foreign : call.envelope.gameId ≠ loop.gameId) :
    (loop.handle fresh call).service = loop.service := by
  have elsewhere : call.envelope.gameId ≠ loop.service.store.gameId := by
    rw [loop.own]
    exact foreign
  exact congrArg Prod.fst
    (GameService.handle_of_wrongGame fresh loop.service call.envelope elsewhere)

/-- A call leaves the service as it was, or appends and broadcasts some events. -/
theorem handle_cases (fresh : ℕ → Stamp) (loop : GameLoop E P) (call : Call) :
    (loop.handle fresh call).service = loop.service ∨
      ∃ events, (loop.handle fresh call).log = loop.log ++ events ∧
        (loop.handle fresh call).server =
          (GameService.broadcastAll (E := E) loop.service.broadcaster events).1.server := by
  by_cases forUs : call.envelope.gameId = loop.gameId
  · have ours : call.envelope.gameId = loop.service.store.gameId := forUs.trans loop.own.symm
    cases decision : decider.decide (decider.hydrate loop.log) call.envelope.command with
    | error error =>
        exact .inl (congrArg Prod.fst (GameService.handle_of_refused fresh ours decision))
    | ok events =>
        have accepted := GameService.handle_of_accepted fresh ours decision
        refine .inr ⟨events, ?_, ?_⟩
        · exact (loop.handle_log fresh forUs).trans (decider.next_of_ok decision)
        · exact congrArg (fun result => result.1.broadcaster.server) accepted
  · exact .inl (loop.handle_service_of_wrongGame fresh forUs)

@[simp]
theorem submit_log (fresh clock : ℕ → Stamp) (loop : GameLoop E P) (clientId : UInt64)
    (command : GameCommand) :
    (loop.submit fresh clock clientId command).log = decider.next loop.log command := by
  let cmdEnv := CommandEnvelope.new (clock loop.calls.length) loop.gameId command
  have forUs : (Call.mk (some clientId) cmdEnv).envelope.gameId =
      (loop.publish (.command cmdEnv)).gameId := rfl
  exact (loop.publish (.command cmdEnv)).handle_log fresh forUs

theorem log_prefix_handle (fresh : ℕ → Stamp) (loop : GameLoop E P) (call : Call) :
    loop.log <+: (loop.handle fresh call).log := by
  rcases loop.handle_cases fresh call with same | ⟨events, grown, _⟩
  · rw [log, log, same]
  · rw [grown]
    exact List.prefix_append _ _

theorem log_prefix_handleConnection (fresh clock : ℕ → Stamp) (loop : GameLoop E P)
    (event : ServerEvent) : loop.log <+: (loop.handleConnection fresh clock event).log := by
  cases event with
  | clientConnected clientId =>
      rw [handleConnection, submit_log]
      exact decider.log_prefix_next loop.log _
  | clientDisconnected clientId =>
      rw [handleConnection, submit_log]
      exact decider.log_prefix_next loop.log _

theorem log_prefix_handleMessage (fresh clock : ℕ → Stamp) (loop : GameLoop E P)
    (message : UInt64 × Bytes) : loop.log <+: (loop.handleMessage fresh clock message).log := by
  rw [handleMessage]
  split
  · rw [submit_log]
    exact decider.log_prefix_next loop.log _
  · exact List.prefix_refl loop.log

theorem log_prefix_drainClientCommands (fresh clock : ℕ → Stamp) (loop : GameLoop E P)
    (polled : List UInt64) :
    loop.log <+: (loop.drainClientCommands fresh clock polled).log := by
  have handled := log_prefix_foldl (log_prefix_handleMessage fresh clock)
    (loop.takeMessages polled).1 (loop.takeMessages polled).2
  rw [takeMessages_log] at handled
  exact handled

theorem log_prefix_drainBroker (fresh : ℕ → Stamp) (loop : GameLoop E P)
    (deliveries : List Delivery) : loop.log <+: (loop.drainBroker fresh deliveries).log :=
  log_prefix_foldl (log_prefix_handle fresh) loop (loop.delivered deliveries)

theorem log_prefix_handleConnections (fresh clock : ℕ → Stamp) (loop : GameLoop E P) :
    loop.log <+: (loop.handleConnections fresh clock).log :=
  log_prefix_foldl (log_prefix_handleConnection fresh clock) loop.takeEvents.1 loop.takeEvents.2

theorem log_prefix_tick (fresh clock : ℕ → Stamp) (loop : GameLoop E P) (input : TickInput) :
    loop.log <+: (loop.tick fresh clock input).log := by
  have connected := (loop.update input.changes).log_prefix_handleConnections fresh clock
  rw [update_log] at connected
  exact (connected.trans (log_prefix_drainClientCommands fresh clock _ input.polled)).trans
    (log_prefix_drainBroker fresh _ input.deliveries)

/-- Draining the broker is the service's drain of the delivered commands. -/
theorem drainBroker_service (fresh : ℕ → Stamp) (loop : GameLoop E P)
    (deliveries : List Delivery) :
    (loop.drainBroker fresh deliveries).service =
      (drainBrokerCommands fresh loop.service
        (deliveries.filterMap fun delivery => (loop.resolve delivery.record).map fun call =>
          ⟨call.envelope, delivery.ack⟩)).1 := by
  have folded (calls : List Call) : ∀ loop : GameLoop E P,
      (calls.foldl (handle fresh) loop).service =
        loop.service.handleAll fresh (calls.map Call.envelope) := by
    induction calls with
    | nil => exact fun _ => rfl
    | cons call calls induction => exact fun loop => induction (loop.handle fresh call)
  rw [drainBroker, folded, drainBrokerCommands_service, delivered, List.map_filterMap,
    List.map_filterMap]
  congr 1
  apply List.filterMap_congr
  intro delivery _
  cases loop.resolve delivery.record <;> rfl

end Steps

end GameLoop

end TicTacTussle
