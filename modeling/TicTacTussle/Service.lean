import TicTacTussle.Session

/-!
# Event store, ports and game service

The application layer: an append-only store, the publisher and broadcaster ports as operations on an
adapter's own state, and `GameService.handle`, which threads them.  Whatever the adapters do, the
store's log is a run of the decider over the commands addressed to the game.
-/

namespace TicTacTussle

/-- What the code relies on of `anyhow::Error`, and of the texts that go into one. -/
class Anyhow (E : Type) where
  uuidText : Uuid → String
  /-- `anyhow!(error)` of a domain error. -/
  ofDomain : TicTacTussleError → E
  /-- An error of another crate. -/
  ofForeign : String → E
  msg : String → E
  /-- `.context("text")`. -/
  context : String → E → E
  /-- `downcast_ref::<TicTacTussleError>()`. -/
  downcastRef : E → Option TicTacTussleError
  downcastRef_ofDomain : ∀ error, downcastRef (ofDomain error) = some error
  downcastRef_ofForeign : ∀ text, downcastRef (ofForeign text) = none
  downcastRef_msg : ∀ text, downcastRef (msg text) = none
  downcastRef_context : ∀ text error, downcastRef (context text error) = downcastRef error

/-- An error as the chain of calls that built it. -/
inductive ErrorChain where
  | domain (error : TicTacTussleError)
  | foreign (text : String)
  | message (text : String)
  | context (text : String) (source : ErrorChain)
  deriving DecidableEq, Repr

def ErrorChain.root : ErrorChain → Option TicTacTussleError
  | .domain error => some error
  | .foreign _ | .message _ => none
  | .context _ source => source.root

/-- The hyphenated lower-case form of a UUID. -/
def Uuid.hyphenated (id : Uuid) : String :=
  let digits := id.bits.toHex.toList
  let group (start length : ℕ) := String.ofList ((digits.drop start).take length)
  "-".intercalate [group 0 8, group 8 4, group 12 4, group 16 4, group 20 12]

instance : Anyhow ErrorChain where
  uuidText := Uuid.hyphenated
  ofDomain := .domain
  ofForeign := .foreign
  msg := .message
  context := .context
  downcastRef := ErrorChain.root
  downcastRef_ofDomain _ := rfl
  downcastRef_ofForeign _ := rfl
  downcastRef_msg _ := rfl
  downcastRef_context _ _ := rfl

inductive BrokerMessage where
  | command (envelope : CommandEnvelope)
  | eventBatch (envelopes : List GameEventEnvelope)
  deriving DecidableEq, Repr

/-- The broker port, over the adapter's own state. -/
class EventPublisher (E : outParam Type) (P : Type) where
  publish : P → BrokerMessage → P × Except E Unit

/-- The network port, over the adapter's own state. -/
class NetworkBroadcaster (E : outParam Type) (B : Type) where
  broadcast : B → GameEvent → B × Except E Unit
  sendTo : B → UInt64 → GameEvent → B × Except E Unit

inductive NoopPublisher where
  | mk
  deriving DecidableEq, Repr

instance : EventPublisher ErrorChain NoopPublisher where
  publish publisher _ := (publisher, .ok ())

inductive NoopBroadcaster where
  | mk
  deriving DecidableEq, Repr

instance : NetworkBroadcaster ErrorChain NoopBroadcaster where
  broadcast broadcaster _ := (broadcaster, .ok ())
  sendTo broadcaster _ _ := (broadcaster, .ok ())

/-- The in-memory log of one game. -/
structure EventStore where
  gameId : GameId
  log : List GameEventEnvelope
  deriving DecidableEq, Repr

namespace EventStore

def new (gameId : GameId) : EventStore := ⟨gameId, []⟩

def events (store : EventStore) : List GameEvent :=
  store.log.map GameEventEnvelope.event

def snapshot (store : EventStore) : List GameEventEnvelope := store.log

/-- Append a batch under one lock, returning the new envelopes.  The stamp of an envelope is indexed
by its position, since every position is written once. -/
def appendBatch (fresh : ℕ → Stamp) (store : EventStore) :
    List GameEvent → Option Uuid → EventStore × List GameEventEnvelope
  | [], _ => (store, [])
  | event :: events, commandId =>
      let sequence := store.log.length.toUInt64
      let envelope :=
        GameEventEnvelope.new (fresh store.log.length) store.gameId sequence event commandId
      let (store, envelopes) :=
        appendBatch fresh { store with log := store.log ++ [envelope] } events commandId
      (store, envelope :: envelopes)

/-- A batch leaves the game id alone and extends the log by exactly its envelopes. -/
theorem appendBatch_store (fresh : ℕ → Stamp) (store : EventStore) (events : List GameEvent)
    (commandId : Option Uuid) :
    (store.appendBatch fresh events commandId).1 =
      { store with log := store.log ++ (store.appendBatch fresh events commandId).2 } := by
  induction events generalizing store with
  | nil => simp [appendBatch]
  | cons event events induction =>
      simp only [appendBatch]
      rw [induction]
      simp

/-- The envelopes of a batch carry its events in order. -/
theorem appendBatch_events (fresh : ℕ → Stamp) (store : EventStore) (events : List GameEvent)
    (commandId : Option Uuid) :
    (store.appendBatch fresh events commandId).2.map GameEventEnvelope.event = events := by
  induction events generalizing store with
  | nil => rfl
  | cons event events induction =>
      simp only [appendBatch, List.map_cons, GameEventEnvelope.new]
      rw [induction]

end EventStore

structure GameService (P B : Type) where
  store : EventStore
  publisher : P
  broadcaster : B

namespace GameService

open GameDecider

variable {E P B : Type} [Anyhow E] [EventPublisher E P] [NetworkBroadcaster E B]

def build (gameId : GameId) (publisher : P) (broadcaster : B) : GameService P B :=
  ⟨.new gameId, publisher, broadcaster⟩

/-- Broadcast events in order, stopping at the first failure. -/
def broadcastAll (broadcaster : B) : List GameEvent → B × Except E Unit
  | [] => (broadcaster, .ok ())
  | event :: events =>
      match NetworkBroadcaster.broadcast broadcaster event with
      | (broadcaster, .ok ()) => broadcastAll broadcaster events
      | (broadcaster, .error error) => (broadcaster, .error (Anyhow.context "broadcast" error))

/-- Handle one command envelope: validate it, append the decided events, publish the batch and
broadcast the events. -/
def handle (fresh : ℕ → Stamp) (service : GameService P B) (cmdEnv : CommandEnvelope) :
    GameService P B × Except E Unit :=
  if cmdEnv.gameId ≠ service.store.gameId then
    (service, .error (Anyhow.ofDomain (.wrongGame cmdEnv.gameId service.store.gameId)))
  else
    let state := hydrate service.store.events
    match GameDecider.decide state cmdEnv.command with
    | .error error => (service, .error (Anyhow.msg (error.display (Anyhow.uuidText E))))
    | .ok events =>
        let (store, envelopes) := service.store.appendBatch fresh events (some cmdEnv.id)
        -- A failed publish is only logged.
        let (publisher, _) := EventPublisher.publish service.publisher (.eventBatch envelopes)
        let (broadcaster, result) := broadcastAll service.broadcaster events
        ({ store, publisher, broadcaster }, result)

/-- Send the history to one client, stopping at the first failure. -/
def sendAll (clientId : UInt64) (broadcaster : B) : List GameEventEnvelope → B × Except E Unit
  | [] => (broadcaster, .ok ())
  | envelope :: envelopes =>
      match NetworkBroadcaster.sendTo broadcaster clientId envelope.event with
      | (broadcaster, .ok ()) => sendAll clientId broadcaster envelopes
      | (broadcaster, .error error) =>
          (broadcaster, .error (Anyhow.context "catch-up send_to" error))

/-- Bring a newly connected client up to date. -/
def catchUp (service : GameService P B) (clientId : UInt64) : GameService P B × Except E Unit :=
  let (broadcaster, result) := sendAll clientId service.broadcaster service.store.snapshot
  ({ service with broadcaster }, result)

def publish (service : GameService P B) (message : BrokerMessage) :
    GameService P B × Except E Unit :=
  let (publisher, result) := EventPublisher.publish service.publisher message
  ({ service with publisher }, result.mapError (Anyhow.context "publish"))

/-- Handle envelopes one after the other, whatever their results. -/
def handleAll (fresh : ℕ → Stamp) (service : GameService P B) (envelopes : List CommandEnvelope) :
    GameService P B :=
  envelopes.foldl (fun service envelope => (service.handle fresh envelope).1) service

def addressed (gameId : GameId) (envelopes : List CommandEnvelope) : List GameCommand :=
  (envelopes.filter fun envelope => envelope.gameId = gameId).map CommandEnvelope.command

theorem addressed_append (gameId : GameId) (left right : List CommandEnvelope) :
    addressed gameId (left ++ right) = addressed gameId left ++ addressed gameId right := by
  simp [addressed]

/-- Any commands can be addressed to a game. -/
theorem addressed_new (stamp : Stamp) (gameId : GameId) (commands : List GameCommand) :
    addressed gameId (commands.map (CommandEnvelope.new stamp gameId)) = commands := by
  induction commands with
  | nil => rfl
  | cons command commands induction =>
      have first : (CommandEnvelope.new stamp gameId command).gameId = gameId := rfl
      unfold addressed at induction ⊢
      rw [List.map_cons, List.filter_cons_of_pos (by simp [first]), List.map_cons, induction]
      rfl

@[simp]
theorem handle_gameId (fresh : ℕ → Stamp) (service : GameService P B) (cmdEnv : CommandEnvelope) :
    (service.handle fresh cmdEnv).1.store.gameId = service.store.gameId := by
  unfold handle
  split
  · rfl
  · dsimp only
    split
    · rfl
    · rw [EventStore.appendBatch_store]

/-- Handling a command of this game advances the decider's log by it. -/
theorem handle_events (fresh : ℕ → Stamp) (service : GameService P B) (cmdEnv : CommandEnvelope)
    (forUs : cmdEnv.gameId = service.store.gameId) :
    (service.handle fresh cmdEnv).1.store.events =
      decider.next service.store.events cmdEnv.command := by
  rw [handle, if_neg (not_not.mpr forUs)]
  dsimp only
  split
  · rename_i error decision
    exact (decider.next_of_refuses ⟨error, decision⟩).symm
  · rename_i events decision
    rw [decider.next_of_ok decision, EventStore.appendBatch_store, EventStore.events,
      List.map_append, EventStore.appendBatch_events]
    rfl

theorem handle_of_wrongGame (fresh : ℕ → Stamp) (service : GameService P B)
    (cmdEnv : CommandEnvelope) (foreign : cmdEnv.gameId ≠ service.store.gameId) :
    service.handle fresh cmdEnv =
      (service,
        .error (Anyhow.ofDomain (.wrongGame cmdEnv.gameId service.store.gameId))) := by
  rw [handle, if_pos foreign]

/-- The refusals of `decide` reach the caller as text. -/
theorem handle_of_refused (fresh : ℕ → Stamp) {service : GameService P B} {cmdEnv : CommandEnvelope}
    (forUs : cmdEnv.gameId = service.store.gameId) {error : TicTacTussleError}
    (refused : decider.decide (decider.hydrate service.store.events) cmdEnv.command =
      .error error) :
    service.handle fresh cmdEnv =
      (service, .error (Anyhow.msg (error.display (Anyhow.uuidText E)))) := by
  have decision : GameDecider.decide (GameDecider.hydrate service.store.events) cmdEnv.command =
      .error error := refused
  rw [handle, if_neg (not_not.mpr forUs)]
  simp only [decision]

theorem handle_of_accepted (fresh : ℕ → Stamp) {service : GameService P B}
    {cmdEnv : CommandEnvelope} (forUs : cmdEnv.gameId = service.store.gameId)
    {events : List GameEvent}
    (accepted : decider.decide (decider.hydrate service.store.events) cmdEnv.command =
      .ok events) :
    service.handle fresh cmdEnv =
      ({ store := (service.store.appendBatch fresh events (some cmdEnv.id)).1
         publisher := (EventPublisher.publish service.publisher
          (.eventBatch (service.store.appendBatch fresh events (some cmdEnv.id)).2)).1
         broadcaster := (broadcastAll service.broadcaster events).1 },
        (broadcastAll service.broadcaster events).2) := by
  have decision : GameDecider.decide (GameDecider.hydrate service.store.events) cmdEnv.command =
      .ok events := accepted
  rw [handle, if_neg (not_not.mpr forUs)]
  simp only [decision]

/-- Handling one more envelope extends the run of the decider that the log is. -/
theorem handle_extends_run (fresh : ℕ → Stamp) {service : GameService P B} {gameId : GameId}
    (own : service.store.gameId = gameId) {envelopes : List CommandEnvelope}
    (logged : service.store.events = decider.run [] (addressed gameId envelopes))
    (cmdEnv : CommandEnvelope) :
    (service.handle fresh cmdEnv).1.store.events =
      decider.run [] (addressed gameId (envelopes ++ [cmdEnv])) := by
  subst own
  rw [addressed_append, EventSourcing.Decider.run_append, ← logged]
  by_cases forUs : cmdEnv.gameId = service.store.gameId
  · rw [handle_events fresh service cmdEnv forUs]
    simp [addressed, forUs]
  · rw [handle_of_wrongGame fresh service cmdEnv forUs]
    simp [addressed, forUs]

@[simp]
theorem handleAll_cons (fresh : ℕ → Stamp) (service : GameService P B)
    (envelope : CommandEnvelope) (envelopes : List CommandEnvelope) :
    service.handleAll fresh (envelope :: envelopes) =
      (service.handle fresh envelope).1.handleAll fresh envelopes := rfl

theorem handleAll_append (fresh : ℕ → Stamp) (service : GameService P B)
    (left right : List CommandEnvelope) :
    service.handleAll fresh (left ++ right) =
      (service.handleAll fresh left).handleAll fresh right := by
  simp [handleAll]

@[simp]
theorem handleAll_gameId (fresh : ℕ → Stamp) (service : GameService P B)
    (envelopes : List CommandEnvelope) :
    (service.handleAll fresh envelopes).store.gameId = service.store.gameId := by
  induction envelopes generalizing service with
  | nil => rfl
  | cons envelope envelopes induction => rw [handleAll_cons, induction, handle_gameId]

/-- The log of a service is a run of the decider, whether or not its adapters fail. -/
theorem handleAll_events (fresh : ℕ → Stamp) (service : GameService P B)
    (envelopes : List CommandEnvelope) :
    (service.handleAll fresh envelopes).store.events =
      decider.run service.store.events (addressed service.store.gameId envelopes) := by
  induction envelopes generalizing service with
  | nil => rfl
  | cons envelope envelopes induction =>
      rw [handleAll_cons, induction, handle_gameId]
      by_cases forUs : envelope.gameId = service.store.gameId
      · rw [handle_events fresh service envelope forUs]
        simp [addressed, forUs]
      · rw [handle_of_wrongGame fresh service envelope forUs]
        simp [addressed, forUs]

/-- Commands sent to a new service run the decider from the empty log. -/
theorem handleAll_new_events (fresh : ℕ → Stamp) (gameId : GameId) (publisher : P)
    (broadcaster : B) (stamp : Stamp) (commands : List GameCommand) :
    ((build gameId publisher broadcaster).handleAll fresh
      (commands.map (CommandEnvelope.new stamp gameId))).store.events =
        decider.run [] commands := by
  rw [handleAll_events]
  exact congrArg (decider.run []) (addressed_new stamp gameId commands)

/-- Every log a service builds up from an empty store is the history of a session. -/
theorem exists_session (fresh : ℕ → Stamp) (gameId : GameId) (publisher : P) (broadcaster : B)
    (envelopes : List CommandEnvelope) :
    ∃ session, sessions.History
      ((build gameId publisher broadcaster).handleAll fresh envelopes).store.events session := by
  rw [handleAll_events]
  exact sessions.exists_history _

end GameService

end TicTacTussle
