import TicTacTussle.Service

/-!
# The ledger of a run

An accepted envelope adds one batch to the log, hands it to the publisher and broadcasts its events.
The ledger of a run lists these batches.  The log, the topic and the network can be read off it, and
a rejected envelope leaves no trace in any of them.
-/

namespace TicTacTussle

open GameDecider

/-- An accepted command causes at least one event. -/
theorem GameDecider.decide_ne_nil {state : GameState} {command : GameCommand}
    {events : List GameEvent} (accepted : decide state command = .ok events) : events ≠ [] := by
  cases command with
  | joinGame playerId name =>
      obtain ⟨_, _, _, rfl⟩ := (decide_joinGame_eq_ok_iff state playerId name events).mp accepted
      split <;> exact List.cons_ne_nil _ _
  | placeTile playerId cell =>
      obtain ⟨_, _, _, rfl⟩ := (decide_placeTile_eq_ok_iff state playerId cell events).mp accepted
      split
      · exact List.cons_ne_nil _ _
      · split <;> exact List.cons_ne_nil _ _
  | leaveGame playerId =>
      rw [decide_leaveGame] at accepted
      obtain rfl := Except.ok.inj accepted
      split <;> exact List.cons_ne_nil _ _

namespace EventStore

/-- Every envelope carries the store's game and its own position. -/
def Placed (store : EventStore) : Prop :=
  ∀ (index : ℕ) (envelope : GameEventEnvelope), store.snapshot[index]? = some envelope →
    envelope.gameId = store.gameId ∧ envelope.sequence = index.toUInt64

theorem Placed.append_singleton {store : EventStore} (placed : store.Placed) (stamp : Stamp)
    (event : GameEvent) (commandId : Option Uuid) :
    Placed { store with log := store.log ++
      [.new stamp store.gameId store.log.length.toUInt64 event commandId] } := by
  intro index envelope found
  rcases Nat.lt_trichotomy index store.log.length with earlier | here | beyond
  · exact placed index envelope ((List.getElem?_append_left earlier).symm.trans found)
  · subst here
    obtain rfl := Option.some.inj (List.getElem?_concat_length.symm.trans found)
    exact ⟨rfl, rfl⟩
  · have missing : (store.log ++ [GameEventEnvelope.new stamp store.gameId
        store.log.length.toUInt64 event commandId])[index]? = none :=
      List.getElem?_eq_none (by simp only [List.length_append, List.length_singleton]; omega)
    cases missing.symm.trans found

theorem Placed.appendBatch {store : EventStore} (placed : store.Placed) (fresh : ℕ → Stamp)
    (events : List GameEvent) (commandId : Option Uuid) :
    (store.appendBatch fresh events commandId).1.Placed := by
  induction events generalizing store with
  | nil => exact placed
  | cons event events induction =>
      rw [EventStore.appendBatch]
      exact induction (placed.append_singleton (fresh store.log.length) event commandId)

theorem appendBatch_commandId (fresh : ℕ → Stamp) (store : EventStore) (events : List GameEvent)
    (commandId : Option Uuid) {envelope : GameEventEnvelope}
    (appended : envelope ∈ (store.appendBatch fresh events commandId).2) :
    envelope.commandId = commandId := by
  induction events generalizing store with
  | nil => cases appended
  | cons event events induction =>
      rw [EventStore.appendBatch] at appended
      rcases List.mem_cons.mp appended with rfl | later
      · rfl
      · exact induction _ later

end EventStore

section Broadcasters

variable {E B : Type} [Anyhow E] [NetworkBroadcaster E B]

/-- What was heard of a broadcaster grows by exactly the events whose broadcast succeeds. -/
structure Hears (heard : B → List GameEvent) : Prop where
  succeeded : ∀ {before after : B} {event : GameEvent},
    NetworkBroadcaster.broadcast before event = (after, (.ok () : Except E Unit)) →
      heard after = heard before ++ [event]
  failed : ∀ {before after : B} {event : GameEvent} {error : E},
    NetworkBroadcaster.broadcast before event = (after, .error error) → heard after = heard before

/-- A batch is heard up to the event whose broadcast fails. -/
theorem Hears.broadcastAll {heard : B → List GameEvent} (hears : Hears heard) (broadcaster : B)
    (events : List GameEvent) :
    ∃ front back, events = front ++ back ∧
      heard (GameService.broadcastAll (E := E) broadcaster events).1 = heard broadcaster ++ front ∧
        (back = [] ↔ (GameService.broadcastAll (E := E) broadcaster events).2 = .ok ()) := by
  induction events generalizing broadcaster with
  | nil => exact ⟨[], [], rfl, (List.append_nil _).symm, by simp [GameService.broadcastAll]⟩
  | cons event events induction =>
      cases sending : NetworkBroadcaster.broadcast broadcaster event with
      | mk next result =>
          cases result with
          | error error =>
              refine ⟨[], event :: events, rfl, ?_, ?_⟩
              · rw [GameService.broadcastAll, sending, List.append_nil]
                exact hears.failed sending
              · rw [GameService.broadcastAll, sending]
                simp
          | ok =>
              obtain ⟨front, back, rfl, heard_eq, complete⟩ := induction next
              refine ⟨event :: front, back, rfl, ?_, ?_⟩
              · rw [GameService.broadcastAll, sending]
                change heard (GameService.broadcastAll (E := E) next (front ++ back)).1 = _
                rw [heard_eq, hears.succeeded sending, List.append_assoc, List.singleton_append]
              · rw [GameService.broadcastAll, sending]
                exact complete

/-- The broadcaster never fails. -/
def Reliable (E B : Type) [NetworkBroadcaster E B] : Prop :=
  ∀ (broadcaster : B) (event : GameEvent),
    (NetworkBroadcaster.broadcast broadcaster event).2 = (.ok () : Except E Unit)

theorem Reliable.broadcastAll (reliable : Reliable E B) (broadcaster : B)
    (events : List GameEvent) :
    (GameService.broadcastAll (E := E) broadcaster events).2 = .ok () := by
  induction events generalizing broadcaster with
  | nil => rfl
  | cons event events induction =>
      have sent := reliable broadcaster event
      rw [GameService.broadcastAll]
      split
      · exact induction _
      · rename_i failure
        rw [failure] at sent
        cases sent

end Broadcasters

section Publishers

variable {E P : Type} [EventPublisher E P]

/-- A topic grows by exactly the batches whose publishing succeeds. -/
structure Publishes (topic : P → List GameEventEnvelope) : Prop where
  succeeded : ∀ {before after : P} {envelopes : List GameEventEnvelope},
    EventPublisher.publish before (.eventBatch envelopes) = (after, (.ok () : Except E Unit)) →
      topic after = topic before ++ envelopes
  failed : ∀ {before after : P} {envelopes : List GameEventEnvelope} {error : E},
    EventPublisher.publish before (.eventBatch envelopes) = (after, .error error) →
      topic after = topic before

theorem Publishes.publish {topic : P → List GameEventEnvelope} (publishes : Publishes topic)
    (publisher : P) (envelopes : List GameEventEnvelope) :
    topic (EventPublisher.publish publisher (.eventBatch envelopes)).1 = topic publisher ++
      if (EventPublisher.publish publisher (.eventBatch envelopes)).2.isOk then envelopes
      else [] := by
  cases published : EventPublisher.publish publisher (.eventBatch envelopes) with
  | mk after result =>
      cases result with
      | ok => exact publishes.succeeded published
      | error error => exact (publishes.failed published).trans (List.append_nil _).symm

end Publishers

/-- The publisher that captures what is published. -/
structure CapturingPublisher where
  published : List GameEventEnvelope
  commands : List CommandEnvelope
  deriving DecidableEq, Repr

/-- Every message is taken. -/
def CapturingPublisher.publish (publisher : CapturingPublisher) :
    BrokerMessage → CapturingPublisher × Except ErrorChain Unit
  | .command cmd => ({ publisher with commands := publisher.commands ++ [cmd] }, .ok ())
  | .eventBatch envelopes =>
      ({ publisher with published := publisher.published ++ envelopes }, .ok ())

instance : EventPublisher ErrorChain CapturingPublisher where
  publish := CapturingPublisher.publish

/-- Its counterpart for the network port. -/
structure CapturingBroadcaster where
  sent : List GameEvent
  deriving DecidableEq, Repr

instance : NetworkBroadcaster ErrorChain CapturingBroadcaster where
  broadcast broadcaster event := (⟨broadcaster.sent ++ [event]⟩, .ok ())
  sendTo broadcaster _ _ := (broadcaster, .ok ())

theorem CapturingBroadcaster.hears : Hears CapturingBroadcaster.sent where
  succeeded := by
    rintro before after event sending
    cases sending
    rfl
  failed := by
    rintro before after event error sending
    cases sending

theorem CapturingBroadcaster.reliable : Reliable ErrorChain CapturingBroadcaster :=
  fun _ _ => rfl

theorem CapturingPublisher.publishes : Publishes CapturingPublisher.published where
  succeeded := by
    rintro before after envelopes published
    cases published
    rfl
  failed := by
    rintro before after envelopes error published
    cases published

/-! ## Batches -/

/-- What one accepted envelope adds to the log, and whether its publishing succeeds. -/
structure Batch where
  cmdEnv : CommandEnvelope
  envelopes : List GameEventEnvelope
  published : Bool
  deriving DecidableEq, Repr

namespace GameService

variable {E P B : Type} [Anyhow E] [EventPublisher E P] [NetworkBroadcaster E B]

/-- The growth of the log by one handling. -/
def batch (fresh : ℕ → Stamp) (service : GameService P B) (cmdEnv : CommandEnvelope) : Batch :=
  let envelopes :=
    (service.handle fresh cmdEnv).1.store.snapshot.drop service.store.snapshot.length
  ⟨cmdEnv, envelopes, (EventPublisher.publish service.publisher (.eventBatch envelopes)).2.isOk⟩

/-- The batches of the envelopes that are handled without an error, in the order of handling. -/
def ledger (fresh : ℕ → Stamp) (service : GameService P B) : List CommandEnvelope → List Batch
  | [] => []
  | cmdEnv :: envelopes =>
      let later := (service.handle fresh cmdEnv).1.ledger fresh envelopes
      match (service.handle fresh cmdEnv).2 with
      | .ok () => service.batch fresh cmdEnv :: later
      | .error _ => later

/-- The envelopes that are handled without an error. -/
def accepted (fresh : ℕ → Stamp) (service : GameService P B) :
    List CommandEnvelope → List CommandEnvelope
  | [] => []
  | cmdEnv :: envelopes =>
      let later := (service.handle fresh cmdEnv).1.accepted fresh envelopes
      match (service.handle fresh cmdEnv).2 with
      | .ok () => cmdEnv :: later
      | .error _ => later

theorem ledger_cmdEnv (fresh : ℕ → Stamp) (service : GameService P B)
    (envelopes : List CommandEnvelope) :
    (service.ledger fresh envelopes).map Batch.cmdEnv = service.accepted fresh envelopes := by
  induction envelopes generalizing service with
  | nil => rfl
  | cons cmdEnv envelopes induction =>
      rw [ledger, accepted]
      split
      · exact congrArg (cmdEnv :: ·) (induction _)
      · exact induction _

/-- Over a reliable broadcaster an envelope is either rejected without a trace, or its events are
appended, published and broadcast. -/
theorem handle_of_reliable (fresh : ℕ → Stamp) (reliable : Reliable E B)
    (service : GameService P B) (cmdEnv : CommandEnvelope) :
    (∃ error, service.handle fresh cmdEnv = (service, .error error)) ∨
      ∃ events, cmdEnv.gameId = service.store.gameId ∧
        decider.decide (decider.hydrate service.store.events) cmdEnv.command = .ok events ∧
        let appended := service.store.appendBatch fresh events (some cmdEnv.id)
        service.handle fresh cmdEnv =
          ({ store := appended.1
             publisher := (EventPublisher.publish service.publisher (.eventBatch appended.2)).1
             broadcaster := (broadcastAll service.broadcaster events).1 },
            .ok ()) := by
  by_cases forUs : cmdEnv.gameId = service.store.gameId
  · cases decision : decider.decide (decider.hydrate service.store.events) cmdEnv.command with
    | error error => exact .inl ⟨_, handle_of_refused fresh forUs decision⟩
    | ok events =>
        refine .inr ⟨events, forUs, rfl, ?_⟩
        rw [handle_of_accepted fresh forUs decision, reliable.broadcastAll]
  · exact .inl ⟨_, handle_of_wrongGame fresh service cmdEnv forUs⟩

/-- The growth of log, topic and network from one service to a later one, batch by batch. -/
structure Grows (heard : B → List GameEvent) (topic : P → List GameEventEnvelope)
    (before after : GameService P B) (ledger : List Batch) : Prop where
  log : after.store.log = before.store.log ++ ledger.flatMap Batch.envelopes
  heard : heard after.broadcaster =
    heard before.broadcaster ++ (ledger.flatMap Batch.envelopes).map GameEventEnvelope.event
  topic : topic after.publisher =
    topic before.publisher ++ (ledger.filter Batch.published).flatMap Batch.envelopes

theorem Grows.refl (heard : B → List GameEvent) (topic : P → List GameEventEnvelope)
    (service : GameService P B) : Grows heard topic service service [] := by
  constructor <;> simp

theorem Grows.trans {heard : B → List GameEvent} {topic : P → List GameEventEnvelope}
    {before middle after : GameService P B} {earlier later : List Batch}
    (first : Grows heard topic before middle earlier)
    (second : Grows heard topic middle after later) :
    Grows heard topic before after (earlier ++ later) where
  log := by rw [second.log, first.log, List.append_assoc, List.flatMap_append]
  heard := by
    rw [second.heard, first.heard, List.append_assoc, List.flatMap_append, List.map_append]
  topic := by
    rw [second.topic, first.topic, List.append_assoc, List.filter_append, List.flatMap_append]

/-- The batch of an accepted envelope holds the envelopes of its decided events. -/
theorem batch_of_accepted {fresh : ℕ → Stamp} {service : GameService P B}
    {cmdEnv : CommandEnvelope} {events : List GameEvent} {after : GameService P B}
    {result : Except E Unit} (handled : service.handle fresh cmdEnv = (after, result))
    (grown : after.store = (service.store.appendBatch fresh events (some cmdEnv.id)).1) :
    service.batch fresh cmdEnv =
      ⟨cmdEnv, (service.store.appendBatch fresh events (some cmdEnv.id)).2,
        (EventPublisher.publish service.publisher
          (.eventBatch (service.store.appendBatch fresh events (some cmdEnv.id)).2)).2.isOk⟩ := by
  have envelopes_eq : after.store.snapshot.drop service.store.snapshot.length =
      (service.store.appendBatch fresh events (some cmdEnv.id)).2 := by
    rw [grown, EventStore.appendBatch_store]
    exact List.drop_left
  rw [batch, handled]
  dsimp only
  rw [envelopes_eq]

/-- One accepted envelope makes the service grow by its batch. -/
theorem Grows.batch {fresh : ℕ → Stamp} {heard : B → List GameEvent} (hears : Hears heard)
    {topic : P → List GameEventEnvelope} (publishes : Publishes topic) (reliable : Reliable E B)
    {service : GameService P B} {cmdEnv : CommandEnvelope}
    (accepted : (service.handle fresh cmdEnv).2 = .ok ()) :
    Grows heard topic service (service.handle fresh cmdEnv).1 [service.batch fresh cmdEnv] := by
  rcases handle_of_reliable fresh reliable service cmdEnv with ⟨error, rejected⟩ |
    ⟨events, _, _, handled⟩
  · rw [rejected] at accepted
    cases accepted
  · rw [batch_of_accepted handled rfl, handled]
    constructor
    · rw [EventStore.appendBatch_store, List.flatMap_singleton]
    · obtain ⟨front, back, rfl, heard_eq, complete⟩ :=
        hears.broadcastAll service.broadcaster events
      obtain rfl := complete.mpr (reliable.broadcastAll _ _)
      rw [List.flatMap_singleton, EventStore.appendBatch_events, heard_eq, List.append_nil]
    · rw [publishes.publish]
      generalize (service.store.appendBatch fresh events (some cmdEnv.id)).2 = envelopes
      cases (EventPublisher.publish service.publisher (.eventBatch envelopes)).2.isOk <;> simp

/-- A run makes the service grow by its ledger. -/
theorem grows_handleAll (fresh : ℕ → Stamp) {heard : B → List GameEvent} (hears : Hears heard)
    {topic : P → List GameEventEnvelope} (publishes : Publishes topic) (reliable : Reliable E B)
    (service : GameService P B) (envelopes : List CommandEnvelope) :
    Grows heard topic service (service.handleAll fresh envelopes)
      (service.ledger fresh envelopes) := by
  induction envelopes generalizing service with
  | nil => exact .refl heard topic service
  | cons cmdEnv envelopes induction =>
      rw [handleAll_cons, ledger]
      split
      · rename_i accepted
        exact (Grows.batch hears publishes reliable accepted).trans (induction _)
      · rename_i error failed
        rcases handle_of_reliable fresh reliable service cmdEnv with ⟨_, rejected⟩ |
          ⟨_, _, _, handled⟩
        · rw [rejected]
          exact induction service
        · rw [handled] at failed
          cases failed

/-- What holds of the batch of every accepted envelope holds of a ledger. -/
theorem forall_mem_ledger {fresh : ℕ → Stamp} {holds : Batch → Prop}
    (ofAccepted : ∀ (service : GameService P B) (cmdEnv : CommandEnvelope),
      (service.handle fresh cmdEnv).2 = .ok () → holds (service.batch fresh cmdEnv))
    (service : GameService P B) (envelopes : List CommandEnvelope) :
    ∀ batch ∈ service.ledger fresh envelopes, holds batch := by
  induction envelopes generalizing service with
  | nil => simp [ledger]
  | cons cmdEnv envelopes induction =>
      rw [ledger]
      split
      · rename_i accepted
        exact List.forall_mem_cons.mpr ⟨ofAccepted service cmdEnv accepted, induction _⟩
      · exact induction _

/-- A batch is not empty and names the command that caused it. -/
theorem batch_caused {fresh : ℕ → Stamp} (reliable : Reliable E B) (service : GameService P B)
    (cmdEnv : CommandEnvelope) (accepted : (service.handle fresh cmdEnv).2 = .ok ()) :
    (service.batch fresh cmdEnv).envelopes ≠ [] ∧
      ∀ envelope ∈ (service.batch fresh cmdEnv).envelopes,
        envelope.commandId = some (service.batch fresh cmdEnv).cmdEnv.id := by
  rcases handle_of_reliable fresh reliable service cmdEnv with ⟨error, rejected⟩ |
    ⟨events, _, decided, handled⟩
  · rw [rejected] at accepted
    cases accepted
  · rw [batch_of_accepted handled rfl]
    constructor
    · intro (none : (service.store.appendBatch fresh events (some cmdEnv.id)).2 = [])
      have events_eq := service.store.appendBatch_events fresh events (some cmdEnv.id)
      rw [none] at events_eq
      exact decide_ne_nil decided events_eq.symm
    · intro envelope
      exact service.store.appendBatch_commandId fresh events (some cmdEnv.id)

theorem handleAll_placed (fresh : ℕ → Stamp) (reliable : Reliable E B) {service : GameService P B}
    (placed : service.store.Placed) (envelopes : List CommandEnvelope) :
    (service.handleAll fresh envelopes).store.Placed := by
  induction envelopes generalizing service with
  | nil => exact placed
  | cons cmdEnv envelopes induction =>
      rw [handleAll_cons]
      apply induction
      rcases handle_of_reliable fresh reliable service cmdEnv with ⟨error, rejected⟩ |
        ⟨events, _, _, handled⟩
      · rw [rejected]
        exact placed
      · rw [handled]
        exact placed.appendBatch fresh events (some cmdEnv.id)

/-- Log, topic and network tell the same history. -/
structure SinksAgree (fresh : ℕ → Stamp) (heard : B → List GameEvent)
    (topic : P → List GameEventEnvelope) (service : GameService P B)
    (envelopes : List CommandEnvelope) : Prop where
  /-- The broadcasts are the log. -/
  broadcast : heard (service.handleAll fresh envelopes).broadcaster =
    heard service.broadcaster ++ (service.handleAll fresh envelopes).store.events
  /-- The log consists of one batch per accepted envelope. -/
  batched : (service.handleAll fresh envelopes).store.snapshot =
    (service.ledger fresh envelopes).flatMap Batch.envelopes
  accepted : (service.ledger fresh envelopes).map Batch.cmdEnv = service.accepted fresh envelopes
  caused : ∀ batch ∈ service.ledger fresh envelopes, batch.envelopes ≠ [] ∧
    ∀ envelope ∈ batch.envelopes, envelope.commandId = some batch.cmdEnv.id
  placed : ∀ (index : ℕ) (envelope : GameEventEnvelope),
    (service.handleAll fresh envelopes).store.snapshot[index]? = some envelope →
      envelope.gameId = service.store.gameId ∧ envelope.sequence = index.toUInt64
  /-- The topic misses exactly the batches whose publishing failed. -/
  published : topic (service.handleAll fresh envelopes).publisher =
    topic service.publisher ++
      ((service.ledger fresh envelopes).filter Batch.published).flatMap Batch.envelopes
  complete : (∀ batch ∈ service.ledger fresh envelopes, batch.published) →
    topic (service.handleAll fresh envelopes).publisher =
      topic service.publisher ++ (service.handleAll fresh envelopes).store.snapshot

end GameService

/-- From an empty store on, log, topic and network agree, whichever publishings fail. -/
theorem sinks_agree {E P B : Type} [Anyhow E] [EventPublisher E P] [NetworkBroadcaster E B]
    (fresh : ℕ → Stamp) {heard : B → List GameEvent} (hears : Hears heard)
    {topic : P → List GameEventEnvelope} (publishes : Publishes topic) (reliable : Reliable E B)
    (gameId : GameId) (publisher : P) (broadcaster : B) (envelopes : List CommandEnvelope) :
    (GameService.build gameId publisher broadcaster).SinksAgree fresh heard topic envelopes := by
  let service := GameService.build gameId publisher broadcaster
  have grows := service.grows_handleAll fresh hears publishes reliable envelopes
  have log : (service.handleAll fresh envelopes).store.log =
      (service.ledger fresh envelopes).flatMap Batch.envelopes := by
    rw [grows.log]
    exact List.nil_append _
  have atStart : service.store.Placed := by
    intro index envelope found
    cases found
  have placed := GameService.handleAll_placed fresh reliable atStart envelopes
  exact {
    broadcast := by
      rw [grows.heard, ← log]
      rfl
    batched := log
    accepted := service.ledger_cmdEnv fresh envelopes
    caused := GameService.forall_mem_ledger (GameService.batch_caused reliable) service envelopes
    placed := by
      intro index envelope found
      have own := placed index envelope found
      rw [GameService.handleAll_gameId] at own
      exact own
    published := grows.topic
    complete := by
      intro always
      rw [grows.topic, List.filter_eq_self.mpr always, ← log]
      rfl }

private def noon : Stamp := ⟨⟨0⟩, ⟨0⟩⟩

private def posted (command : GameCommand) : CommandEnvelope := .new noon ⟨⟨0⟩⟩ command

/-- Two joins, a refused join and a tile. -/
theorem sinks_agree_opening :
    (GameService.build ⟨⟨0⟩⟩ (⟨[], []⟩ : CapturingPublisher) ⟨[]⟩).SinksAgree (fun _ => noon)
      CapturingBroadcaster.sent CapturingPublisher.published
        [posted (.joinGame ⟨1⟩ "Ann"), posted (.joinGame ⟨2⟩ "Bob"),
          posted (.joinGame ⟨3⟩ "Eve"), posted (.placeTile ⟨1⟩ 4)] := by
  have agree := sinks_agree (fun _ => noon) CapturingBroadcaster.hears
    CapturingPublisher.publishes CapturingBroadcaster.reliable ⟨⟨0⟩⟩ ⟨[], []⟩ ⟨[]⟩
    [posted (.joinGame ⟨1⟩ "Ann"), posted (.joinGame ⟨2⟩ "Bob"),
      posted (.joinGame ⟨3⟩ "Eve"), posted (.placeTile ⟨1⟩ 4)]
  exact agree

/-! ## Runs without their rejected envelopes -/

/-- What an envelope of the log says, apart from its fresh id and time. -/
structure Payload where
  commandId : Option Uuid
  sequence : UInt64
  gameId : GameId
  event : GameEvent
  deriving DecidableEq, Repr

def GameEventEnvelope.payload (envelope : GameEventEnvelope) : Payload where
  commandId := envelope.commandId
  sequence := envelope.sequence
  gameId := envelope.gameId
  event := envelope.event

namespace EventStore

/-- Two stores that differ in the stamps of their envelopes only. -/
structure Alike (store store' : EventStore) : Prop where
  gameId : store.gameId = store'.gameId
  payloads : store.snapshot.map GameEventEnvelope.payload =
    store'.snapshot.map GameEventEnvelope.payload

namespace Alike

theorem refl (store : EventStore) : Alike store store := ⟨rfl, rfl⟩

variable {store store' : EventStore} (alike : Alike store store')
include alike

theorem events : store.events = store'.events := by
  have same := congrArg (List.map Payload.event) alike.payloads
  rw [List.map_map, List.map_map] at same
  exact same

theorem length : store.log.length = store'.log.length := by
  have same := congrArg List.length alike.payloads
  rw [List.length_map, List.length_map] at same
  exact same

theorem append_singleton (stamp stamp' : Stamp) (event : GameEvent) (commandId : Option Uuid) :
    Alike
      { store with log := store.log ++
        [.new stamp store.gameId store.log.length.toUInt64 event commandId] }
      { store' with log := store'.log ++
        [.new stamp' store'.gameId store'.log.length.toUInt64 event commandId] } where
  gameId := alike.gameId
  payloads := by
    have payloads : store.log.map GameEventEnvelope.payload =
        store'.log.map GameEventEnvelope.payload := alike.payloads
    rw [snapshot, snapshot, List.map_append, List.map_append, payloads, alike.length, alike.gameId]
    rfl

end Alike

/-- The batches that alike stores append to differ in their stamps only. -/
theorem Alike.appendBatch {store store' : EventStore} (alike : Alike store store')
    (fresh fresh' : ℕ → Stamp) (events : List GameEvent) (commandId : Option Uuid) :
    Alike (store.appendBatch fresh events commandId).1
        (store'.appendBatch fresh' events commandId).1 ∧
      (store.appendBatch fresh events commandId).2.map GameEventEnvelope.payload =
        (store'.appendBatch fresh' events commandId).2.map GameEventEnvelope.payload := by
  induction events generalizing store store' with
  | nil => exact ⟨alike, rfl⟩
  | cons event events induction =>
      rw [EventStore.appendBatch, EventStore.appendBatch]
      obtain ⟨later, batches⟩ := induction (alike.append_singleton (fresh store.log.length)
        (fresh' store'.log.length) event commandId)
      refine ⟨later, ?_⟩
      rw [List.map_cons, List.map_cons, batches, alike.length, alike.gameId]
      rfl

/-- What handling an envelope does to the store, whatever the adapters do. -/
def receive (fresh : ℕ → Stamp) (store : EventStore) (cmdEnv : CommandEnvelope) : EventStore :=
  if cmdEnv.gameId = store.gameId then
    match decider.decide (decider.hydrate store.events) cmdEnv.command with
    | .ok events => (store.appendBatch fresh events (some cmdEnv.id)).1
    | .error _ => store
  else store

/-- The log of a run, without its stamps. -/
def replies (fresh : ℕ → Stamp) (store : EventStore) (envelopes : List CommandEnvelope) :
    List Payload :=
  (envelopes.foldl (receive fresh) store).snapshot.map GameEventEnvelope.payload

theorem Alike.receive {store store' : EventStore} (alike : Alike store store')
    (fresh fresh' : ℕ → Stamp) (cmdEnv : CommandEnvelope) :
    Alike (store.receive fresh cmdEnv) (store'.receive fresh' cmdEnv) := by
  rw [EventStore.receive, EventStore.receive, alike.gameId, alike.events]
  split
  · split
    · exact (alike.appendBatch fresh fresh' _ _).1
    · exact alike
  · exact alike

theorem Alike.replies {store store' : EventStore} (alike : Alike store store')
    (fresh fresh' : ℕ → Stamp) (envelopes : List CommandEnvelope) :
    store.replies fresh envelopes = store'.replies fresh' envelopes := by
  induction envelopes generalizing store store' with
  | nil => exact alike.payloads
  | cons cmdEnv envelopes induction => exact induction (alike.receive fresh fresh' cmdEnv)

theorem receive_gameId (fresh : ℕ → Stamp) (store : EventStore) (cmdEnv : CommandEnvelope) :
    (store.receive fresh cmdEnv).gameId = store.gameId := by
  rw [receive]
  split
  · split
    · rw [appendBatch_store]
    · rfl
  · rfl

/-- Envelopes of other games do not show in the log. -/
theorem replies_filter (fresh : ℕ → Stamp) (store : EventStore)
    (envelopes : List CommandEnvelope) :
    store.replies fresh (envelopes.filter fun cmdEnv => cmdEnv.gameId = store.gameId) =
      store.replies fresh envelopes := by
  induction envelopes generalizing store with
  | nil => rfl
  | cons cmdEnv envelopes induction =>
      have later := induction (store.receive fresh cmdEnv)
      rw [receive_gameId] at later
      by_cases own : cmdEnv.gameId = store.gameId
      · rw [List.filter_cons_of_pos (by simp [own])]
        exact later
      · have same : store.receive fresh cmdEnv = store := if_neg own
        rw [List.filter_cons_of_neg (by simp [own])]
        rw [same] at later
        exact later.trans (congrArg (replies fresh · envelopes) same.symm)

end EventStore

namespace GameService

variable {E P B : Type} [Anyhow E] [EventPublisher E P] [NetworkBroadcaster E B]

theorem handle_store (fresh : ℕ → Stamp) (service : GameService P B) (cmdEnv : CommandEnvelope) :
    (service.handle fresh cmdEnv).1.store = service.store.receive fresh cmdEnv := by
  rw [EventStore.receive]
  split
  · rename_i forUs
    split
    · rename_i events decided
      rw [handle_of_accepted fresh forUs decided]
    · rename_i error refused
      rw [handle_of_refused fresh forUs refused]
  · rename_i foreign
    rw [handle_of_wrongGame fresh service cmdEnv foreign]

theorem handleAll_payloads (fresh : ℕ → Stamp) (service : GameService P B)
    (envelopes : List CommandEnvelope) :
    (service.handleAll fresh envelopes).store.snapshot.map GameEventEnvelope.payload =
      service.store.replies fresh envelopes := by
  induction envelopes generalizing service with
  | nil => rfl
  | cons cmdEnv envelopes induction =>
      rw [handleAll_cons, induction, handle_store]
      rfl

/-- Two services that differ in the stamps of their envelopes only. -/
structure Alike (handed : P → List (List GameEventEnvelope)) (service service' : GameService P B) :
    Prop where
  store : service.store.Alike service'.store
  handed : (handed service.publisher).map (List.map GameEventEnvelope.payload) =
    (handed service'.publisher).map (List.map GameEventEnvelope.payload)
  broadcaster : service.broadcaster = service'.broadcaster

/-- A publisher remembers the batches it was handed. -/
def Remembers (handed : P → List (List GameEventEnvelope)) : Prop :=
  ∀ (publisher : P) (envelopes : List GameEventEnvelope),
    handed (EventPublisher.publish publisher (.eventBatch envelopes)).1 =
      handed publisher ++ [envelopes]

/-- Alike services handle an envelope alike. -/
theorem Alike.handle {handed : P → List (List GameEventEnvelope)} (remembers : Remembers handed)
    {service service' : GameService P B} (alike : Alike handed service service')
    (fresh fresh' : ℕ → Stamp) {cmdEnv : CommandEnvelope} {events : List GameEvent}
    (forUs : cmdEnv.gameId = service.store.gameId)
    (decided : decider.decide (decider.hydrate service.store.events) cmdEnv.command =
      .ok events) :
    Alike handed (service.handle fresh cmdEnv).1 (service'.handle fresh' cmdEnv).1 ∧
      (service.handle fresh cmdEnv).2 = (service'.handle fresh' cmdEnv).2 := by
  have forUs' := forUs.trans alike.store.gameId
  have decided' := decided
  rw [alike.store.events] at decided'
  obtain ⟨store, batches⟩ := alike.store.appendBatch fresh fresh' events (some cmdEnv.id)
  rw [handle_of_accepted fresh forUs decided, handle_of_accepted fresh' forUs' decided',
    alike.broadcaster]
  refine ⟨⟨store, ?_, rfl⟩, rfl⟩
  rw [remembers, remembers, List.map_append, List.map_append, alike.handed, List.map_singleton,
    List.map_singleton, batches]

/-- The run of the accepted envelopes alone is the whole run, up to stamps. -/
structure WithoutRejected (handed : P → List (List GameEventEnvelope)) (fresh fresh' : ℕ → Stamp)
    (service : GameService P B) (envelopes : List CommandEnvelope) : Prop where
  sublist : (service.accepted fresh envelopes).Sublist envelopes
  accepted : service.accepted fresh' (service.accepted fresh envelopes) =
    service.accepted fresh envelopes
  alike : Alike handed (service.handleAll fresh envelopes)
    (service.handleAll fresh' (service.accepted fresh envelopes))

theorem accepted_sublist (fresh : ℕ → Stamp) (service : GameService P B)
    (envelopes : List CommandEnvelope) : (service.accepted fresh envelopes).Sublist envelopes := by
  induction envelopes generalizing service with
  | nil => exact .slnil
  | cons cmdEnv envelopes induction =>
      rw [accepted]
      split
      · exact (induction _).cons_cons cmdEnv
      · exact (induction _).cons cmdEnv

/-- Alike services stay alike when one of them is spared the envelopes the other rejects. -/
theorem Alike.spared {handed : P → List (List GameEventEnvelope)} (remembers : Remembers handed)
    (reliable : Reliable E B) (fresh fresh' : ℕ → Stamp) {service service' : GameService P B}
    (alike : Alike handed service service') (envelopes : List CommandEnvelope) :
    service'.accepted fresh' (service.accepted fresh envelopes) =
        service.accepted fresh envelopes ∧
      Alike handed (service.handleAll fresh envelopes)
        (service'.handleAll fresh' (service.accepted fresh envelopes)) := by
  induction envelopes generalizing service service' with
  | nil => exact ⟨rfl, alike⟩
  | cons cmdEnv envelopes induction =>
      rw [handleAll_cons, accepted]
      rcases handle_of_reliable fresh reliable service cmdEnv with ⟨error, rejected⟩ |
        ⟨events, forUs, decided, handled⟩
      · rw [rejected]
        exact induction alike
      · obtain ⟨later, results⟩ := alike.handle remembers fresh fresh' forUs decided
        obtain ⟨stillAccepted, laterAlike⟩ := induction later
        rw [handled] at results
        simp only [handled, handleAll_cons, accepted, ← results]
        rw [handled] at stillAccepted laterAlike
        exact ⟨congrArg (cmdEnv :: ·) stillAccepted, laterAlike⟩

end GameService

/-- Rejected envelopes can be left out of a run, up to stamps.  The log of every service, up to
stamps, is a function of its game and of the sub-stream addressed to it. -/
theorem rejected_invisible {E P B : Type} [Anyhow E] [EventPublisher E P] [NetworkBroadcaster E B]
    {handed : P → List (List GameEventEnvelope)} (remembers : GameService.Remembers handed)
    (reliable : Reliable E B) :
    (∀ (fresh fresh' : ℕ → Stamp) (gameId : GameId) (publisher : P) (broadcaster : B)
      (envelopes : List CommandEnvelope),
      (GameService.build gameId publisher broadcaster).WithoutRejected handed fresh fresh'
        envelopes) ∧
    ∃ logOf : GameId → List CommandEnvelope → List Payload,
      ∀ (fresh : ℕ → Stamp) (gameId : GameId) (publisher : P) (broadcaster : B)
        (stream : List CommandEnvelope),
        ((GameService.build gameId publisher broadcaster).handleAll fresh stream).store.snapshot.map
            GameEventEnvelope.payload =
          logOf gameId (stream.filter fun cmdEnv => cmdEnv.gameId = gameId) := by
  constructor
  · intro fresh fresh' gameId publisher broadcaster envelopes
    let service := GameService.build gameId publisher broadcaster
    have same : service.Alike handed service := ⟨.refl service.store, rfl, rfl⟩
    obtain ⟨accepted, alike⟩ := same.spared remembers reliable fresh fresh' envelopes
    exact ⟨service.accepted_sublist fresh envelopes, accepted, alike⟩
  · refine ⟨fun gameId => (EventStore.new gameId).replies fun _ => noon, ?_⟩
    intro fresh gameId publisher broadcaster stream
    rw [GameService.handleAll_payloads]
    have own := (EventStore.new gameId).replies_filter fresh stream
    exact own.symm.trans ((EventStore.Alike.refl (.new gameId)).replies fresh (fun _ => noon) _)

/-- A publisher that keeps the batches it is handed. -/
structure BatchKeeper where
  batches : List (List GameEventEnvelope)
  deriving DecidableEq, Repr

instance : EventPublisher ErrorChain BatchKeeper where
  publish
    | publisher, .command _ => (publisher, .ok ())
    | publisher, .eventBatch envelopes => (⟨publisher.batches ++ [envelopes]⟩, .ok ())

theorem rejected_invisible_captured :
    (∀ (fresh fresh' : ℕ → Stamp) (gameId : GameId) (publisher : BatchKeeper)
      (broadcaster : CapturingBroadcaster) (envelopes : List CommandEnvelope),
      (GameService.build gameId publisher broadcaster).WithoutRejected BatchKeeper.batches fresh
        fresh' envelopes) ∧
    ∃ logOf : GameId → List CommandEnvelope → List Payload,
      ∀ (fresh : ℕ → Stamp) (gameId : GameId) (publisher : BatchKeeper)
        (broadcaster : CapturingBroadcaster) (stream : List CommandEnvelope),
        ((GameService.build gameId publisher broadcaster).handleAll fresh stream).store.snapshot.map
            GameEventEnvelope.payload =
          logOf gameId (stream.filter fun cmdEnv => cmdEnv.gameId = gameId) :=
  rejected_invisible (fun _ _ => rfl) CapturingBroadcaster.reliable

end TicTacTussle
