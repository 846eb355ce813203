import TicTacTussle.Network

/-!
# Broker commands and their acknowledgement

The game loop drains the commands of the broker, handles each one and acknowledges it when it
succeeded or its error downcasts to a domain error.  `handle` keeps the type of a wrong game id but
flattens the refusals of `decide` to text, so exactly these refusals go unacknowledged.
-/

namespace TicTacTussle

open GameDecider

/-- The handle of an inbound broker message, named by the channel its closure signals. -/
structure AckHandle where
  channel : ℕ
  deriving DecidableEq, Repr

/-- What the consumer learns from a handle: a call of `ack`, or that it was dropped. -/
inductive AckSignal where
  | acked
  | dropped
  deriving DecidableEq, Repr

structure BrokerCommand where
  commandEnvelope : CommandEnvelope
  ack : AckHandle
  deriving DecidableEq, Repr

/-- Acknowledge a success or a domain error; drop the handle on any other error. -/
def settle {E : Type} [Anyhow E] : Except E Unit → AckSignal
  | .ok () => .acked
  | .error error => if (Anyhow.downcastRef error).isSome then .acked else .dropped

section Service

variable {E P B : Type} [Anyhow E] [EventPublisher E P] [NetworkBroadcaster E B]

def drainBrokerCommands (fresh : ℕ → Stamp) (service : GameService P B) :
    List BrokerCommand → GameService P B × List (AckHandle × AckSignal)
  | [] => (service, [])
  | command :: queue =>
      let (service, result) := service.handle fresh command.commandEnvelope
      let (service, signals) := drainBrokerCommands fresh service queue
      (service, (command.ack, settle result) :: signals)

namespace GameService

/-- A domain rule refuses the envelope: it is for another game, or `decide` refuses its command. -/
def DomainRefusal (service : GameService P B) (cmdEnv : CommandEnvelope) : Prop :=
  cmdEnv.gameId ≠ service.store.gameId ∨
    decider.Refuses service.store.events cmdEnv.command

def BroadcastFails (service : GameService P B) (cmdEnv : CommandEnvelope) : Prop :=
  cmdEnv.gameId = service.store.gameId ∧
    ∃ events, decider.decide (decider.hydrate service.store.events) cmdEnv.command = .ok events ∧
      ∃ error : E, (broadcastAll service.broadcaster events).2 = .error error

end GameService

open GameService

/-- The signal of every queued command follows the discipline: it is acknowledged when it succeeded
or a domain rule refused it, and dropped when its broadcast failed. -/
def AckDiscipline (fresh : ℕ → Stamp) (service : GameService P B) (queue : List BrokerCommand) :
    Prop :=
  ∀ front command back, queue = front ++ command :: back →
    let before := service.handleAll fresh (front.map BrokerCommand.commandEnvelope)
    let signal := (drainBrokerCommands fresh service queue).2[front.length]?
    (signal = some (command.ack, .acked) ↔
      (before.handle fresh command.commandEnvelope).2 = .ok () ∨
        before.DomainRefusal command.commandEnvelope) ∧
    (signal = some (command.ack, .dropped) ↔ before.BroadcastFails command.commandEnvelope)

/-- Every queued command has the signal of its result in the state its turn finds. -/
theorem drainBrokerCommands_signal (fresh : ℕ → Stamp) (service : GameService P B)
    (front back : List BrokerCommand) (command : BrokerCommand) :
    (drainBrokerCommands fresh service (front ++ command :: back)).2[front.length]? =
      some (command.ack,
        settle ((service.handleAll fresh (front.map BrokerCommand.commandEnvelope)).handle fresh
          command.commandEnvelope).2) := by
  induction front generalizing service with
  | nil => rfl
  | cons first front induction =>
      have later := induction (service.handle fresh first.commandEnvelope).1
      simpa [drainBrokerCommands] using later

theorem drainBrokerCommands_service (fresh : ℕ → Stamp) (service : GameService P B)
    (queue : List BrokerCommand) :
    (drainBrokerCommands fresh service queue).1 =
      service.handleAll fresh (queue.map BrokerCommand.commandEnvelope) := by
  induction queue generalizing service with
  | nil => rfl
  | cons command queue induction =>
      have later := induction (service.handle fresh command.commandEnvelope).1
      simpa [drainBrokerCommands] using later

/-- The errors of a broadcaster are never domain errors. -/
def ForeignFailures (E B : Type) [Anyhow E] [NetworkBroadcaster E B] : Prop :=
  ∀ (broadcaster after : B) (event : GameEvent) (error : E),
    NetworkBroadcaster.broadcast broadcaster event = (after, .error error) →
      Anyhow.downcastRef error = none

theorem broadcastAll_error (foreign : ForeignFailures E B) {broadcaster : B}
    {events : List GameEvent} {error : E}
    (failed : (broadcastAll broadcaster events).2 = .error error) :
    Anyhow.downcastRef error = none := by
  induction events generalizing broadcaster with
  | nil => cases failed
  | cons event events induction =>
      cases sending : NetworkBroadcaster.broadcast broadcaster event with
      | mk after result =>
          cases result with
          | ok =>
              rw [broadcastAll, sending] at failed
              exact induction failed
          | error cause =>
              rw [broadcastAll, sending] at failed
              have contextual := Except.error.inj failed
              rw [← contextual, Anyhow.downcastRef_context]
              exact foreign broadcaster after event cause sending

/-- One command follows the discipline unless it is for this game and `decide` refuses it. -/
theorem handle_disciplined_iff (foreign : ForeignFailures E B) (fresh : ℕ → Stamp)
    (service : GameService P B) (cmdEnv : CommandEnvelope) :
    ((settle (service.handle fresh cmdEnv).2 = .acked ↔
        (service.handle fresh cmdEnv).2 = .ok () ∨ service.DomainRefusal cmdEnv) ∧
      (settle (service.handle fresh cmdEnv).2 = .dropped ↔ service.BroadcastFails cmdEnv)) ↔
      (cmdEnv.gameId = service.store.gameId →
        ¬ decider.Refuses service.store.events cmdEnv.command) := by
  by_cases forUs : cmdEnv.gameId = service.store.gameId
  · cases decision : decider.decide (decider.hydrate service.store.events) cmdEnv.command with
    | error error =>
        have refused : decider.Refuses service.store.events cmdEnv.command := ⟨error, decision⟩
        have signal : settle (service.handle fresh cmdEnv).2 = .dropped := by
          rw [handle_of_refused fresh forUs decision]
          simp [settle, Anyhow.downcastRef_msg]
        have domain : service.DomainRefusal cmdEnv := .inr refused
        simp [signal, domain, forUs, refused]
    | ok events =>
        have accepted : ¬ decider.Refuses service.store.events cmdEnv.command := by
          rintro ⟨error, refused⟩
          rw [decision] at refused
          cases refused
        have notDomain : ¬ service.DomainRefusal cmdEnv :=
          fun domain => domain.elim (fun elsewhere => elsewhere forUs) accepted
        have failing : service.BroadcastFails cmdEnv ↔
            ∃ error : E, (broadcastAll service.broadcaster events).2 = .error error := by
          simp [BroadcastFails, forUs, decision]
        have result : (service.handle fresh cmdEnv).2 =
            (broadcastAll service.broadcaster events).2 :=
          congrArg Prod.snd (handle_of_accepted fresh forUs decision)
        cases broadcasts : (broadcastAll (E := E) service.broadcaster events).2 with
        | ok =>
            simp [result, failing, broadcasts, settle, accepted]
        | error error =>
            have cause := broadcastAll_error foreign broadcasts
            simp [result, failing, broadcasts, settle, cause, notDomain, accepted]
  · have signal : settle (service.handle fresh cmdEnv).2 = .acked := by
      rw [handle_of_wrongGame fresh service cmdEnv forUs]
      simp [settle, Anyhow.downcastRef_ofDomain]
    have domain : service.DomainRefusal cmdEnv := .inl forUs
    have notFailing : ¬ service.BroadcastFails cmdEnv := fun failing => forUs failing.1
    simp [signal, domain, notFailing, forUs]

/-- The drain keeps the discipline on exactly the queues in which no command for this game is
refused by `decide`. -/
theorem ackDiscipline_iff (foreign : ForeignFailures E B) (fresh : ℕ → Stamp)
    (service : GameService P B) (queue : List BrokerCommand) :
    AckDiscipline fresh service queue ↔
      ∀ front command back, queue = front ++ command :: back →
        command.commandEnvelope.gameId = service.store.gameId →
          ¬ decider.Refuses
            (service.handleAll fresh (front.map BrokerCommand.commandEnvelope)).store.events
            command.commandEnvelope.command := by
  unfold AckDiscipline
  apply forall_congr'
  intro front
  apply forall_congr'
  intro command
  apply forall_congr'
  intro back
  apply forall_congr'
  rintro rfl
  have sameGame := handleAll_gameId fresh service (front.map BrokerCommand.commandEnvelope)
  have disciplined := handle_disciplined_iff foreign fresh
    (service.handleAll fresh (front.map BrokerCommand.commandEnvelope)) command.commandEnvelope
  rw [sameGame] at disciplined
  rw [drainBrokerCommands_signal, ← disciplined]
  simp

end Service

section Server

variable {E P : Type} [Anyhow E] [EventPublisher E P] [Bincode]

/-- For the server's own broadcaster: a queue is acknowledged by the discipline if and only if none
of its commands is one that `decide` refuses in its turn. -/
theorem renet_ackDiscipline_iff (fresh : ℕ → Stamp)
    (service : GameService P (RenetBroadcaster E)) (queue : List BrokerCommand) :
    AckDiscipline fresh service queue ↔
      ∀ front command back, queue = front ++ command :: back →
        command.commandEnvelope.gameId = service.store.gameId →
          ¬ decider.Refuses
            (service.handleAll fresh (front.map BrokerCommand.commandEnvelope)).store.events
            command.commandEnvelope.command := by
  have foreign : ForeignFailures E (RenetBroadcaster E) :=
    fun _ _ _ _ failed => RenetBroadcaster.broadcast_error failed
  exact ackDiscipline_iff foreign fresh service queue

end Server

attribute [local instance] standardBincode

/-- A tile placed in the lobby is refused by a domain rule and yet not acknowledged. -/
theorem refused_tile_dropped :
    ¬ ∀ (fresh : ℕ → Stamp) (gameId : GameId) (envelopes : List CommandEnvelope)
        (queue : List BrokerCommand),
      AckDiscipline fresh
        ((GameService.build gameId NoopPublisher.mk
          (RenetBroadcaster.mk RenetServer.new : RenetBroadcaster ErrorChain)).handleAll fresh
            envelopes)
        queue := by
  intro always
  let stamp : Stamp := ⟨⟨0⟩, ⟨0⟩⟩
  let gameId : GameId := ⟨⟨0⟩⟩
  let command : BrokerCommand := ⟨.new stamp gameId (.placeTile ⟨1⟩ 4), ⟨0⟩⟩
  have disciplined := (always (fun _ => stamp) gameId [] [command] [] command [] rfl).1
  have acked := disciplined.mpr (.inr (.inr ⟨.wrongStage .inGame .lobby, rfl⟩))
  cases acked

end TicTacTussle
