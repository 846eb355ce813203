import TicTacTussle.Client
import TicTacTussle.Replay

/-!
# No panic

Whatever is sent to a game, nothing that works on its events indexes the board out of range: not the
service, not a harness over the log, and not a client that evolves what it is sent.
-/

namespace TicTacTussle

open GameDecider Wire

/-- A broadcaster with the events it was asked to broadcast, in order. -/
structure Recording (B : Type) where
  inner : B
  broadcasts : List GameEvent

section Recording

variable {E P B : Type} [Anyhow E] [EventPublisher E P] [NetworkBroadcaster E B]

instance : NetworkBroadcaster E (Recording B) where
  broadcast recording event :=
    let (inner, result) := NetworkBroadcaster.broadcast recording.inner event
    (⟨inner, recording.broadcasts ++ [event]⟩, result)
  sendTo recording clientId event :=
    let (inner, result) := NetworkBroadcaster.sendTo recording.inner clientId event
    ({ recording with inner }, result)

/-- Only the events of the batch are broadcast. -/
theorem Recording.mem_broadcastAll {recording : Recording B} {events : List GameEvent}
    {event : GameEvent}
    (sent : event ∈ (GameService.broadcastAll (E := E) recording events).1.broadcasts) :
    event ∈ recording.broadcasts ∨ event ∈ events := by
  induction events generalizing recording with
  | nil => exact .inl sent
  | cons head events induction =>
      have asked (known : event ∈ recording.broadcasts ++ [head]) :
          event ∈ recording.broadcasts ∨ event ∈ head :: events := by
        rcases List.mem_append.mp known with earlier | now
        · exact .inl earlier
        · exact .inr (List.mem_append_left events now)
      obtain ⟨inner, result, sending⟩ : ∃ inner result,
          NetworkBroadcaster.broadcast (E := E) recording head =
            (⟨inner, recording.broadcasts ++ [head]⟩, result) := ⟨_, _, rfl⟩
      rw [GameService.broadcastAll, sending] at sent
      cases result with
      | error error => exact asked sent
      | ok =>
          rcases induction sent with known | later
          · exact asked known
          · exact .inr (List.mem_cons_of_mem head later)

/-- Whatever was broadcast is in the log. -/
def GameService.Logged (service : GameService P (Recording B)) : Prop :=
  ∀ event ∈ service.broadcaster.broadcasts, event ∈ service.store.events

theorem GameService.Logged.handle {service : GameService P (Recording B)} (logged : service.Logged)
    (fresh : ℕ → Stamp) (cmdEnv : CommandEnvelope) : (service.handle fresh cmdEnv).1.Logged := by
  by_cases forUs : cmdEnv.gameId = service.store.gameId
  · cases decision : decider.decide (decider.hydrate service.store.events) cmdEnv.command with
    | error error =>
        rw [handle_of_refused fresh forUs decision]
        exact logged
    | ok events =>
        have grown := handle_events fresh service cmdEnv forUs
        rw [decider.next_of_ok decision] at grown
        intro event sent
        rw [grown]
        rw [handle_of_accepted fresh forUs decision] at sent
        rcases Recording.mem_broadcastAll sent with earlier | now
        · exact List.mem_append_left events (logged event earlier)
        · exact List.mem_append_right service.store.events now
  · rw [handle_of_wrongGame fresh service cmdEnv forUs]
    exact logged

theorem GameService.Logged.handleAll {service : GameService P (Recording B)}
    (logged : service.Logged) (fresh : ℕ → Stamp) (envelopes : List CommandEnvelope) :
    (service.handleAll fresh envelopes).Logged := by
  induction envelopes generalizing service with
  | nil => exact logged
  | cons cmdEnv envelopes induction =>
      rw [handleAll_cons]
      exact induction (logged.handle fresh cmdEnv)

end Recording

namespace Replica

variable [Bincode]

/-- `receive`, over the checked `evolve`. -/
def tryReceive (replica : Replica) (raw : Bytes) : Option Replica :=
  match Bincode.decodeEvent raw with
  | .ok event => do
      let state ← tryEvolve replica.state event
      some ⟨state, replica.received ++ [event]⟩
  | .error _ => some replica

/-- `receiveServerEvents`, over the checked `evolve`. -/
def tryReceiveServerEvents (replica : Replica) (messages : List Bytes) : Option Replica :=
  messages.foldlM tryReceive replica

/-- Messages of events on the board are received without a panic. -/
theorem tryReceiveServerEvents_eq {messages : List Bytes}
    (onBoard : ∀ raw ∈ messages, ∀ event, Bincode.decodeEvent raw = .ok event → event.OnBoard)
    (replica : Replica) :
    replica.tryReceiveServerEvents messages = some (replica.receiveServerEvents messages) := by
  have agrees : ∀ replica : Replica, ∀ raw ∈ messages, True →
      replica.tryReceive raw = some (replica.receive raw) ∧ True := by
    intro replica raw member _
    refine ⟨?_, trivial⟩
    rw [tryReceive, receive]
    cases decoded : Bincode.decodeEvent raw with
    | error text => rfl
    | ok event =>
        dsimp only
        rw [tryEvolve_of_onBoard (onBoard raw member event decoded)]
        rfl
  exact (EventSourcing.foldlM_eq_some agrees trivial).1

end Replica

/-- Handling any envelopes from an empty store, replaying the log in any way, and evolving what was
broadcast or caught up with, never panics. -/
theorem GameService.no_panic {E P B : Type} [Anyhow E] [EventPublisher E P]
    [NetworkBroadcaster E B] [Bincode] (fresh : ℕ → Stamp) (gameId : GameId) (publisher : P)
    (broadcaster : B) (envelopes : List CommandEnvelope) :
    let service := build gameId publisher (Recording.mk broadcaster [])
    let after := service.handleAll fresh envelopes
    service.tryHandleAll fresh envelopes = some after ∧
      (∀ origin operations,
        (HarnessFields.use after.store.events origin operations).isSome) ∧
      ∀ (replica : Replica) (messages : List Bytes),
        (∀ raw ∈ messages, ∀ event, Bincode.decodeEvent raw = .ok event →
          event ∈ after.broadcaster.broadcasts ∨ event ∈ after.store.events) →
        (replica.tryReceiveServerEvents messages).isSome := by
  intro service after
  have started : service.OnBoard := onBoard_build gameId publisher _
  have onBoard : after.OnBoard := started.handleAll fresh envelopes
  have fromNothing : service.Logged := by rintro event ⟨⟩
  have logged : after.Logged := fromNothing.handleAll fresh envelopes
  refine ⟨started.tryHandleAll fresh envelopes, fun origin operations => ?_,
    fun replica messages sent => ?_⟩
  · obtain ⟨harness, used, _⟩ := SimulationHarness.exists_use onBoard origin operations
    exact Option.isSome_of_eq_some used
  · have decodedOnBoard : ∀ raw ∈ messages, ∀ event, Bincode.decodeEvent raw = .ok event →
        event.OnBoard := by
      intro raw member event decoded
      rcases sent raw member event decoded with told | caughtUp
      · exact onBoard event (logged event told)
      · exact onBoard event caughtUp
    exact Option.isSome_of_eq_some (replica.tryReceiveServerEvents_eq decodedOnBoard)

end TicTacTussle
