import TicTacTussle.Service

/-!
# Array accesses

The service hydrates its log before every decision, and an event with a cell outside the board would
make it panic from then on.  Here `handle` is written over the functions with checked accesses.  The
log that handling builds holds no such cell, so that no handling panics.
-/

namespace TicTacTussle

namespace GameService

open GameDecider

variable {E P B : Type} [Anyhow E] [EventPublisher E P] [NetworkBroadcaster E B]

/-- `handle`, over the checked `hydrate` and `decide`. -/
def tryHandle (fresh : ℕ → Stamp) (service : GameService P B) (cmdEnv : CommandEnvelope) :
    Option (GameService P B × Except E Unit) :=
  if cmdEnv.gameId ≠ service.store.gameId then
    some (service, .error (Anyhow.ofDomain (.wrongGame cmdEnv.gameId service.store.gameId)))
  else do
    let state ← tryHydrate service.store.events
    let decision ← tryDecide state cmdEnv.command
    match decision with
    | .error error => some (service, .error (Anyhow.msg (error.display (Anyhow.uuidText E))))
    | .ok events =>
        let (store, envelopes) := service.store.appendBatch fresh events (some cmdEnv.id)
        let (publisher, _) := EventPublisher.publish service.publisher (.eventBatch envelopes)
        let (broadcaster, result) := broadcastAll service.broadcaster events
        some ({ store, publisher, broadcaster }, result)

/-- Handle envelopes one after the other until one panics. -/
def tryHandleAll (fresh : ℕ → Stamp) (service : GameService P B)
    (envelopes : List CommandEnvelope) : Option (GameService P B) :=
  envelopes.foldlM (fun service cmdEnv => (service.tryHandle fresh cmdEnv).map Prod.fst) service

/-- The log of the service is on the board. -/
def OnBoard (service : GameService P B) : Prop :=
  ∀ event ∈ service.store.events, event.OnBoard

theorem onBoard_build (gameId : GameId) (publisher : P) (broadcaster : B) :
    (build gameId publisher broadcaster).OnBoard := by
  rintro event ⟨⟩

theorem OnBoard.tryHandle {service : GameService P B} (onBoard : service.OnBoard)
    (fresh : ℕ → Stamp) (cmdEnv : CommandEnvelope) :
    service.tryHandle fresh cmdEnv = some (service.handle fresh cmdEnv) := by
  rw [GameService.tryHandle, handle]
  by_cases foreign : cmdEnv.gameId ≠ service.store.gameId
  · rw [if_pos foreign, if_pos foreign]
  · rw [if_neg foreign, if_neg foreign, tryHydrate_eq onBoard]
    dsimp only [Bind.bind]
    rw [Option.bind_some, tryDecide_eq, Option.bind_some]
    cases GameDecider.decide (hydrate service.store.events) cmdEnv.command with
    | error error => rfl
    | ok events => rfl

theorem OnBoard.handleAll {service : GameService P B} (onBoard : service.OnBoard)
    (fresh : ℕ → Stamp) (envelopes : List CommandEnvelope) :
    (service.handleAll fresh envelopes).OnBoard := by
  rw [OnBoard, handleAll_events]
  exact guarded.run_valid onBoard _

theorem OnBoard.handle {service : GameService P B} (onBoard : service.OnBoard)
    (fresh : ℕ → Stamp) (cmdEnv : CommandEnvelope) :
    (service.handle fresh cmdEnv).1.OnBoard :=
  onBoard.handleAll fresh [cmdEnv]

/-- No handling panics on the way of a service whose log is on the board. -/
theorem OnBoard.tryHandleAll {service : GameService P B} (onBoard : service.OnBoard)
    (fresh : ℕ → Stamp) (envelopes : List CommandEnvelope) :
    service.tryHandleAll fresh envelopes = some (service.handleAll fresh envelopes) := by
  have agrees : ∀ service : GameService P B, ∀ cmdEnv ∈ envelopes, service.OnBoard →
      (service.tryHandle fresh cmdEnv).map Prod.fst = some (service.handle fresh cmdEnv).1 ∧
        (service.handle fresh cmdEnv).1.OnBoard := by
    intro service cmdEnv _ onBoard
    rw [onBoard.tryHandle]
    exact ⟨rfl, onBoard.handle fresh cmdEnv⟩
  exact (EventSourcing.foldlM_eq_some agrees onBoard).1

end GameService

end TicTacTussle
