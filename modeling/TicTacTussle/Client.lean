import TicTacTussle.Bincode
import TicTacTussle.Decider

/-!
# The client's replica

A client decodes the messages of the server, folds the events into its own copy of the write model
and keeps them in order.
-/

namespace TicTacTussle

open Wire

/-- `BevyGameState` and `ReceivedEvents`. -/
structure Replica where
  state : GameState
  received : List GameEvent
  deriving DecidableEq, Repr

namespace Replica

def new : Replica := ⟨.default, []⟩

/-- The tile a click asks for, if the replica allows it.  The cursor is given as the row and the
column the source computes from the window, and is absent outside of it. -/
def handleInput (replica : Replica) (localId : Option PlayerId) (cursor : Option (ℤ × ℤ))
    (pressed : Bool) : Option GameCommand := do
  guard (replica.state.stage = .inGame)
  let myId ← localId
  guard (replica.state.activePlayerId = myId)
  let (row, col) ← cursor
  guard ((0 ≤ col ∧ col < 3) ∧ 0 ≤ row ∧ row < 3)
  let cell := (row * 3 + col).toNat
  guard pressed
  -- The bounds on row and column keep the index on the board.
  guard (replica.state.board[cell]? = some .empty)
  some (.placeTile myId cell)

/-- What a click sends passes the server's checks on the replica. -/
theorem handleInput_admits {replica : Replica} {playerId : PlayerId} {cursor : Option (ℤ × ℤ)}
    {pressed : Bool} {command : GameCommand}
    (sent : replica.handleInput (some playerId) cursor pressed = some command) :
    ∃ cell, command = .placeTile playerId cell ∧ GameDecider.Admits replica.state command := by
  cases cursor with
  | none => simp [handleInput] at sent
  | some position =>
      simp only [handleInput, bind, Option.bind_some, Option.bind_eq_some_iff,
        Option.guard_eq_some', Option.some.injEq, exists_const] at sent
      obtain ⟨inGame, onTurn, _, _, empty, rfl⟩ := sent
      exact ⟨_, rfl, inGame, onTurn, empty⟩

/-- The replica lets this player click on this cell. -/
def Allows (replica : Replica) (playerId : PlayerId) (cell : ℕ) : Prop :=
  replica.state.stage = .inGame ∧ replica.state.activePlayerId = playerId ∧ cell < 9 ∧
    replica.state.board[cell]? = some .empty

theorem Allows.admits {replica : Replica} {playerId : PlayerId} {cell : ℕ}
    (allowed : replica.Allows playerId cell) :
    GameDecider.Admits replica.state (.placeTile playerId cell) :=
  ⟨allowed.1, allowed.2.1, allowed.2.2.2⟩

/-- Some click sends the move exactly when the replica allows it. -/
theorem exists_handleInput_iff {replica : Replica} {playerId : PlayerId} {cell : ℕ} :
    (∃ cursor pressed,
        replica.handleInput (some playerId) cursor pressed = some (.placeTile playerId cell)) ↔
      replica.Allows playerId cell := by
  constructor
  · rintro ⟨cursor, pressed, sent⟩
    obtain ⟨_, same, inGame, onTurn, empty⟩ := handleInput_admits sent
    cases same
    obtain ⟨onBoard, _⟩ := Vector.getElem?_eq_some_iff.mp empty
    exact ⟨inGame, onTurn, onBoard, empty⟩
  · rintro ⟨inGame, onTurn, onBoard, empty⟩
    refine ⟨some (cell / 3, cell % 3), true, ?_⟩
    have here : ((cell : ℤ) / 3 * 3 + cell % 3).toNat = cell := by omega
    have inside : (0 ≤ (cell : ℤ) % 3 ∧ (cell : ℤ) % 3 < 3) ∧
        0 ≤ (cell : ℤ) / 3 ∧ (cell : ℤ) / 3 < 3 := by omega
    simp [handleInput, inGame, onTurn, here, inside, empty]

variable [Bincode]

/-- Apply one message; a message that does not decode is only logged. -/
def receive (replica : Replica) (raw : Bytes) : Replica :=
  match Bincode.decodeEvent raw with
  | .ok event => ⟨GameDecider.evolve replica.state event, replica.received ++ [event]⟩
  | .error _ => replica

def receiveServerEvents (replica : Replica) (messages : List Bytes) : Replica :=
  messages.foldl receive replica

/-- Messages that decode to events extend the replica by exactly these. -/
theorem receiveServerEvents_eq {messages : List Bytes} {events : List GameEvent}
    (decoded : messages.map Bincode.decodeEvent = events.map .ok) (replica : Replica) :
    replica.receiveServerEvents messages =
      ⟨GameDecider.decider.replay replica.state events, replica.received ++ events⟩ := by
  induction messages generalizing events replica with
  | nil =>
      have none : events = [] := List.map_eq_nil_iff.mp decoded.symm
      subst none
      simp [receiveServerEvents]
  | cons raw messages induction =>
      cases events with
      | nil => cases decoded
      | cons event events =>
          obtain ⟨first, later⟩ := List.cons.inj decoded
          have received : replica.receive raw =
              ⟨GameDecider.evolve replica.state event, replica.received ++ [event]⟩ := by
            rw [receive, first]
          have rest := induction later (replica.receive raw)
          rw [received] at rest
          simpa [receiveServerEvents, received] using rest

theorem receiveServerEvents_new {messages : List Bytes} {log : List GameEvent}
    (decoded : messages.map Bincode.decodeEvent = log.map .ok) :
    Replica.new.receiveServerEvents messages = ⟨GameDecider.hydrate log, log⟩ := by
  rw [receiveServerEvents_eq decoded]
  rfl

end Replica

end TicTacTussle
