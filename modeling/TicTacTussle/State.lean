import Mathlib.Data.Int.Notation
import Mathlib.Data.Nat.Notation

/-!
# Data model of the store crate

Identifiers, the write-model state, commands, events and domain errors.  Player ids are the `u64`
client ids of the transport, with `PlayerId(0)` doubling as the empty seat.  A board index is a
`usize` in the source; every bound on it is an explicit check, so it is a natural number here.
-/

namespace TicTacTussle

/-- A player, named by the transport's client id. -/
structure PlayerId where
  raw : UInt64
  deriving DecidableEq, Repr

/-- `PlayerId(0)`, the default value and the sentinel of an empty seat. -/
def PlayerId.vacant : PlayerId := ⟨0⟩

/-- `Player(7)` and the like. -/
def PlayerId.display (id : PlayerId) : String :=
  "Player(" ++ toString id.raw ++ ")"

/-- A 128-bit universally unique identifier. -/
structure Uuid where
  bits : BitVec 128
  deriving DecidableEq, Repr

structure GameId where
  uuid : Uuid
  deriving DecidableEq, Repr

/-- A UTC instant, in nanoseconds since the epoch. -/
structure DateTime where
  nanos : ℤ
  deriving DecidableEq, Repr

/-- What `Uuid::new_v4()` and `Utc::now()` return when an envelope is created. -/
structure Stamp where
  id : Uuid
  now : DateTime
  deriving DecidableEq, Repr

inductive Symbol where
  | x
  | o
  deriving DecidableEq, Repr

inductive Tile where
  | empty
  | occupied (symbol : Symbol)
  deriving DecidableEq, Repr

inductive Stage where
  | lobby
  | inGame
  | ended
  deriving DecidableEq, Repr

def Stage.debug : Stage → String
  | .lobby => "Lobby"
  | .inGame => "InGame"
  | .ended => "Ended"

/-- Nine tiles in row-major order. -/
abbrev Board := Vector Tile 9

/-- The state commands are validated against. -/
structure GameState where
  stage : Stage
  board : Board
  activePlayerId : PlayerId
  /-- The two players, X first. -/
  players : Vector PlayerId 2
  deriving DecidableEq, Repr

def GameState.default : GameState where
  stage := .lobby
  board := Vector.replicate 9 .empty
  activePlayerId := .vacant
  players := Vector.replicate 2 .vacant

/-- What a player wants to do. -/
inductive GameCommand where
  | joinGame (playerId : PlayerId) (name : String)
  | placeTile (playerId : PlayerId) (cell : ℕ)
  | leaveGame (playerId : PlayerId)
  deriving DecidableEq, Repr

def GameCommand.playerId : GameCommand → PlayerId
  | .joinGame playerId _ => playerId
  | .placeTile playerId _ => playerId
  | .leaveGame playerId => playerId

/-- A command addressed to a game. -/
structure CommandEnvelope where
  id : Uuid
  gameId : GameId
  occurredAt : DateTime
  command : GameCommand
  deriving DecidableEq, Repr

def CommandEnvelope.new (stamp : Stamp) (gameId : GameId) (command : GameCommand) :
    CommandEnvelope where
  id := stamp.id
  gameId := gameId
  occurredAt := stamp.now
  command := command

inductive EndGameReason where
  | playerWon (winner : PlayerId)
  | draw
  | playerLeft (playerId : PlayerId)
  deriving DecidableEq, Repr

inductive GameEvent where
  | playerJoined (playerId : PlayerId) (name : String)
  | gameStarted (goesFirst : PlayerId)
  | tilePlaced (playerId : PlayerId) (cell : ℕ)
  | playerLeft (playerId : PlayerId)
  | gameEnded (reason : EndGameReason)
  deriving DecidableEq, Repr

/-- An event with its place in the log. -/
structure GameEventEnvelope where
  id : Uuid
  /-- The command that caused it. -/
  commandId : Option Uuid
  sequence : UInt64
  gameId : GameId
  occurredAt : DateTime
  event : GameEvent
  deriving DecidableEq, Repr

def GameEventEnvelope.new (stamp : Stamp) (gameId : GameId) (sequence : UInt64) (event : GameEvent)
    (commandId : Option Uuid) : GameEventEnvelope where
  id := stamp.id
  commandId := commandId
  sequence := sequence
  gameId := gameId
  occurredAt := stamp.now
  event := event

inductive TicTacTussleError where
  | wrongGame (expected actual : GameId)
  | wrongStage (expected actual : Stage)
  | unknownPlayer (playerId : PlayerId)
  | alreadyJoined (playerId : PlayerId)
  | tileOutOfRange (cell : ℕ)
  | tileOccupied (cell : ℕ)
  | notYourTurn (playerId : PlayerId)
  deriving DecidableEq, Repr

/-- The text of a refusal, over the text that the uuid crate prints of an id. -/
def TicTacTussleError.display (uuidText : Uuid → String) : TicTacTussleError → String
  | .wrongGame expected actual =>
      "command for game " ++ uuidText expected.uuid ++ ", but this is game " ++
        uuidText actual.uuid
  | .wrongStage expected actual =>
      "expected stage " ++ expected.debug ++ ", actual " ++ actual.debug
  | .unknownPlayer playerId => "player " ++ playerId.display ++ " is not in this game"
  | .alreadyJoined playerId => "player " ++ playerId.display ++ " has already joined"
  | .tileOutOfRange cell => "tile index " ++ toString cell ++ " is out of range (0-8)"
  | .tileOccupied cell => "tile " ++ toString cell ++ " is already occupied"
  | .notYourTurn playerId => "it is not player " ++ playerId.display ++ "'s turn"

end TicTacTussle
