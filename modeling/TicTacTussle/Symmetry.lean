import TicTacTussle.Decider

/-!
# Symmetries of the rules

The rules treat all positions, all players and all names alike.  A relabelling renames the players,
leaving the vacant id alone, moves the cells by one of the eight symmetries of the grid, and
rewrites the names.  It commutes with every decision and every event, hence with whole runs.
-/

namespace TicTacTussle

open EventSourcing
open GameDecider

/-- A symmetry of the grid: a transposition, then flips of the rows and of the columns. -/
structure GridSymmetry where
  transposed : Bool
  rowsFlipped : Bool
  columnsFlipped : Bool
  deriving DecidableEq, Repr

namespace GridSymmetry

/-- The symmetry that moves nothing. -/
def identity : GridSymmetry := ⟨false, false, false⟩

/-- Reverse an index if told so. -/
def flip (flipped : Bool) (index : Fin 3) : Fin 3 :=
  if flipped then index.rev else index

/-- Where a cell goes. -/
def apply (symmetry : GridSymmetry) (cell : Fin 9) : Fin 9 :=
  let row : Fin 3 := ⟨cell / 3, by omega⟩
  let column : Fin 3 := ⟨cell % 3, by omega⟩
  if symmetry.transposed then
    cellAt (flip symmetry.rowsFlipped column) (flip symmetry.columnsFlipped row)
  else
    cellAt (flip symmetry.rowsFlipped row) (flip symmetry.columnsFlipped column)

/-- The symmetry that moves the cells back. -/
def inverse (symmetry : GridSymmetry) : GridSymmetry :=
  if symmetry.transposed then
    ⟨true, symmetry.columnsFlipped, symmetry.rowsFlipped⟩
  else
    symmetry

/-- Where a line goes. -/
def line (symmetry : GridSymmetry) : GridLine → GridLine
  | .row index =>
      if symmetry.transposed then .column (flip symmetry.columnsFlipped index)
      else .row (flip symmetry.rowsFlipped index)
  | .column index =>
      if symmetry.transposed then .row (flip symmetry.rowsFlipped index)
      else .column (flip symmetry.columnsFlipped index)
  | .diagonal =>
      if symmetry.rowsFlipped = symmetry.columnsFlipped then .diagonal else .antidiagonal
  | .antidiagonal =>
      if symmetry.rowsFlipped = symmetry.columnsFlipped then .antidiagonal else .diagonal

theorem inverse_apply (symmetry : GridSymmetry) (cell : Fin 9) :
    symmetry.inverse.apply (symmetry.apply cell) = cell := by
  obtain ⟨transposed, rowsFlipped, columnsFlipped⟩ := symmetry
  revert transposed rowsFlipped columnsFlipped cell
  decide

theorem inverse_inverse (symmetry : GridSymmetry) : symmetry.inverse.inverse = symmetry := by
  obtain ⟨transposed, rowsFlipped, columnsFlipped⟩ := symmetry
  cases transposed <;> rfl

theorem apply_inverse (symmetry : GridSymmetry) (cell : Fin 9) :
    symmetry.apply (symmetry.inverse.apply cell) = cell := by
  have back := symmetry.inverse.inverse_apply cell
  rw [inverse_inverse] at back
  exact back

/-- The cells of a line go to the cells of its image. -/
theorem line_cell (symmetry : GridSymmetry) (line : GridLine) (step : Fin 3) :
    ∃ origin, (symmetry.line line).cell step = symmetry.apply (line.cell origin) := by
  obtain ⟨transposed, rowsFlipped, columnsFlipped⟩ := symmetry
  cases line with
  | row index | column index =>
      revert transposed rowsFlipped columnsFlipped index step
      decide
  | diagonal | antidiagonal =>
      revert transposed rowsFlipped columnsFlipped step
      decide

/-- The eight symmetries are eight different permutations of the cells. -/
theorem apply_injective {symmetry other : GridSymmetry}
    (same : ∀ cell, symmetry.apply cell = other.apply cell) : symmetry = other := by
  obtain ⟨transposed, rowsFlipped, columnsFlipped⟩ := symmetry
  obtain ⟨transposed', rowsFlipped', columnsFlipped'⟩ := other
  revert transposed rowsFlipped columnsFlipped transposed' rowsFlipped' columnsFlipped'
  decide

/-- Where an index goes; beyond the board nothing moves. -/
def cell (symmetry : GridSymmetry) (index : ℕ) : ℕ :=
  if inRange : index < 9 then symmetry.apply ⟨index, inRange⟩ else index

/-- The board with its tiles moved. -/
def board (symmetry : GridSymmetry) (board : Board) : Board :=
  Vector.ofFn fun cell => board[symmetry.inverse.apply cell]

variable (symmetry : GridSymmetry) (tiles : Board)

theorem cell_of_lt {index : ℕ} (inRange : index < 9) :
    symmetry.cell index = symmetry.apply ⟨index, inRange⟩ := by
  rw [cell, dif_pos inRange]

theorem cell_of_le {index : ℕ} (beyond : 9 ≤ index) : symmetry.cell index = index := by
  rw [cell, dif_neg (by omega)]

/-- A symmetry moves no index onto the board or off it. -/
theorem cell_beyond_iff (index : ℕ) : 8 < symmetry.cell index ↔ 8 < index := by
  by_cases inRange : index < 9
  · have onBoard := (symmetry.apply ⟨index, inRange⟩).isLt
    rw [symmetry.cell_of_lt inRange]
    omega
  · rw [symmetry.cell_of_le (by omega)]

theorem board_get (cell : Fin 9) :
    (symmetry.board tiles).get cell = tiles.get (symmetry.inverse.apply cell) :=
  Vector.getElem_ofFn cell.isLt

theorem board_apply (cell : Fin 9) :
    (symmetry.board tiles).get (symmetry.apply cell) = tiles.get cell := by
  rw [board_get, inverse_apply]

theorem board_getElem? (index : ℕ) :
    (symmetry.board tiles)[symmetry.cell index]? = tiles[index]? := by
  by_cases inRange : index < 9
  · have moved := symmetry.board_apply tiles ⟨index, inRange⟩
    rw [symmetry.cell_of_lt inRange, Vector.getElem?_eq_getElem (Fin.isLt _),
      Vector.getElem?_eq_getElem inRange]
    exact congrArg some moved
  · have beyond : 9 ≤ index := by omega
    rw [symmetry.cell_of_le beyond, Vector.getElem?_eq_none beyond, Vector.getElem?_eq_none beyond]

theorem cell_eq_iff (index : ℕ) (cell : Fin 9) :
    symmetry.cell index = cell ↔ index = symmetry.inverse.apply cell := by
  by_cases inRange : index < 9
  · rw [symmetry.cell_of_lt inRange]
    constructor
    · intro moved
      rw [← Fin.ext moved, inverse_apply]
    · intro origin
      have origin_eq : ⟨index, inRange⟩ = symmetry.inverse.apply cell := Fin.ext origin
      rw [origin_eq, apply_inverse]
  · have beyond : 9 ≤ index := by omega
    rw [symmetry.cell_of_le beyond]
    omega

/-- Writing a tile and moving the board commute. -/
theorem board_setIfInBounds (index : ℕ) (tile : Tile) :
    symmetry.board (tiles.setIfInBounds index tile) =
      (symmetry.board tiles).setIfInBounds (symmetry.cell index) tile := by
  ext cell inRange
  have here := symmetry.cell_eq_iff index ⟨cell, inRange⟩
  simp only [board, Vector.getElem_ofFn, Fin.getElem_fin, Vector.getElem_setIfInBounds, here]

theorem board_empty : symmetry.board (.replicate 9 .empty) = .replicate 9 .empty := by
  ext cell inRange
  simp [board]

theorem ownsLine_board {symbol : Symbol} (owned : tiles.OwnsLine symbol) :
    (symmetry.board tiles).OwnsLine symbol := by
  obtain ⟨line, owned⟩ := owned
  refine ⟨symmetry.line line, fun step => ?_⟩
  obtain ⟨origin, cell_eq⟩ := symmetry.line_cell line step
  have moved := congrArg (fun cell : Fin 9 => (symmetry.board tiles)[cell]) cell_eq
  exact moved.trans ((symmetry.board_apply tiles _).trans (owned origin))

theorem board_inverse : symmetry.inverse.board (symmetry.board tiles) = tiles := by
  ext cell inRange
  simp [board, inverse_inverse, inverse_apply]

/-- Win detection does not see where the line is. -/
theorem winningSymbol_board_isSome :
    (winningSymbol (symmetry.board tiles)).isSome = (winningSymbol tiles).isSome := by
  rw [Bool.eq_iff_iff, winningSymbol_isSome_iff, winningSymbol_isSome_iff]
  constructor
  · rintro ⟨symbol, owned⟩
    have back := symmetry.inverse.ownsLine_board _ owned
    rw [board_inverse] at back
    exact ⟨symbol, back⟩
  · rintro ⟨symbol, owned⟩
    exact ⟨symbol, symmetry.ownsLine_board tiles owned⟩

theorem isFull_board : isFull (symmetry.board tiles) = isFull tiles := by
  rw [Bool.eq_iff_iff, isFull_iff, isFull_iff]
  constructor
  · intro full cell blank
    exact full (symmetry.apply cell) ((symmetry.board_apply tiles cell).trans blank)
  · intro full cell blank
    exact full (symmetry.inverse.apply cell) ((symmetry.board_get tiles cell).symm.trans blank)

end GridSymmetry

/-! ## Relabellings -/

/-- New ids for the players, new places for the cells and new names. -/
structure Relabelling where
  player : PlayerId → PlayerId
  player_injective : player.Injective
  player_vacant : player .vacant = .vacant
  grid : GridSymmetry
  name : String → String

namespace Relabelling

variable (relabelling : Relabelling)

def command : GameCommand → GameCommand
  | .joinGame playerId name => .joinGame (relabelling.player playerId) (relabelling.name name)
  | .placeTile playerId cell =>
      .placeTile (relabelling.player playerId) (relabelling.grid.cell cell)
  | .leaveGame playerId => .leaveGame (relabelling.player playerId)

def reason : EndGameReason → EndGameReason
  | .playerWon winner => .playerWon (relabelling.player winner)
  | .draw => .draw
  | .playerLeft playerId => .playerLeft (relabelling.player playerId)

def event : GameEvent → GameEvent
  | .playerJoined playerId name =>
      .playerJoined (relabelling.player playerId) (relabelling.name name)
  | .gameStarted goesFirst => .gameStarted (relabelling.player goesFirst)
  | .tilePlaced playerId cell =>
      .tilePlaced (relabelling.player playerId) (relabelling.grid.cell cell)
  | .playerLeft playerId => .playerLeft (relabelling.player playerId)
  | .gameEnded reason => .gameEnded (relabelling.reason reason)

def state (state : GameState) : GameState where
  stage := state.stage
  board := relabelling.grid.board state.board
  activePlayerId := relabelling.player state.activePlayerId
  players := state.players.map relabelling.player

def error : TicTacTussleError → TicTacTussleError
  | .wrongGame expected actual => .wrongGame expected actual
  | .wrongStage expected actual => .wrongStage expected actual
  | .unknownPlayer playerId => .unknownPlayer (relabelling.player playerId)
  | .alreadyJoined playerId => .alreadyJoined (relabelling.player playerId)
  | .tileOutOfRange cell => .tileOutOfRange (relabelling.grid.cell cell)
  | .tileOccupied cell => .tileOccupied (relabelling.grid.cell cell)
  | .notYourTurn playerId => .notYourTurn (relabelling.player playerId)

theorem player_eq_iff (left right : PlayerId) :
    relabelling.player left = relabelling.player right ↔ left = right :=
  relabelling.player_injective.eq_iff

theorem player_eq_vacant_iff (playerId : PlayerId) :
    relabelling.player playerId = .vacant ↔ playerId = .vacant := by
  rw [← relabelling.player_eq_iff playerId, relabelling.player_vacant]

@[simp] theorem state_stage (before : GameState) :
    (relabelling.state before).stage = before.stage := rfl

@[simp] theorem state_board (before : GameState) :
    (relabelling.state before).board = relabelling.grid.board before.board := rfl

@[simp] theorem state_active (before : GameState) :
    (relabelling.state before).activePlayerId = relabelling.player before.activePlayerId := rfl

theorem state_players (before : GameState) {seat : ℕ} (inRange : seat < 2) :
    (relabelling.state before).players[seat] = relabelling.player before.players[seat] :=
  Vector.getElem_map ..

theorem state_players_eq_iff (before : GameState) {seat : ℕ} (inRange : seat < 2)
    (playerId : PlayerId) :
    (relabelling.state before).players[seat] = relabelling.player playerId ↔
      before.players[seat] = playerId := by
  rw [state_players, player_eq_iff]

theorem state_players_eq_vacant_iff (before : GameState) {seat : ℕ} (inRange : seat < 2) :
    (relabelling.state before).players[seat] = .vacant ↔ before.players[seat] = .vacant := by
  rw [state_players, player_eq_vacant_iff]

theorem state_default : relabelling.state .default = .default := by
  rw [state, GameState.default, relabelling.grid.board_empty, Vector.map_replicate,
    relabelling.player_vacant]

/-- Relabelling commutes with every event. -/
theorem evolve_state (before : GameState) (happened : GameEvent) :
    relabelling.state (evolve before happened) =
      evolve (relabelling.state before) (relabelling.event happened) := by
  cases happened with
  | playerJoined playerId name =>
      have first := relabelling.state_players_eq_vacant_iff before Nat.zero_lt_two
      by_cases empty : before.players[0] = .vacant
      · rw [event, evolve, evolve, if_pos empty, if_pos (first.mpr empty)]
        simp only [state, Vector.map_set]
      · rw [event, evolve, evolve, if_neg empty, if_neg (mt first.mp empty)]
        simp only [state, Vector.map_set]
  | gameStarted goesFirst => rfl
  | tilePlaced playerId cell =>
      have first := relabelling.state_players_eq_iff before Nat.zero_lt_two playerId
      by_cases holds : before.players[0] = playerId
      · simp only [event, evolve, if_pos holds, if_pos (first.mpr holds)]
        simp only [state, relabelling.grid.board_setIfInBounds, Vector.getElem_map]
      · simp only [event, evolve, if_neg holds, if_neg (mt first.mp holds)]
        simp only [state, relabelling.grid.board_setIfInBounds, Vector.getElem_map]
  | playerLeft playerId => rfl
  | gameEnded reason => rfl

/-- Relabelling commutes with every decision. -/
theorem decide_state (before : GameState) (asked : GameCommand) :
    decide (relabelling.state before) (relabelling.command asked) =
      Decider.mapAnswer relabelling.event relabelling.error (decide before asked) := by
  cases asked with
  | joinGame playerId name =>
      have next := (relabelling.evolve_state before (.playerJoined playerId name)).symm
      rw [event] at next
      simp only [command, decide_joinGame_eq, next, ne_eq, state_stage, state_players,
        relabelling.player_eq_iff, relabelling.player_eq_vacant_iff,
        apply_ite (Decider.mapAnswer relabelling.event relabelling.error)]
      rfl
  | placeTile playerId cell =>
      have next := (relabelling.evolve_state before (.tilePlaced playerId cell)).symm
      rw [event] at next
      simp only [command, decide_placeTile_eq, next, ne_eq, state_stage, state_active, state_board,
        relabelling.player_eq_iff, gt_iff_lt, GridSymmetry.cell_beyond_iff,
        GridSymmetry.board_getElem?,
        GridSymmetry.winningSymbol_board_isSome, GridSymmetry.isFull_board,
        apply_ite (Decider.mapAnswer relabelling.event relabelling.error)]
      rfl
  | leaveGame playerId =>
      rw [command, decide_leaveGame, decide_leaveGame, state_stage]
      by_cases inGame : before.stage = .inGame
      · rw [if_pos inGame, if_pos inGame]
        rfl
      · rw [if_neg inGame, if_neg inGame]
        rfl

/-- A relabelling translates the rules into themselves. -/
def morphism : Decider.Morphism decider decider where
  onCommand := relabelling.command
  onEvent := relabelling.event
  onState := relabelling.state
  onError := relabelling.error
  initial := relabelling.state_default
  evolve := relabelling.evolve_state
  decide := relabelling.decide_state

end Relabelling

/-- The command without the name it may carry. -/
def GameCommand.unnamed : GameCommand → GameCommand
  | .joinGame playerId _ => .joinGame playerId ""
  | command => command

/-- The event without the name it may carry. -/
def GameEvent.unnamed : GameEvent → GameEvent
  | .playerJoined playerId _ => .playerJoined playerId ""
  | event => event

theorem GridSymmetry.identity_apply (cell : Fin 9) : identity.apply cell = cell := by
  revert cell
  decide

theorem GridSymmetry.identity_cell (index : ℕ) : identity.cell index = index := by
  rw [cell]
  split
  · rw [identity_apply]
  · rfl

theorem GridSymmetry.identity_board (tiles : Board) : identity.board tiles = tiles := by
  ext cell inRange
  have same := identity_apply ⟨cell, inRange⟩
  simp [board, inverse, identity] at same ⊢
  simp [same]

namespace Relabelling

/-- The relabelling that forgets the names. -/
def unnamed : Relabelling where
  player := id
  player_injective := Function.injective_id
  player_vacant := rfl
  grid := .identity
  name _ := ""

theorem unnamed_command (command : GameCommand) : unnamed.command command = command.unnamed := by
  cases command with
  | placeTile playerId cell =>
      exact congrArg (GameCommand.placeTile _) (GridSymmetry.identity_cell cell)
  | joinGame | leaveGame => rfl

theorem unnamed_reason (reason : EndGameReason) : unnamed.reason reason = reason := by
  cases reason <;> rfl

theorem unnamed_event (event : GameEvent) : unnamed.event event = event.unnamed := by
  cases event with
  | tilePlaced playerId cell =>
      exact congrArg (GameEvent.tilePlaced _) (GridSymmetry.identity_cell cell)
  | gameEnded reason => exact congrArg GameEvent.gameEnded (unnamed_reason reason)
  | playerJoined | gameStarted | playerLeft => rfl

theorem unnamed_error (error : TicTacTussleError) : unnamed.error error = error := by
  cases error with
  | tileOutOfRange cell =>
      exact congrArg TicTacTussleError.tileOutOfRange (GridSymmetry.identity_cell cell)
  | tileOccupied cell =>
      exact congrArg TicTacTussleError.tileOccupied (GridSymmetry.identity_cell cell)
  | wrongGame | wrongStage | unknownPlayer | alreadyJoined | notYourTurn => rfl

theorem unnamed_state (state : GameState) : unnamed.state state = state := by
  have players : state.players.map unnamed.player = state.players := Vector.map_id _
  rw [Relabelling.state, players]
  have board : unnamed.grid.board state.board = state.board := GridSymmetry.identity_board _
  rw [board]
  rfl

/-- Answers, log and state of the relabelled run are the images of those of the original run. -/
structure Commutes (relabelling : Relabelling) (commands : List GameCommand) : Prop where
  answers : decider.answers [] (commands.map relabelling.command) =
    (decider.answers [] commands).map (Decider.mapAnswer relabelling.event relabelling.error)
  log : decider.run [] (commands.map relabelling.command) =
    (decider.run [] commands).map relabelling.event
  state : decider.hydrate (decider.run [] (commands.map relabelling.command)) =
    relabelling.state (decider.hydrate (decider.run [] commands))

theorem commutes (relabelling : Relabelling) (commands : List GameCommand) :
    relabelling.Commutes commands where
  answers := relabelling.morphism.answers [] commands
  log := relabelling.morphism.run [] commands
  state := by
    have log : decider.run [] (commands.map relabelling.command) =
        (decider.run [] commands).map relabelling.event := relabelling.morphism.run [] commands
    rw [log]
    exact (relabelling.morphism.hydrate _).symm

end Relabelling

/-- The runs differ in the names of their joins only. -/
structure SameButNames (commands renamed : List GameCommand) : Prop where
  answers : (decider.answers [] commands).map (Decider.mapAnswer GameEvent.unnamed id) =
    (decider.answers [] renamed).map (Decider.mapAnswer GameEvent.unnamed id)
  log : (decider.run [] commands).map GameEvent.unnamed =
    (decider.run [] renamed).map GameEvent.unnamed
  state : decider.hydrate (decider.run [] commands) = decider.hydrate (decider.run [] renamed)

/-- Forgetting the names before a run or after it is the same. -/
theorem unnamed_commutes (commands : List GameCommand) :
    decider.answers [] (commands.map GameCommand.unnamed) =
        (decider.answers [] commands).map (Decider.mapAnswer GameEvent.unnamed id) ∧
      decider.run [] (commands.map GameCommand.unnamed) =
          (decider.run [] commands).map GameEvent.unnamed ∧
        decider.hydrate (decider.run [] (commands.map GameCommand.unnamed)) =
          decider.hydrate (decider.run [] commands) := by
  obtain ⟨answers, log, state⟩ := Relabelling.unnamed.commutes commands
  rw [funext Relabelling.unnamed_command] at answers log state
  rw [funext Relabelling.unnamed_event] at answers log
  rw [funext Relabelling.unnamed_error] at answers
  rw [Relabelling.unnamed_state] at state
  exact ⟨answers, log, state⟩

/-- The rules treat all players, all positions and all names alike. -/
theorem rules_unbiased (commands : List GameCommand) :
    (∀ relabelling : Relabelling, relabelling.Commutes commands) ∧
      ∀ renamed, commands.map GameCommand.unnamed = renamed.map GameCommand.unnamed →
        SameButNames commands renamed := by
  refine ⟨fun relabelling => relabelling.commutes commands, fun renamed same => ?_⟩
  obtain ⟨answers, log, state⟩ := unnamed_commutes commands
  obtain ⟨answers', log', state'⟩ := unnamed_commutes renamed
  rw [same] at answers log state
  exact ⟨answers.symm.trans answers', log.symm.trans log', state.symm.trans state'⟩

end TicTacTussle
