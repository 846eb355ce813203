import TicTacTussle.Board
import TicTacTussle.EventSourcing

/-!
# The game decider

The pure core of the store crate: `decide` validates a command against the write model and answers
with events, `evolve` applies one event.  An out-of-range tile index makes the source's `evolve`
panic; here the write is dropped, and `decide` never emits such an event.  The last section has the
same functions with checked accesses, `none` standing for a panic.
-/

namespace TicTacTussle

def HoldsSeat (state : GameState) (playerId : PlayerId) : Prop :=
  playerId ≠ .vacant ∧ (state.players[0] = playerId ∨ state.players[1] = playerId)

/-- The player sits in the lobby alone. -/
def WaitsAlone (state : GameState) (playerId : PlayerId) : Prop :=
  state.stage = .lobby ∧ state.players[0] = playerId ∧ playerId ≠ .vacant

/-- The player sits on the seat of the symbol. -/
def GameState.Holds (state : GameState) (playerId : PlayerId) : Symbol → Prop
  | .x => state.players[0] = playerId
  | .o => state.players[1] = playerId

/-- The symbol a player's tiles get. -/
def GameState.symbolOf (state : GameState) (playerId : PlayerId) : Symbol :=
  if state.players[0] = playerId then .x else .o

/-- The event touches no cell outside the board. -/
def GameEvent.OnBoard : GameEvent → Prop
  | .tilePlaced _ cell => cell < 9
  | .playerJoined _ _ | .gameStarted _ | .playerLeft _ | .gameEnded _ => True

instance : DecidablePred GameEvent.OnBoard
  | .tilePlaced _ cell => inferInstanceAs (Decidable (cell < 9))
  | .playerJoined _ _ | .gameStarted _ | .playerLeft _ | .gameEnded _ =>
      inferInstanceAs (Decidable True)

namespace GameDecider

/-- The checks that `decide` makes of a command. -/
def Admits (state : GameState) : GameCommand → Prop
  | .joinGame playerId _ =>
      state.stage = .lobby ∧ state.players[0] ≠ playerId ∧ state.players[1] ≠ playerId
  | .placeTile playerId cell =>
      state.stage = .inGame ∧ state.activePlayerId = playerId ∧ state.board[cell]? = some .empty
  | .leaveGame _ => True

/-! ## The source's functions -/

def evolve (state : GameState) : GameEvent → GameState
  | .playerJoined playerId _ =>
      if state.players[0] = .vacant then
        { state with players := state.players.set 0 playerId }
      else
        { state with players := state.players.set 1 playerId }
  | .gameStarted goesFirst =>
      { state with
        stage := .inGame
        activePlayerId := goesFirst }
  | .tilePlaced playerId cell =>
      let symbol := if state.players[0] = playerId then Symbol.x else Symbol.o
      { state with
        board := state.board.setIfInBounds cell (.occupied symbol)
        activePlayerId :=
          if state.players[0] = playerId then state.players[1] else state.players[0] }
  | .playerLeft _ => state
  | .gameEnded _ => { state with stage := .ended }

def hydrate (events : List GameEvent) : GameState :=
  events.foldl evolve .default

/-- Refuse unless the game is in the expected stage. -/
def requireStage (state : GameState) (expected : Stage) : Except TicTacTussleError Unit :=
  if state.stage ≠ expected then .error (.wrongStage expected state.stage) else .ok ()

/-- Decide which events a command causes, or refuse it. -/
def decide (state : GameState) : GameCommand → Except TicTacTussleError (List GameEvent)
  | .joinGame playerId name => do
      requireStage state .lobby
      if state.players[0] = playerId ∨ state.players[1] = playerId then
        .error (.alreadyJoined playerId)
      else
        let join := .playerJoined playerId name
        let next := evolve state join
        -- The second seat is filled: the second player has just joined.
        if next.players[1] ≠ .vacant then
          .ok [join, .gameStarted next.players[0]]
        else
          .ok [join]
  | .placeTile playerId cell => do
      requireStage state .inGame
      if state.activePlayerId ≠ playerId then
        .error (.notYourTurn playerId)
      else if outOfRange : cell > 8 then
        .error (.tileOutOfRange cell)
      else if state.board[cell] ≠ .empty then
        .error (.tileOccupied cell)
      else
        let place := .tilePlaced playerId cell
        let next := evolve state place
        if (winningSymbol next.board).isSome then
          .ok [place, .gameEnded (.playerWon playerId)]
        else if isFull next.board then
          .ok [place, .gameEnded .draw]
        else
          .ok [place]
  | .leaveGame playerId =>
      if state.stage = .inGame then
        .ok [.playerLeft playerId, .gameEnded (.playerLeft playerId)]
      else
        .ok [.playerLeft playerId]

/-- The decider as an instance of the general pattern. -/
def decider : EventSourcing.Decider GameCommand GameEvent GameState TicTacTussleError where
  initial := .default
  decide := decide
  evolve := evolve

@[simp]
theorem decider_evolve (state : GameState) (event : GameEvent) :
    decider.evolve state event = evolve state event := rfl

theorem evolve_playerJoined_players (state : GameState) (playerId : PlayerId) (name : String) :
    (evolve state (.playerJoined playerId name)).players =
      if state.players[0] = .vacant then state.players.set 0 playerId
      else state.players.set 1 playerId := by
  rw [evolve]
  split <;> rfl

/-! ## What a decision can be -/

theorem requireStage_bind_eq_ok_iff {α : Type} (state : GameState) (expected : Stage)
    (rest : Unit → Except TicTacTussleError α) (result : α) :
    requireStage state expected >>= rest = .ok result ↔
      state.stage = expected ∧ rest () = .ok result := by
  rw [requireStage]
  split
  · rename_i wrong
    constructor
    · intro failed
      cases failed
    · exact fun accepted => (wrong accepted.1).elim
  · rename_i right
    rw [not_not] at right
    simp only [right, true_and]
    rfl

/-- Joins are accepted in the lobby from ids that match neither seat. -/
theorem decide_joinGame_eq_ok_iff (state : GameState) (playerId : PlayerId) (name : String)
    (events : List GameEvent) :
    decide state (.joinGame playerId name) = .ok events ↔
      state.stage = .lobby ∧ state.players[0] ≠ playerId ∧ state.players[1] ≠ playerId ∧
        events =
          if (evolve state (.playerJoined playerId name)).players[1] ≠ .vacant then
            [.playerJoined playerId name,
              .gameStarted (evolve state (.playerJoined playerId name)).players[0]]
          else [.playerJoined playerId name] := by
  rw [decide, requireStage_bind_eq_ok_iff]
  refine and_congr_right fun _ => ?_
  by_cases known : state.players[0] = playerId ∨ state.players[1] = playerId
  · rw [if_pos known]
    simp only [reduceCtorEq, false_iff]
    rintro ⟨notFirst, notSecond, _⟩
    exact known.elim notFirst notSecond
  · rw [if_neg known]
    rw [not_or] at known
    simp only [known, ne_eq, not_false_eq_true, true_and]
    split <;> simp only [Except.ok.injEq, eq_comm]

/-- Tiles are accepted during the game from the player on turn, on an empty cell of the board. -/
theorem decide_placeTile_eq_ok_iff (state : GameState) (playerId : PlayerId) (cell : ℕ)
    (events : List GameEvent) :
    decide state (.placeTile playerId cell) = .ok events ↔
      state.stage = .inGame ∧ state.activePlayerId = playerId ∧
        state.board[cell]? = some .empty ∧
        events =
          if (winningSymbol (evolve state (.tilePlaced playerId cell)).board).isSome then
            [.tilePlaced playerId cell, .gameEnded (.playerWon playerId)]
          else if isFull (evolve state (.tilePlaced playerId cell)).board then
            [.tilePlaced playerId cell, .gameEnded .draw]
          else [.tilePlaced playerId cell] := by
  rw [decide, requireStage_bind_eq_ok_iff]
  refine and_congr_right fun _ => ?_
  by_cases onTurn : state.activePlayerId = playerId
  · rw [if_neg (not_not.mpr onTurn)]
    simp only [onTurn, true_and]
    by_cases outOfRange : cell > 8
    · have missing : state.board[cell]? = none := Vector.getElem?_eq_none (by omega)
      simp [outOfRange, missing]
    · have inRange : cell < 9 := by omega
      rw [dif_neg outOfRange, Vector.getElem?_eq_getElem inRange, Option.some.injEq]
      by_cases empty : state.board[cell] = .empty
      · rw [if_neg (not_not.mpr empty)]
        simp only [empty, true_and]
        split
        · simp only [Except.ok.injEq, eq_comm]
        · split <;> simp only [Except.ok.injEq, eq_comm]
      · simp [empty]
  · simp [onTurn]

/-- Leaving is always accepted, and ends a running game. -/
theorem decide_leaveGame (state : GameState) (playerId : PlayerId) :
    decide state (.leaveGame playerId) =
      .ok (if state.stage = .inGame then
        [.playerLeft playerId, .gameEnded (.playerLeft playerId)]
      else [.playerLeft playerId]) := by
  rw [decide]
  split <;> rfl

theorem not_refuses_leaveGame (log : List GameEvent) (playerId : PlayerId) :
    ¬ decider.Refuses log (.leaveGame playerId) := by
  rintro ⟨error, refused⟩
  cases (decide_leaveGame (decider.hydrate log) playerId).symm.trans refused

theorem next_leaveGame (log : List GameEvent) (playerId : PlayerId) :
    decider.next log (.leaveGame playerId) = log ++ .playerLeft playerId ::
      if (hydrate log).stage = .inGame then [.gameEnded (.playerLeft playerId)] else [] := by
  have decided : decider.decide (decider.hydrate log) (.leaveGame playerId) = _ :=
    decide_leaveGame (hydrate log) playerId
  rw [decider.next_of_ok decided]
  split <;> rfl

/-- Whatever passes the checks is accepted. -/
theorem refuses_iff_not_admits (log : List GameEvent) (command : GameCommand) :
    decider.Refuses log command ↔ ¬ Admits (hydrate log) command := by
  cases command with
  | joinGame playerId name =>
      have accepted (events : List GameEvent) := decide_joinGame_eq_ok_iff (hydrate log) playerId
        name events
      rw [decider.refuses_iff, ← not_exists]
      apply not_congr
      constructor
      · rintro ⟨events, decision⟩
        obtain ⟨inLobby, notFirst, notSecond, _⟩ := (accepted events).mp decision
        exact ⟨inLobby, notFirst, notSecond⟩
      · rintro ⟨inLobby, notFirst, notSecond⟩
        exact ⟨_, (accepted _).mpr ⟨inLobby, notFirst, notSecond, rfl⟩⟩
  | placeTile playerId cell =>
      have accepted (events : List GameEvent) := decide_placeTile_eq_ok_iff (hydrate log) playerId
        cell events
      rw [decider.refuses_iff, ← not_exists]
      apply not_congr
      constructor
      · rintro ⟨events, decision⟩
        obtain ⟨inGame, onTurn, empty, _⟩ := (accepted events).mp decision
        exact ⟨inGame, onTurn, empty⟩
      · rintro ⟨inGame, onTurn, empty⟩
        exact ⟨_, (accepted _).mpr ⟨inGame, onTurn, empty, rfl⟩⟩
  | leaveGame playerId => simp [not_refuses_leaveGame, Admits]

theorem exists_decide_eq_ok_iff (log : List GameEvent) (command : GameCommand) :
    (∃ events, decider.decide (decider.hydrate log) command = .ok events) ↔
      Admits (hydrate log) command := by
  rw [← not_iff_not, ← refuses_iff_not_admits, decider.refuses_iff, not_exists]

theorem decide_joinGame_eq (state : GameState) (playerId : PlayerId) (name : String) :
    decide state (.joinGame playerId name) =
      if state.stage ≠ .lobby then .error (.wrongStage .lobby state.stage)
      else if state.players[0] = playerId ∨ state.players[1] = playerId then
        .error (.alreadyJoined playerId)
      else if (evolve state (.playerJoined playerId name)).players[1] ≠ .vacant then
        .ok [.playerJoined playerId name,
          .gameStarted (evolve state (.playerJoined playerId name)).players[0]]
      else .ok [.playerJoined playerId name] := by
  rw [decide, requireStage]
  split <;> rfl

theorem decide_placeTile_eq (state : GameState) (playerId : PlayerId) (cell : ℕ) :
    decide state (.placeTile playerId cell) =
      if state.stage ≠ .inGame then .error (.wrongStage .inGame state.stage)
      else if state.activePlayerId ≠ playerId then .error (.notYourTurn playerId)
      else if cell > 8 then .error (.tileOutOfRange cell)
      else if state.board[cell]? ≠ some .empty then .error (.tileOccupied cell)
      else if (winningSymbol (evolve state (.tilePlaced playerId cell)).board).isSome then
        .ok [.tilePlaced playerId cell, .gameEnded (.playerWon playerId)]
      else if isFull (evolve state (.tilePlaced playerId cell)).board then
        .ok [.tilePlaced playerId cell, .gameEnded .draw]
      else .ok [.tilePlaced playerId cell] := by
  rw [decide, requireStage]
  by_cases wrongStage : state.stage ≠ .inGame
  · rw [if_pos wrongStage, if_pos wrongStage]
    rfl
  · rw [if_neg wrongStage, if_neg wrongStage]
    by_cases outOfRange : cell > 8
    · rw [if_pos outOfRange, dif_pos outOfRange]
      rfl
    · have entry : state.board[cell]? = some state.board[cell] :=
        Vector.getElem?_eq_getElem (by omega)
      rw [if_neg outOfRange, dif_neg outOfRange, entry]
      simp only [ne_eq, Option.some.injEq]
      rfl

/-- `evolve`, with the write to `board[at]` checked. -/
def tryEvolve (state : GameState) : GameEvent → Option GameState
  | .playerJoined playerId _ =>
      if state.players[0] = .vacant then
        some { state with players := state.players.set 0 playerId }
      else
        some { state with players := state.players.set 1 playerId }
  | .gameStarted goesFirst =>
      some
        { state with
          stage := .inGame
          activePlayerId := goesFirst }
  | .tilePlaced playerId cell =>
      let symbol := if state.players[0] = playerId then Symbol.x else Symbol.o
      if inRange : cell < 9 then
        some
          { state with
            board := state.board.set cell (.occupied symbol)
            activePlayerId :=
              if state.players[0] = playerId then state.players[1] else state.players[0] }
      else none
  | .playerLeft _ => some state
  | .gameEnded _ => some { state with stage := .ended }

/-- `hydrate`, over the checked `evolve`. -/
def tryHydrate (events : List GameEvent) : Option GameState :=
  events.foldlM tryEvolve .default

/-- `decide`, with the read of `board[at]` checked and both speculative calls of `evolve`. -/
def tryDecide (state : GameState) :
    GameCommand → Option (Except TicTacTussleError (List GameEvent))
  | .joinGame playerId name =>
      match requireStage state .lobby with
      | .error error => some (.error error)
      | .ok () =>
          if state.players[0] = playerId ∨ state.players[1] = playerId then
            some (.error (.alreadyJoined playerId))
          else do
            let join := .playerJoined playerId name
            let next ← tryEvolve state join
            if next.players[1] ≠ .vacant then
              some (.ok [join, .gameStarted next.players[0]])
            else
              some (.ok [join])
  | .placeTile playerId cell =>
      match requireStage state .inGame with
      | .error error => some (.error error)
      | .ok () =>
          if state.activePlayerId ≠ playerId then
            some (.error (.notYourTurn playerId))
          else if cell > 8 then
            some (.error (.tileOutOfRange cell))
          else do
            let tile ← state.board[cell]?
            if tile ≠ .empty then
              some (.error (.tileOccupied cell))
            else
              let place := .tilePlaced playerId cell
              let next ← tryEvolve state place
              if (winningSymbol next.board).isSome then
                some (.ok [place, .gameEnded (.playerWon playerId)])
              else if isFull next.board then
                some (.ok [place, .gameEnded .draw])
              else
                some (.ok [place])
  | .leaveGame playerId =>
      if state.stage = .inGame then
        some (.ok [.playerLeft playerId, .gameEnded (.playerLeft playerId)])
      else
        some (.ok [.playerLeft playerId])

/-- Events on the board evolve without a panic. -/
theorem tryEvolve_of_onBoard {event : GameEvent} (onBoard : event.OnBoard) (state : GameState) :
    tryEvolve state event = some (evolve state event) := by
  cases event with
  | playerJoined playerId name =>
      rw [tryEvolve, evolve]
      split <;> rfl
  | gameStarted | playerLeft | gameEnded => rfl
  | tilePlaced playerId cell =>
      have inRange : cell < 9 := onBoard
      have written (tile : Tile) : state.board.setIfInBounds cell tile =
          state.board.set cell tile := by
        ext here bound
        rw [Vector.getElem_setIfInBounds, Vector.getElem_set]
      simp only [tryEvolve, dif_pos inRange, evolve, written]

/-- A tile outside the board is the one event that panics. -/
theorem tryEvolve_isSome_iff (state : GameState) (event : GameEvent) :
    (tryEvolve state event).isSome ↔ event.OnBoard := by
  constructor
  · intro evolved
    cases event with
    | tilePlaced playerId cell =>
        rw [tryEvolve] at evolved
        split at evolved
        · assumption
        · cases evolved
    | playerJoined | gameStarted | playerLeft | gameEnded => trivial
  · intro onBoard
    rw [tryEvolve_of_onBoard onBoard]
    rfl

/-- Hydrating panics on exactly the logs with a tile outside the board. -/
theorem tryHydrate_isSome_iff (log : List GameEvent) :
    (tryHydrate log).isSome ↔ ∀ event ∈ log, event.OnBoard := by
  have folds : ∀ state, (log.foldlM tryEvolve state).isSome ↔ ∀ event ∈ log, event.OnBoard := by
    induction log with
    | nil => simp
    | cons event log induction =>
        intro state
        rw [List.foldlM_cons, List.forall_mem_cons, ← tryEvolve_isSome_iff state event]
        cases tryEvolve state event with
        | none => simp
        | some next => simpa using induction next
  exact folds .default

private theorem tryDecide_joinGame (state : GameState) (playerId : PlayerId) (name : String) :
    tryDecide state (.joinGame playerId name) = some (decide state (.joinGame playerId name)) := by
  have joined : tryEvolve state (.playerJoined playerId name) =
      some (evolve state (.playerJoined playerId name)) := by
    apply tryEvolve_of_onBoard
    trivial
  rw [tryDecide, decide]
  cases requireStage state .lobby with
  | error error => rfl
  | ok =>
      dsimp only [Bind.bind, Except.bind]
      split
      · rfl
      · rw [joined, Option.bind_some]
        split <;> rfl

/-- The range check stands before the read, and the speculative write has the same index. -/
private theorem tryDecide_placeTile (state : GameState) (playerId : PlayerId) (cell : ℕ) :
    tryDecide state (.placeTile playerId cell) =
      some (decide state (.placeTile playerId cell)) := by
  rw [tryDecide, decide]
  cases requireStage state .inGame with
  | error error => rfl
  | ok =>
      dsimp only [Bind.bind, Except.bind]
      split
      · rfl
      · by_cases outOfRange : cell > 8
        · rw [if_pos outOfRange, dif_pos outOfRange]
        · have inRange : cell < 9 := by omega
          have placed : tryEvolve state (.tilePlaced playerId cell) =
              some (evolve state (.tilePlaced playerId cell)) := by
            apply tryEvolve_of_onBoard
            exact inRange
          rw [if_neg outOfRange, dif_neg outOfRange, Vector.getElem?_eq_getElem inRange,
            Option.bind_some, placed, Option.bind_some]
          split
          · rfl
          · split
            · rfl
            · split <;> rfl

/-- No decision panics, on any state. -/
theorem tryDecide_eq (state : GameState) (command : GameCommand) :
    tryDecide state command = some (decide state command) := by
  cases command with
  | joinGame playerId name => exact tryDecide_joinGame state playerId name
  | placeTile playerId cell => exact tryDecide_placeTile state playerId cell
  | leaveGame playerId =>
      rw [tryDecide, decide]
      split <;> rfl

/-- Decided events are on the board. -/
theorem decide_onBoard {state : GameState} {command : GameCommand} {events : List GameEvent}
    (accepted : decide state command = .ok events) : ∀ event ∈ events, event.OnBoard := by
  cases command with
  | joinGame playerId name =>
      obtain ⟨_, _, _, rfl⟩ := (decide_joinGame_eq_ok_iff state playerId name events).mp accepted
      split <;> simp [GameEvent.OnBoard]
  | placeTile playerId cell =>
      obtain ⟨_, _, empty, rfl⟩ :=
        (decide_placeTile_eq_ok_iff state playerId cell events).mp accepted
      obtain ⟨inRange, _⟩ := Vector.getElem?_eq_some_iff.mp empty
      split
      · simpa [GameEvent.OnBoard] using inRange
      · split <;> simpa [GameEvent.OnBoard] using inRange
  | leaveGame playerId =>
      rw [decide_leaveGame] at accepted
      obtain rfl := Except.ok.inj accepted
      split <;> simp [GameEvent.OnBoard]

/-- The checked `evolve` fails off the board only, where no decision leads. -/
def guarded : EventSourcing.GuardedEvolution decider where
  tryEvolve := tryEvolve
  Valid := GameEvent.OnBoard
  tryEvolve_of_valid := tryEvolve_of_onBoard
  decide_valid := decide_onBoard

theorem tryHydrate_eq {log : List GameEvent} (onBoard : ∀ event ∈ log, event.OnBoard) :
    tryHydrate log = some (hydrate log) :=
  guarded.tryHydrate_eq_some onBoard

end GameDecider

end TicTacTussle
