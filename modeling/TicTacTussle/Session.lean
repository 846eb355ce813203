import TicTacTussle.Decider

/-!
# Sessions

What a game session is for, free of sentinels and folded fields: at most two players sit down, the
second arrival starts a legal play of the grid, and the play ends by a win, a draw or a departure.
Every constructor carries the facts that make it possible.  The write model is a function of the
session, and the decider accepts exactly the transitions of sessions.
-/

namespace TicTacTussle

open PositionalGame

/-- The opponent's symbol. -/
def Symbol.other : Symbol → Symbol
  | .x => .o
  | .o => .x

theorem mover_succ (turn : ℕ) : grid.mover (turn + 1) = (grid.mover turn).other := by
  rcases Nat.mod_two_eq_zero_or_one turn with even | odd
  · have next : (turn + 1) % 2 = 1 := by omega
    simp [grid, even, next, Symbol.other]
  · have next : (turn + 1) % 2 = 0 := by omega
    simp [grid, odd, next, Symbol.other]

/-- The two players of a started game, X first. -/
structure Seats where
  x : PlayerId
  o : PlayerId
  x_ne_vacant : x ≠ .vacant
  o_ne_vacant : o ≠ .vacant
  x_ne_o : x ≠ o

namespace Seats

/-- The player holding a symbol. -/
def holder (seats : Seats) : Symbol → PlayerId
  | .x => seats.x
  | .o => seats.o

/-- The player on turn after a number of moves. -/
def turn (seats : Seats) (moves : ℕ) : PlayerId :=
  seats.holder (grid.mover moves)

/-- The seats as the write model stores them. -/
def players (seats : Seats) : Vector PlayerId 2 := #v[seats.x, seats.o]

@[simp]
theorem players_zero (seats : Seats) {inRange : 0 < 2} : seats.players[0] = seats.x := rfl

@[simp]
theorem players_one (seats : Seats) {inRange : 1 < 2} : seats.players[1] = seats.o := rfl

@[simp] theorem turn_zero (seats : Seats) : seats.turn 0 = seats.x := rfl

theorem holder_ne_vacant (seats : Seats) (symbol : Symbol) : seats.holder symbol ≠ .vacant := by
  cases symbol with
  | x => exact seats.x_ne_vacant
  | o => exact seats.o_ne_vacant

/-- The symbol the source derives from the first seat is the holder's symbol. -/
theorem symbol_of_holder (seats : Seats) (symbol : Symbol) :
    (if seats.x = seats.holder symbol then Symbol.x else Symbol.o) = symbol := by
  cases symbol with
  | x => simp [holder]
  | o => simp [holder, seats.x_ne_o]

/-- The turn rotation of the source passes the turn to the other holder. -/
theorem rotate_holder (seats : Seats) (symbol : Symbol) :
    (if seats.x = seats.holder symbol then seats.o else seats.x) = seats.holder symbol.other := by
  cases symbol with
  | x => simp [holder, Symbol.other]
  | o => simp [holder, Symbol.other, seats.x_ne_o]

theorem turn_succ (seats : Seats) (moves : ℕ) :
    seats.turn (moves + 1) = seats.holder (grid.mover moves).other := by
  rw [turn, mover_succ]

end Seats

/-- A game session. -/
inductive Session where
  | empty
  | waiting (x : PlayerId) (taken : x ≠ .vacant)
  | playing (seats : Seats) (moves : List ℕ) (undecided : grid.Undecided moves)
  | won (seats : Seats) (moves : List ℕ) (cell : ℕ) (wins : grid.Wins moves cell)
  | drawn (seats : Seats) (moves : List ℕ) (cell : ℕ) (draws : grid.Draws moves cell)
  | abandoned (seats : Seats) (leaver : PlayerId) (moves : List ℕ)
      (undecided : grid.Undecided moves)

theorem undecided_nil : grid.Undecided [] where
  legal := legal_nil
  noLine := by
    rintro ⟨side, line, ⟨name, rfl⟩, taken⟩
    have member : (name.cell 0 : ℕ) ∈ Finset.univ.image fun step => (name.cell step : ℕ) :=
      Finset.mem_image_of_mem _ (Finset.mem_univ 0)
    exact not_takenBy_nil side _ (taken _ member)
  notFull full := by simpa [grid] using full 0

namespace Session

/-- The cells taken so far. -/
def moves : Session → List ℕ
  | .empty | .waiting _ _ => []
  | .playing _ moves _ | .abandoned _ _ moves _ => moves
  | .won _ moves cell _ | .drawn _ moves cell _ => moves ++ [cell]

/-- The players who joined, in order. -/
def joined : Session → List PlayerId
  | .empty => []
  | .waiting x _ => [x]
  | .playing seats _ _ | .won seats _ _ _ | .drawn seats _ _ _ | .abandoned seats _ _ _ =>
      [seats.x, seats.o]

/-- The lifecycle stage. -/
def stage : Session → Stage
  | .empty | .waiting _ _ => .lobby
  | .playing _ _ _ => .inGame
  | .won _ _ _ _ | .drawn _ _ _ _ | .abandoned _ _ _ _ => .ended

/-- The two stored seats. -/
def players : Session → Vector PlayerId 2
  | .empty => #v[.vacant, .vacant]
  | .waiting x _ => #v[x, .vacant]
  | .playing seats _ _ | .won seats _ _ _ | .drawn seats _ _ _ | .abandoned seats _ _ _ =>
      seats.players

/-- The player on turn. -/
def active : Session → PlayerId
  | .empty | .waiting _ _ => .vacant
  | .playing seats moves _ | .abandoned seats _ moves _ => seats.turn moves.length
  | .won seats moves _ _ | .drawn seats moves _ _ => seats.turn (moves.length + 1)

/-- The write model of a session. -/
def state (session : Session) : GameState where
  stage := session.stage
  board := boardOf session.moves
  activePlayerId := session.active
  players := session.players

/-- An accepted command, the events it emits and the session it leads to. -/
inductive Step : Session → GameCommand → List GameEvent → Session → Prop
  | joinFirst (x : PlayerId) (name : String) (taken : x ≠ .vacant) :
      Step .empty (.joinGame x name) [.playerJoined x name] (.waiting x taken)
  | joinSecond (x o : PlayerId) (name : String) (x_taken : x ≠ .vacant) (o_taken : o ≠ .vacant)
      (distinct : x ≠ o) :
      Step (.waiting x x_taken) (.joinGame o name) [.playerJoined o name, .gameStarted x]
        (.playing ⟨x, o, x_taken, o_taken, distinct⟩ [] undecided_nil)
  | place (seats : Seats) (moves : List ℕ) (cell : ℕ) (undecided : grid.Undecided moves)
      (available : grid.Available moves cell) (after : grid.Undecided (moves ++ [cell])) :
      Step (.playing seats moves undecided) (.placeTile (seats.turn moves.length) cell)
        [.tilePlaced (seats.turn moves.length) cell] (.playing seats (moves ++ [cell]) after)
  | win (seats : Seats) (moves : List ℕ) (cell : ℕ) (wins : grid.Wins moves cell) :
      Step (.playing seats moves wins.undecided) (.placeTile (seats.turn moves.length) cell)
        [.tilePlaced (seats.turn moves.length) cell,
          .gameEnded (.playerWon (seats.turn moves.length))]
        (.won seats moves cell wins)
  | draw (seats : Seats) (moves : List ℕ) (cell : ℕ) (draws : grid.Draws moves cell) :
      Step (.playing seats moves draws.undecided) (.placeTile (seats.turn moves.length) cell)
        [.tilePlaced (seats.turn moves.length) cell, .gameEnded .draw]
        (.drawn seats moves cell draws)
  | abandon (seats : Seats) (leaver : PlayerId) (moves : List ℕ)
      (undecided : grid.Undecided moves) :
      Step (.playing seats moves undecided) (.leaveGame leaver)
        [.playerLeft leaver, .gameEnded (.playerLeft leaver)]
        (.abandoned seats leaver moves undecided)
  | leave (session : Session) (leaver : PlayerId) (idle : session.stage ≠ .inGame) :
      Step session (.leaveGame leaver) [.playerLeft leaver] session

open GameDecider

@[simp] theorem state_stage (session : Session) : session.state.stage = session.stage := rfl

@[simp] theorem state_board (session : Session) : session.state.board = boardOf session.moves := rfl

@[simp] theorem state_active (session : Session) :
    session.state.activePlayerId = session.active := rfl

@[simp] theorem state_players (session : Session) : session.state.players = session.players := rfl

theorem state_empty : Session.empty.state = .default := by
  simp [state, GameState.default, stage, moves, active, players, boardOf_nil]
  rfl

/-- A tile of the player on turn extends the play by its cell. -/
theorem evolve_tilePlaced (seats : Seats) (moves : List ℕ) (undecided : grid.Undecided moves)
    {cell : ℕ} (fresh : cell ∉ moves) :
    evolve (Session.playing seats moves undecided).state
        (.tilePlaced (seats.turn moves.length) cell) =
      { stage := .inGame
        board := boardOf (moves ++ [cell])
        activePlayerId := seats.turn (moves.length + 1)
        players := seats.players } := by
  let symbol := grid.mover moves.length
  change
    { stage := .inGame
      board := (boardOf moves).setIfInBounds cell
        (.occupied (if seats.x = seats.holder symbol then .x else .o))
      activePlayerId := if seats.x = seats.holder symbol then seats.o else seats.x
      players := seats.players : GameState } = _
  rw [boardOf_append_singleton fresh, seats.symbol_of_holder, seats.rotate_holder, seats.turn_succ]

theorem boardOf_getElem?_eq_empty_iff (moves : List ℕ) (cell : ℕ) :
    (boardOf moves)[cell]? = some .empty ↔ grid.Available moves cell := by
  by_cases inRange : cell < 9
  · have entry : (boardOf moves)[cell]? = some (tileOf moves cell) := by
      simp [boardOf, inRange]
    rw [entry, Option.some.injEq, tileOf_eq_empty_iff]
    simp [Available, grid, inRange]
  · rw [Vector.getElem?_eq_none (by omega)]
    simp [Available, grid, inRange]

/-- Every abstract transition is accepted with its events. -/
theorem Step.decide_eq_ok {session after : Session} {command : GameCommand}
    {events : List GameEvent} (step : Step session command events after) :
    GameDecider.decide session.state command = .ok events := by
  cases step with
  | joinFirst x name taken =>
      refine (decide_joinGame_eq_ok_iff _ _ _ _).mpr ⟨rfl, taken.symm, taken.symm, ?_⟩
      simp [evolve, players]
  | joinSecond x o name x_taken o_taken distinct =>
      refine (decide_joinGame_eq_ok_iff _ _ _ _).mpr ⟨rfl, distinct, o_taken.symm, ?_⟩
      simp [evolve, players, x_taken, o_taken]
  | place seats moves cell undecided available after =>
      have empty := (boardOf_getElem?_eq_empty_iff moves cell).mpr available
      refine (decide_placeTile_eq_ok_iff _ _ _ _).mpr ⟨rfl, rfl, empty, ?_⟩
      rw [evolve_tilePlaced seats moves undecided available.2]
      simp [winningSymbol_boardOf_isSome_iff after.legal.nodup, isFull_boardOf_iff, after.noLine,
        after.notFull]
  | win seats moves cell wins =>
      have empty := (boardOf_getElem?_eq_empty_iff moves cell).mpr wins.available
      refine (decide_placeTile_eq_ok_iff _ _ _ _).mpr ⟨rfl, rfl, empty, ?_⟩
      rw [evolve_tilePlaced seats moves wins.undecided wins.available.2]
      simp [winningSymbol_boardOf_isSome_iff wins.legal.nodup, wins.line]
  | draw seats moves cell draws =>
      have empty := (boardOf_getElem?_eq_empty_iff moves cell).mpr draws.available
      refine (decide_placeTile_eq_ok_iff _ _ _ _).mpr ⟨rfl, rfl, empty, ?_⟩
      rw [evolve_tilePlaced seats moves draws.undecided draws.available.2]
      simp [winningSymbol_boardOf_isSome_iff draws.legal.nodup, isFull_boardOf_iff, draws.noLine,
        draws.full]
  | abandon seats leaver moves undecided =>
      rw [decide_leaveGame]
      rfl
  | leave session leaver idle =>
      rw [decide_leaveGame, state_stage, if_neg idle]

private theorem join_accepted {session : Session} {playerId : PlayerId} {name : String}
    {events : List GameEvent}
    (accepted : GameDecider.decide session.state (.joinGame playerId name) = .ok events) :
    ∃ after, Step session (.joinGame playerId name) events after := by
  obtain ⟨inLobby, notFirst, notSecond, rfl⟩ := (decide_joinGame_eq_ok_iff _ _ _ _).mp accepted
  cases session with
  | empty =>
      have taken : playerId ≠ .vacant := Ne.symm notFirst
      refine ⟨.waiting playerId taken, ?_⟩
      simpa [evolve, players] using Step.joinFirst playerId name taken
  | waiting x x_taken =>
      have taken : playerId ≠ .vacant := Ne.symm notSecond
      refine ⟨.playing ⟨x, playerId, x_taken, taken, notFirst⟩ [] undecided_nil, ?_⟩
      simpa [evolve, players, x_taken, taken] using
        Step.joinSecond x playerId name x_taken taken notFirst
  | playing | won | drawn | abandoned => cases inLobby

private theorem place_accepted {session : Session} {playerId : PlayerId} {cell : ℕ}
    {events : List GameEvent}
    (accepted : GameDecider.decide session.state (.placeTile playerId cell) = .ok events) :
    ∃ after, Step session (.placeTile playerId cell) events after := by
  obtain ⟨inGame, onTurn, empty, rfl⟩ := (decide_placeTile_eq_ok_iff _ _ _ _).mp accepted
  cases session with
  | playing seats moves undecided =>
      have available := (boardOf_getElem?_eq_empty_iff moves cell).mp empty
      have mover : seats.turn moves.length = playerId := onTurn
      subst mover
      rw [evolve_tilePlaced seats moves undecided available.2]
      have nodup := (undecided.legal_append available).nodup
      rcases undecided.next available with wins | draws | after
      · refine ⟨.won seats moves cell wins, ?_⟩
        simpa [winningSymbol_boardOf_isSome_iff nodup, wins.line] using
          Step.win seats moves cell wins
      · refine ⟨.drawn seats moves cell draws, ?_⟩
        simpa [winningSymbol_boardOf_isSome_iff nodup, isFull_boardOf_iff, draws.noLine,
          draws.full] using Step.draw seats moves cell draws
      · refine ⟨.playing seats (moves ++ [cell]) after, ?_⟩
        simpa [winningSymbol_boardOf_isSome_iff nodup, isFull_boardOf_iff, after.noLine,
          after.notFull] using Step.place seats moves cell undecided available after
  | empty | waiting | won | drawn | abandoned => cases inGame

private theorem leave_accepted {session : Session} {leaver : PlayerId} {events : List GameEvent}
    (accepted : GameDecider.decide session.state (.leaveGame leaver) = .ok events) :
    ∃ after, Step session (.leaveGame leaver) events after := by
  rw [decide_leaveGame, Except.ok.injEq] at accepted
  subst accepted
  cases session with
  | playing seats moves undecided => exact ⟨_, .abandon seats leaver moves undecided⟩
  | empty | waiting | won | drawn | abandoned => exact ⟨_, .leave _ leaver (by simp [stage])⟩

/-- The decider accepts a command on the state of a session exactly when a transition carries it. -/
theorem decide_state_eq_ok_iff (session : Session) (command : GameCommand)
    (events : List GameEvent) :
    GameDecider.decide session.state command = .ok events ↔
      ∃ after, Step session command events after := by
  constructor
  · intro accepted
    cases command with
    | joinGame playerId name => exact join_accepted accepted
    | placeTile playerId cell => exact place_accepted accepted
    | leaveGame leaver => exact leave_accepted accepted
  · rintro ⟨after, step⟩
    exact step.decide_eq_ok

/-- The events of a transition evolve the state of a session into that of its successor. -/
theorem Step.replay {session after : Session} {command : GameCommand} {events : List GameEvent}
    (step : Step session command events after) :
    decider.replay session.state events = after.state := by
  cases step with
  | joinFirst x name taken => rfl
  | joinSecond x o name x_taken o_taken distinct =>
      simp [evolve, state, players, x_taken, stage, Session.moves, active, Seats.players]
  | place seats moves cell undecided available after =>
      rw [EventSourcing.Decider.replay_cons, decider_evolve,
        evolve_tilePlaced seats moves undecided available.2]
      simp [state, stage, Session.moves, active, players]
  | win seats moves cell wins =>
      rw [EventSourcing.Decider.replay_cons, decider_evolve,
        evolve_tilePlaced seats moves wins.undecided wins.available.2]
      rfl
  | draw seats moves cell draws =>
      rw [EventSourcing.Decider.replay_cons, decider_evolve,
        evolve_tilePlaced seats moves draws.undecided draws.available.2]
      rfl
  | abandon seats leaver moves undecided => rfl
  | leave session leaver idle => rfl

/-- The seats are held by those who joined. -/
theorem holdsSeat_iff (session : Session) (playerId : PlayerId) :
    HoldsSeat session.state playerId ↔ playerId ∈ session.joined := by
  rw [HoldsSeat, state_players]
  cases session with
  | empty =>
      simp only [players, joined, List.not_mem_nil, iff_false]
      rintro ⟨named, same | same⟩ <;> exact named same.symm
  | waiting x taken =>
      simp only [players, joined, List.mem_singleton]
      constructor
      · rintro ⟨named, same | same⟩
        · exact same.symm
        · exact (named same.symm).elim
      · rintro rfl
        exact ⟨taken, .inl rfl⟩
  | playing seats | won seats | drawn seats | abandoned seats =>
      simp only [players, joined, List.mem_pair]
      constructor
      · rintro ⟨_, same | same⟩
        · exact .inl same.symm
        · exact .inr same.symm
      · rintro (rfl | rfl)
        · exact ⟨seats.x_ne_vacant, .inl rfl⟩
        · exact ⟨seats.o_ne_vacant, .inr rfl⟩

end Session

/-- Sessions explain the game decider. -/
def sessions : EventSourcing.Abstraction GameDecider.decider Session where
  start := .empty
  Step := Session.Step
  represent := Session.state
  represent_start := Session.state_empty
  decide_iff := Session.decide_state_eq_ok_iff
  replay_step := Session.Step.replay

end TicTacTussle
