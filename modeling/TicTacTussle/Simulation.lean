import TicTacTussle.Service

/-!
# The simulation harness

The harness replays a log up to a cursor and decides what-if commands on the state it finds there.
It may stop inside a command's batch, where the service never decides anything: between the second
join and the start of the game, and between a winning tile and the end of the game.  Exactly there a
branch can break the rules.
-/

namespace TicTacTussle

open GameDecider

/-- A log with a cursor and the state at the cursor. -/
structure SimulationHarness where
  log : List GameEvent
  cursor : ℕ
  state : GameState
  cursor_le : cursor ≤ log.length
  state_eq : state = hydrate (log.take cursor)

namespace SimulationHarness

/-- A harness at the end of a log. -/
def fromLog (log : List GameEvent) : SimulationHarness where
  log := log
  cursor := log.length
  state := hydrate log
  cursor_le := le_rfl
  state_eq := by rw [List.take_length]

/-- A harness at position `n` of a log, or at its end. -/
def fromLogUpTo (log : List GameEvent) (n : ℕ) : SimulationHarness where
  log := log
  cursor := min n log.length
  state := hydrate (log.take (min n log.length))
  cursor_le := Nat.min_le_right n log.length
  state_eq := rfl

/-- The cursor is at the end of the log. -/
def isExhausted (harness : SimulationHarness) : Prop :=
  harness.log.length ≤ harness.cursor

instance (harness : SimulationHarness) : Decidable harness.isExhausted :=
  inferInstanceAs (Decidable (_ ≤ _))

/-- Apply the next event; `false` at the end of the log. -/
def stepForward (harness : SimulationHarness) : SimulationHarness × Bool :=
  if exhausted : harness.isExhausted then (harness, false)
  else
    have more : harness.cursor < harness.log.length := Nat.lt_of_not_le exhausted
    ({ log := harness.log
       cursor := harness.cursor + 1
       state := evolve harness.state harness.log[harness.cursor]
       cursor_le := more
       state_eq := by
        rw [harness.state_eq, ← List.take_append_getElem more, hydrate, hydrate, List.foldl_append]
        rfl }, true)

/-- Rewind or fast-forward to position `n`. -/
def rewindTo (harness : SimulationHarness) (n : ℕ) : SimulationHarness where
  log := harness.log
  cursor := min n harness.log.length
  state := hydrate (harness.log.take (min n harness.log.length))
  cursor_le := Nat.min_le_right n harness.log.length
  state_eq := rfl

/-- Decide a command at the cursor, without moving the harness. -/
def branchWithCommand (harness : SimulationHarness) (cmd : GameCommand) :
    Except TicTacTussleError (List GameEvent × GameState) := do
  let events ← GameDecider.decide harness.state cmd
  .ok (events, events.foldl evolve harness.state)

/-- Replay the remaining events. -/
def runToEnd (harness : SimulationHarness) : SimulationHarness :=
  if harness.isExhausted then harness else harness.stepForward.1.runToEnd
termination_by harness.log.length - harness.cursor
decreasing_by
  rename_i more
  have before : harness.cursor < harness.log.length := Nat.lt_of_not_le more
  rw [stepForward, dif_neg more]
  dsimp only
  omega

theorem stepForward_log (harness : SimulationHarness) :
    harness.stepForward.1.log = harness.log := by
  rw [stepForward]
  split <;> rfl

theorem fromLog_of_isExhausted {harness : SimulationHarness} (exhausted : harness.isExhausted) :
    harness = fromLog harness.log := by
  obtain ⟨log, cursor, state, cursor_le, rfl⟩ := harness
  obtain rfl : cursor = log.length := Nat.le_antisymm cursor_le exhausted
  simp [fromLog]

/-- Stepping through a log ends where hydrating it at once does. -/
theorem runToEnd_eq (harness : SimulationHarness) : harness.runToEnd = fromLog harness.log := by
  induction harness using runToEnd.induct with
  | case1 harness exhausted =>
      rw [runToEnd, if_pos exhausted]
      exact fromLog_of_isExhausted exhausted
  | case2 harness more induction =>
      rw [runToEnd, if_neg more, induction, stepForward_log]

theorem branchWithCommand_eq_ok_iff (harness : SimulationHarness) (cmd : GameCommand)
    (events : List GameEvent) (after : GameState) :
    harness.branchWithCommand cmd = .ok (events, after) ↔
      GameDecider.decide harness.state cmd = .ok events ∧
        after = events.foldl evolve harness.state := by
  rw [branchWithCommand]
  cases GameDecider.decide harness.state cmd with
  | error error =>
      constructor
      · intro failed
        cases failed
      · rintro ⟨failed, _⟩
        cases failed
  | ok decided =>
      constructor
      · intro same
        cases same
        exact ⟨rfl, rfl⟩
      · rintro ⟨same, rfl⟩
        cases same
        rfl

end SimulationHarness

theorem GridLine.cell_injective (line : GridLine) : line.cell.Injective := by
  intro left right
  cases line with
  | row index | column index =>
      revert index left right
      decide
  | diagonal | antidiagonal =>
      revert left right
      decide

/-- A tile on an empty cell leaves the lines there were and adds those it completes. -/
theorem Board.ownsLine_setIfInBounds_iff {board : Board} {cell : ℕ}
    (empty : board[cell]? = some .empty) (symbol other : Symbol) :
    Board.OwnsLine (board.setIfInBounds cell (.occupied symbol)) other ↔
      board.OwnsLine other ∨ other = symbol ∧ board.Completes symbol cell := by
  constructor
  · rintro ⟨line, owned⟩
    by_cases through : ∃ here, cell = line.cell here
    · obtain ⟨here, rfl⟩ := through
      have mine := owned here
      rw [Board.getElem_setIfInBounds_fin, if_pos rfl] at mine
      obtain rfl : symbol = other := by
        cases mine
        rfl
      refine .inr ⟨rfl, line, here, rfl, fun step apart => ?_⟩
      have there := owned step
      rw [Board.getElem_setIfInBounds_fin, if_neg] at there
      · exact there
      · exact fun same => apart (line.cell_injective (Fin.ext same.symm))
    · refine .inl ⟨line, fun step => ?_⟩
      have there := owned step
      rw [Board.getElem_setIfInBounds_fin, if_neg] at there
      · exact there
      · exact fun same => through ⟨step, same⟩
  · rintro (⟨line, owned⟩ | ⟨rfl, line, here, rfl, owned⟩)
    · refine ⟨line, fun step => ?_⟩
      rw [Board.getElem_setIfInBounds_fin, if_neg (Board.ne_of_occupied empty (owned step))]
      exact owned step
    · refine ⟨line, fun step => ?_⟩
      rw [Board.getElem_setIfInBounds_fin]
      split
      · rfl
      · rename_i apart
        exact owned step fun same => apart (by rw [same])

/-! ## Branches that break the rules -/

/-- Filled seats stay as they are, and a player declared winner owns a line. -/
structure ObeysRules (before : GameState) (events : List GameEvent) (after : GameState) : Prop where
  seats : ∀ (seat : ℕ) (inRange : seat < 2), before.players[seat] ≠ .vacant →
    after.players[seat] = before.players[seat]
  winner : ∀ winner, .gameEnded (.playerWon winner) ∈ events →
    after.board.OwnsLine (after.symbolOf winner)

/-- The commands that break the rules where the harness may stop inside a batch: a join between the
second join and the start of the game, and a tile without a line of its own between a winning tile
and the end of the game. -/
inductive Breaks (state : GameState) : GameCommand → Prop
  | join (playerId : PlayerId) (name : String) (inLobby : state.stage = .lobby)
      (full : ∀ (seat : ℕ) (inRange : seat < 2), state.players[seat] ≠ .vacant)
      (stranger : ∀ (seat : ℕ) (inRange : seat < 2), state.players[seat] ≠ playerId) :
      Breaks state (.joinGame playerId name)
  | place (cell : ℕ) (inGame : state.stage = .inGame) (empty : state.board[cell]? = some .empty)
      (line : ∃ symbol, state.board.OwnsLine symbol)
      (notOwned : ¬ state.board.OwnsLine (state.symbolOf state.activePlayerId))
      (incomplete : ¬ state.board.Completes (state.symbolOf state.activePlayerId) cell) :
      Breaks state (.placeTile state.activePlayerId cell)

/-- Every accepted branch obeys the rules. -/
def SimulationHarness.BranchObeysRules (harness : SimulationHarness) (cmd : GameCommand) : Prop :=
  ∀ events after, harness.branchWithCommand cmd = .ok (events, after) →
    ObeysRules harness.state events after

theorem evolve_tilePlaced_board (state : GameState) (playerId : PlayerId) (cell : ℕ) :
    (evolve state (.tilePlaced playerId cell)).board =
      state.board.setIfInBounds cell (.occupied (state.symbolOf playerId)) := rfl

namespace SimulationHarness

variable (harness : SimulationHarness)

private theorem join_obeysRules_iff (playerId : PlayerId) (name : String) :
    harness.BranchObeysRules (.joinGame playerId name) ↔
      ¬ Breaks harness.state (.joinGame playerId name) := by
  have players {events : List GameEvent} (decided : GameDecider.decide harness.state
      (.joinGame playerId name) = .ok events) :
      (events.foldl evolve harness.state).players =
        (evolve harness.state (.playerJoined playerId name)).players := by
    obtain ⟨_, _, _, rfl⟩ := (decide_joinGame_eq_ok_iff _ _ _ _).mp decided
    split <;> rfl
  constructor
  · rintro obeys ⟨_, _, inLobby, full, stranger⟩
    have notFirst := stranger 0 Nat.zero_lt_two
    have notSecond := stranger 1 Nat.one_lt_two
    have decided := (decide_joinGame_eq_ok_iff harness.state playerId name _).mpr
      ⟨inLobby, notFirst, notSecond, rfl⟩
    have branched := (harness.branchWithCommand_eq_ok_iff _ _ _).mpr ⟨decided, rfl⟩
    have kept := (obeys _ _ branched).seats 1 Nat.one_lt_two (full 1 Nat.one_lt_two)
    have seats := (players decided).trans (evolve_playerJoined_players harness.state playerId name)
    rw [if_neg (full 0 Nat.zero_lt_two)] at seats
    simp only [seats, Vector.getElem_set_self] at kept
    exact notSecond kept.symm
  · intro obeying events after branched
    obtain ⟨decided, rfl⟩ := (harness.branchWithCommand_eq_ok_iff _ _ _).mp branched
    obtain ⟨inLobby, notFirst, notSecond, events_eq⟩ :=
      (decide_joinGame_eq_ok_iff _ _ _ _).mp decided
    constructor
    · intro seat inRange filled
      simp only [players decided, evolve_playerJoined_players]
      split
      · rename_i empty
        have seat_eq : 0 ≠ seat := by
          rintro rfl
          exact filled empty
        exact Vector.getElem_set_ne _ _ seat_eq
      · rename_i first
        have seat_eq : 1 ≠ seat := by
          rintro rfl
          refine obeying (.join playerId name inLobby ?_ ?_)
          · rintro (_ | _ | seat) inRange
            · exact first
            · exact filled
            · omega
          · rintro (_ | _ | seat) inRange
            · exact notFirst
            · exact notSecond
            · omega
        exact Vector.getElem_set_ne _ _ seat_eq
    · intro winner won
      rw [events_eq] at won
      split at won <;> simp at won

section Place

variable {state : GameState} {playerId : PlayerId} {cell : ℕ} {events : List GameEvent}

theorem place_players (decided : GameDecider.decide state (.placeTile playerId cell) = .ok events) :
    (events.foldl evolve state).players = state.players := by
  obtain ⟨_, _, _, rfl⟩ := (decide_placeTile_eq_ok_iff _ _ _ _).mp decided
  split
  · rfl
  · split <;> rfl

theorem place_symbolOf
    (decided : GameDecider.decide state (.placeTile playerId cell) = .ok events) :
    (events.foldl evolve state).symbolOf playerId = state.symbolOf playerId := by
  rw [GameState.symbolOf, GameState.symbolOf, place_players decided]

theorem place_board (decided : GameDecider.decide state (.placeTile playerId cell) = .ok events) :
    (events.foldl evolve state).board =
      state.board.setIfInBounds cell (.occupied (state.symbolOf playerId)) := by
  obtain ⟨_, _, _, rfl⟩ := (decide_placeTile_eq_ok_iff _ _ _ _).mp decided
  split
  · rfl
  · split <;> rfl

/-- A tile declares its player the winner as soon as the board has any line. -/
theorem place_winners (decided : GameDecider.decide state (.placeTile playerId cell) = .ok events)
    (winner : PlayerId) :
    .gameEnded (.playerWon winner) ∈ events ↔ winner = playerId ∧
      ∃ symbol, Board.OwnsLine
        (state.board.setIfInBounds cell (.occupied (state.symbolOf playerId))) symbol := by
  obtain ⟨_, _, _, rfl⟩ := (decide_placeTile_eq_ok_iff _ _ _ _).mp decided
  rw [← evolve_tilePlaced_board, ← winningSymbol_isSome_iff]
  split
  · simp [*]
  · split <;> simp [*]

end Place

private theorem place_obeysRules_iff (playerId : PlayerId) (cell : ℕ) :
    harness.BranchObeysRules (.placeTile playerId cell) ↔
      ¬ Breaks harness.state (.placeTile playerId cell) := by
  constructor
  · intro obeys breaks
    cases breaks with
    | place _ inGame empty line notOwned incomplete =>
        obtain ⟨symbol, owned⟩ := line
        have decided := (decide_placeTile_eq_ok_iff harness.state _ cell _).mpr
          ⟨inGame, rfl, empty, rfl⟩
        have branched := (harness.branchWithCommand_eq_ok_iff _ _ _).mpr ⟨decided, rfl⟩
        have won := (place_winners decided _).mpr
          ⟨rfl, symbol, (Board.ownsLine_setIfInBounds_iff empty _ symbol).mpr (.inl owned)⟩
        have line := (obeys _ _ branched).winner _ won
        rw [place_board decided, place_symbolOf decided] at line
        rcases (Board.ownsLine_setIfInBounds_iff empty _ _).mp line with before | ⟨_, completed⟩
        · exact notOwned before
        · exact incomplete completed
  · intro obeying events after branched
    obtain ⟨decided, rfl⟩ := (harness.branchWithCommand_eq_ok_iff _ _ _).mp branched
    obtain ⟨inGame, rfl, empty, _⟩ := (decide_placeTile_eq_ok_iff _ _ _ _).mp decided
    constructor
    · intro seat inRange _
      simp only [place_players decided]
    · intro winner won
      obtain ⟨rfl, symbol, owned⟩ := (place_winners decided _).mp won
      rw [place_board decided, place_symbolOf decided]
      apply (Board.ownsLine_setIfInBounds_iff empty _ _).mpr
      by_contra neither
      rw [not_or, not_and] at neither
      obtain ⟨notOwned, incomplete⟩ := neither
      rcases (Board.ownsLine_setIfInBounds_iff empty _ _).mp owned with before | ⟨_, completed⟩
      · exact obeying (.place cell inGame empty ⟨symbol, before⟩ notOwned (incomplete rfl))
      · exact incomplete rfl completed

private theorem leave_obeysRules (leaver : PlayerId) :
    harness.BranchObeysRules (.leaveGame leaver) := by
  intro events after branched
  obtain ⟨decided, rfl⟩ := (harness.branchWithCommand_eq_ok_iff _ _ _).mp branched
  rw [decide_leaveGame] at decided
  obtain rfl := Except.ok.inj decided
  constructor
  · intro seat inRange _
    split <;> rfl
  · intro winner won
    split at won <;> simp at won

/-- A branch obeys the rules at every cursor unless it breaks them inside a batch. -/
theorem branch_obeysRules_iff (cmd : GameCommand) :
    harness.BranchObeysRules cmd ↔ ¬ Breaks harness.state cmd := by
  cases cmd with
  | joinGame playerId name => exact harness.join_obeysRules_iff playerId name
  | placeTile playerId cell => exact harness.place_obeysRules_iff playerId cell
  | leaveGame leaver =>
      refine iff_of_true (harness.leave_obeysRules leaver) ?_
      rintro ⟨⟩

end SimulationHarness

/-- No command breaks the rules where the service decides. -/
theorem Session.not_breaks (session : Session) (cmd : GameCommand) :
    ¬ Breaks session.state cmd := by
  intro breaks
  cases breaks with
  | join playerId name inLobby full stranger =>
      cases session with
      | empty => exact full 0 Nat.zero_lt_two rfl
      | waiting x taken => exact full 1 Nat.one_lt_two rfl
      | playing | won | drawn | abandoned => cases inLobby
  | place cell inGame empty line notOwned incomplete =>
      cases session with
      | playing seats moves undecided =>
          obtain ⟨symbol, owned⟩ := line
          exact undecided.noLine
            ⟨symbol, (ownsLine_boardOf_iff undecided.legal.nodup symbol).mp owned⟩
      | empty | waiting | won | drawn | abandoned => cases inGame

/-- Branches taken between the batches of a log obey the rules. -/
theorem SimulationHarness.branch_obeysRules_of_history {session : Session}
    (harness : SimulationHarness)
    (history : sessions.History (harness.log.take harness.cursor) session) (cmd : GameCommand) :
    harness.BranchObeysRules cmd := by
  have state : harness.state = session.state := harness.state_eq.trans history.hydrate
  rw [harness.branch_obeysRules_iff, state]
  exact session.not_breaks cmd

private def twoJoins : List GameCommand := [.joinGame ⟨1⟩ "Ann", .joinGame ⟨2⟩ "Bob"]

private def started : List GameEvent :=
  [.playerJoined ⟨1⟩ "Ann", .playerJoined ⟨2⟩ "Bob", .gameStarted ⟨1⟩]

private theorem run_twoJoins : decider.run [] twoJoins = started := by
  decide +kernel

private theorem branch_started :
    ((SimulationHarness.fromLogUpTo started 2).branchWithCommand (.joinGame ⟨3⟩ "Eve")).map
        (fun branch => branch.2.players) = .ok #v[⟨1⟩, ⟨3⟩] := by
  decide +kernel

private theorem seats_started :
    (SimulationHarness.fromLogUpTo started 2).state.players = #v[⟨1⟩, ⟨2⟩] := by
  decide +kernel

/-- Before the start of the game a third player takes the seat of the second. -/
theorem branch_takes_seat :
    ¬ ∀ (fresh : ℕ → Stamp) (gameId : GameId) (envelopes : List CommandEnvelope) (n : ℕ)
        (cmd : GameCommand),
      let log := ((GameService.build gameId NoopPublisher.mk NoopBroadcaster.mk).handleAll fresh
        envelopes).store.events
      n ≤ log.length → (SimulationHarness.fromLogUpTo log n).BranchObeysRules cmd := by
  intro always
  let stamp : Stamp := ⟨⟨0⟩, ⟨0⟩⟩
  have obeys := always (fun _ => stamp) ⟨⟨0⟩⟩ (twoJoins.map (CommandEnvelope.new stamp ⟨⟨0⟩⟩)) 2
    (.joinGame ⟨3⟩ "Eve")
  rw [GameService.handleAll_new_events, run_twoJoins] at obeys
  have players := branch_started
  cases branched : (SimulationHarness.fromLogUpTo started 2).branchWithCommand
      (.joinGame ⟨3⟩ "Eve") with
  | error error =>
      rw [branched] at players
      cases players
  | ok branch =>
      rw [branched] at players
      have kept := (obeys (by decide) branch.1 branch.2 branched).seats 1 Nat.one_lt_two
      have after : branch.2.players = #v[⟨1⟩, ⟨3⟩] := Except.ok.inj players
      simp only [seats_started, after] at kept
      have same : (⟨3⟩ : PlayerId) = ⟨2⟩ := kept (by decide)
      exact absurd same (by decide)

end TicTacTussle
