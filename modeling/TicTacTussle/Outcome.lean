import TicTacTussle.Position

/-!
# Outcomes

The recorded end of a game agrees with its board.  Lines are rows, columns and diagonals by
coordinates, independently of the source's index triples.
-/

namespace TicTacTussle

open GameDecider

/-- No symbol owns a row, column or diagonal. -/
def Board.NoLine (board : Board) : Prop := ∀ symbol, ¬ board.OwnsLine symbol

/-- The winning tile ends a run of tiles, completes the first line of the board, and belongs to the
symbol of its author. -/
def WonBy (log : List GameEvent) (winner : PlayerId) : Prop :=
  ∃ before cell after symbol,
    log = before ++ .tilePlaced winner cell :: after ∧ placements after = [] ∧
      (hydrate log).Holds winner symbol ∧ (hydrate log).board.OwnsLine symbol ∧
      (∀ other, other ≠ symbol → ¬ (hydrate log).board.OwnsLine other) ∧
      (hydrate before).board.NoLine

/-- The stage, the recorded end and the board of a log agree. -/
structure OutcomeCorrect (log : List GameEvent) : Prop where
  running : (hydrate log).stage = .inGame →
    (hydrate log).board.NoLine ∧ (hydrate log).board.HasBlank
  won : ∀ winner, .gameEnded (.playerWon winner) ∈ log → WonBy log winner
  drawn : .gameEnded .draw ∈ log →
    (hydrate log).board.NoLine ∧ ¬ (hydrate log).board.HasBlank
  left : ∀ leaver, .gameEnded (.playerLeft leaver) ∈ log →
    (hydrate log).board.NoLine ∧ (hydrate log).board.HasBlank
  lineEnds : ¬ (hydrate log).board.NoLine → ∃ winner, .gameEnded (.playerWon winner) ∈ log
  fullEnds : ¬ (hydrate log).board.HasBlank → (hydrate log).board.NoLine → .gameEnded .draw ∈ log

private theorem noLine_iff {session : Session} :
    session.state.board.NoLine ↔ ¬ grid.HasLine session.moves := by
  simp only [Board.NoLine, Session.state_board, ownsLine_boardOf_iff session.legal.nodup,
    PositionalGame.HasLine, not_exists]

private theorem hasBlank_iff {session : Session} :
    session.state.board.HasBlank ↔ ¬ grid.Full session.moves := by
  rw [← isFull_boardOf_iff, isFull_iff, not_forall]
  simp only [Board.HasBlank, Session.state_board, not_not]

private theorem holds_holder (seats : Seats) {session : Session}
    (seated : session.players = seats.players) (symbol : Symbol) :
    session.state.Holds (seats.holder symbol) symbol := by
  cases symbol <;> simp [GameState.Holds, seated, Seats.holder]

/-- The history of a won session splits at its winning tile. -/
theorem history_won {log : List GameEvent} {seats : Seats} {moves : List ℕ} {cell : ℕ}
    {wins : grid.Wins moves cell} (history : sessions.History log (.won seats moves cell wins)) :
    ∃ before after, log = before ++ .tilePlaced (seats.turn moves.length) cell :: after ∧
      placements after = [] ∧
      sessions.History before (.playing seats moves wins.undecided) := by
  generalize ending : Session.won seats moves cell wins = session at history
  induction history with
  | start => cases ending
  | @step log session after command events history step induction =>
      subst ending
      cases step with
      | win => exact ⟨log, _, rfl, rfl, history⟩
      | leave _ leaver =>
          obtain ⟨before, after, split, quiet, earlier⟩ := induction rfl
          refine ⟨before, after ++ [.playerLeft leaver], by simp [split], ?_, earlier⟩
          rw [placements_append, quiet]
          rfl

private theorem won_of_history {log : List GameEvent} {seats : Seats} {moves : List ℕ} {cell : ℕ}
    {wins : grid.Wins moves cell} (history : sessions.History log (.won seats moves cell wins)) :
    WonBy log (seats.turn moves.length) := by
  obtain ⟨before, after, split, quiet, earlier⟩ := history_won history
  have owner := wins.mover_ownsLine
  refine ⟨before, cell, after, grid.mover moves.length, split, quiet, ?_, ?_, ?_, ?_⟩
  · rw [history_state history]
    exact holds_holder seats rfl _
  · rw [history_state history]
    exact (ownsLine_boardOf_iff wins.legal.nodup _).mpr owner
  · intro other different owned
    rw [history_state history] at owned
    have owned := (ownsLine_boardOf_iff wins.legal.nodup other).mp owned
    exact different (owned.side_eq_mover wins.undecided.noLine)
  · rw [history_state earlier, noLine_iff]
    exact wins.undecided.noLine

theorem history_outcomeCorrect {log : List GameEvent} {session : Session}
    (history : sessions.History log session) : OutcomeCorrect log := by
  constructor <;>
    simp only [← mem_endings_iff, history_endings history, history_state history, noLine_iff,
      hasBlank_iff, Session.state_stage]
  case running =>
    intro running
    cases session with
    | playing seats moves undecided => exact ⟨undecided.noLine, undecided.notFull⟩
    | empty | waiting | won | drawn | abandoned => cases running
  case won =>
    intro winner recorded
    cases session with
    | won seats moves cell wins =>
        rw [List.mem_singleton.mp recorded |> EndGameReason.playerWon.inj]
        exact won_of_history history
    | empty | waiting | playing | drawn | abandoned => simp [Session.endings] at recorded
  case drawn =>
    intro recorded
    cases session with
    | drawn seats moves cell draws => exact ⟨draws.noLine, not_not.mpr draws.full⟩
    | empty | waiting | playing | won | abandoned => simp [Session.endings] at recorded
  case left =>
    intro leaver recorded
    cases session with
    | abandoned seats _ moves undecided => exact ⟨undecided.noLine, undecided.notFull⟩
    | empty | waiting | playing | won | drawn => simp [Session.endings] at recorded
  case lineEnds =>
    rw [not_not]
    intro line
    cases session with
    | won seats moves cell wins => exact ⟨_, List.mem_singleton.mpr rfl⟩
    | empty | waiting => exact (undecided_nil.noLine line).elim
    | playing _ _ undecided | abandoned _ _ _ undecided => exact (undecided.noLine line).elim
    | drawn _ _ _ draws => exact (draws.noLine line).elim
  case fullEnds =>
    rw [not_not]
    intro full noLine
    cases session with
    | drawn seats moves cell draws => exact List.mem_singleton.mpr rfl
    | empty | waiting => exact (undecided_nil.notFull full).elim
    | playing _ _ undecided | abandoned _ _ _ undecided => exact (undecided.notFull full).elim
    | won _ _ _ wins => exact (noLine wins.line).elim

section Runs

variable {E P B : Type} [Anyhow E] [EventPublisher E P] [NetworkBroadcaster E B]

/-- In every run of a service the recorded outcome agrees with the board. -/
theorem run_outcomeCorrect (fresh : ℕ → Stamp) (gameId : GameId) (publisher : P) (broadcaster : B)
    (envelopes : List CommandEnvelope) :
    OutcomeCorrect
      ((GameService.build gameId publisher broadcaster).handleAll fresh
        envelopes).store.events := by
  obtain ⟨session, history⟩ :=
    GameService.exists_session fresh gameId publisher broadcaster envelopes
  exact history_outcomeCorrect history

end Runs

end TicTacTussle
