import TicTacTussle.Service

/-!
# The write model as a reference position

A log determines who joined, which cells were taken by whom, and how the game ended.  In every
history these three projections are those of its session, so the folded write model is a closed
form of the log.
-/

namespace TicTacTussle

/-- The ids of the `PlayerJoined` events. -/
def joins (log : List GameEvent) : List PlayerId :=
  log.filterMap fun
    | .playerJoined playerId _ => some playerId
    | _ => none

/-- The authors and cells of the `TilePlaced` events. -/
def placements (log : List GameEvent) : List (PlayerId × ℕ) :=
  log.filterMap fun
    | .tilePlaced playerId cell => some (playerId, cell)
    | _ => none

/-- The cells of the `TilePlaced` events. -/
def moves (log : List GameEvent) : List ℕ :=
  (placements log).map Prod.snd

/-- The reasons of the `GameEnded` events. -/
def endings (log : List GameEvent) : List EndGameReason :=
  log.filterMap fun
    | .gameEnded reason => some reason
    | _ => none

@[simp]
theorem joins_append (left right : List GameEvent) :
    joins (left ++ right) = joins left ++ joins right := by
  simp [joins]

@[simp]
theorem placements_append (left right : List GameEvent) :
    placements (left ++ right) = placements left ++ placements right := by
  simp [placements]

@[simp]
theorem endings_append (left right : List GameEvent) :
    endings (left ++ right) = endings left ++ endings right := by
  simp [endings]

theorem mem_joins_iff (log : List GameEvent) (playerId : PlayerId) :
    playerId ∈ joins log ↔ ∃ name, .playerJoined playerId name ∈ log := by
  rw [joins, List.mem_filterMap]
  constructor
  · rintro ⟨event, member, found⟩
    cases event with
    | playerJoined joiner name =>
        obtain rfl := Option.some.inj found
        exact ⟨name, member⟩
    | gameStarted | tilePlaced | playerLeft | gameEnded => cases found
  · rintro ⟨name, member⟩
    exact ⟨.playerJoined playerId name, member, rfl⟩

theorem mem_endings_iff (log : List GameEvent) (reason : EndGameReason) :
    reason ∈ endings log ↔ .gameEnded reason ∈ log := by
  rw [endings, List.mem_filterMap]
  constructor
  · rintro ⟨event, member, found⟩
    cases event <;> simp_all
  · exact fun member => ⟨.gameEnded reason, member, rfl⟩

namespace Seats

/-- The cells of a play with the players who took them. -/
def sign (seats : Seats) (moves : List ℕ) : List (PlayerId × ℕ) :=
  moves.mapIdx fun turn cell => (seats.turn turn, cell)

@[simp]
theorem sign_append_singleton (seats : Seats) (moves : List ℕ) (cell : ℕ) :
    seats.sign (moves ++ [cell]) = seats.sign moves ++ [(seats.turn moves.length, cell)] := by
  simp [sign]

@[simp]
theorem map_snd_sign (seats : Seats) (moves : List ℕ) :
    (seats.sign moves).map Prod.snd = moves := by
  apply List.ext_getElem
  · simp [sign]
  · intro turn inRange _
    simp [sign]

end Seats

namespace Session

/-- The authored cells of a session. -/
def placements : Session → List (PlayerId × ℕ)
  | .empty | .waiting _ _ => []
  | .playing seats moves _ | .abandoned seats _ moves _ => seats.sign moves
  | .won seats moves cell _ | .drawn seats moves cell _ => seats.sign (moves ++ [cell])

/-- How a session ended, if it did. -/
def endings : Session → List EndGameReason
  | .empty | .waiting _ _ | .playing _ _ _ => []
  | .won seats moves _ _ => [.playerWon (seats.turn moves.length)]
  | .drawn _ _ _ _ => [.draw]
  | .abandoned _ leaver _ _ => [.playerLeft leaver]

theorem map_snd_placements (session : Session) :
    session.placements.map Prod.snd = session.moves := by
  cases session <;> simp [placements, moves]

theorem legal (session : Session) : grid.Legal session.moves := by
  cases session with
  | empty => exact PositionalGame.legal_nil
  | waiting => exact PositionalGame.legal_nil
  | playing _ _ undecided => exact undecided.legal
  | won _ _ _ wins => exact wins.legal
  | drawn _ _ _ draws => exact draws.legal
  | abandoned _ _ _ undecided => exact undecided.legal

theorem stage_eq_lobby_iff (session : Session) :
    session.stage = .lobby ↔ session.joined.length < 2 := by
  cases session <;> simp [stage, joined]

theorem stage_eq_ended_iff (session : Session) :
    session.stage = .ended ↔ ∃ reason, reason ∈ session.endings := by
  cases session <;> simp [stage, endings]

theorem joined_nodup (session : Session) : session.joined.Nodup := by
  cases session with
  | empty => simp [joined]
  | waiting => simp [joined]
  | playing seats | won seats | drawn seats | abandoned seats => simp [joined, seats.x_ne_o]

theorem vacant_notMem_joined (session : Session) : .vacant ∉ session.joined := by
  cases session with
  | empty => simp [joined]
  | waiting x taken => simp [joined, taken.symm]
  | playing seats | won seats | drawn seats | abandoned seats =>
      simp [joined, seats.x_ne_vacant.symm, seats.o_ne_vacant.symm]

theorem players_eq_joined (session : Session) (seat : Fin 2) :
    session.players[seat] = session.joined.getD seat .vacant := by
  cases session <;> fin_cases seat <;> rfl

/-- The seat of a symbol, X first, is the seat the turn number points at. -/
theorem players_getElem_turn (seats : Seats) (turn : ℕ) :
    seats.players[turn % 2] = seats.turn turn := by
  rcases Nat.mod_two_eq_zero_or_one turn with even | odd
  · simp [Seats.turn, Seats.holder, grid, even]
  · simp [Seats.turn, Seats.holder, grid, odd]

end Session

theorem history_joins {log : List GameEvent} {session : Session}
    (history : sessions.History log session) : joins log = session.joined := by
  induction history with
  | start => rfl
  | step _ step induction =>
      rw [joins_append, induction]
      cases step <;> simp [joins, Session.joined]

theorem history_placements {log : List GameEvent} {session : Session}
    (history : sessions.History log session) : placements log = session.placements := by
  induction history with
  | start => rfl
  | step _ step induction =>
      rw [placements_append, induction]
      cases step <;> simp [placements, Session.placements, Seats.sign]

theorem history_moves {log : List GameEvent} {session : Session}
    (history : sessions.History log session) : moves log = session.moves := by
  rw [moves, history_placements history, Session.map_snd_placements]

theorem history_endings {log : List GameEvent} {session : Session}
    (history : sessions.History log session) : endings log = session.endings := by
  induction history with
  | start => rfl
  | step _ step induction =>
      rw [endings_append, induction]
      cases step <;> simp [endings, Session.endings]

theorem history_state {log : List GameEvent} {session : Session}
    (history : sessions.History log session) : GameDecider.hydrate log = session.state :=
  history.hydrate

/-- The folded state of a log is the position its joins and moves describe. -/
structure ReferencePosition (log : List GameEvent) : Prop where
  atMostTwo : (joins log).length ≤ 2
  distinct : (joins log).Nodup
  noVacant : .vacant ∉ joins log
  seats : ∀ seat : Fin 2, (GameDecider.hydrate log).players[seat] = (joins log).getD seat .vacant
  crosses : ∀ (cell : Fin 9) (turn : ℕ), (moves log)[turn]? = some cell.val → turn % 2 = 0 →
    (GameDecider.hydrate log).board[cell] = .occupied .x
  noughts : ∀ (cell : Fin 9) (turn : ℕ), (moves log)[turn]? = some cell.val → turn % 2 = 1 →
    (GameDecider.hydrate log).board[cell] = .occupied .o
  blanks : ∀ cell : Fin 9, cell.val ∉ moves log → (GameDecider.hydrate log).board[cell] = .empty
  idle : (joins log).length < 2 → (GameDecider.hydrate log).activePlayerId = .vacant
  onTurn : ¬ (joins log).length < 2 → (GameDecider.hydrate log).activePlayerId =
    (GameDecider.hydrate log).players[(moves log).length % 2]
  inLobby : (GameDecider.hydrate log).stage = .lobby ↔ (joins log).length < 2
  hasEnded : (GameDecider.hydrate log).stage = .ended ↔ ∃ reason, .gameEnded reason ∈ log
  inGame : (GameDecider.hydrate log).stage = .inGame ↔
    ¬ (joins log).length < 2 ∧ ¬ ∃ reason, .gameEnded reason ∈ log

private theorem active_eq (session : Session) (started : ¬ session.joined.length < 2) :
    session.active = session.players[session.moves.length % 2] := by
  cases session with
  | empty => simp [Session.joined] at started
  | waiting => simp [Session.joined] at started
  | playing seats moves | abandoned seats _ moves =>
      exact (Session.players_getElem_turn seats moves.length).symm
  | won seats moves cell | drawn seats moves cell =>
      simp only [Session.active, Session.players, Session.moves, List.length_append,
        List.length_singleton]
      exact (Session.players_getElem_turn seats (moves.length + 1)).symm

private theorem board_of_turn {session : Session} {cell : Fin 9} {onBoard : cell.val < 9} {turn : ℕ}
    (taken : session.moves[turn]? = some cell.val) :
    session.state.board[cell] = .occupied (grid.mover turn) := by
  rw [Session.state_board, boardOf_getElem, tileOf_eq_occupied_iff session.legal.nodup]
  exact ⟨turn, taken, rfl⟩

private theorem board_of_fresh {session : Session} {cell : Fin 9} {onBoard : cell.val < 9}
    (fresh : cell.val ∉ session.moves) :
    session.state.board[cell] = .empty := by
  rw [Session.state_board, boardOf_getElem, tileOf_eq_empty_iff]
  exact fresh

theorem history_referencePosition {log : List GameEvent} {session : Session}
    (history : sessions.History log session) : ReferencePosition log := by
  have stages : session.stage = .inGame ↔ session.stage ≠ .lobby ∧ session.stage ≠ .ended := by
    cases session.stage <;> simp
  constructor <;>
    simp only [← mem_endings_iff, history_joins history, history_moves history,
      history_endings history, history_state history, Session.state_players,
      Session.state_active, Session.state_stage]
  case atMostTwo => cases session <;> simp [Session.joined]
  case distinct => exact session.joined_nodup
  case noVacant => exact session.vacant_notMem_joined
  case seats => exact session.players_eq_joined
  case crosses =>
    intro cell turn taken even
    rw [board_of_turn taken]
    simp [grid, even]
  case noughts =>
    intro cell turn taken odd
    rw [board_of_turn taken]
    simp [grid, odd]
  case blanks =>
    intro cell fresh
    exact board_of_fresh fresh
  case idle =>
    intro early
    cases session <;> simp [Session.joined] at early <;> rfl
  case onTurn => exact active_eq session
  case inLobby => exact session.stage_eq_lobby_iff
  case hasEnded => exact session.stage_eq_ended_iff
  case inGame =>
    rw [stages, ← session.stage_eq_lobby_iff, ← session.stage_eq_ended_iff]

section Runs

variable {E P B : Type} [Anyhow E] [EventPublisher E P] [NetworkBroadcaster E B]

/-- In every run of a service the write model is exactly the reference position of the log. -/
theorem writeModel_referencePosition (fresh : ℕ → Stamp) (gameId : GameId) (publisher : P)
    (broadcaster : B) (envelopes : List CommandEnvelope) :
    ReferencePosition
      ((GameService.build gameId publisher broadcaster).handleAll fresh
        envelopes).store.events := by
  obtain ⟨session, history⟩ :=
    GameService.exists_session fresh gameId publisher broadcaster envelopes
  exact history_referencePosition history

end Runs

end TicTacTussle
