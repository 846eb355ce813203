import TicTacTussle.Answers
import TicTacTussle.Outcome

/-!
# Games come to an end

Departures apart, a game records few events however many commands arrive, and a running game is
never stuck: whatever free cells the players on turn take, it ends with one of the cells left.
-/

namespace TicTacTussle

open GameDecider EventSourcing PositionalGame

/-- The ids of the `PlayerLeft` events. -/
def leavers (log : List GameEvent) : List PlayerId :=
  log.filterMap fun
    | .playerLeft playerId => some playerId
    | _ => none

/-- Every event of a log is of one kind. -/
theorem length_eq_kinds (log : List GameEvent) :
    log.length = (joins log).length + (starts log).length + (placements log).length +
      (endings log).length + (leavers log).length := by
  induction log with
  | nil => rfl
  | cons event log induction =>
      cases event <;>
        simp only [joins, starts, placements, endings, leavers, List.filterMap_cons,
          List.length_cons] at induction ⊢ <;>
        omega

/-- Every accepted command is of one kind. -/
theorem length_requests (log : List GameEvent) :
    (log.filterMap GameEvent.request).length =
      (joins log).length + (placements log).length + (leavers log).length := by
  induction log with
  | nil => rfl
  | cons event log induction =>
      cases event <;>
        simp only [joins, placements, leavers, GameEvent.request, List.filterMap_cons,
          List.length_cons] at induction ⊢ <;>
        omega

theorem history_placements_length {log : List GameEvent} {session : Session}
    (history : sessions.History log session) : (placements log).length ≤ 9 := by
  have onBoard := session.legal.length_le
  rw [← history_moves history, moves, List.length_map] at onBoard
  simpa [grid] using onBoard

/-- The players on turn take the cells that a strategy picks. -/
def playOut (choose : List GameEvent → ℕ) : ℕ → List GameEvent → List GameEvent
  | 0, log => log
  | turns + 1, log =>
      playOut choose turns
        (decider.next log (.placeTile (hydrate log).activePlayerId (choose log)))

/-- The strategy picks a free cell while there is one. -/
def PicksFree (choose : List GameEvent → ℕ) : Prop :=
  ∀ log, (hydrate log).board.HasBlank → (hydrate log).board[choose log]? = some .empty

/-- The game ends after this many turns, none of them refused, and runs until then. -/
structure PlaysOut (choose : List GameEvent → ℕ) (log : List GameEvent) (turns : ℕ) : Prop where
  withinCells : turns ≤ 9 - (placements log).length
  placed : (placements (playOut choose turns log)).length = (placements log).length + turns
  running : ∀ earlier < turns, (hydrate (playOut choose earlier log)).stage = .inGame
  ended : (hydrate (playOut choose turns log)).stage = .ended

/-- One turn of a running game takes the picked cell, and the game is over or goes on. -/
private theorem turn_of_running {log : List GameEvent} {seats : Seats} {moves : List ℕ}
    {undecided : grid.Undecided moves} {choose : List GameEvent → ℕ} (picks : PicksFree choose)
    (history : sessions.History log (.playing seats moves undecided)) :
    ∃ session, sessions.History (playOut choose 1 log) session ∧
      session.moves = moves ++ [choose log] ∧
      (session.stage = .ended ∨
        ∃ after, session = .playing seats (moves ++ [choose log]) after) := by
  have state := history_state history
  have blank : (hydrate log).board.HasBlank :=
    ((history_outcomeCorrect history).running (congrArg GameState.stage state)).2
  have free := picks log blank
  rw [state, Session.state_board] at free
  have available := (Session.boardOf_getElem?_eq_empty_iff moves (choose log)).mp free
  have onTurn : (hydrate log).activePlayerId = seats.turn moves.length :=
    congrArg GameState.activePlayerId state
  have advance {events : List GameEvent} {session : Session}
      (step : Session.Step (.playing seats moves undecided)
        (.placeTile (seats.turn moves.length) (choose log)) events session) :
      sessions.History (playOut choose 1 log) session := by
    have accepted := (history.decide_iff _ events).mpr ⟨session, step⟩
    have grown : playOut choose 1 log = log ++ events := by
      rw [playOut, playOut, onTurn, decider.next_of_ok accepted]
    rw [grown]
    exact history.step step
  rcases undecided.next available with wins | draws | after
  · exact ⟨_, advance (.win seats moves _ wins), rfl, .inl rfl⟩
  · exact ⟨_, advance (.draw seats moves _ draws), rfl, .inl rfl⟩
  · exact ⟨_, advance (.place seats moves _ undecided available after), rfl, .inr ⟨after, rfl⟩⟩

theorem playsOut_of_running {choose : List GameEvent → ℕ} (picks : PicksFree choose) (left : ℕ)
    {log : List GameEvent} {seats : Seats} {moves : List ℕ} {undecided : grid.Undecided moves}
    (history : sessions.History log (.playing seats moves undecided))
    (free : moves.length + left = 9) :
    ∃ turns, PlaysOut choose log turns := by
  have running : (hydrate log).stage = .inGame :=
    congrArg GameState.stage (history_state history)
  have taken : (placements log).length = moves.length := by
    rw [← List.length_map, ← TicTacTussle.moves, history_moves history]
    rfl
  obtain ⟨session, later, moved, outcome⟩ := turn_of_running picks history
  have grown : (placements (playOut choose 1 log)).length = moves.length + 1 := by
    rw [← List.length_map, ← TicTacTussle.moves, history_moves later, moved]
    simp
  have short : moves.length < 9 := by simpa [grid] using undecided.length_lt
  rcases outcome with ended | ⟨after, rfl⟩
  · refine ⟨1, by omega, by rw [grown, taken], ?_, ?_⟩
    · intro earlier first
      obtain rfl := Nat.lt_one_iff.mp first
      exact running
    · rw [history_state later]
      exact ended
  · cases left with
    | zero => omega
    | succ left =>
        obtain ⟨turns, played⟩ := playsOut_of_running picks left later (by simp; omega)
        refine ⟨turns + 1, ?_, ?_, ?_, played.ended⟩
        · have within := played.withinCells
          omega
        · calc
            _ = (placements (playOut choose 1 log)).length + turns := played.placed
            _ = (placements log).length + (turns + 1) := by omega
        · intro earlier before
          cases earlier with
          | zero => exact running
          | succ earlier => exact played.running earlier (by omega)

section Runs

variable {E P B : Type} [Anyhow E] [EventPublisher E P] [NetworkBroadcaster E B]

/-- Departures apart, at most eleven commands are ever accepted and thirteen events recorded. -/
theorem service_bounded (fresh : ℕ → Stamp) (gameId : GameId) (publisher : P) (broadcaster : B)
    (envelopes : List CommandEnvelope) :
    let log :=
      ((GameService.build gameId publisher broadcaster).handleAll fresh envelopes).store.events
    log.length ≤ 13 + (leavers log).length ∧
      (decider.accepted [] (GameService.addressed gameId envelopes)).length ≤
        11 + (leavers log).length := by
  intro log
  have written : log = decider.run [] (GameService.addressed gameId envelopes) :=
    GameService.handleAll_events fresh _ envelopes
  obtain ⟨session, history⟩ :=
    GameService.exists_session fresh gameId publisher broadcaster envelopes
  have joined : (joins log).length ≤ 2 := (history_referencePosition history).atMostTwo
  have placed : (placements log).length ≤ 9 := history_placements_length history
  have correct := run_lifecycleCorrect (GameService.addressed gameId envelopes)
  rw [← written] at correct
  have started := correct.oneStart
  have ended := correct.oneEnd
  constructor
  · rw [length_eq_kinds]
    omega
  · rw [← run_requests, ← written, length_requests]
    omega

/-- Whatever free cells are taken in turn, a running game of a service ends within those left. -/
theorem service_playsOut (fresh : ℕ → Stamp) (gameId : GameId) (publisher : P) (broadcaster : B)
    (envelopes : List CommandEnvelope) {choose : List GameEvent → ℕ} (picks : PicksFree choose) :
    let log :=
      ((GameService.build gameId publisher broadcaster).handleAll fresh envelopes).store.events
    (hydrate log).stage = .inGame → ∃ turns, PlaysOut choose log turns := by
  intro log running
  obtain ⟨session, history⟩ :=
    GameService.exists_session fresh gameId publisher broadcaster envelopes
  have stage : session.stage = .inGame :=
    (congrArg GameState.stage (history_state history)).symm.trans running
  cases session with
  | playing seats moves undecided =>
      have short : moves.length < 9 := by simpa [grid] using undecided.length_lt
      exact playsOut_of_running picks (9 - moves.length) history (by omega)
  | empty | waiting | won | drawn | abandoned => cases stage

end Runs

/-- The first free cell. -/
private def firstFree (log : List GameEvent) : ℕ :=
  ((List.range 9).find? fun cell => (hydrate log).board[cell]? = some .empty).getD 0

private theorem picksFree_firstFree : PicksFree firstFree := by
  rintro log ⟨cell, blank⟩
  unfold firstFree
  cases found : (List.range 9).find? fun cell => (hydrate log).board[cell]? = some .empty with
  | some first => simpa using List.find?_some found
  | none =>
      have taken := List.find?_eq_none.mp found cell (List.mem_range.mpr cell.isLt)
      have entry : (hydrate log).board[(cell : ℕ)]? = some (hydrate log).board[cell] :=
        Vector.getElem?_eq_getElem cell.isLt
      rw [entry, blank] at taken
      simp at taken

/-- Two players who take the first free cells. -/
theorem service_playsOut_firstFree :
    ∃ turns, PlaysOut firstFree
      ((GameService.build ⟨⟨0⟩⟩ NoopPublisher.mk NoopBroadcaster.mk).handleAll
        (fun _ => ⟨⟨0⟩, ⟨0⟩⟩)
        [.new ⟨⟨1⟩, ⟨0⟩⟩ ⟨⟨0⟩⟩ (.joinGame ⟨1⟩ "Ann"),
          .new ⟨⟨2⟩, ⟨0⟩⟩ ⟨⟨0⟩⟩ (.joinGame ⟨2⟩ "Bob")]).store.events turns :=
  service_playsOut _ _ _ _ _ picksFree_firstFree (by decide)

end TicTacTussle
