import TicTacTussle.Lifecycle

/-!
# The rules, read off the log

What a command is answered depends on who joined, which cells were taken and whether an end was
recorded.  `answer` says so without a write model, refusals in the order of the checks, and the
decider gives that answer on every log a service writes.  Such a log also shows the commands that
were accepted, and submitting these to a new game writes the same log again.
-/

namespace TicTacTussle

open GameDecider EventSourcing

/-- The stage a log is in. -/
def stageOf (log : List GameEvent) : Stage :=
  if (joins log).length < 2 then .lobby
  else if endings log = [] then .inGame
  else .ended

open Classical in
/-- What the rules answer to a command. -/
noncomputable def answer (log : List GameEvent) :
    GameCommand → Except TicTacTussleError (List GameEvent)
  | .joinGame playerId name =>
      if stageOf log ≠ .lobby then .error (.wrongStage .lobby (stageOf log))
      else if playerId = .vacant ∨ playerId ∈ joins log then .error (.alreadyJoined playerId)
      else
        match (joins log).head? with
        | none => .ok [.playerJoined playerId name]
        | some first => .ok [.playerJoined playerId name, .gameStarted first]
  | .placeTile playerId cell =>
      if stageOf log ≠ .inGame then .error (.wrongStage .inGame (stageOf log))
      else if (joins log)[(moves log).length % 2]? ≠ some playerId then
        .error (.notYourTurn playerId)
      else if 9 ≤ cell then .error (.tileOutOfRange cell)
      else if cell ∈ moves log then .error (.tileOccupied cell)
      else if grid.HasLine (moves log ++ [cell]) then
        .ok [.tilePlaced playerId cell, .gameEnded (.playerWon playerId)]
      else if (moves log).length = 8 then
        .ok [.tilePlaced playerId cell, .gameEnded .draw]
      else .ok [.tilePlaced playerId cell]
  | .leaveGame playerId =>
      if stageOf log = .inGame then
        .ok [.playerLeft playerId, .gameEnded (.playerLeft playerId)]
      else .ok [.playerLeft playerId]

theorem history_stageOf {log : List GameEvent} {session : Session}
    (history : sessions.History log session) : stageOf log = session.stage := by
  rw [stageOf, history_joins history, history_endings history]
  cases session <;> simp [Session.joined, Session.endings, Session.stage]

private theorem decide_join_eq_answer {log : List GameEvent} {session : Session}
    (history : sessions.History log session) (playerId : PlayerId) (name : String) :
    GameDecider.decide session.state (.joinGame playerId name) =
      answer log (.joinGame playerId name) := by
  rw [decide_joinGame_eq, answer, history_stageOf history, history_joins history,
    Session.state_stage]
  cases session with
  | empty =>
      by_cases vacant : playerId = .vacant
      · simp [Session.stage, Session.players, vacant]
      · simp [Session.stage, Session.players, Session.joined, evolve_playerJoined_players, vacant,
          Ne.symm vacant]
  | waiting x taken =>
      by_cases known : playerId = .vacant ∨ playerId = x
      · have seated : x = playerId ∨ PlayerId.vacant = playerId :=
          known.symm.imp Eq.symm Eq.symm
        simp [Session.stage, Session.players, Session.joined, known, seated]
      · rw [not_or] at known
        simp [Session.stage, Session.players, Session.joined, evolve_playerJoined_players, taken,
          known, Ne.symm known.1, Ne.symm known.2]
  | playing | won | drawn | abandoned => simp [Session.stage]

private theorem seat_of_turn (seats : Seats) (turn : ℕ) :
    [seats.x, seats.o][turn % 2]? = some (seats.turn turn) := by
  rw [← Session.players_getElem_turn]
  rcases Nat.mod_two_eq_zero_or_one turn with even | odd
  · simp [even]
  · simp [odd]

private theorem decide_tile_eq_answer {log : List GameEvent} {session : Session}
    (history : sessions.History log session) (playerId : PlayerId) (cell : ℕ) :
    GameDecider.decide session.state (.placeTile playerId cell) =
      answer log (.placeTile playerId cell) := by
  rw [decide_placeTile_eq, answer, history_stageOf history, history_joins history,
    history_moves history, Session.state_stage]
  cases session with
  | playing seats moves undecided =>
      have active : (Session.playing seats moves undecided).active = seats.turn moves.length := rfl
      simp only [Session.joined, Session.moves, seat_of_turn seats moves.length]
      by_cases onTurn : seats.turn moves.length = playerId
      · subst onTurn
        have reopened := Session.boardOf_getElem?_eq_empty_iff moves cell
        by_cases available : grid.Available moves cell
        · have inRange : cell < 9 := Finset.mem_range.mp available.1
          have legal := undecided.legal_append available
          have full : grid.Full (moves ++ [cell]) ↔ moves.length = 8 := by
            rw [legal.full_iff, List.length_append, List.length_singleton]
            simp [grid]
          have line := winningSymbol_boardOf_isSome_iff legal.nodup
          have onBoard : ¬ 9 ≤ cell ∧ ¬ 8 < cell := by omega
          rw [Session.evolve_tilePlaced seats moves undecided available.2]
          by_cases completed : grid.HasLine (moves ++ [cell]) <;>
            by_cases last : moves.length = 8 <;>
              simp [Session.stage, Session.moves, active, reopened, available, available.2,
                onBoard, line, completed, isFull_boardOf_iff, full, last]
        · by_cases inRange : cell < 9
          · have taken : cell ∈ moves := by
              by_contra fresh
              exact available ⟨Finset.mem_range.mpr inRange, fresh⟩
            have onBoard : ¬ 9 ≤ cell ∧ ¬ 8 < cell := by omega
            simp [Session.stage, Session.moves, active, reopened, available, taken, onBoard]
          · have offBoard : 9 ≤ cell ∧ 8 < cell := by omega
            simp [Session.stage, active, offBoard]
      · simp [Session.stage, active, onTurn]
  | empty | waiting | won | drawn | abandoned => simp [Session.stage]

private theorem decide_leave_eq_answer {log : List GameEvent} {session : Session}
    (history : sessions.History log session) (playerId : PlayerId) :
    GameDecider.decide session.state (.leaveGame playerId) = answer log (.leaveGame playerId) := by
  rw [decide_leaveGame, answer, history_stageOf history, Session.state_stage]
  split <;> rfl

theorem history_decide_eq_answer {log : List GameEvent} {session : Session}
    (history : sessions.History log session) (command : GameCommand) :
    decider.decide (decider.hydrate log) command = answer log command := by
  rw [history.hydrate]
  cases command with
  | joinGame playerId name => exact decide_join_eq_answer history playerId name
  | placeTile playerId cell => exact decide_tile_eq_answer history playerId cell
  | leaveGame playerId => exact decide_leave_eq_answer history playerId

/-- The command an event answers; starts and ends of a game answer none. -/
def GameEvent.request : GameEvent → Option GameCommand
  | .playerJoined playerId name => some (.joinGame playerId name)
  | .tilePlaced playerId cell => some (.placeTile playerId cell)
  | .playerLeft playerId => some (.leaveGame playerId)
  | .gameStarted _ | .gameEnded _ => none

theorem decide_shows {state : GameState} {command : GameCommand} {events : List GameEvent}
    (accepted : GameDecider.decide state command = .ok events) :
    events.filterMap GameEvent.request = [command] := by
  cases command with
  | joinGame playerId name =>
      obtain ⟨_, _, _, rfl⟩ := (decide_joinGame_eq_ok_iff _ _ _ _).mp accepted
      split <;> simp [GameEvent.request]
  | placeTile playerId cell =>
      obtain ⟨_, _, _, rfl⟩ := (decide_placeTile_eq_ok_iff _ _ _ _).mp accepted
      split
      · simp [GameEvent.request]
      · split <;> simp [GameEvent.request]
  | leaveGame playerId =>
      rw [decide_leaveGame, Except.ok.injEq] at accepted
      subst accepted
      split <;> simp [GameEvent.request]

/-- The log names the accepted commands in order. -/
theorem run_requests (commands : List GameCommand) :
    (decider.run [] commands).filterMap GameEvent.request = decider.accepted [] commands := by
  have shown := decider.filterMap_run decide_shows [] commands
  rw [List.filterMap_nil, List.nil_append] at shown
  exact shown

section Runs

variable {E P B : Type} [Anyhow E] [EventPublisher E P] [NetworkBroadcaster E B]

/-- What handling an envelope does, by the rules alone. -/
structure GameService.FollowsRules (fresh : ℕ → Stamp) (service : GameService P B)
    (cmdEnv : CommandEnvelope) : Prop where
  foreign : cmdEnv.gameId ≠ service.store.gameId → service.handle fresh cmdEnv =
    (service, .error (Anyhow.ofDomain (.wrongGame cmdEnv.gameId service.store.gameId)))
  refused : cmdEnv.gameId = service.store.gameId →
    ∀ error, answer service.store.events cmdEnv.command = .error error →
      service.handle fresh cmdEnv =
        (service, .error (Anyhow.msg (error.display (Anyhow.uuidText E))))
  accepted : cmdEnv.gameId = service.store.gameId →
    ∀ events, answer service.store.events cmdEnv.command = .ok events →
      (service.handle fresh cmdEnv).1.store.events = service.store.events ++ events ∧
        (service.handle fresh cmdEnv).1.broadcaster =
          (broadcastAll service.broadcaster events).1 ∧
        (service.handle fresh cmdEnv).2 = (broadcastAll service.broadcaster events).2

/-- In every run of a service each envelope is answered by the rules. -/
theorem service_followsRules (fresh : ℕ → Stamp) (gameId : GameId) (publisher : P)
    (broadcaster : B) (envelopes : List CommandEnvelope) (cmdEnv : CommandEnvelope) :
    ((GameService.build gameId publisher broadcaster).handleAll fresh envelopes).FollowsRules
      fresh cmdEnv := by
  obtain ⟨session, history⟩ :=
    GameService.exists_session fresh gameId publisher broadcaster envelopes
  have decided := history_decide_eq_answer history cmdEnv.command
  constructor
  case foreign => exact GameService.handle_of_wrongGame fresh _ cmdEnv
  case refused =>
    intro own error refusal
    exact GameService.handle_of_refused fresh own (decided.trans refusal)
  case accepted =>
    intro own events acceptance
    have accepted := decided.trans acceptance
    have grown := GameService.handle_events fresh _ cmdEnv own
    rw [decider.next_of_ok accepted] at grown
    rw [GameService.handle_of_accepted fresh own accepted] at grown ⊢
    exact ⟨grown, rfl, rfl⟩

/-- A log determines the commands that wrote it, and these write it again without a refusal. -/
theorem service_log_rewritten (fresh : ℕ → Stamp) (gameId : GameId) (publisher : P)
    (broadcaster : B) (envelopes : List CommandEnvelope) :
    let log :=
      ((GameService.build gameId publisher broadcaster).handleAll fresh envelopes).store.events
    log.filterMap GameEvent.request =
        decider.accepted [] (GameService.addressed gameId envelopes) ∧
      decider.AcceptsAll .default (log.filterMap GameEvent.request) ∧
      decider.run [] (log.filterMap GameEvent.request) = log := by
  intro log
  have written : log = decider.run [] (GameService.addressed gameId envelopes) :=
    GameService.handleAll_events fresh _ envelopes
  have shown := run_requests (GameService.addressed gameId envelopes)
  rw [written, shown]
  exact ⟨rfl, decider.acceptsAll_accepted [] _, decider.run_accepted [] _⟩

end Runs

end TicTacTussle
