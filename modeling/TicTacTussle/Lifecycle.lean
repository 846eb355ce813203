import TicTacTussle.Position

/-!
# Lifecycle grammar

Departures may stand almost anywhere in a log, but everything else follows one order: two joins with
the start right behind the second, tiles, and one end.
-/

namespace TicTacTussle

open GameDecider EventSourcing

/-- Any number of `PlayerLeft` events. -/
def Departures (events : List GameEvent) : Prop :=
  ∀ event ∈ events, ∃ leaver, event = .playerLeft leaver

/-- Any number of `TilePlaced` events. -/
def Tiles (events : List GameEvent) : Prop :=
  ∀ event ∈ events, ∃ author cell, event = .tilePlaced author cell

/-- Two joins, the start right behind the second, and tiles. -/
def Opening (log : List GameEvent) : Prop :=
  ∃ early first firstName late second secondName tiles,
    Departures early ∧ Departures late ∧ Tiles tiles ∧
      log = early ++ .playerJoined first firstName :: late ++
        .playerJoined second secondName :: .gameStarted first :: tiles

/-- The shapes a log can have. -/
inductive Lifecycle : List GameEvent → Prop
  | deserted {early : List GameEvent} : Departures early → Lifecycle early
  | waiting {early late : List GameEvent} (first : PlayerId) (name : String) :
      Departures early → Departures late →
      Lifecycle (early ++ .playerJoined first name :: late)
  | playing {log : List GameEvent} : Opening log → Lifecycle log
  | won {log late : List GameEvent} (winner : PlayerId) (cell : ℕ) :
      Opening (log ++ [.tilePlaced winner cell]) → Departures late →
      Lifecycle (log ++ [.tilePlaced winner cell, .gameEnded (.playerWon winner)] ++ late)
  | drawn {log late : List GameEvent} (author : PlayerId) (cell : ℕ) :
      Opening (log ++ [.tilePlaced author cell]) → Departures late →
      Lifecycle (log ++ [.tilePlaced author cell, .gameEnded .draw] ++ late)
  | abandoned {log late : List GameEvent} (leaver : PlayerId) :
      Opening log → Departures late →
      Lifecycle (log ++ [.playerLeft leaver, .gameEnded (.playerLeft leaver)] ++ late)

/-- The `goes_first` ids of the `GameStarted` events. -/
def starts (log : List GameEvent) : List PlayerId :=
  log.filterMap fun
    | .gameStarted goesFirst => some goesFirst
    | _ => none

/-- The grammar of a log, and what it says about each of its events. -/
structure LifecycleCorrect (log : List GameEvent) : Prop where
  grammar : Lifecycle log
  oneStart : (starts log).length ≤ 1
  oneEnd : (endings log).length ≤ 1
  startOnSecondJoin : ∀ before goesFirst after, log = before ++ .gameStarted goesFirst :: after →
    ∃ front second name,
      before = front ++ [.playerJoined second name] ∧ joins front = [goesFirst]
  departureEnds : ∀ before leaver after, log = before ++ .playerLeft leaver :: after →
    (hydrate before).stage = .inGame → ∃ rest, after = .gameEnded (.playerLeft leaver) :: rest
  endIsFinal : ∀ before reason after, log = before ++ .gameEnded reason :: after →
    Departures after

theorem Departures.append {left right : List GameEvent} (early : Departures left)
    (late : Departures right) : Departures (left ++ right) := by
  intro event member
  rcases List.mem_append.mp member with inLeft | inRight
  · exact early event inLeft
  · exact late event inRight

theorem departures_nil : Departures [] := by simp [Departures]

theorem departures_singleton (leaver : PlayerId) : Departures [.playerLeft leaver] := by
  simp [Departures]

theorem Opening.append_tile {log : List GameEvent} (opening : Opening log) (author : PlayerId)
    (cell : ℕ) : Opening (log ++ [.tilePlaced author cell]) := by
  obtain ⟨early, first, firstName, late, second, secondName, tiles, earlyLeft, lateLeft, placed,
    rfl⟩ := opening
  refine ⟨early, first, firstName, late, second, secondName, tiles ++ [.tilePlaced author cell],
    earlyLeft, lateLeft, ?_, by simp⟩
  intro event member
  rcases List.mem_append.mp member with before | now
  · exact placed event before
  · exact ⟨author, cell, List.mem_singleton.mp now⟩

/-- The shape of the log behind a session. -/
private def Session.Shape : Session → List GameEvent → Prop
  | .empty, log => Departures log
  | .waiting x _, log => ∃ early name late, Departures early ∧ Departures late ∧
      log = early ++ .playerJoined x name :: late
  | .playing _ _ _, log => Opening log
  | .won _ _ _ _, log => ∃ front winner cell late,
      Opening (front ++ [.tilePlaced winner cell]) ∧ Departures late ∧
        log = front ++ [.tilePlaced winner cell, .gameEnded (.playerWon winner)] ++ late
  | .drawn _ _ _ _, log => ∃ front author cell late,
      Opening (front ++ [.tilePlaced author cell]) ∧ Departures late ∧
        log = front ++ [.tilePlaced author cell, .gameEnded .draw] ++ late
  | .abandoned _ _ _ _, log => ∃ front leaver late, Opening front ∧ Departures late ∧
      log = front ++ [.playerLeft leaver, .gameEnded (.playerLeft leaver)] ++ late

private theorem Session.Shape.leave {session : Session} {log : List GameEvent}
    (shape : session.Shape log) (idle : session.stage ≠ .inGame) (leaver : PlayerId) :
    session.Shape (log ++ [.playerLeft leaver]) := by
  have leaves := departures_singleton leaver
  cases session with
  | empty => exact Departures.append shape leaves
  | waiting =>
      obtain ⟨early, name, late, earlyLeft, lateLeft, rfl⟩ := shape
      exact ⟨early, name, late ++ [.playerLeft leaver], earlyLeft, lateLeft.append leaves, by simp⟩
  | playing => exact (idle rfl).elim
  | won =>
      obtain ⟨front, winner, cell, late, opening, lateLeft, rfl⟩ := shape
      exact ⟨front, winner, cell, late ++ [.playerLeft leaver], opening, lateLeft.append leaves,
        by simp⟩
  | drawn =>
      obtain ⟨front, author, cell, late, opening, lateLeft, rfl⟩ := shape
      exact ⟨front, author, cell, late ++ [.playerLeft leaver], opening, lateLeft.append leaves,
        by simp⟩
  | abandoned =>
      obtain ⟨front, first, late, opening, lateLeft, rfl⟩ := shape
      exact ⟨front, first, late ++ [.playerLeft leaver], opening, lateLeft.append leaves, by simp⟩

private theorem Session.Step.shape {session after : Session} {command : GameCommand}
    {events log : List GameEvent} (step : Session.Step session command events after)
    (shape : session.Shape log) : after.Shape (log ++ events) := by
  cases step with
  | joinFirst x name taken => exact ⟨log, name, [], shape, departures_nil, rfl⟩
  | joinSecond x o name x_taken o_taken distinct =>
      obtain ⟨early, firstName, late, earlyLeft, lateLeft, rfl⟩ := shape
      exact ⟨early, x, firstName, late, o, name, [], earlyLeft, lateLeft, by simp [Tiles], by simp⟩
  | place seats moves cell => exact Opening.append_tile shape _ cell
  | win seats moves cell =>
      exact ⟨log, seats.turn moves.length, cell, [], Opening.append_tile shape _ cell,
        departures_nil, by simp⟩
  | draw seats moves cell =>
      exact ⟨log, seats.turn moves.length, cell, [], Opening.append_tile shape _ cell,
        departures_nil, by simp⟩
  | abandon seats leaver => exact ⟨log, leaver, [], shape, departures_nil, by simp⟩
  | leave _ leaver idle => exact shape.leave idle leaver

theorem history_lifecycle {log : List GameEvent} {session : Session}
    (history : sessions.History log session) : Lifecycle log := by
  have shape : session.Shape log := by
    induction history with
    | start => exact departures_nil
    | step _ step induction => exact Session.Step.shape step induction
  cases session with
  | empty => exact .deserted shape
  | waiting x =>
      obtain ⟨early, name, late, earlyLeft, lateLeft, rfl⟩ := shape
      exact .waiting x name earlyLeft lateLeft
  | playing => exact .playing shape
  | won =>
      obtain ⟨front, winner, cell, late, opening, lateLeft, rfl⟩ := shape
      exact .won winner cell opening lateLeft
  | drawn =>
      obtain ⟨front, author, cell, late, opening, lateLeft, rfl⟩ := shape
      exact .drawn author cell opening lateLeft
  | abandoned =>
      obtain ⟨front, leaver, late, opening, lateLeft, rfl⟩ := shape
      exact .abandoned leaver opening lateLeft

theorem history_starts {log : List GameEvent} {session : Session}
    (history : sessions.History log session) :
    (starts log).length = if session.stage = .lobby then 0 else 1 := by
  induction history with
  | start => rfl
  | step _ step induction =>
      have grown : ∀ left right, starts (left ++ right) = starts left ++ starts right := by
        simp [starts]
      rw [grown, List.length_append, induction]
      cases step <;> simp [starts, Session.stage]

/-- The second join that started a game. -/
theorem exists_second_join {commands : List GameCommand} {before after : List GameEvent}
    {goesFirst : PlayerId}
    (split : decider.run [] commands = before ++ .gameStarted goesFirst :: after) :
    ∃ earlier joiner name later, commands = earlier ++ .joinGame joiner name :: later ∧
      before = decider.run [] earlier ++ [.playerJoined joiner name] ∧
        joins (decider.run [] earlier) = [goesFirst] ∧ joiner ≠ goesFirst ∧ joiner ≠ .vacant := by
  obtain ⟨⟨earlier, command, later, spec, next, events, left, right, rest, rfl, history, step,
    events_eq, rfl, _, _⟩⟩ := sessions.exists_emission split
  cases step with
  | joinSecond x o name x_taken o_taken distinct =>
      simp only [pair_eq_append_cons, reduceCtorEq, false_and, and_false, false_or,
        GameEvent.gameStarted.injEq] at events_eq
      obtain ⟨rfl, rfl, _⟩ := events_eq
      exact ⟨earlier, o, name, later, rfl, rfl, history_joins history, distinct.symm, o_taken⟩
  | joinFirst | place | leave => simp [singleton_eq_append_cons] at events_eq
  | win | draw | abandon => simp [pair_eq_append_cons] at events_eq

/-- A leave command appends a departure in its turn, and the end of a running game. -/
theorem run_leave (earlier later : List GameCommand) (leaver : PlayerId) :
    ∃ rest, decider.run [] (earlier ++ .leaveGame leaver :: later) =
      decider.run [] earlier ++ .playerLeft leaver ::
        ((if (hydrate (decider.run [] earlier)).stage = .inGame then
          [.gameEnded (.playerLeft leaver)] else []) ++ rest) := by
  obtain ⟨rest, grown⟩ := decider.log_prefix_run
    (decider.next (decider.run [] earlier) (.leaveGame leaver)) later
  refine ⟨rest, ?_⟩
  rw [Decider.run_append, Decider.run_cons, ← grown, next_leaveGame, List.append_assoc,
    List.cons_append]

/-- A departure was appended by a leave command, first of all it appended. -/
theorem exists_leave_of_departure {commands : List GameCommand} {before after : List GameEvent}
    {leaver : PlayerId} (split : decider.run [] commands = before ++ .playerLeft leaver :: after) :
    ∃ earlier later, commands = earlier ++ .leaveGame leaver :: later ∧
      before = decider.run [] earlier := by
  obtain ⟨⟨front, command, back, spec, next, events, left, right, rest, rfl, history, step,
    events_eq, rfl, _, _⟩⟩ := sessions.exists_emission split
  cases step with
  | abandon =>
      simp only [pair_eq_append_cons, reduceCtorEq, false_and, and_false, or_false,
        GameEvent.playerLeft.injEq] at events_eq
      obtain ⟨rfl, rfl, _⟩ := events_eq
      exact ⟨front, back, rfl, List.append_nil _⟩
  | leave =>
      obtain ⟨rfl, same, _⟩ := singleton_eq_append_cons.mp events_eq
      obtain rfl := GameEvent.playerLeft.inj same
      exact ⟨front, back, rfl, List.append_nil _⟩
  | joinFirst | place => simp [singleton_eq_append_cons] at events_eq
  | joinSecond | win | draw => simp [pair_eq_append_cons] at events_eq

private theorem departure_of_run {commands : List GameCommand} {before after : List GameEvent}
    {leaver : PlayerId}
    (split : decider.run [] commands = before ++ .playerLeft leaver :: after)
    (running : (hydrate before).stage = .inGame) :
    ∃ rest, after = .gameEnded (.playerLeft leaver) :: rest := by
  obtain ⟨earlier, later, rfl, rfl⟩ := exists_leave_of_departure split
  obtain ⟨rest, grown⟩ := run_leave earlier later leaver
  rw [if_pos running, split] at grown
  have tails := List.append_cancel_left grown
  exact ⟨rest, (List.cons.inj tails).2⟩

private theorem ended_step {session after : Session} {command : GameCommand}
    {events : List GameEvent} (ended : session.stage = .ended)
    (step : Session.Step session command events after) :
    after.stage = .ended ∧ ∀ event ∈ events, ∃ leaver, event = .playerLeft leaver := by
  cases step with
  | leave _ leaver idle => exact ⟨ended, departures_singleton leaver⟩
  | joinFirst | joinSecond | place | win | draw | abandon => cases ended

private theorem end_of_run {commands : List GameCommand} {before after : List GameEvent}
    {reason : EndGameReason}
    (split : decider.run [] commands = before ++ .gameEnded reason :: after) :
    Departures after := by
  obtain ⟨⟨front, command, back, spec, next, events, left, right, rest, _, history, step,
    events_eq, _, rfl, later⟩⟩ := sessions.exists_emission split
  have ending : next.stage = .ended ∧ right = [] := by
    cases step with
    | win | draw | abandon =>
        simp only [pair_eq_append_cons, reduceCtorEq, false_and, and_false, false_or] at events_eq
        exact ⟨rfl, events_eq.2.2⟩
    | joinFirst | place | leave => simp [singleton_eq_append_cons] at events_eq
    | joinSecond => simp [pair_eq_append_cons] at events_eq
  obtain ⟨appended, grown, departures⟩ :=
    (history.step step).run_emits (fun session => session.stage = .ended)
      (fun event => ∃ leaver, event = .playerLeft leaver) ended_step ending.1 back
  rw [later, List.append_cancel_left_eq] at grown
  rw [ending.2, grown]
  exact departures

theorem run_lifecycleCorrect (commands : List GameCommand) :
    LifecycleCorrect (decider.run [] commands) := by
  obtain ⟨session, history⟩ := sessions.exists_history commands
  refine ⟨history_lifecycle history, ?_, ?_, ?_, ?_, ?_⟩
  · rw [history_starts history]
    split <;> simp
  · rw [history_endings history]
    cases session <;> simp [Session.endings]
  · intro before goesFirst after split
    obtain ⟨earlier, joiner, name, later, _, rfl, alone, _⟩ := exists_second_join split
    exact ⟨decider.run [] earlier, joiner, name, rfl, alone⟩
  · intro before leaver after split running
    exact departure_of_run split running
  · intro before reason after split
    exact end_of_run split

section Runs

variable {E P B : Type} [Anyhow E] [EventPublisher E P] [NetworkBroadcaster E B]

/-- Every log a service writes from an empty store follows the lifecycle grammar. -/
theorem service_lifecycleCorrect (fresh : ℕ → Stamp) (gameId : GameId) (publisher : P)
    (broadcaster : B) (envelopes : List CommandEnvelope) :
    LifecycleCorrect
      ((GameService.build gameId publisher broadcaster).handleAll fresh
        envelopes).store.events := by
  rw [GameService.handleAll_events]
  exact run_lifecycleCorrect _

end Runs

end TicTacTussle
