import TicTacTussle.Legality
import TicTacTussle.Lifecycle
import TicTacTussle.ReadModel

/-!
# Front parts of a log

A client may have received any front part of a log, also one that is cut inside a batch.  What a
game guarantees of its log survives the cut, and it is enough to read stage, turn and board off the
events: the folded state of a front part is settled by its joins, tiles, start and end.
-/

namespace TicTacTussle

open EventSourcing GameDecider

/-- The rules of a log that a cut leaves intact. -/
structure GameFront (received : List GameEvent) : Prop extends FrontOfGame received where
  movesNodup : (moves received).Nodup
  startsJoined : ∀ before goesFirst after, received = before ++ .gameStarted goesFirst :: after →
    (joins before).length = 2 ∧ endings before = []
  tilesStarted : ∀ before playerId cell after,
    received = before ++ .tilePlaced playerId cell :: after →
      starts before ≠ [] ∧ endings before = []
  endsStarted : ∀ before reason after, received = before ++ .gameEnded reason :: after →
    starts before ≠ [] ∧ endings before = []

@[simp]
theorem starts_append (left right : List GameEvent) :
    starts (left ++ right) = starts left ++ starts right := by
  simp [starts]

@[simp]
theorem moves_append (left right : List GameEvent) :
    moves (left ++ right) = moves left ++ moves right := by
  simp [moves]

theorem mem_placements {log : List GameEvent} {playerId : PlayerId} {cell : ℕ} :
    (playerId, cell) ∈ placements log ↔ .tilePlaced playerId cell ∈ log := by
  rw [placements, List.mem_filterMap]
  constructor
  · rintro ⟨event, member, placed⟩
    cases event <;> simp_all
  · exact fun member => ⟨_, member, rfl⟩

theorem mem_moves {log : List GameEvent} {playerId : PlayerId} {cell : ℕ}
    (placed : .tilePlaced playerId cell ∈ log) : cell ∈ moves log :=
  List.mem_map_of_mem (mem_placements.mpr placed)

/-- A running session is one that was started and has not ended. -/
theorem history_running {log : List GameEvent} {session : Session}
    (history : sessions.History log session) :
    session.stage = .inGame ↔ starts log ≠ [] ∧ endings log = [] := by
  have started := history_starts history
  rw [← List.length_pos_iff, started, history_endings history]
  cases session <;> simp [Session.stage, Session.endings]

/-- Before a start, a tile or an end of a run stands what makes it possible. -/
theorem gameFront {commands : List GameCommand} {received rest : List GameEvent}
    (inOrder : decider.run [] commands = received ++ rest) : GameFront received where
  toFrontOfGame := frontOfGame inOrder
  movesNodup := by
    obtain ⟨session, history⟩ := sessions.exists_history commands
    have nodup := (history_signedPlay history).legal.nodup
    rw [inOrder, moves_append] at nodup
    exact (List.nodup_append.mp nodup).1
  startsJoined := by
    rintro before goesFirst after rfl
    rw [List.append_assoc, List.cons_append] at inOrder
    obtain ⟨earlier, joiner, name, _, _, rfl, alone, _⟩ := exists_second_join inOrder
    obtain ⟨session, history⟩ := sessions.exists_history earlier
    have joined := history_joins history
    rw [alone] at joined
    have noEnd := history_endings history
    refine ⟨by rw [joins_append, alone]; rfl, ?_⟩
    rw [endings_append, noEnd]
    cases session with
    | empty | waiting => rfl
    | playing | won | drawn | abandoned => simp [Session.joined] at joined
  tilesStarted := by
    rintro before playerId cell after rfl
    rw [List.append_assoc, List.cons_append] at inOrder
    obtain ⟨⟨front, command, back, spec, next, events, left, right, tail, _, history, step,
      events_eq, rfl, _, _⟩⟩ := sessions.exists_emission inOrder
    have seated : left = [] ∧ spec.stage = .inGame := by
      cases step with
      | place => exact ⟨(singleton_eq_append_cons.mp events_eq).1, rfl⟩
      | win | draw =>
          simp only [pair_eq_append_cons, reduceCtorEq, false_and, and_false, or_false] at events_eq
          exact ⟨events_eq.1, rfl⟩
      | joinFirst | leave => simp [singleton_eq_append_cons] at events_eq
      | joinSecond | abandon => simp [pair_eq_append_cons] at events_eq
    rw [seated.1, List.append_nil]
    exact (history_running history).mp seated.2
  endsStarted := by
    rintro before reason after rfl
    rw [List.append_assoc, List.cons_append] at inOrder
    obtain ⟨⟨front, command, back, spec, next, events, left, right, tail, _, history, step,
      events_eq, rfl, _, _⟩⟩ := sessions.exists_emission inOrder
    have running : spec.stage = .inGame ∧ starts left = [] ∧ endings left = [] := by
      cases step with
      | win | draw | abandon =>
          simp only [pair_eq_append_cons, reduceCtorEq, false_and, and_false, false_or] at events_eq
          obtain ⟨rfl, _⟩ := events_eq
          exact ⟨rfl, rfl, rfl⟩
      | joinFirst | place | leave => simp [singleton_eq_append_cons] at events_eq
      | joinSecond => simp [pair_eq_append_cons] at events_eq
    obtain ⟨started, unfinished⟩ := (history_running history).mp running.1
    rw [starts_append, endings_append, running.2.1, running.2.2, List.append_nil, List.append_nil]
    exact ⟨started, unfinished⟩

theorem FrontOfGame.of_prefix {seen received : List GameEvent} (front : FrontOfGame received)
    (earlier : seen <+: received) : FrontOfGame seen := by
  obtain ⟨rest, rfl⟩ := earlier
  constructor
  · have bound := front.atMostTwo
    rw [joins_append, List.length_append] at bound
    omega
  · intro member
    apply front.noVacant
    rw [joins_append]
    exact List.mem_append_left _ member
  · exact (List.forall_mem_append.mp front.onBoard).1
  · rintro before playerId cell after rfl
    exact front.tilesLast before playerId cell (after ++ rest) (by simp)

/-- Where a tile has arrived, both joins have. -/
theorem FrontOfGame.both_of_placed {received : List GameEvent} (front : FrontOfGame received)
    {playerId : PlayerId} {cell : ℕ} (placed : .tilePlaced playerId cell ∈ received) :
    (joins received).length = 2 := by
  obtain ⟨before, after, rfl⟩ := List.append_of_mem placed
  have both := front.tilesLast before playerId cell after rfl
  have bound := front.atMostTwo
  rw [joins_append, List.length_append] at bound ⊢
  omega

theorem FrontOfGame.both_of_prefix {seen received : List GameEvent} (front : FrontOfGame received)
    (earlier : seen <+: received) (both : (joins seen).length = 2) :
    (joins received).length = 2 := by
  obtain ⟨rest, rfl⟩ := earlier
  have bound := front.atMostTwo
  rw [joins_append, List.length_append] at bound ⊢
  omega

theorem GameFront.of_prefix {seen received : List GameEvent} (front : GameFront received)
    (earlier : seen <+: received) : GameFront seen := by
  refine ⟨front.toFrontOfGame.of_prefix earlier, ?_, ?_, ?_, ?_⟩ <;> obtain ⟨rest, rfl⟩ := earlier
  · have nodup := front.movesNodup
    rw [moves_append] at nodup
    exact (List.nodup_append.mp nodup).1
  · rintro before goesFirst after rfl
    exact front.startsJoined before goesFirst (after ++ rest) (by simp)
  · rintro before playerId cell after rfl
    exact front.tilesStarted before playerId cell (after ++ rest) (by simp)
  · rintro before reason after rfl
    exact front.endsStarted before reason (after ++ rest) (by simp)

theorem hydrate_snoc (events : List GameEvent) (event : GameEvent) :
    hydrate (events ++ [event]) = evolve (hydrate events) event := by
  rw [hydrate, List.foldl_append]
  rfl

namespace GameFront

variable {received : List GameEvent}

theorem snoc {event : GameEvent} (front : GameFront (received ++ [event])) : GameFront received :=
  front.of_prefix (List.prefix_append _ _)

/-- The stage is settled by the start and the end among the events. -/
theorem stage (front : GameFront received) :
    (hydrate received).stage =
      if endings received ≠ [] then .ended else if starts received ≠ [] then .inGame
      else .lobby := by
  induction received using List.reverseRecOn with
  | nil => rfl
  | append_singleton received event induction =>
      have earlier := induction front.snoc
      rw [hydrate_snoc, endings_append, starts_append]
      cases event with
      | gameStarted goesFirst =>
          have unfinished := (front.startsJoined received goesFirst [] rfl).2
          have none : endings [.gameStarted goesFirst] = [] := rfl
          have one : starts [.gameStarted goesFirst] = [goesFirst] := rfl
          simp [evolve, unfinished, none, one]
      | gameEnded reason =>
          have one : endings [.gameEnded reason] = [reason] := rfl
          simp [evolve, one]
      | playerJoined playerId name =>
          have kept : (evolve (hydrate received) (.playerJoined playerId name)).stage =
              (hydrate received).stage := by
            rw [evolve]
            split <;> rfl
          rw [kept, earlier]
          simp [endings, starts]
      | tilePlaced | playerLeft =>
          refine Eq.trans (b := (hydrate received).stage) rfl ?_
          rw [earlier]
          simp [endings, starts]

/-- Before both players have joined the game is in the lobby. -/
theorem stage_of_joins (front : GameFront received) (fewer : (joins received).length < 2) :
    (hydrate received).stage = .lobby := by
  have notStarted : starts received = [] := by
    refine List.filterMap_eq_nil_iff.mpr fun event member => ?_
    cases event with
    | gameStarted goesFirst =>
        obtain ⟨before, after, rfl⟩ := List.append_of_mem member
        have both := (front.startsJoined before goesFirst after rfl).1
        rw [joins_append, List.length_append] at fewer
        omega
    | playerJoined | tilePlaced | playerLeft | gameEnded => rfl
  have unfinished : endings received = [] := by
    refine List.filterMap_eq_nil_iff.mpr fun event member => ?_
    cases event with
    | gameEnded reason =>
        obtain ⟨before, after, rfl⟩ := List.append_of_mem member
        have started := (front.endsStarted before reason after rfl).1
        rw [starts_append, List.append_eq_nil_iff] at notStarted
        exact (started notStarted.1).elim
    | playerJoined | gameStarted | tilePlaced | playerLeft => rfl
  rw [front.stage, unfinished, notStarted]
  rfl

/-- A cell is occupied exactly when some tile took it. -/
theorem board_eq_empty_iff (front : GameFront received) {cell : ℕ} (inRange : cell < 9) :
    (hydrate received).board[cell]? = some .empty ↔ cell ∉ moves received := by
  induction received using List.reverseRecOn with
  | nil => simp [hydrate, GameState.default, moves, placements, inRange]
  | append_singleton received event induction =>
      have earlier := induction front.snoc
      rw [hydrate_snoc, moves_append, List.mem_append, not_or]
      cases event with
      | tilePlaced playerId here =>
          have one : moves [.tilePlaced playerId here] = [here] := rfl
          rw [one, List.mem_singleton, evolve]
          by_cases same : here = cell
          · rw [same, Vector.getElem?_setIfInBounds_self, if_pos inRange]
            simp
          · rw [Vector.getElem?_setIfInBounds_ne same, earlier]
            simp [Ne.symm same]
      | playerJoined playerId name =>
          have kept : (evolve (hydrate received) (.playerJoined playerId name)).board =
              (hydrate received).board := by
            rw [evolve]
            split <;> rfl
          rw [kept, earlier]
          simp [moves, placements]
      | gameStarted | playerLeft | gameEnded =>
          refine Iff.trans (b := (hydrate received).board[cell]? = some .empty) Iff.rfl ?_
          rw [earlier]
          simp [moves, placements]

/-- A tile leaves its author's symbol on its cell. -/
theorem board_of_placement (front : GameFront received) {playerId : PlayerId} {cell : ℕ}
    (placed : .tilePlaced playerId cell ∈ received) :
    (hydrate received).board[cell]? = some (.occupied ((hydrate received).symbolOf playerId)) := by
  induction received using List.reverseRecOn with
  | nil => cases placed
  | append_singleton received event induction =>
      have earlier := induction front.snoc
      rw [List.mem_append, List.mem_singleton] at placed
      rw [hydrate_snoc]
      cases event with
      | tilePlaced author here =>
          have onBoard : here < 9 := front.onBoard (.tilePlaced author here) (by simp)
          rcases placed with before | now
          · have fresh : here ≠ cell := by
              rintro rfl
              have nodup := front.movesNodup
              have one : moves [.tilePlaced author here] = [here] := rfl
              rw [moves_append, one] at nodup
              exact (List.nodup_append.mp nodup).2.2 here (mem_moves before) here
                (List.mem_singleton_self here) rfl
            rw [evolve, Vector.getElem?_setIfInBounds_ne fresh]
            exact earlier before
          · obtain ⟨rfl, rfl⟩ := GameEvent.tilePlaced.inj now
            rw [evolve, Vector.getElem?_setIfInBounds_self, if_pos onBoard]
            rfl
      | playerJoined joiner name =>
          have before := placed.resolve_right (by simp)
          obtain ⟨left, right, rfl⟩ := List.append_of_mem before
          have both := front.tilesLast left playerId cell (right ++ [.playerJoined joiner name])
            (by simp)
          have bound := front.atMostTwo
          have one : joins [.playerJoined joiner name] = [joiner] := rfl
          rw [joins_append, joins_append, one, List.length_append, List.length_append, both,
            List.length_singleton] at bound
          omega
      | gameStarted | playerLeft | gameEnded => exact earlier (placed.resolve_right (by simp))

end GameFront

end TicTacTussle
