import TicTacTussle.Broker

/-!
# Which rejections are permanent

A refused command stays refused unless it is a tile its player may still get to place: in the lobby
any tile of a nameable player, and during the game a free tile of the seated player whose turn comes
next, as long as the opponent has another move that does not end the game.
-/

namespace TicTacTussle

open PositionalGame GameDecider

/-- A line has two different cells. -/
theorem GridLine.cell_zero_ne_one (line : GridLine) : line.cell 0 ≠ line.cell 1 := by
  cases line with
  | row index => fin_cases index <;> decide
  | column index => fin_cases index <;> decide
  | diagonal => decide
  | antidiagonal => decide

/-- One move decides nothing. -/
theorem undecided_singleton {cell : ℕ} (inRange : cell < 9) : grid.Undecided [cell] where
  legal := undecided_nil.legal_append ⟨Finset.mem_range.mpr inRange, List.not_mem_nil⟩
  noLine := by
    rintro ⟨side, line, ⟨name, rfl⟩, taken⟩
    have takenAt (step : Fin 3) : (name.cell step : ℕ) = cell := by
      have member := (taken _ (Finset.mem_image_of_mem _ (Finset.mem_univ step))).mem
      exact List.mem_singleton.mp member
    have same : name.cell 0 = name.cell 1 := Fin.ext ((takenAt 0).trans (takenAt 1).symm)
    exact name.cell_zero_ne_one same
  notFull full := by
    have zero : 0 ∈ [cell] := full 0 (by simp [grid])
    have one : 1 ∈ [cell] := full 1 (by simp [grid])
    rw [List.mem_singleton] at zero one
    omega

/-- Outside the empty seat and any one player there is somebody else. -/
theorem PlayerId.exists_other (playerId : PlayerId) : ∃ other : PlayerId,
    other ≠ .vacant ∧ other ≠ playerId := by
  by_cases isOne : playerId = ⟨1⟩
  · exact ⟨⟨2⟩, by decide, by rw [isOne]; decide⟩
  · exact ⟨⟨1⟩, by decide, Ne.symm isOne⟩

namespace Session

theorem exists_place (seats : Seats) (moves : List ℕ) (undecided : grid.Undecided moves) {cell : ℕ}
    (available : grid.Available moves cell) :
    ∃ events after, Step (.playing seats moves undecided)
      (.placeTile (seats.turn moves.length) cell) events after := by
  rcases undecided.next available with wins | draws | after
  · exact ⟨_, _, .win seats moves cell wins⟩
  · exact ⟨_, _, .draw seats moves cell draws⟩
  · exact ⟨_, _, .place seats moves cell undecided available after⟩

theorem exists_leave (session : Session) (leaver : PlayerId) :
    ∃ events after, Step session (.leaveGame leaver) events after := by
  cases session with
  | playing seats moves undecided => exact ⟨_, _, .abandon seats leaver moves undecided⟩
  | empty | waiting | won | drawn | abandoned => exact ⟨_, _, .leave _ leaver (by simp [stage])⟩

theorem exists_join {session : Session} (inLobby : session.stage = .lobby) {playerId : PlayerId}
    (taken : playerId ≠ .vacant) (absent : playerId ∉ session.joined) (name : String) :
    ∃ events after, Step session (.joinGame playerId name) events after := by
  cases session with
  | empty => exact ⟨_, _, .joinFirst playerId name taken⟩
  | waiting x x_taken =>
      have distinct : x ≠ playerId := fun same => absent (by simp [joined, same])
      exact ⟨_, _, .joinSecond x playerId name x_taken taken distinct⟩
  | playing | won | drawn | abandoned => cases inLobby

/-- Only the player on turn places a tile, on an available cell of a running game. -/
theorem Step.placeTile_inv {session after : Session} {playerId : PlayerId} {cell : ℕ}
    {events : List GameEvent} (step : Step session (.placeTile playerId cell) events after) :
    session.stage = .inGame ∧ playerId = session.active ∧ playerId ≠ .vacant ∧
      playerId ∈ session.joined ∧ grid.Available session.moves cell := by
  have holds (seats : Seats) (turn : ℕ) :
      seats.turn turn ≠ .vacant ∧ seats.turn turn ∈ [seats.x, seats.o] := by
    refine ⟨seats.holder_ne_vacant _, ?_⟩
    unfold Seats.turn
    cases grid.mover turn <;> simp [Seats.holder]
  cases step with
  | place seats moves cell undecided available after =>
      exact ⟨rfl, rfl, (holds _ _).1, (holds _ _).2, available⟩
  | win seats moves cell wins => exact ⟨rfl, rfl, (holds _ _).1, (holds _ _).2, wins.available⟩
  | draw seats moves cell draws => exact ⟨rfl, rfl, (holds _ _).1, (holds _ _).2, draws.available⟩

/-- Joins are accepted in the lobby from new players. -/
theorem Step.joinGame_inv {session after : Session} {playerId : PlayerId} {name : String}
    {events : List GameEvent} (step : Step session (.joinGame playerId name) events after) :
    session.stage = .lobby ∧ playerId ≠ .vacant ∧ playerId ∉ session.joined := by
  cases step with
  | joinFirst x name taken => exact ⟨rfl, taken, by simp [joined]⟩
  | joinSecond x o name x_taken o_taken distinct =>
      exact ⟨rfl, o_taken, by simp [joined, distinct.symm]⟩

/-- The reasons why a command can never be accepted again. -/
def Hopeless (session : Session) : GameCommand → Prop
  | .joinGame playerId _ =>
      session.stage ≠ .lobby ∨ playerId = .vacant ∨ playerId ∈ session.joined
  | .placeTile playerId cell =>
      playerId = .vacant ∨ 9 ≤ cell ∨ session.stage = .ended ∨
        session.stage = .inGame ∧
          (cell ∈ session.moves ∨ playerId ∉ session.joined ∨
            playerId ≠ session.active ∧
              ∀ other, other ≠ cell → ¬ grid.Undecided (session.moves ++ [other]))
  | .leaveGame _ => False

theorem Hopeless.stuck {session : Session} {command : GameCommand}
    (hopeless : session.Hopeless command) (events : List GameEvent) (after : Session) :
    ¬ Step session command events after := by
  intro step
  cases command with
  | joinGame playerId name =>
      obtain ⟨inLobby, taken, absent⟩ := step.joinGame_inv
      rcases hopeless with started | vacant | present
      · exact started inLobby
      · exact taken vacant
      · exact absent present
  | placeTile playerId cell =>
      obtain ⟨inGame, onTurn, taken, seated, onGround, fresh⟩ := step.placeTile_inv
      have inRange : cell < 9 := Finset.mem_range.mp onGround
      rcases hopeless with vacant | outOfRange | ended | ⟨_, occupied | absent | ⟨offTurn, _⟩⟩
      · exact taken vacant
      · omega
      · rw [inGame] at ended
        cases ended
      · exact fresh occupied
      · exact absent seated
      · exact offTurn onTurn
  | leaveGame leaver => exact hopeless

/-- No transition revives a hopeless command. -/
theorem Hopeless.step {session after : Session} {command other : GameCommand}
    {events : List GameEvent} (hopeless : session.Hopeless command)
    (step : Step session other events after) : after.Hopeless command := by
  cases command with
  | joinGame playerId name =>
      cases step with
      | leave => exact hopeless
      | joinFirst x =>
          rcases hopeless with started | vacant | present
          · exact (started rfl).elim
          · exact .inr (.inl vacant)
          · simp [joined] at present
      | joinSecond | place | win | draw | abandon => exact .inl (by simp [stage])
  | placeTile playerId cell =>
      cases step with
      | leave => exact hopeless
      | joinFirst | joinSecond =>
          rcases hopeless with vacant | outOfRange | ended | ⟨inGame, _⟩
          · exact .inl vacant
          · exact .inr (.inl outOfRange)
          · cases ended
          · cases inGame
      | win | draw | abandon => exact .inr (.inr (.inl rfl))
      | place seats moves last undecided available after =>
          rcases hopeless with vacant | outOfRange | ended | ⟨_, occupied | absent | ⟨_, closed⟩⟩
          · exact .inl vacant
          · exact .inr (.inl outOfRange)
          · cases ended
          · exact .inr (.inr (.inr ⟨rfl, .inl (List.mem_append_left _ occupied)⟩))
          · exact .inr (.inr (.inr ⟨rfl, .inr (.inl absent)⟩))
          · have same : last = cell := by
              by_contra different
              exact closed last different after
            exact .inr (.inr (.inr ⟨rfl, .inl (by simp [Session.moves, same])⟩))
  | leaveGame leaver => exact hopeless.elim

/-- A hopeless command stays stuck in every reachable session. -/
theorem Hopeless.stuck_of_reach {session after : Session} {command : GameCommand}
    (hopeless : session.Hopeless command)
    (reach : Relation.ReflTransGen sessions.Moves session after) (events : List GameEvent)
    (next : Session) : ¬ Step after command events next := by
  have stays : after.Hopeless command := by
    induction reach with
    | refl => exact hopeless
    | tail _ move induction =>
        obtain ⟨other, emitted, step⟩ := move
        exact induction.step step
  exact stays.stuck events next

/-! ## Tiles that reopen -/

/-- A player who is not on turn may still get to place the tile. -/
def Reopens (session : Session) (playerId : PlayerId) (cell : ℕ) : Prop :=
  playerId ≠ .vacant ∧ cell < 9 ∧
    (session.stage = .lobby ∨
      session.stage = .inGame ∧ cell ∉ session.moves ∧ playerId ∈ session.joined ∧
        playerId ≠ session.active ∧
          ∃ other, other ≠ cell ∧ grid.Undecided (session.moves ++ [other]))

/-- A stuck command is hopeless unless it is a tile that reopens. -/
theorem hopeless_or_reopens {session : Session} {command : GameCommand}
    (stuck : ∀ events after, ¬ Step session command events after) :
    session.Hopeless command ∨
      ∃ playerId cell, command = .placeTile playerId cell ∧ session.Reopens playerId cell := by
  cases command with
  | joinGame playerId name =>
      refine .inl ?_
      by_contra hopeful
      obtain ⟨inLobby, taken, absent⟩ : session.stage = .lobby ∧ playerId ≠ .vacant ∧
          playerId ∉ session.joined := by simpa [Hopeless] using hopeful
      obtain ⟨events, after, step⟩ := exists_join inLobby taken absent name
      exact stuck events after step
  | leaveGame leaver =>
      obtain ⟨events, after, step⟩ := exists_leave session leaver
      exact (stuck events after step).elim
  | placeTile playerId cell =>
      by_contra hopeful
      rw [not_or] at hopeful
      obtain ⟨hopeful, closed⟩ := hopeful
      simp only [Hopeless, not_or] at hopeful
      obtain ⟨taken, inRange, notEnded, playable⟩ := hopeful
      have onGround : cell < 9 := by omega
      cases session with
      | empty | waiting => exact closed ⟨playerId, cell, rfl, taken, onGround, .inl rfl⟩
      | won | drawn | abandoned => exact notEnded rfl
      | playing seats moves undecided =>
          simp only [not_and, not_or, not_not] at playable
          obtain ⟨fresh, seated, blocked⟩ := playable rfl
          have offTurn : playerId ≠ seats.turn moves.length := by
            rintro rfl
            have available : grid.Available moves cell := ⟨Finset.mem_range.mpr onGround, fresh⟩
            obtain ⟨events, after, step⟩ := exists_place seats moves undecided available
            exact stuck events after step
          obtain ⟨other, different, undecidedAfter⟩ : ∃ other, other ≠ cell ∧
              grid.Undecided (moves ++ [other]) := by
            simpa [Session.moves] using blocked offTurn
          exact closed ⟨playerId, cell, rfl, taken, onGround,
            .inr ⟨rfl, fresh, seated, offTurn, other, different, undecidedAfter⟩⟩

/-- Some reachable session takes the command. -/
def Revives (session : Session) (command : GameCommand) : Prop :=
  ∃ after, Relation.ReflTransGen sessions.Moves session after ∧
    ∃ events next, Step after command events next

theorem Revives.head {session middle : Session} {command other : GameCommand}
    {events : List GameEvent} (step : Step session other events middle)
    (revives : middle.Revives command) : session.Revives command := by
  obtain ⟨after, reach, taken⟩ := revives
  exact ⟨after, .head ⟨other, events, step⟩ reach, taken⟩

/-- The seated player off turn gets to place the tile once the opponent moved elsewhere. -/
theorem revives_playing (seats : Seats) (moves : List ℕ) (undecided : grid.Undecided moves)
    {playerId : PlayerId} {cell other : ℕ} (inRange : cell < 9) (fresh : cell ∉ moves)
    (seated : playerId ∈ [seats.x, seats.o]) (offTurn : playerId ≠ seats.turn moves.length)
    (different : other ≠ cell) (after : grid.Undecided (moves ++ [other])) :
    (Session.playing seats moves undecided).Revives (.placeTile playerId cell) := by
  have available : grid.Available moves other :=
    ((legal_append_singleton_iff moves other).mp after.legal).2.2
  have opponentMoves := Step.place seats moves other undecided available after
  have onTurn : playerId = seats.turn (moves ++ [other]).length := by
    rw [List.length_append, List.length_singleton, Seats.turn_succ]
    unfold Seats.turn at offTurn
    rw [List.mem_pair] at seated
    rcases seated with rfl | rfl <;> cases mover : grid.mover moves.length <;>
      simp_all [Seats.holder, Symbol.other]
  have stillAvailable : grid.Available (moves ++ [other]) cell := by
    refine ⟨Finset.mem_range.mpr inRange, ?_⟩
    simp [fresh, different.symm]
  obtain ⟨events, next, step⟩ := exists_place seats (moves ++ [other]) after stillAvailable
  rw [← onTurn] at step
  exact .head opponentMoves ⟨_, .refl, events, next, step⟩

private theorem revives_waiting {x : PlayerId} (taken : x ≠ .vacant) {playerId : PlayerId}
    (named : playerId ≠ .vacant) {cell : ℕ} (inRange : cell < 9) :
    (Session.waiting x taken).Revives (.placeTile playerId cell) := by
  by_cases isFirst : playerId = x
  · subst isFirst
    obtain ⟨opponent, nameable, distinct⟩ := playerId.exists_other
    have joins := Step.joinSecond playerId opponent "" taken nameable distinct.symm
    have available : grid.Available [] cell := ⟨Finset.mem_range.mpr inRange, List.not_mem_nil⟩
    obtain ⟨events, next, step⟩ := exists_place
      ⟨playerId, opponent, taken, nameable, distinct.symm⟩ [] undecided_nil available
    exact .head joins ⟨_, .refl, events, next, step⟩
  · have joins := Step.joinSecond x playerId "" taken named (Ne.symm isFirst)
    obtain ⟨other, different, otherInRange⟩ : ∃ other, other ≠ cell ∧ other < 9 := by
      by_cases isZero : cell = 0
      · exact ⟨1, by omega, by omega⟩
      · exact ⟨0, Ne.symm isZero, by omega⟩
    exact .head joins (revives_playing _ [] undecided_nil inRange List.not_mem_nil (by simp)
      isFirst different (undecided_singleton otherInRange))

theorem Reopens.revives {session : Session} {playerId : PlayerId} {cell : ℕ}
    (reopens : session.Reopens playerId cell) : session.Revives (.placeTile playerId cell) := by
  obtain ⟨named, inRange, inLobby | ⟨inGame, fresh, seated, offTurn, other, different, after⟩⟩ :=
    reopens
  · cases session with
    | empty =>
        exact .head (.joinFirst playerId "" named) (revives_waiting named named inRange)
    | waiting x taken => exact revives_waiting taken named inRange
    | playing | won | drawn | abandoned => cases inLobby
  · cases session with
    | playing seats moves undecided =>
        exact revives_playing seats moves undecided inRange fresh seated offTurn different after
    | empty | waiting | won | drawn | abandoned => cases inGame

theorem Reopens.stuck {session : Session} {playerId : PlayerId} {cell : ℕ}
    (reopens : session.Reopens playerId cell) (events : List GameEvent) (after : Session) :
    ¬ Step session (.placeTile playerId cell) events after := by
  intro step
  obtain ⟨inGame, onTurn, _⟩ := step.placeTile_inv
  obtain ⟨_, _, inLobby | ⟨_, _, _, offTurn, _⟩⟩ := reopens
  · rw [inGame] at inLobby
    cases inLobby
  · exact offTurn onTurn

/-- A command that is stuck stays so in every reachable session unless it is a tile that reopens. -/
theorem stuck_forever_iff (session : Session) (command : GameCommand) :
    ((∀ events after, ¬ Step session command events after) → ¬ session.Revives command) ↔
      ¬ ∃ playerId cell, command = .placeTile playerId cell ∧ session.Reopens playerId cell := by
  constructor
  · rintro forever ⟨playerId, cell, rfl, reopens⟩
    exact forever reopens.stuck reopens.revives
  · rintro closed stuck ⟨after, reach, events, next, step⟩
    rcases hopeless_or_reopens stuck with hopeless | reopens
    · exact hopeless.stuck_of_reach reach events next step
    · exact closed reopens

end Session

/-- The write model refuses a tile that a later state may accept: the game has not started, or it is
the opponent's turn and the opponent can take another free cell without completing a line. -/
def CanReopen (state : GameState) (playerId : PlayerId) (cell : ℕ) : Prop :=
  playerId ≠ .vacant ∧ cell < 9 ∧
    (state.stage = .lobby ∨
      state.stage = .inGame ∧ state.board[cell]? = some .empty ∧
        HoldsSeat state playerId ∧ playerId ≠ state.activePlayerId ∧
          ∃ other, other ≠ cell ∧ state.board[other]? = some .empty ∧
            winningSymbol (evolve state (.tilePlaced state.activePlayerId other)).board = none)

private theorem other_move_iff (seats : Seats) (moves : List ℕ) (undecided : grid.Undecided moves)
    {cell other : ℕ} (available : grid.Available moves cell) (different : other ≠ cell) :
    ((boardOf moves)[other]? = some .empty ∧
        winningSymbol (evolve (Session.playing seats moves undecided).state
          (.tilePlaced (seats.turn moves.length) other)).board = none) ↔
      grid.Undecided (moves ++ [other]) := by
  rw [Session.boardOf_getElem?_eq_empty_iff]
  constructor
  · rintro ⟨free, noSymbol⟩
    have legal := undecided.legal_append free
    have lines := winningSymbol_boardOf_isSome_iff legal.nodup
    rw [Session.evolve_tilePlaced seats moves undecided free.2] at noSymbol
    refine ⟨legal, fun line => ?_, fun full => ?_⟩
    · have found := lines.mpr line
      rw [noSymbol] at found
      cases found
    · have taken := full cell available.1
      simp [available.2, different.symm] at taken
  · intro after
    have free : grid.Available moves other :=
      ((legal_append_singleton_iff moves other).mp after.legal).2.2
    have lines := winningSymbol_boardOf_isSome_iff after.legal.nodup
    refine ⟨free, ?_⟩
    rw [Session.evolve_tilePlaced seats moves undecided free.2, ← Option.not_isSome_iff_eq_none,
      lines]
    exact after.noLine

theorem canReopen_state_iff (session : Session) (playerId : PlayerId) (cell : ℕ) :
    CanReopen session.state playerId cell ↔ session.Reopens playerId cell := by
  unfold CanReopen Session.Reopens
  refine and_congr_right fun _ => and_congr_right fun inRange => or_congr Iff.rfl ?_
  refine and_congr_right fun inGame => ?_
  cases session with
  | empty | waiting | won | drawn | abandoned => cases inGame
  | playing seats moves undecided =>
      have free : (boardOf moves)[cell]? = some .empty ↔ cell ∉ moves := by
        rw [Session.boardOf_getElem?_eq_empty_iff]
        exact and_iff_right (Finset.mem_range.mpr inRange)
      have seated := (Session.playing seats moves undecided).holdsSeat_iff playerId
      refine (and_congr_left' free).trans (and_congr_right fun fresh => ?_)
      have available : grid.Available moves cell := ⟨Finset.mem_range.mpr inRange, fresh⟩
      refine and_congr seated (and_congr_right fun _ => exists_congr fun other => ?_)
      exact and_congr_right fun different =>
        other_move_iff seats moves undecided available different

section Service

variable {E P B : Type} [Anyhow E] [EventPublisher E P] [NetworkBroadcaster E B]

namespace GameService

/-- Whatever is handled in between, the envelope is refused again and changes nothing. -/
def RefusedForGood (fresh : ℕ → Stamp) (service : GameService P B) (cmdEnv : CommandEnvelope) :
    Prop :=
  ∀ later, (service.handleAll fresh later).DomainRefusal cmdEnv ∧
    ((service.handleAll fresh later).handle fresh cmdEnv).1 = service.handleAll fresh later

/-- A refused envelope leaves the service as it was. -/
theorem handle_of_domainRefusal (fresh : ℕ → Stamp) {service : GameService P B}
    {cmdEnv : CommandEnvelope} (refusal : service.DomainRefusal cmdEnv) :
    (service.handle fresh cmdEnv).1 = service := by
  by_cases forUs : cmdEnv.gameId = service.store.gameId
  · rcases refusal with elsewhere | ⟨error, refused⟩
    · exact (elsewhere forUs).elim
    · rw [handle_of_refused fresh forUs refused]
  · rw [handle_of_wrongGame fresh service cmdEnv forUs]

theorem refusedForGood_iff (fresh : ℕ → Stamp) (service : GameService P B)
    (cmdEnv : CommandEnvelope) :
    service.RefusedForGood fresh cmdEnv ↔
      (cmdEnv.gameId = service.store.gameId →
        ∀ commands, decider.Refuses (decider.run service.store.events commands)
          cmdEnv.command) := by
  constructor
  · intro forGood forUs commands
    let stamp := fresh 0
    let later := commands.map (CommandEnvelope.new stamp service.store.gameId)
    have sent : addressed service.store.gameId later = commands :=
      addressed_new stamp service.store.gameId commands
    obtain ⟨elsewhere | refused, _⟩ := forGood later
    · rw [handleAll_gameId] at elsewhere
      exact (elsewhere forUs).elim
    · rw [handleAll_events, sent] at refused
      exact refused
  · intro refused later
    have refusal : (service.handleAll fresh later).DomainRefusal cmdEnv := by
      by_cases forUs : cmdEnv.gameId = service.store.gameId
      · refine .inr ?_
        rw [handleAll_events]
        exact refused forUs _
      · refine .inl ?_
        rw [handleAll_gameId]
        exact forUs
    exact ⟨refusal, handle_of_domainRefusal fresh refusal⟩

end GameService

/-- In every reachable service, an envelope is refused for good whenever it is refused, except for
exactly the tiles that can reopen. -/
theorem rejection_permanent_iff (fresh : ℕ → Stamp) (gameId : GameId) (publisher : P)
    (broadcaster : B) (past : List CommandEnvelope) (cmdEnv : CommandEnvelope) :
    let service := (GameService.build gameId publisher broadcaster).handleAll fresh past
    (service.DomainRefusal cmdEnv → service.RefusedForGood fresh cmdEnv) ↔
      ¬ (cmdEnv.gameId = gameId ∧ ∃ playerId cell, cmdEnv.command = .placeTile playerId cell ∧
        CanReopen (GameDecider.hydrate service.store.events) playerId cell) := by
  intro service
  have sameGame : service.store.gameId = gameId := GameService.handleAll_gameId fresh _ past
  obtain ⟨session, history⟩ : ∃ session, sessions.History service.store.events session :=
    GameService.exists_session fresh gameId publisher broadcaster past
  rw [GameService.refusedForGood_iff, sameGame]
  by_cases forUs : cmdEnv.gameId = gameId
  · have refusal : service.DomainRefusal cmdEnv ↔
        ∀ events after, ¬ Session.Step session cmdEnv.command events after := by
      rw [GameService.DomainRefusal, sameGame, or_iff_right (not_not.mpr forUs)]
      exact history.refuses_iff cmdEnv.command
    have forGood : (∀ commands, decider.Refuses (decider.run service.store.events commands)
        cmdEnv.command) ↔ ¬ session.Revives cmdEnv.command := by
      rw [history.refuses_run_iff]
      simp only [Session.Revives, not_exists, not_and]
      exact Iff.rfl
    have folded : GameDecider.hydrate service.store.events = session.state := history.hydrate
    simp only [forUs, true_and, true_imp_iff, refusal, forGood, folded, canReopen_state_iff]
    exact session.stuck_forever_iff cmdEnv.command
  · simp [forUs]

end Service

private def opening : List GameCommand :=
  [.joinGame ⟨1⟩ "Ann", .joinGame ⟨2⟩ "Bob"]

/-- O's tile in X's turn is refused, and accepted when it is delivered again after X's move. -/
theorem offTurn_tile_accepted_later :
    ¬ ∀ (fresh : ℕ → Stamp) (gameId : GameId) (past : List CommandEnvelope)
        (cmdEnv : CommandEnvelope),
      let service :=
        (GameService.build gameId NoopPublisher.mk NoopBroadcaster.mk).handleAll fresh past
      service.DomainRefusal cmdEnv → service.RefusedForGood fresh cmdEnv := by
  intro permanent
  let stamp : Stamp := ⟨⟨0⟩, ⟨0⟩⟩
  let gameId : GameId := ⟨⟨0⟩⟩
  let tile := CommandEnvelope.new stamp gameId (.placeTile ⟨2⟩ 4)
  let service := (GameService.build gameId NoopPublisher.mk NoopBroadcaster.mk).handleAll
    (fun _ => stamp) (opening.map (CommandEnvelope.new stamp gameId))
  have built : service.store.events = decider.run [] opening :=
    GameService.handleAll_new_events (fun _ => stamp) gameId _ _ stamp opening
  have refusal : service.DomainRefusal tile := by
    refine .inr ⟨.notYourTurn ⟨2⟩, ?_⟩
    rw [built]
    decide +kernel
  have sameGame : service.store.gameId = gameId := GameService.handleAll_gameId _ _ _
  have forGood := permanent (fun _ => stamp) gameId _ tile refusal
  have again := (GameService.refusedForGood_iff _ service tile).mp forGood sameGame.symm
    [.placeTile ⟨1⟩ 0]
  have accepted : decider.decide (decider.hydrate (decider.run (decider.run [] opening)
      [.placeTile ⟨1⟩ 0])) (.placeTile ⟨2⟩ 4) = .ok [.tilePlaced ⟨2⟩ 4] := by
    decide +kernel
  rw [built] at again
  obtain ⟨error, refused⟩ := again
  cases accepted.symm.trans refused

end TicTacTussle
