import TicTacTussle.Position

/-!
# Admitted plays are the legal plays

Whatever commands arrive, the tiles of a run form a legal play of the grid, signed alternately by
the first and the second joiner.  Conversely, two players can carry out every legal play without a
refusal.
-/

namespace TicTacTussle

open GameDecider

/-- A legal play of the grid whose turns belong to the joiners in alternation. -/
structure SignedPlay (events : List GameEvent) : Prop where
  legal : grid.Legal (moves events)
  authors : ∀ (turn : ℕ) (author : PlayerId) (cell : ℕ),
    (placements events)[turn]? = some (author, cell) → (joins events)[turn % 2]? = some author

/-- Cells signed alternately, starting with the first player. -/
def alternate (first second : PlayerId) (cells : List ℕ) : List (PlayerId × ℕ) :=
  cells.mapIdx fun turn cell => (if turn % 2 = 0 then first else second, cell)

/-- Both players join, then place the cells in alternation. -/
def script (first second : PlayerId) (firstName secondName : String) (cells : List ℕ) :
    List GameCommand :=
  [.joinGame first firstName, .joinGame second secondName] ++
    (alternate first second cells).map fun placement => .placeTile placement.1 placement.2

theorem history_signedPlay {log : List GameEvent} {session : Session}
    (history : sessions.History log session) : SignedPlay log where
  legal := by
    rw [history_moves history]
    exact session.legal
  authors turn author cell found := by
    rw [history_placements history] at found
    rw [history_joins history]
    have signed : ∀ (seats : Seats) (moves : List ℕ),
        (seats.sign moves)[turn]? = some (author, cell) →
          [seats.x, seats.o][turn % 2]? = some author := by
      intro seats moves found
      obtain ⟨inRange, entry⟩ := List.getElem?_eq_some_iff.mp found
      have author_eq : seats.turn turn = author := by
        simpa [Seats.sign] using congrArg Prod.fst entry
      rw [← author_eq, ← Session.players_getElem_turn]
      rcases Nat.mod_two_eq_zero_or_one turn with even | odd
      · simp [even]
      · simp [odd]
    cases session with
    | empty | waiting => simp [Session.placements] at found
    | playing seats moves | abandoned seats _ moves => exact signed seats moves found
    | won seats moves last | drawn seats moves last => exact signed seats (moves ++ [last]) found

private theorem sign_eq_alternate (seats : Seats) (cells : List ℕ) :
    seats.sign cells = alternate seats.x seats.o cells := by
  unfold Seats.sign alternate
  congr 1
  funext turn cell
  rcases Nat.mod_two_eq_zero_or_one turn with even | odd
  · simp [Seats.turn, Seats.holder, grid, even]
  · simp [Seats.turn, Seats.holder, grid, odd]

private theorem opening_execution (seats : Seats) (firstName secondName : String) :
    sessions.Execution .empty
      [.joinGame seats.x firstName, .joinGame seats.o secondName]
      [.playerJoined seats.x firstName, .playerJoined seats.o secondName, .gameStarted seats.x]
      (.playing seats [] undecided_nil) := by
  have first : sessions.Execution .empty [.joinGame seats.x firstName]
      [.playerJoined seats.x firstName] (.waiting seats.x seats.x_ne_vacant) :=
    .snoc .nil (Session.Step.joinFirst seats.x firstName seats.x_ne_vacant)
  exact first.snoc (Session.Step.joinSecond seats.x seats.o secondName seats.x_ne_vacant
    seats.o_ne_vacant seats.x_ne_o)

/-- A legal play is executed move by move, and ends in a running session while it is undecided. -/
private theorem play_execution (seats : Seats) (firstName secondName : String) {cells : List ℕ}
    (legal : grid.Legal cells) :
    ∃ log session,
      sessions.Execution .empty (script seats.x seats.o firstName secondName cells) log session ∧
        placements log = seats.sign cells ∧
        ∀ undecided : grid.Undecided cells, session = .playing seats cells undecided := by
  induction cells using List.reverseRecOn with
  | nil =>
      exact ⟨_, _, opening_execution seats firstName secondName, rfl, fun _ => rfl⟩
  | append_singleton cells cell induction =>
      obtain ⟨undecided, available⟩ :=
        (PositionalGame.legal_append_singleton_iff_undecided cells cell).mp legal
      obtain ⟨log, session, execution, placed, running⟩ := induction undecided.legal
      obtain rfl := running undecided
      have script_eq : script seats.x seats.o firstName secondName (cells ++ [cell]) =
          script seats.x seats.o firstName secondName cells ++
            [.placeTile (seats.turn cells.length) cell] := by
        simp [script, ← sign_eq_alternate]
      rw [script_eq]
      rcases undecided.next available with wins | draws | after
      · refine ⟨_, _, execution.snoc (Session.Step.win seats cells cell wins), ?_, ?_⟩
        · rw [placements_append, placed, Seats.sign_append_singleton]
          rfl
        · exact fun undecidedAfter => (undecidedAfter.noLine wins.line).elim
      · refine ⟨_, _, execution.snoc (Session.Step.draw seats cells cell draws), ?_, ?_⟩
        · rw [placements_append, placed, Seats.sign_append_singleton]
          rfl
        · exact fun undecidedAfter => (undecidedAfter.notFull draws.full).elim
      · refine ⟨_, _, execution.snoc
          (Session.Step.place seats cells cell undecided available after), ?_, fun _ => rfl⟩
        rw [placements_append, placed, Seats.sign_append_singleton]
        rfl

theorem play_signedPlay (commands : List GameCommand) :
    SignedPlay (decider.play .default commands).2 := by
  obtain ⟨session, history⟩ := sessions.exists_history commands
  rw [decider.run_eq_play] at history
  exact history_signedPlay history

theorem legal_play_accepted {first second : PlayerId} (first_ne : first ≠ .vacant)
    (second_ne : second ≠ .vacant) (distinct : first ≠ second) (firstName secondName : String)
    {cells : List ℕ} (legal : grid.Legal cells) :
    decider.AcceptsAll .default (script first second firstName secondName cells) ∧
      placements (decider.play .default (script first second firstName secondName cells)).2 =
        alternate first second cells := by
  let seats : Seats := ⟨first, second, first_ne, second_ne, distinct⟩
  obtain ⟨log, session, execution, placed, _⟩ := play_execution seats firstName secondName legal
  obtain ⟨accepted, played⟩ := execution.play
  have initial : sessions.represent .empty = .default := Session.state_empty
  rw [initial] at accepted played
  refine ⟨accepted, ?_⟩
  rw [played, placed, sign_eq_alternate]

/-- The plays the decider lets happen are exactly the legal plays of the grid. -/
theorem admitted_plays_legal :
    (∀ commands, SignedPlay (decider.play .default commands).2) ∧
      ∀ (first second : PlayerId) (firstName secondName : String) (cells : List ℕ),
        first ≠ .vacant → second ≠ .vacant → first ≠ second → grid.Legal cells →
          decider.AcceptsAll .default (script first second firstName secondName cells) ∧
            placements
                (decider.play .default (script first second firstName secondName cells)).2 =
              alternate first second cells :=
  ⟨play_signedPlay, fun _ _ firstName secondName _ first_ne second_ne distinct legal =>
    legal_play_accepted first_ne second_ne distinct firstName secondName legal⟩

private def topRow : List ℕ := [0, 3, 1, 4, 2]

private theorem topRow_legal : grid.Legal topRow where
  onGround := by decide
  nodup := by decide
  noEarlyLine front isPrefix shorter := by
    have front_eq : front = topRow.take front.length := List.prefix_iff_eq_take.mp isPrefix
    have length_le : front.length < topRow.length :=
      lt_of_le_of_ne isPrefix.length_le fun same => shorter (isPrefix.eq_of_length same)
    have noLine : ∀ turn < topRow.length,
        (winningSymbol (boardOf (topRow.take turn))).isSome = false := by
      decide +kernel
    have nodup : front.Nodup := isPrefix.sublist.nodup (by decide : topRow.Nodup)
    rw [← winningSymbol_boardOf_isSome_iff nodup, front_eq, noLine front.length length_le]
    exact Bool.false_ne_true

/-- Two players carry out a play in which the first takes the whole top row. -/
theorem admitted_plays_legal_topRow :
    decider.AcceptsAll .default (script ⟨1⟩ ⟨2⟩ "Alice" "Bob" topRow) ∧
      placements (decider.play .default (script ⟨1⟩ ⟨2⟩ "Alice" "Bob" topRow)).2 =
        alternate ⟨1⟩ ⟨2⟩ topRow :=
  admitted_plays_legal.2 ⟨1⟩ ⟨2⟩ "Alice" "Bob" topRow (by decide) (by decide) (by decide)
    topRow_legal

end TicTacTussle
