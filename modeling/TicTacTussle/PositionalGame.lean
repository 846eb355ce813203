import Mathlib.Data.Finset.Card
import Mathlib.Data.List.Nodup

/-!
# Plays of a positional game

Players take cells of a finite ground set in a fixed rotation, and the play stops as soon as one of
them owns every cell of some line.  A play is the list of cells taken so far, so ownership is read
off the turn at which a cell was taken.
-/

/-- A finite set of cells, the lines that win, and the side moving at each turn. -/
structure PositionalGame (Cell Side : Type*) where
  /-- The cells that can be taken. -/
  ground : Finset Cell
  /-- The sets of cells that decide the play. -/
  lines : Set (Finset Cell)
  /-- The side that moves at a given turn. -/
  mover : ℕ → Side

namespace PositionalGame

variable {Cell Side : Type*} (game : PositionalGame Cell Side)

/-- The cell was taken at a turn of the side. -/
def TakenBy (moves : List Cell) (side : Side) (cell : Cell) : Prop :=
  ∃ turn, moves[turn]? = some cell ∧ game.mover turn = side

def OwnsLine (moves : List Cell) (side : Side) : Prop :=
  ∃ line ∈ game.lines, ∀ cell ∈ line, game.TakenBy moves side cell

def HasLine (moves : List Cell) : Prop :=
  ∃ side, game.OwnsLine moves side

def Full (moves : List Cell) : Prop :=
  ∀ cell ∈ game.ground, cell ∈ moves

/-- The cell can still be taken. -/
def Available (moves : List Cell) (cell : Cell) : Prop :=
  cell ∈ game.ground ∧ cell ∉ moves

/-- Distinct cells, none of them taken after a line was complete. -/
structure Legal (moves : List Cell) : Prop where
  onGround : ∀ cell ∈ moves, cell ∈ game.ground
  nodup : moves.Nodup
  /-- No move follows a complete line. -/
  noEarlyLine : ∀ front, front <+: moves → front ≠ moves → ¬ game.HasLine front

/-- A legal play that has to go on. -/
structure Undecided (moves : List Cell) : Prop where
  legal : game.Legal moves
  noLine : ¬ game.HasLine moves
  notFull : ¬ game.Full moves

/-- The move completes a line of an undecided play. -/
structure Wins (moves : List Cell) (cell : Cell) : Prop where
  undecided : game.Undecided moves
  available : game.Available moves cell
  line : game.HasLine (moves ++ [cell])

/-- The move takes the last cell of an undecided play and completes no line. -/
structure Draws (moves : List Cell) (cell : Cell) : Prop where
  undecided : game.Undecided moves
  available : game.Available moves cell
  noLine : ¬ game.HasLine (moves ++ [cell])
  full : game.Full (moves ++ [cell])

variable {game}

@[simp]
theorem not_takenBy_nil (side : Side) (cell : Cell) : ¬ game.TakenBy [] side cell := by
  simp [TakenBy]

theorem TakenBy.mem {moves : List Cell} {side : Side} {cell : Cell}
    (taken : game.TakenBy moves side cell) : cell ∈ moves := by
  obtain ⟨turn, found, _⟩ := taken
  exact List.mem_of_getElem? found

/-- A move adds its own cell to the mover and changes no other cell. -/
theorem takenBy_append_singleton (moves : List Cell) (last : Cell) (side : Side) (cell : Cell) :
    game.TakenBy (moves ++ [last]) side cell ↔
      game.TakenBy moves side cell ∨ cell = last ∧ game.mover moves.length = side := by
  constructor
  · rintro ⟨turn, found, moved⟩
    rcases Nat.lt_trichotomy turn moves.length with earlier | now | later
    · rw [List.getElem?_append_left earlier] at found
      exact .inl ⟨turn, found, moved⟩
    · subst now
      have same : last = cell := by simpa using found
      exact .inr ⟨same.symm, moved⟩
    · rw [List.getElem?_eq_none (by simp; omega)] at found
      contradiction
  · rintro (⟨turn, found, moved⟩ | ⟨rfl, moved⟩)
    · have earlier : turn < moves.length := (List.getElem?_eq_some_iff.mp found).1
      exact ⟨turn, by rw [List.getElem?_append_left earlier, found], moved⟩
    · exact ⟨moves.length, by simp, moved⟩

/-- In a play without repetition a cell belongs to at most one side. -/
theorem TakenBy.side_unique {moves : List Cell} (nodup : moves.Nodup) {left right : Side}
    {cell : Cell} (byLeft : game.TakenBy moves left cell)
    (byRight : game.TakenBy moves right cell) :
    left = right := by
  obtain ⟨leftTurn, leftFound, rfl⟩ := byLeft
  obtain ⟨rightTurn, rightFound, rfl⟩ := byRight
  have inRange : leftTurn < moves.length := (List.getElem?_eq_some_iff.mp leftFound).1
  rw [(List.getElem?_inj inRange nodup).mp (leftFound.trans rightFound.symm)]

/-- A line that a move completes belongs to the mover. -/
theorem OwnsLine.side_eq_mover {moves : List Cell} {last : Cell} {side : Side}
    (noLine : ¬ game.HasLine moves) (owns : game.OwnsLine (moves ++ [last]) side) :
    side = game.mover moves.length := by
  obtain ⟨line, isLine, taken⟩ := owns
  by_contra otherSide
  refine noLine ⟨side, line, isLine, fun cell member => ?_⟩
  rcases (takenBy_append_singleton moves last side cell).mp (taken cell member) with
    before | ⟨_, moved⟩
  · exact before
  · exact (otherSide moved.symm).elim

theorem legal_nil : game.Legal [] where
  onGround := by simp
  nodup := List.nodup_nil
  noEarlyLine front isPrefix shorter := (shorter (List.prefix_nil.mp isPrefix)).elim

/-- A play extends by exactly the available cells, and only while there is no line. -/
theorem legal_append_singleton_iff (moves : List Cell) (cell : Cell) :
    game.Legal (moves ++ [cell]) ↔
      game.Legal moves ∧ ¬ game.HasLine moves ∧ game.Available moves cell := by
  constructor
  · intro legal
    have nodup := List.nodup_append.mp legal.nodup
    refine ⟨⟨fun other member => ?_, nodup.1, fun front isPrefix _ => ?_⟩, ?_, ?_, ?_⟩
    · exact legal.onGround other (List.mem_append_left _ member)
    · refine legal.noEarlyLine front (isPrefix.trans (List.prefix_append _ _)) fun same => ?_
      have lengths := isPrefix.length_le
      rw [same, List.length_append, List.length_singleton] at lengths
      omega
    · exact legal.noEarlyLine moves (List.prefix_append _ _) (by simp)
    · exact legal.onGround cell (by simp)
    · exact fun member => nodup.2.2 cell member cell (by simp) rfl
  · rintro ⟨legal, noLine, onGround, fresh⟩
    refine ⟨fun other member => ?_, ?_, fun front isPrefix shorter => ?_⟩
    · rcases List.mem_append.mp member with before | now
      · exact legal.onGround other before
      · rw [List.mem_singleton.mp now]
        exact onGround
    · refine List.nodup_append.mpr ⟨legal.nodup, List.nodup_singleton cell, ?_⟩
      intro left leftMember right rightMember same
      rw [List.mem_singleton.mp rightMember] at same
      exact fresh (same ▸ leftMember)
    · rcases List.prefix_concat_iff.mp (by simpa using isPrefix) with whole | before
      · exact (shorter (by simpa using whole)).elim
      · by_cases same : front = moves
        · exact same ▸ noLine
        · exact legal.noEarlyLine front before same

/-- A play that went on still had a cell left. -/
theorem Available.not_full {moves : List Cell} {cell : Cell}
    (available : game.Available moves cell) :
    ¬ game.Full moves :=
  fun full => available.2 (full cell available.1)

/-- Legal plays grow one undecided move at a time. -/
theorem legal_append_singleton_iff_undecided (moves : List Cell) (cell : Cell) :
    game.Legal (moves ++ [cell]) ↔ game.Undecided moves ∧ game.Available moves cell := by
  rw [legal_append_singleton_iff]
  constructor
  · rintro ⟨legal, noLine, available⟩
    exact ⟨⟨legal, noLine, available.not_full⟩, available⟩
  · rintro ⟨⟨legal, noLine, _⟩, available⟩
    exact ⟨legal, noLine, available⟩

theorem Undecided.legal_append {moves : List Cell} (undecided : game.Undecided moves) {cell : Cell}
    (available : game.Available moves cell) : game.Legal (moves ++ [cell]) :=
  (legal_append_singleton_iff_undecided moves cell).mpr ⟨undecided, available⟩

theorem Wins.legal {moves : List Cell} {cell : Cell} (wins : game.Wins moves cell) :
    game.Legal (moves ++ [cell]) :=
  wins.undecided.legal_append wins.available

theorem Draws.legal {moves : List Cell} {cell : Cell} (draws : game.Draws moves cell) :
    game.Legal (moves ++ [cell]) :=
  draws.undecided.legal_append draws.available

/-- The side that completes a line owns it. -/
theorem Wins.mover_ownsLine {moves : List Cell} {cell : Cell} (wins : game.Wins moves cell) :
    game.OwnsLine (moves ++ [cell]) (game.mover moves.length) := by
  obtain ⟨side, owns⟩ := wins.line
  exact owns.side_eq_mover wins.undecided.noLine ▸ owns

/-- A move of an undecided play wins, draws, or leaves the play undecided. -/
theorem Undecided.next {moves : List Cell} (undecided : game.Undecided moves) {cell : Cell}
    (available : game.Available moves cell) :
    game.Wins moves cell ∨ game.Draws moves cell ∨ game.Undecided (moves ++ [cell]) := by
  by_cases line : game.HasLine (moves ++ [cell])
  · exact .inl ⟨undecided, available, line⟩
  · by_cases full : game.Full (moves ++ [cell])
    · exact .inr (.inl ⟨undecided, available, line, full⟩)
    · exact .inr (.inr ⟨undecided.legal_append available, line, full⟩)

theorem Legal.length_le {moves : List Cell} (legal : game.Legal moves) :
    moves.length ≤ game.ground.card := by
  classical
  rw [← List.toFinset_card_of_nodup legal.nodup]
  apply Finset.card_le_card
  intro cell member
  exact legal.onGround cell (List.mem_toFinset.mp member)

/-- A legal play has taken every cell when it has as many moves as there are cells. -/
theorem Legal.full_iff {moves : List Cell} (legal : game.Legal moves) :
    game.Full moves ↔ moves.length = game.ground.card := by
  classical
  rw [← List.toFinset_card_of_nodup legal.nodup]
  have onGround : moves.toFinset ⊆ game.ground := fun cell member =>
    legal.onGround cell (List.mem_toFinset.mp member)
  constructor
  · intro full
    have covers : game.ground ⊆ moves.toFinset := fun cell member =>
      List.mem_toFinset.mpr (full cell member)
    exact congrArg Finset.card (onGround.antisymm covers)
  · intro asMany cell member
    rw [← Finset.eq_of_subset_of_card_le onGround asMany.ge] at member
    exact List.mem_toFinset.mp member

theorem Undecided.length_lt {moves : List Cell} (undecided : game.Undecided moves) :
    moves.length < game.ground.card := by
  have short := undecided.legal.length_le
  have notAll := mt undecided.legal.full_iff.mpr undecided.notFull
  omega

end PositionalGame
