import Mathlib.Data.Finset.Range
import Mathlib.Data.Fintype.Basic
import Mathlib.Tactic.FinCases
import TicTacTussle.PositionalGame
import TicTacTussle.State

/-!
# Board evaluation

The win detection of the source runs through eight hand-written index triples.  Lines are stated
here by coordinates instead, as the lines of a positional game on the nine cells, and the triples
are shown to be exactly those lines.
-/

namespace TicTacTussle

/-- The winning index triples, in the order the source lists them. -/
def winPatterns : List (Fin 9 × Fin 9 × Fin 9) :=
  [(0, 1, 2), (3, 4, 5), (6, 7, 8),
   (0, 3, 6), (1, 4, 7), (2, 5, 8),
   (0, 4, 8), (2, 4, 6)]

/-- The symbol of the first winning triple, if there is one. -/
def winningSymbol (board : Board) : Option Symbol :=
  winPatterns.findSome? fun (a, b, c) =>
    match board[a] with
    | .occupied symbol =>
        if board[b] = .occupied symbol ∧ board[c] = .occupied symbol then some symbol else none
    | .empty => none

def isFull (board : Board) : Bool :=
  board.all fun tile => tile ≠ .empty

/-- The rows, columns and diagonals of the three-by-three grid. -/
inductive GridLine where
  | row (index : Fin 3)
  | column (index : Fin 3)
  | diagonal
  | antidiagonal
  deriving DecidableEq, Repr

/-- Row-major index of a coordinate pair. -/
def cellAt (row column : Fin 3) : Fin 9 := ⟨3 * row + column, by omega⟩

/-- The cells along a line. -/
def GridLine.cell : GridLine → Fin 3 → Fin 9
  | .row index, step => cellAt index step
  | .column index, step => cellAt step index
  | .diagonal, step => cellAt step step
  | .antidiagonal, step => cellAt step step.rev

/-- One symbol occupies every cell of a line. -/
def Board.OwnsLine (board : Board) (symbol : Symbol) : Prop :=
  ∃ line : GridLine, ∀ step, board[line.cell step] = .occupied symbol

/-- Apart from one cell the symbol occupies a whole line through it. -/
def Board.Completes (board : Board) (symbol : Symbol) (cell : ℕ) : Prop :=
  ∃ (line : GridLine) (here : Fin 3), (line.cell here : ℕ) = cell ∧
    ∀ step, step ≠ here → board[line.cell step] = .occupied symbol

def Board.HasBlank (board : Board) : Prop := ∃ cell : Fin 9, board[cell] = .empty

/-- Tic-tac-toe as a positional game: X moves at even turns, O at odd turns. -/
def grid : PositionalGame ℕ Symbol where
  ground := Finset.range 9
  lines := Set.range fun line : GridLine => Finset.univ.image fun step => (line.cell step : ℕ)
  mover turn := if turn % 2 = 0 then .x else .o

private def gridLines : List GridLine :=
  [.row 0, .row 1, .row 2, .column 0, .column 1, .column 2, .diagonal, .antidiagonal]

private theorem mem_gridLines (line : GridLine) : line ∈ gridLines := by
  cases line with
  | row index => fin_cases index <;> decide
  | column index => fin_cases index <;> decide
  | diagonal => decide
  | antidiagonal => decide

/-- The hand-written triples are exactly the lines by coordinates. -/
theorem winPatterns_eq_gridLines :
    winPatterns = gridLines.map fun line => (line.cell 0, line.cell 1, line.cell 2) := by
  decide

theorem winningSymbol_eq_findSome_gridLines (board : Board) :
    winningSymbol board = gridLines.findSome? fun line =>
      match board[line.cell 0] with
      | .occupied symbol =>
          if board[line.cell 1] = .occupied symbol ∧ board[line.cell 2] = .occupied symbol then
            some symbol
          else none
      | .empty => none := by
  rw [winningSymbol, winPatterns_eq_gridLines, List.findSome?_map]
  rfl

/-- A reported symbol owns a line. -/
theorem ownsLine_of_winningSymbol {board : Board} {symbol : Symbol}
    (found : winningSymbol board = some symbol) : board.OwnsLine symbol := by
  rw [winningSymbol_eq_findSome_gridLines] at found
  obtain ⟨line, _, owned⟩ := List.exists_of_findSome?_eq_some found
  refine ⟨line, fun step => ?_⟩
  cases first : board[line.cell 0] with
  | empty => simp [first] at owned
  | occupied owner =>
      simp only [first, Option.ite_none_right_eq_some, Option.some.injEq] at owned
      obtain ⟨⟨second, third⟩, rfl⟩ := owned
      fin_cases step
      · exact first
      · exact second
      · exact third

/-- Win detection reports a symbol exactly when some symbol owns a line. -/
theorem winningSymbol_isSome_iff (board : Board) :
    (winningSymbol board).isSome ↔ ∃ symbol, board.OwnsLine symbol := by
  constructor
  · intro found
    obtain ⟨symbol, found⟩ := Option.isSome_iff_exists.mp found
    exact ⟨symbol, ownsLine_of_winningSymbol found⟩
  · rintro ⟨symbol, line, owned⟩
    rw [winningSymbol_eq_findSome_gridLines, List.findSome?_isSome_iff]
    exact ⟨line, mem_gridLines line, by simp [owned]⟩

theorem isFull_iff (board : Board) :
    isFull board = true ↔ ∀ cell : Fin 9, board[cell] ≠ .empty := by
  simp [isFull, Fin.forall_iff]

theorem Board.getElem_setIfInBounds_fin (board : Board) (cell : ℕ) (tile : Tile) (here : Fin 9) :
    (board.setIfInBounds cell tile)[here] = if cell = here then tile else board[here] :=
  Vector.getElem_setIfInBounds ..

theorem Board.ne_of_occupied {board : Board} {cell : ℕ} (empty : board[cell]? = some .empty)
    {here : Fin 9} {symbol : Symbol} (occupied : board[here] = .occupied symbol) :
    cell ≠ here := by
  rintro rfl
  have entry : board[(here : ℕ)]? = some board[here] := Vector.getElem?_eq_getElem here.isLt
  rw [empty, occupied] at entry
  cases entry

/-- The tile a play leaves on a cell. -/
def tileOf (moves : List ℕ) (cell : ℕ) : Tile :=
  if cell ∈ moves then .occupied (grid.mover (moves.idxOf cell)) else .empty

/-- The board a play leaves behind. -/
def boardOf (moves : List ℕ) : Board :=
  Vector.ofFn fun cell => tileOf moves cell

@[simp]
theorem boardOf_getElem (moves : List ℕ) (cell : Fin 9) :
    (boardOf moves)[cell] = tileOf moves cell := by
  simp [boardOf]

theorem boardOf_nil : boardOf [] = Vector.replicate 9 .empty := by
  ext cell inRange
  simp [boardOf, tileOf]

theorem tileOf_eq_empty_iff (moves : List ℕ) (cell : ℕ) :
    tileOf moves cell = .empty ↔ cell ∉ moves := by
  unfold tileOf
  split <;> simp_all

theorem tileOf_eq_occupied_iff {moves : List ℕ} (nodup : moves.Nodup) (cell : ℕ) (symbol : Symbol) :
    tileOf moves cell = .occupied symbol ↔ grid.TakenBy moves symbol cell := by
  by_cases member : cell ∈ moves
  · have inRange : moves.idxOf cell < moves.length := List.idxOf_lt_length_of_mem member
    have taken : grid.TakenBy moves (grid.mover (moves.idxOf cell)) cell :=
      ⟨moves.idxOf cell, by simp [inRange], rfl⟩
    simp only [tileOf, member, if_true, Tile.occupied.injEq]
    constructor
    · rintro rfl
      exact taken
    · exact taken.side_unique nodup
  · simp only [tileOf, member, if_false, reduceCtorEq, false_iff]
    exact fun taken => member taken.mem

/-- A fresh move writes the mover's symbol on its cell. -/
theorem boardOf_append_singleton {moves : List ℕ} {last : ℕ} (fresh : last ∉ moves) :
    boardOf (moves ++ [last]) =
      (boardOf moves).setIfInBounds last (.occupied (grid.mover moves.length)) := by
  ext cell inRange
  rw [Vector.getElem_setIfInBounds]
  by_cases same : last = cell
  · subst same
    simp [boardOf, tileOf, List.idxOf_append_of_notMem fresh]
  · by_cases member : cell ∈ moves
    · simp [boardOf, tileOf, same, member, List.idxOf_append_of_mem member]
    · simp [boardOf, tileOf, same, member, Ne.symm same]

theorem ownsLine_boardOf_iff {moves : List ℕ} (nodup : moves.Nodup) (symbol : Symbol) :
    (boardOf moves).OwnsLine symbol ↔ grid.OwnsLine moves symbol := by
  simp only [Board.OwnsLine, PositionalGame.OwnsLine, boardOf_getElem,
    tileOf_eq_occupied_iff nodup]
  simp [grid]

/-- On the board of a play, win detection finds the lines of the game. -/
theorem winningSymbol_boardOf_isSome_iff {moves : List ℕ} (nodup : moves.Nodup) :
    (winningSymbol (boardOf moves)).isSome ↔ grid.HasLine moves := by
  simp only [winningSymbol_isSome_iff, ownsLine_boardOf_iff nodup, PositionalGame.HasLine]

/-- On the board of a play, the fullness check finds that no cell is left. -/
theorem isFull_boardOf_iff (moves : List ℕ) : isFull (boardOf moves) = true ↔ grid.Full moves := by
  simp only [isFull_iff, boardOf_getElem, ne_eq, tileOf_eq_empty_iff, not_not]
  simp [PositionalGame.Full, grid, Fin.forall_iff]

end TicTacTussle
