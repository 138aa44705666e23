import AtOS.Tetris.Game
import Mathlib.Data.Fintype.Basic

/-! Indexing inside the board never fails, and reads and writes one cell or one row. -/

namespace AtOS.Tetris

/-- A test that never fails, made for the items of a list until one of them does not pass. -/
theorem allM_ok {Item : Type} {test : Item → Except Panic Bool} {holds : Item → Bool}
    (items : List Item) (ok : ∀ item ∈ items, test item = .ok (holds item)) :
    items.allM test = .ok (items.all holds) := by
  induction items with
  | nil => rfl
  | cons item rest ih =>
    have others := ih fun other member => ok other (by simp [member])
    rw [List.allM_cons, ok item (by simp), others, List.all_cons]
    cases holds item <;> rfl

/-- A test that never fails, made for the items of a list until one of them passes. -/
theorem anyM_ok {Item : Type} {test : Item → Except Panic Bool} {holds : Item → Bool}
    (items : List Item) (ok : ∀ item ∈ items, test item = .ok (holds item)) :
    items.anyM test = .ok (items.any holds) := by
  induction items with
  | nil => rfl
  | cons item rest ih =>
    have others := ih fun other member => ok other (by simp [member])
    rw [List.anyM_cons, ok item (by simp), others, List.any_cons]
    cases holds item <;> rfl

/-- The row at a height that may lie outside the board, where it counts as empty. -/
def Board.rowAt (board : Board) (y : Nat) : Row :=
  if inside : y < boardHeight then board ⟨y, inside⟩ else emptyRow

/-- The cell at a column that may lie outside the board, where it counts as empty. -/
def Row.cellAt (row : Row) (x : Nat) : UInt8 :=
  if inside : x < boardWidth then row ⟨x, inside⟩ else 0

/-- The row at an index in bounds. -/
@[simp] theorem Board.rowAt_fin (board : Board) (y : Fin boardHeight) :
    board.rowAt y.val = board y := by
  simp [rowAt]

/-- The cell at an index in bounds. -/
@[simp] theorem Row.cellAt_fin (row : Row) (x : Fin boardWidth) : Row.cellAt row x.val = row x := by
  simp [cellAt]

/-- Reading a row in bounds does not panic. -/
theorem Board.row_ok (board : Board) {y : Nat} (inside : y < boardHeight) :
    board.row y = .ok (board.rowAt y) := by
  rw [row, rowAt, dif_pos inside, dif_pos inside]

/-- Reading a cell of a row in bounds does not panic. -/
theorem Row.cell_ok (row : Row) {x : Nat} (inside : x < boardWidth) :
    Row.cell row x = .ok (Row.cellAt row x) := by
  rw [cell, cellAt, dif_pos inside, dif_pos inside]

/-- Reading a cell of the board in bounds does not panic. -/
theorem Board.cell_ok (board : Board) {y x : Nat} (tall : y < boardHeight) (wide : x < boardWidth) :
    board.cell y x = .ok (Row.cellAt (board.rowAt y) x) := by
  rw [cell, board.row_ok tall]
  exact Row.cell_ok _ wide

/-- An assignment to a row of the board puts the row there and leaves the others. -/
theorem Board.setRow_ok (board : Board) {y : Nat} (inside : y < boardHeight) (row : Row) :
    ∃ after, board.setRow y row = .ok after ∧
      ∀ other, after.rowAt other = if other = y then row else board.rowAt other := by
  refine ⟨_, dif_pos inside, fun other => ?_⟩
  by_cases here : other = y
  · subst here
    rw [rowAt, dif_pos inside, Function.update_self, if_pos rfl]
  · rw [if_neg here, rowAt, rowAt]
    split_ifs
    · exact Function.update_of_ne (fun same => here (Fin.mk.inj same)) _ _
    · rfl

/-- An assignment to a cell of the board puts the byte there and leaves the other cells. -/
theorem Board.setCell_ok (board : Board) (y : Fin boardHeight) (x : Fin boardWidth)
    (value : UInt8) : board.setCell y.val x.val value =
      .ok fun row column => if row = y ∧ column = x then value else board row column := by
  rw [setCell, board.row_ok y.isLt]
  simp only [Bind.bind, Except.bind, Row.setCell, dif_pos x.isLt, setRow, dif_pos y.isLt,
    rowAt_fin, Fin.eta]
  congr 1
  funext row column
  rw [Function.update_apply]
  split_ifs with sameRow both both
  · obtain ⟨rfl, rfl⟩ := both
    rw [Function.update_self]
  · subst sameRow
    rw [Function.update_of_ne (fun same => both ⟨rfl, same⟩)]
  · exact absurd both.1 sameRow
  · rfl

end AtOS.Tetris
