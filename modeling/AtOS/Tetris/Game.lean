import Mathlib.Logic.Function.Basic

/-! The game of the user program `tetris`: its board, its pieces and what a key or a tick does. -/

namespace AtOS.Tetris

/-- `BOARD_WIDTH`. -/
abbrev boardWidth : Nat := 10

/-- `BOARD_HEIGHT`. -/
abbrev boardHeight : Nat := 20

/-- A row of the board, one byte a cell. -/
abbrev Row := Fin boardWidth → UInt8

/-- The board, its top row first. -/
abbrev Board := Fin boardHeight → Row

/-- A piece in its box, its top row first. -/
abbrev Piece := Fin 4 → Fin 4 → UInt8

/-- What ends the program: an index out of bounds, or an addition that overflows. -/
inductive Panic where
  | indexOutOfBounds
  | addOverflow
  deriving DecidableEq

/-- `[0; BOARD_WIDTH]`. -/
def emptyRow : Row := fun _ => 0

/-- Indexing into the rows of a board. -/
def Board.row (board : Board) (y : Nat) : Except Panic Row :=
  if inside : y < boardHeight then .ok (board ⟨y, inside⟩) else .error .indexOutOfBounds

/-- An assignment to a row of a board. -/
def Board.setRow (board : Board) (y : Nat) (row : Row) : Except Panic Board :=
  if inside : y < boardHeight then .ok (Function.update board ⟨y, inside⟩ row)
  else .error .indexOutOfBounds

/-- Indexing into the cells of a row. -/
def Row.cell (row : Row) (x : Nat) : Except Panic UInt8 :=
  if inside : x < boardWidth then .ok (row ⟨x, inside⟩) else .error .indexOutOfBounds

/-- An assignment to a cell of a row. -/
def Row.setCell (row : Row) (x : Nat) (value : UInt8) : Except Panic Row :=
  if inside : x < boardWidth then .ok (Function.update row ⟨x, inside⟩ value)
  else .error .indexOutOfBounds

/-- `board[y][x]`. -/
def Board.cell (board : Board) (y x : Nat) : Except Panic UInt8 := do
  let row ← board.row y
  Row.cell row x

/-- `board[y][x] = value`. -/
def Board.setCell (board : Board) (y x : Nat) (value : UInt8) : Except Panic Board := do
  let row ← board.row y
  board.setRow y (← Row.setCell row x value)

/-- `as usize` of an `isize`. -/
def asUsize (value : Int) : Nat := (value % 18446744073709551616).toNat

/-- The shapes as they are written down: I, J, L, O, S, T and Z. -/
def shapeRows : List (List (List UInt8)) := [
  [[0,0,0,0],
   [1,1,1,1],
   [0,0,0,0],
   [0,0,0,0]],
  [[1,0,0,0],
   [1,1,1,0],
   [0,0,0,0],
   [0,0,0,0]],
  [[0,0,1,0],
   [1,1,1,0],
   [0,0,0,0],
   [0,0,0,0]],
  [[0,1,1,0],
   [0,1,1,0],
   [0,0,0,0],
   [0,0,0,0]],
  [[0,1,1,0],
   [1,1,0,0],
   [0,0,0,0],
   [0,0,0,0]],
  [[0,1,0,0],
   [1,1,1,0],
   [0,0,0,0],
   [0,0,0,0]],
  [[1,1,0,0],
   [0,1,1,0],
   [0,0,0,0],
   [0,0,0,0]]]

/-- `SHAPES`. -/
def shapes (index : Fin 7) : Piece :=
  fun r c => ((shapeRows.get index).getD r.val []).getD c.val 0

/-- The cells of the box of a piece, in the order of the loops `for r in 0..4 { for c in 0..4`. -/
def box : List (Fin 4 × Fin 4) :=
  (List.finRange 4).flatMap fun r => (List.finRange 4).map fun c => (r, c)

/--
`GameState`.

The pieces come from a seed, whose type and generator are left open.
-/
structure GameState (Seed : Type) where
  board : Board
  currentPiece : Piece
  pieceX : Int
  pieceY : Int
  score : UInt64
  gameOver : Bool
  rngSeed : Seed

/-- The generator of the program, `next_piece_index`: the index and the seed it leaves. -/
def nextPieceIndex (rngSeed : UInt32) : Fin 7 × UInt32 :=
  let rngSeed := rngSeed * 1103515245 + 12345
  (⟨rngSeed.toNat / 65536 % 7, Nat.mod_lt _ (Nat.succ_pos 6)⟩, rngSeed)

variable {Seed : Type}

/-- `check_collision`. -/
def GameState.checkCollision (g : GameState Seed) (nextX nextY : Int) (piece : Piece) :
    Except Panic Bool :=
  box.anyM fun cell =>
    if piece cell.1 cell.2 ≠ 0 then
      let boardX := nextX + cell.2.val
      let boardY := nextY + cell.1.val
      if boardX < 0 ∨ boardX ≥ boardWidth ∨ boardY ≥ boardHeight then
        .ok true
      else if boardY ≥ 0 then do
        let value ← g.board.cell (asUsize boardY) (asUsize boardX)
        return value != 0
      else
        .ok false
    else
      .ok false

/-- `spawn_piece`. -/
def GameState.spawnPiece (draw : Seed → Fin 7 × Seed) (g : GameState Seed) :
    Except Panic (GameState Seed) := do
  let g := { g with
    rngSeed := (draw g.rngSeed).2
    currentPiece := shapes (draw g.rngSeed).1
    pieceX := boardWidth / 2 - 2
    pieceY := 0 }
  if ← g.checkCollision g.pieceX g.pieceY g.currentPiece then
    return { g with gameOver := true }
  else
    return g

/-- `GameState::new`. -/
def GameState.new (draw : Seed → Fin 7 × Seed) (seed : Seed) : Except Panic (GameState Seed) :=
  GameState.spawnPiece draw {
    board := fun _ => emptyRow
    currentPiece := fun _ _ => 0
    pieceX := 0
    pieceY := 0
    score := 0
    gameOver := false
    rngSeed := seed }

/-- The piece turned by a quarter, as the loops of `rotate_piece` write it. -/
def rotated (piece : Piece) : Piece :=
  box.foldl (fun turned cell =>
    Function.update turned cell.2
      (Function.update (turned cell.2) cell.1.rev (piece cell.1 cell.2))) fun _ _ => 0

/-- `rotate_piece`. -/
def GameState.rotatePiece (g : GameState Seed) : Except Panic (GameState Seed) := do
  let turned := rotated g.currentPiece
  if ← g.checkCollision g.pieceX g.pieceY turned then
    return g
  else
    return { g with currentPiece := turned }

/-- `move_horizontal`. -/
def GameState.moveHorizontal (g : GameState Seed) (dir : Int) : Except Panic (GameState Seed) := do
  if ← g.checkCollision (g.pieceX + dir) g.pieceY g.currentPiece then
    return g
  else
    return { g with pieceX := g.pieceX + dir }

/-- `lock_piece`. -/
def GameState.lockPiece (g : GameState Seed) : Except Panic (GameState Seed) := do
  let board ← box.foldlM (fun board cell =>
    if g.currentPiece cell.1 cell.2 ≠ 0 then
      let boardY := g.pieceY + cell.1.val
      let boardX := g.pieceX + cell.2.val
      if boardY ≥ 0 ∧ boardY < boardHeight then
        if boardX ≥ 0 ∧ boardX < boardWidth then
          Board.setCell board (asUsize boardY) (asUsize boardX) 1
        else
          .ok board
      else
        .ok board
    else
      .ok board) g.board
  return { g with board }

/-- The loop over the cells of a row in `clear_lines`, with its `break`. -/
def Board.isFull (board : Board) (r : Nat) : Except Panic Bool :=
  (List.range boardWidth).allM fun c => do
    let value ← board.cell r c
    return value != 0

/-- The loop of `clear_lines` that moves the rows above a full one down, and clears the top row. -/
def Board.moveDown (board : Board) (r : Nat) : Except Panic Board := do
  let board ← (List.range' 1 r).reverse.foldlM (fun board source => do
    Board.setRow board source (← Board.row board (source - 1))) board
  board.setRow 0 emptyRow

/-- One pass of the outer loop of `clear_lines`, with the count of the lines cleared. -/
def clearLine (state : Board × Nat) (r : Nat) : Except Panic (Board × Nat) := do
  if ← Board.isFull state.1 r then
    return (← Board.moveDown state.1 r, state.2 + 1)
  else
    return state

/-- The addition to the score, with a panic on overflow. -/
def addScore (score : UInt64) (points : Nat) : Except Panic UInt64 :=
  if score.toNat + points < UInt64.size then .ok (score + UInt64.ofNat points)
  else .error .addOverflow

/-- `clear_lines`. -/
def GameState.clearLines (g : GameState Seed) : Except Panic (GameState Seed) := do
  let swept ← (List.range boardHeight).reverse.foldlM clearLine (g.board, 0)
  let linesCleared := swept.2
  let g := { g with board := swept.1 }
  if linesCleared > 0 then
    return { g with score := ← addScore g.score (linesCleared * 100) }
  else
    return g

/-- `tick`. -/
def GameState.tick (draw : Seed → Fin 7 × Seed) (g : GameState Seed) :
    Except Panic (GameState Seed) := do
  if g.gameOver then
    return g
  if ← g.checkCollision g.pieceX (g.pieceY + 1) g.currentPiece then
    let g ← g.lockPiece
    let g ← g.clearLines
    g.spawnPiece draw
  else
    return { g with pieceY := g.pieceY + 1 }

end AtOS.Tetris
