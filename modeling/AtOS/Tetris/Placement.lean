import AtOS.Tetris.ClearLines
import Mathlib.Algebra.BigOperators.Fin
import Mathlib.Data.Fintype.Prod
import Mathlib.Tactic.FinCases

/-! Where a piece fits: collisions, the cells a piece is locked into, and the count of taken cells. -/

namespace AtOS.Tetris

variable {Seed : Type}

/-- Every cell of the piece is one of the box. -/
theorem mem_box (cell : Fin 4 × Fin 4) : cell ∈ box := by
  simp [box]

/-- A coordinate inside the board keeps its value as an index. -/
theorem asUsize_eq {value : Int} (positive : 0 ≤ value) (small : value < 20) :
    asUsize value = value.toNat := by
  rw [asUsize, Int.emod_eq_of_lt positive (by omega)]

/-- A place beside or below the board, or one whose cell is taken. -/
def Board.blocked (board : Board) (x y : Int) : Bool :=
  if x < 0 ∨ x ≥ boardWidth ∨ y ≥ boardHeight then true
  else decide (y ≥ 0) && Row.cellAt (board.rowAt y.toNat) x.toNat != 0

/-- The collision test indexes inside the board only, in every state. -/
theorem GameState.checkCollision_ok (g : GameState Seed) (x y : Int) (piece : Piece) :
    g.checkCollision x y piece = .ok (box.any fun cell =>
      piece cell.1 cell.2 != 0 && g.board.blocked (x + cell.2.val) (y + cell.1.val)) := by
  have height : boardHeight = 20 := rfl
  have width : boardWidth = 10 := rfl
  -- Each cell of the box is tested on its own, and none of the tests panics.
  rw [checkCollision]
  apply anyM_ok
  intro cell _
  by_cases taken : piece cell.1 cell.2 = 0
  · -- An empty cell of the piece collides with nothing.
    simp [taken]
  rw [if_pos taken, Board.blocked]
  simp only [bne_iff_ne.mpr taken, Bool.true_and]
  split_ifs with outside high
  · rfl
  · -- The tests before it keep both indices in bounds.
    rw [asUsize_eq high (by omega), asUsize_eq (by omega) (by omega),
      g.board.cell_ok (by omega) (by omega)]
    simp [high, Bind.bind, Except.bind, pure, Except.pure]
  · simp [high]

/-- Every cell of the piece at this place is inside the board, on an empty cell. -/
def Fits (board : Board) (piece : Piece) (x y : Int) : Prop :=
  ∀ r c, piece r c ≠ 0 → ∃ (row : Fin boardHeight) (column : Fin boardWidth),
    (row.val : Int) = y + r.val ∧ (column.val : Int) = x + c.val ∧ board row column = 0

/-- Without a collision the piece fits. -/
theorem GameState.fits_of_clear {g : GameState Seed} {x y : Int} {piece : Piece} (below : 0 ≤ y)
    (clear : g.checkCollision x y piece = .ok false) : Fits g.board piece x y := by
  intro r c taken
  rw [checkCollision_ok, Except.ok.injEq, List.any_eq_false] at clear
  have free := clear (r, c) (mem_box _)
  simp only [Board.blocked, bne_iff_ne.mpr taken, Bool.true_and] at free
  split_ifs at free with outside
  · exact absurd rfl free
  have high : y + r.val ≥ 0 := by omega
  refine ⟨⟨(y + r.val).toNat, by omega⟩, ⟨(x + c.val).toNat, by omega⟩,
    Int.toNat_of_nonneg high, Int.toNat_of_nonneg (by omega), ?_⟩
  have tall : (y + r.val).toNat < boardHeight := by omega
  have wide : (x + c.val).toNat < boardWidth := by omega
  simpa [high, Board.rowAt, Row.cellAt, tall, wide] using free

/-- How many cells a piece has. -/
def Piece.size (piece : Piece) : Nat :=
  (Finset.univ.filter fun cell : Fin 4 × Fin 4 => piece cell.1 cell.2 ≠ 0).card

/-- Every shape has four cells. -/
theorem size_shapes (index : Fin 7) : Piece.size (shapes index) = 4 := by
  revert index
  decide

/-- A turned piece has in each cell what the piece has a quarter turn before it. -/
theorem rotated_apply (piece : Piece) (r c : Fin 4) : rotated piece r c = piece c.rev r := by
  fin_cases r <;> fin_cases c <;> rfl

/-- A turn keeps the number of cells. -/
theorem size_rotated (piece : Piece) : Piece.size (rotated piece) = Piece.size piece := by
  unfold Piece.size
  apply Finset.card_nbij' (fun cell => (cell.2.rev, cell.1)) (fun cell => (cell.2, cell.1.rev))
  · intro cell member
    simpa [rotated_apply] using member
  · intro cell member
    simpa [rotated_apply] using member
  · intro cell _
    simp
  · intro cell _
    simp

/-- The places of the board that the current piece covers. -/
def GameState.cells (g : GameState Seed) : Finset (Fin boardHeight × Fin boardWidth) :=
  Finset.univ.filter fun place => ∃ cell ∈ box, g.currentPiece cell.1 cell.2 ≠ 0 ∧
    (place.1.val : Int) = g.pieceY + cell.1.val ∧ (place.2.val : Int) = g.pieceX + cell.2.val

/-- A loop of assignments, each of which may do nothing, sets the cells that some item covers. -/
theorem foldlM_cells {Item : Type} (items : List Item) (board : Board)
    {covers : Item → Fin boardHeight → Fin boardWidth → Prop}
    [∀ item y x, Decidable (covers item y x)]
    {body : Board → Item → Except Panic Board}
    (each : ∀ board, ∀ item ∈ items, body board item =
      .ok fun y x => if covers item y x then 1 else board y x) :
    items.foldlM body board =
      .ok fun y x => if ∃ item ∈ items, covers item y x then 1 else board y x := by
  -- The cells are written one after another, and none of them is taken back.
  induction items generalizing board with
  | nil => simp [pure, Except.pure]
  | cons item rest ih =>
    rw [List.foldlM_cons, each board item (by simp)]
    have others := ih (fun y x => if covers item y x then 1 else board y x)
      fun board other member => each board other (by simp [member])
    simp only [Bind.bind, Except.bind]
    rw [others]
    congr 1
    funext y x
    by_cases here : covers item y x
    · simp [here]
    · simp [here]

/-- Locking writes the cells that the piece covers, and indexes inside the board only. -/
theorem GameState.lockPiece_ok (g : GameState Seed) : g.lockPiece =
    .ok { g with board := fun y x => if (y, x) ∈ g.cells then 1 else g.board y x } := by
  have height : boardHeight = 20 := rfl
  have width : boardWidth = 10 := rfl
  -- Each cell of the box writes at most one cell of the board.
  rw [lockPiece, @foldlM_cells _ box g.board (fun cell y x => g.currentPiece cell.1 cell.2 ≠ 0 ∧
    (y.val : Int) = g.pieceY + cell.1.val ∧ (x.val : Int) = g.pieceX + cell.2.val)]
  · simp only [Bind.bind, Except.bind, cells, Finset.mem_filter, Finset.mem_univ, true_and]
    rfl
  · intro board cell _
    by_cases taken : g.currentPiece cell.1 cell.2 = 0
    · -- An empty cell of the piece writes nothing.
      simp [taken]
    rw [if_pos taken]
    dsimp only
    split_ifs with tall wide
    · -- The tests have kept both indices in bounds, so the write does not panic.
      have row := Board.setCell_ok board ⟨(g.pieceY + cell.1.val).toNat, by omega⟩
        ⟨(g.pieceX + cell.2.val).toNat, by omega⟩ 1
      rw [asUsize_eq tall.1 (by omega), asUsize_eq wide.1 (by omega)]
      rw [row]
      congr 1
      funext y x
      congr 1
      simp only [eq_iff_iff, Fin.ext_iff, taken, not_false_eq_true, true_and, ne_eq]
      omega
    · -- A cell outside the board is no cell of it, so writing nothing is right.
      congr 1
      funext y x
      rw [if_neg]
      intro covered
      have := x.isLt
      omega
    · congr 1
      funext y x
      rw [if_neg]
      intro covered
      have := y.isLt
      omega

/-- The current piece is where it fits. -/
def GameState.Placed (g : GameState Seed) : Prop :=
  Fits g.board g.currentPiece g.pieceX g.pieceY

/-- The cells that a placed piece covers are empty. -/
theorem GameState.Placed.empty {g : GameState Seed} (placed : g.Placed)
    {place : Fin boardHeight × Fin boardWidth} (covered : place ∈ g.cells) :
    g.board place.1 place.2 = 0 := by
  rw [GameState.cells, Finset.mem_filter] at covered
  obtain ⟨-, cell, -, taken, tall, wide⟩ := covered
  obtain ⟨row, column, sameRow, sameColumn, free⟩ := placed cell.1 cell.2 taken
  have rows : place.1 = row := Fin.ext (by omega)
  have columns : place.2 = column := Fin.ext (by omega)
  rw [rows, columns, free]

/-- A placed piece covers as many places of the board as it has cells. -/
theorem GameState.Placed.card_cells {g : GameState Seed} (placed : g.Placed) :
    g.cells.card = Piece.size g.currentPiece := by
  -- Every taken cell of the box has a place on the board, by `choose`.
  choose row column sameRow sameColumn free using placed
  symm
  apply Finset.card_bij fun cell member =>
    (row cell.1 cell.2 (Finset.mem_filter.mp member).2,
      column cell.1 cell.2 (Finset.mem_filter.mp member).2)
  · intro cell member
    have taken := (Finset.mem_filter.mp member).2
    rw [GameState.cells, Finset.mem_filter]
    exact ⟨Finset.mem_univ _, cell, mem_box cell, taken, sameRow _ _ taken, sameColumn _ _ taken⟩
  · -- Two cells of the box have different places, as the box only moves as a whole.
    intro one first two second same
    have rows := sameRow _ _ (Finset.mem_filter.mp first).2
    have columns := sameColumn _ _ (Finset.mem_filter.mp first).2
    rw [(Prod.mk.inj same).1, sameRow] at rows
    rw [(Prod.mk.inj same).2, sameColumn] at columns
    exact Prod.ext (Fin.ext (by omega)) (Fin.ext (by omega))
  · -- A covered cell comes from the cell of the box that covers it.
    intro place covered
    rw [GameState.cells, Finset.mem_filter] at covered
    obtain ⟨-, cell, -, taken, tall, wide⟩ := covered
    refine ⟨cell, Finset.mem_filter.mpr ⟨Finset.mem_univ _, taken⟩, ?_⟩
    have rows := sameRow _ _ taken
    have columns := sameColumn _ _ taken
    exact Prod.ext (Fin.ext (by simp only; omega)) (Fin.ext (by simp only; omega))

/-- How many cells of the board are taken. -/
def Board.occupied (board : Board) : Nat :=
  (Finset.univ.filter fun place : Fin boardHeight × Fin boardWidth =>
    board place.1 place.2 ≠ 0).card

/-- Setting cells that are empty adds as many taken cells. -/
theorem Board.occupied_set {board : Board} {places : Finset (Fin boardHeight × Fin boardWidth)}
    (empty : ∀ place ∈ places, board place.1 place.2 = 0) :
    Board.occupied (fun y x => if (y, x) ∈ places then 1 else board y x) =
      board.occupied + places.card := by
  rw [occupied, occupied, ← Finset.card_union_of_disjoint]
  · congr 1
    ext place
    by_cases here : place ∈ places
    · simp [here]
    · simp [here]
  · rw [Finset.disjoint_left]
    intro place taken here
    exact (Finset.mem_filter.mp taken).2 (empty place here)

/-- How many cells of a row are taken. -/
def Row.taken (row : Row) : Nat := (Finset.univ.filter fun x => row x ≠ 0).card

/-- No cell of an empty row is taken. -/
theorem Row.taken_emptyRow : Row.taken emptyRow = 0 := by
  simp [Row.taken, emptyRow]

/-- Every cell of a full row is taken. -/
theorem Row.taken_of_full (row : Row) (full : Row.full row = true) : Row.taken row = boardWidth := by
  rw [Row.full, decide_eq_true_iff] at full
  rw [Row.taken, Finset.filter_true_of_mem fun x _ => full x, Finset.card_univ, Fintype.card_fin]

/-- The taken cells, row by row. -/
theorem Board.occupied_eq (board : Board) :
    board.occupied = ((List.ofFn board).map Row.taken).sum := by
  rw [occupied, Finset.card_filter, Fintype.sum_prod_type, List.map_ofFn, List.sum_ofFn]
  apply Finset.sum_congr rfl
  intro y _
  rw [Function.comp_apply, Row.taken, Finset.card_filter]

/-- Clearing lines takes ten cells for each hundred points, and can only fail on the points. -/
theorem GameState.clearLines_conserves (g : GameState Seed) :
    g.clearLines = .error .addOverflow ∨ ∃ after lines, g.clearLines = .ok after ∧
      after.score.toNat = g.score.toNat + 100 * lines ∧
      after.board.occupied + 10 * lines = g.board.occupied := by
  obtain ⟨board, rows, result⟩ := g.clearLines_eq
  -- The sweep loses ten cells for each full row.
  have conserved : Board.occupied board + 10 * g.board.cleared = g.board.occupied := by
    have weights := Sweep.pass_weight Row.taken_emptyRow Row.taken_of_full boardHeight
      (List.ofFn g.board).reverse
    rw [List.map_reverse, List.sum_reverse] at weights
    rw [Board.occupied_eq, Board.occupied_eq, rows, List.map_reverse, List.sum_reverse]
    exact weights
  by_cases found : 0 < g.board.cleared
  · rw [if_pos found, addScore] at result
    -- The score is the only thing that can overflow.
    by_cases fits : g.score.toNat + g.board.cleared * 100 < UInt64.size
    · rw [if_pos fits] at result
      refine .inr ⟨_, g.board.cleared, result, ?_, conserved⟩
      have size : UInt64.size = 2 ^ 64 := rfl
      rw [UInt64.toNat_add, UInt64.toNat_ofNat']
      omega
    · rw [if_neg fits] at result
      exact .inl result
  · -- Without a full row nothing changes.
    rw [if_neg found] at result
    exact .inr ⟨_, g.board.cleared, result, by simp; omega, conserved⟩

end AtOS.Tetris
