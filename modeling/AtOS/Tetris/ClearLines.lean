import AtOS.Library.Sweep
import AtOS.Tetris.Cells
import Mathlib.Data.List.OfFn

/-! `clear_lines` is one pass over the rows from the bottom, which misses the row that moves up. -/

namespace AtOS.Tetris

/-- Every cell of the row is taken. -/
def Row.full (row : Row) : Bool := decide (∀ x, row x ≠ 0)

/-- The row that comes in at the top is not full. -/
@[simp] theorem Row.full_emptyRow : Row.full emptyRow = false := by
  rw [Row.full, decide_eq_false_iff_not]
  exact fun taken => taken ⟨0, Nat.succ_pos 9⟩ rfl

/-- The test of a row finds out whether it is full. -/
theorem Board.isFull_ok (board : Board) {r : Nat} (inside : r < boardHeight) :
    board.isFull r = .ok (Row.full (board.rowAt r)) := by
  have each : ∀ c ∈ List.range boardWidth,
      (do let value ← board.cell r c; return value != 0 : Except Panic Bool) =
        .ok (Row.cellAt (board.rowAt r) c != 0) := by
    intro c member
    rw [board.cell_ok inside (List.mem_range.mp member)]
    rfl
  rw [isFull, allM_ok _ each]
  congr 1
  rw [Bool.eq_iff_iff, Row.full, decide_eq_true_iff, List.all_eq_true]
  constructor
  · intro all x
    simpa using all x.val (List.mem_range.mpr x.isLt)
  · intro taken c member
    have narrow : c < boardWidth := List.mem_range.mp member
    simpa [Row.cellAt, narrow] using taken ⟨c, narrow⟩

/-- The inner loop moves every row above the full one down by one. -/
theorem Board.shift_ok (r : Nat) (board : Board) (inside : r < boardHeight) :
    ∃ after, (List.range' 1 r).reverse.foldlM (fun board source => do
        Board.setRow board source (← Board.row board (source - 1))) board = .ok after ∧
      ∀ y, after.rowAt y = if 1 ≤ y ∧ y ≤ r then board.rowAt (y - 1) else board.rowAt y := by
  -- The loop starts at the full row, so each pass reads a row that is still the old one.
  induction r generalizing board with
  | zero =>
    refine ⟨board, rfl, fun y => ?_⟩
    rw [if_neg (by omega)]
  | succ r ih =>
    -- The pass copies the row above, and the rest of the loop runs on the board it leaves.
    obtain ⟨moved, set, rows⟩ := board.setRow_ok inside (board.rowAt r)
    obtain ⟨after, shifted, later⟩ := ih moved (by omega)
    refine ⟨after, ?_, fun y => ?_⟩
    · have first : 1 + r = r + 1 := Nat.add_comm 1 r
      rw [List.range'_1_concat, List.reverse_append, List.reverse_singleton, List.singleton_append,
        List.foldlM_cons, first, Nat.add_sub_cancel, board.row_ok (Nat.lt_of_succ_lt inside)]
      simp only [Bind.bind, Except.bind, set]
      exact shifted
    · -- Row `r + 1` is written by this pass only. The others are the business of the later ones.
      by_cases first : y = r + 1
      · subst first
        rw [later, if_neg (by omega), rows, if_pos rfl, if_pos (by omega), Nat.add_sub_cancel]
      · rw [later]
        by_cases between : 1 ≤ y ∧ y ≤ r
        · rw [if_pos between, rows, if_neg (by omega), if_pos (by omega)]
        · rw [if_neg between, rows, if_neg first, if_neg (by omega)]

/-- A full row goes: the rows above it move down by one, and the top row becomes empty. -/
theorem Board.moveDown_ok (board : Board) {r : Nat} (inside : r < boardHeight) :
    ∃ after, board.moveDown r = .ok after ∧ after.rowAt 0 = emptyRow ∧
      (∀ y, y + 1 ≤ r → after.rowAt (y + 1) = board.rowAt y) ∧
      ∀ y, r < y → after.rowAt y = board.rowAt y := by
  obtain ⟨shifted, loop, rows⟩ := board.shift_ok r inside
  obtain ⟨after, cleared, top⟩ := shifted.setRow_ok (Nat.succ_pos 19) emptyRow
  refine ⟨after, ?_, by rw [top, if_pos rfl], fun y within => ?_, fun y below => ?_⟩
  · rw [moveDown, loop]
    exact cleared
  · rw [top, if_neg (by omega), rows, if_pos (by omega), Nat.add_sub_cancel]
  · rw [top, if_neg (by omega), rows, if_neg (by omega)]

/-- The rows above a height, the lowest of them first. -/
def Board.above (board : Board) (k : Nat) : List Row :=
  (List.range k).reverse.map board.rowAt

/-- There is no row above the top one. -/
@[simp] theorem Board.above_zero (board : Board) : board.above 0 = [] := rfl

/-- The rows above the next row, the lowest first. -/
theorem Board.above_succ (board : Board) (k : Nat) :
    board.above (k + 1) = board.rowAt k :: board.above k := by
  simp [above, List.range_succ]

/-- The rows above a height, of a board with the full row below them taken out. -/
theorem Board.above_moved {board after : Board} {r : Nat} (top : after.rowAt 0 = emptyRow)
    (moved : ∀ y, y + 1 ≤ r → after.rowAt (y + 1) = board.rowAt y) (k : Nat) (within : k ≤ r) :
    after.above (k + 1) = board.above k ++ [emptyRow] := by
  induction k with
  | zero => simp [above_succ, top]
  | succ k ih => rw [above_succ, ih (by omega), moved k within, above_succ, List.cons_append]

/-- The outer loop is the pass over the rows from the bottom, and counts what it deletes. -/
theorem sweep_ok (k : Nat) (board : Board) (count : Nat) (inside : k ≤ boardHeight) :
    ∃ after, (List.range k).reverse.foldlM clearLine (board, count) =
        .ok (after, count + Sweep.removed Row.full emptyRow k (board.above k)) ∧
      after.above k = Sweep.pass Row.full emptyRow k (board.above k) ∧
      ∀ y, k ≤ y → after.rowAt y = board.rowAt y := by
  -- A pass leaves the rows below it alone, so the rest of the loop works on the rows above only.
  induction k generalizing board count with
  | zero => exact ⟨board, rfl, rfl, fun _ _ => rfl⟩
  | succ k ih =>
    have order : (List.range (k + 1)).reverse = k :: (List.range k).reverse := by
      simp [List.range_succ]
    -- The row at the index decides the pass.
    rw [order, List.foldlM_cons, clearLine, board.isFull_ok inside]
    cases filled : Row.full (board.rowAt k) with
    -- A row that is not full stays where it is.
    | false =>
      obtain ⟨after, loop, rows, kept⟩ := ih board count (by omega)
      refine ⟨after, ?_, ?_, fun y below => kept y (by omega)⟩
      · simpa [Bind.bind, Except.bind, pure, Except.pure, Board.above_succ, Sweep.removed, filled]
          using loop
      · rw [Board.above_succ, Board.above_succ, rows, kept k (Nat.le_refl k)]
        simp [Sweep.pass, filled]
    | true =>
      -- A full row is removed, and the rows above it come down by one.
      obtain ⟨moved, down, top, shifted, below⟩ := board.moveDown_ok inside
      obtain ⟨after, loop, rows, kept⟩ := ih moved (count + 1) (by omega)
      have up : moved.rowAt k :: moved.above k = board.above k ++ [emptyRow] := by
        rw [← Board.above_succ]
        exact Board.above_moved top shifted k (Nat.le_refl k)
      have goesOn := Sweep.pass_full filled up k
      refine ⟨after, ?_, ?_, fun y lower => ?_⟩
      · -- The count goes up by one, before the rest of the loop or after it.
        have total : count + (Sweep.removed Row.full emptyRow k (moved.above k) + 1) =
            count + 1 + Sweep.removed Row.full emptyRow k (moved.above k) := by omega
        rw [Board.above_succ, goesOn.2, total]
        simpa [Bind.bind, Except.bind, pure, Except.pure, down] using loop
      · rw [Board.above_succ, Board.above_succ, rows, kept k (Nat.le_refl k), goesOn.1]
      · rw [kept y (by omega), below y (by omega)]

/-- The rows from the bottom to the top are those of the board in reverse. -/
theorem Board.above_height (board : Board) :
    board.above boardHeight = (List.ofFn board).reverse := by
  have inOrder : (List.range boardHeight).map board.rowAt = List.ofFn board := by
    apply List.ext_getElem
    · rw [List.length_map, List.length_range, List.length_ofFn]
    · intro y low high
      have inside : y < boardHeight := by rwa [List.length_ofFn] at high
      rw [List.getElem_map, List.getElem_range, List.getElem_ofFn, rowAt, dif_pos inside]
  rw [above, List.map_reverse, inOrder]

/-- How many rows `clear_lines` takes out. -/
def Board.cleared (board : Board) : Nat :=
  Sweep.removed Row.full emptyRow boardHeight (List.ofFn board).reverse

variable {Seed : Type}

/-- What `clear_lines` does: one pass over the rows, and a score for every row taken out. -/
theorem GameState.clearLines_eq (g : GameState Seed) :
    ∃ board, List.ofFn board =
        (Sweep.pass Row.full emptyRow boardHeight (List.ofFn g.board).reverse).reverse ∧
      g.clearLines = if 0 < g.board.cleared then
          (addScore g.score (g.board.cleared * 100)).map fun score => { g with board, score }
        else .ok { g with board } := by
  obtain ⟨after, loop, rows, -⟩ := sweep_ok boardHeight g.board 0 (Nat.le_refl boardHeight)
  rw [Nat.zero_add] at loop
  rw [Board.above_height, Board.above_height] at rows
  refine ⟨after, by rw [← rows, List.reverse_reverse], ?_⟩
  rw [Board.above_height, ← Board.cleared] at loop
  rw [clearLines, loop]
  simp only [Bind.bind, Except.bind, pure, Except.pure, gt_iff_lt]
  split_ifs
  · cases addScore g.score (g.board.cleared * 100) <;> rfl
  · rfl

/-- No two rows of the board on top of each other are full. -/
def Board.FullRowsApart (board : Board) : Prop :=
  ∀ upper lower : Fin boardHeight, lower.val = upper.val + 1 →
    ¬ (Row.full (board upper) = true ∧ Row.full (board lower) = true)

/-- No two full rows touch on the board where none do in the list of its rows. -/
theorem Board.fullRowsApart_iff (board : Board) :
    board.FullRowsApart ↔ Sweep.Apart Row.full (List.ofFn board).reverse := by
  rw [Sweep.Apart, List.isChain_reverse, List.isChain_iff_getElem]
  constructor
  · intro apart y inside
    rw [List.getElem_ofFn, List.getElem_ofFn, and_comm]
    exact apart _ _ rfl
  · intro apart upper lower next
    have inside : upper.val + 1 < (List.ofFn board).length := by
      rw [List.length_ofFn, ← next]
      exact lower.isLt
    have pair := apart upper.val inside
    have same : (⟨upper.val + 1, by simpa using inside⟩ : Fin boardHeight) = lower :=
      Fin.ext next.symm
    rw [List.getElem_ofFn, List.getElem_ofFn, and_comm] at pair
    rwa [← same]

/-- How many rows of the board are full. -/
def Board.fullRows (board : Board) : Nat := (List.ofFn board).countP Row.full

/--
`clear_lines` clears all full rows exactly where no two of them touch.

The score is a `usize`, so the points for the rows must also fit.
-/
theorem GameState.clearLines_iff (g : GameState Seed) :
    (∃ after, g.clearLines = .ok after ∧
      List.ofFn after.board = List.replicate g.board.fullRows emptyRow ++
        (List.ofFn g.board).filter (fun row => !Row.full row) ∧
      (∀ y, Row.full (after.board y) = false) ∧
      after.score.toNat = g.score.toNat + 100 * g.board.fullRows) ↔
    g.board.FullRowsApart ∧ g.score.toNat + 100 * g.board.fullRows < UInt64.size := by
  -- The loop's result is known for every board. What is asked is what a touching pair changes.
  obtain ⟨board, rows, result⟩ := g.clearLines_eq
  have height : (List.ofFn g.board).reverse.length ≤ boardHeight := by
    rw [List.length_reverse, List.length_ofFn]
  constructor
  · rintro ⟨after, ran, swept, noFull, score⟩
    -- Whether or not a line was counted, the board is the one the sweep left.
    have same : after.board = board := by
      rw [ran] at result
      split_ifs at result
      · cases added : addScore g.score (g.board.cleared * 100) with
        | error panic => simp [added, Except.map] at result
        | ok total =>
          rw [added, Except.map, Except.ok.injEq] at result
          rw [result]
      · rw [Except.ok.injEq] at result
        rw [result]
    -- The score fits `u64`, as the result does.
    refine ⟨?_, by rw [← score]; exact after.score.toNat_lt⟩
    -- Where two full rows touch, the pass leaves a full one.
    rw [g.board.fullRowsApart_iff]
    by_contra touching
    obtain ⟨row, member, full⟩ :=
      Sweep.exists_full_of_not_apart Row.full_emptyRow boardHeight _ height touching
    rw [← List.mem_reverse, ← rows, ← same, List.mem_ofFn] at member
    obtain ⟨y, rfl⟩ := member
    rw [noFull y] at full
    exact Bool.false_ne_true full
  · -- Where the full rows are apart, the sweep removes all of them.
    rintro ⟨apart, fits⟩
    obtain ⟨passed, counted⟩ := Sweep.pass_apart Row.full_emptyRow boardHeight _ height
      (g.board.fullRowsApart_iff.mp apart)
    have count : g.board.cleared = g.board.fullRows := by
      rw [Board.cleared, counted, List.countP_reverse, Board.fullRows]
    -- The rows from the bottom are those of the list, reversed back.
    have swept : List.ofFn board = List.replicate g.board.fullRows emptyRow ++
        (List.ofFn g.board).filter (fun row => !Row.full row) := by
      rw [rows, passed, List.reverse_append, List.reverse_replicate, List.filter_reverse,
        List.reverse_reverse, List.countP_reverse, Board.fullRows]
    have noFull : ∀ y, Row.full (board y) = false := by
      intro y
      have member : board y ∈ List.ofFn board := List.mem_ofFn.mpr ⟨y, rfl⟩
      rw [swept, List.mem_append, List.mem_replicate, List.mem_filter] at member
      rcases member with empty | other
      · rw [empty.2]
        exact Row.full_emptyRow
      · simpa using other.2
    rw [count] at result
    -- The score is added only when a line was found.
    by_cases found : 0 < g.board.fullRows
    · rw [if_pos found, addScore, if_pos (by omega)] at result
      refine ⟨_, result, swept, noFull, ?_⟩
      have size : UInt64.size = 2 ^ 64 := rfl
      rw [UInt64.toNat_add, UInt64.toNat_ofNat']
      omega
    · rw [if_neg found] at result
      exact ⟨_, result, swept, noFull, by simp; omega⟩

/-- A game whose two lowest rows are full. -/
def twoFullRows : GameState UInt32 where
  board := fun y _ => if y.val < 18 then 0 else 1
  currentPiece := fun _ _ => 0
  pieceX := 0
  pieceY := 0
  score := 0
  gameOver := false
  rngSeed := 0

/-- Of two full rows only the lower one goes: the upper one moves into its place and stays. -/
theorem twoFullRows_counterexample :
    (∃ after, twoFullRows.clearLines = .ok after ∧
      Row.full (after.board ⟨19, Nat.lt_succ_self 19⟩) = true ∧ after.score = 100) ∧
    twoFullRows.board.fullRows = 2 ∧
    ¬ ∃ after, twoFullRows.clearLines = .ok after ∧
      List.ofFn after.board = List.replicate twoFullRows.board.fullRows emptyRow ++
        (List.ofFn twoFullRows.board).filter (fun row => !Row.full row) ∧
      (∀ y, Row.full (after.board y) = false) ∧
      after.score.toNat = twoFullRows.score.toNat + 100 * twoFullRows.board.fullRows := by
  -- The score counts one line, though the board had two full rows.
  have run : ∃ after, twoFullRows.clearLines = .ok after ∧
      Row.full (after.board ⟨19, Nat.lt_succ_self 19⟩) = true ∧ after.score = 100 :=
    ⟨_, rfl, by decide, rfl⟩
  refine ⟨run, by decide, ?_⟩
  rintro ⟨after, ran, -, noFull, -⟩
  -- A full row is left, and the claim says that none is.
  obtain ⟨other, same, full, -⟩ := run
  rw [ran, Except.ok.injEq] at same
  subst same
  rw [noFull] at full
  exact Bool.false_ne_true full

end AtOS.Tetris
