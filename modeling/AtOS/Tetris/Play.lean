import AtOS.Tetris.Placement

/-! Games of any length: the piece fits where it is, and no cell is lost or made. -/

namespace AtOS.Tetris

variable {Seed : Type}

/-- What happens to a game: a move by a direction, a turn, or a tick. -/
inductive Command where
  | move (dir : Int)
  | rotate
  | tick

/-- One command. -/
def GameState.run (draw : Seed → Fin 7 × Seed) (g : GameState Seed) :
    Command → Except Panic (GameState Seed)
  | .move dir => g.moveHorizontal dir
  | .rotate => g.rotatePiece
  | .tick => g.tick draw

/-- Whether the command locks the current piece: a tick does that when the piece cannot go down. -/
def GameState.locks (g : GameState Seed) : Command → Bool
  | .tick => !g.gameOver &&
    (g.checkCollision g.pieceX (g.pieceY + 1) g.currentPiece).toOption == some true
  | _ => false

/-- The games that a sequence of commands leads to, with the number of pieces locked so far. -/
inductive Played (draw : Seed → Fin 7 × Seed) (seed : Seed) : GameState Seed → Nat → Prop where
  | start {g : GameState Seed} (started : GameState.new draw seed = .ok g) : Played draw seed g 0
  | step {g next : GameState Seed} {locked : Nat} (command : Command) (played : Played draw seed g locked)
      (ran : g.run draw command = .ok next) :
      Played draw seed next (if g.locks command then locked + 1 else locked)

/-- What holds of a game in every state, with the number of pieces locked so far. -/
structure GameState.Sound (g : GameState Seed) (locked : Nat) : Prop where
  four : Piece.size g.currentPiece = 4
  onScreen : 0 ≤ g.pieceY
  placed : g.gameOver = false → g.Placed
  conserved : g.board.occupied + g.score.toNat / 10 = 4 * locked
  hundreds : 100 ∣ g.score.toNat

/-- A collision test comes out one way or the other. -/
theorem GameState.checkCollision_cases (g : GameState Seed) (x y : Int) (piece : Piece) :
    g.checkCollision x y piece = .ok true ∨ g.checkCollision x y piece = .ok false := by
  rw [checkCollision_ok]
  cases box.any _ <;> simp

/-- A new piece comes into a game, which ends if the piece collides. -/
theorem GameState.spawns (draw : Seed → Fin 7 × Seed) {g : GameState Seed} {locked : Nat}
    (conserved : g.board.occupied + g.score.toNat / 10 = 4 * locked)
    (hundreds : 100 ∣ g.score.toNat) :
    ∃ next, g.spawnPiece draw = .ok next ∧ next.Sound locked := by
  -- The fresh piece is named once, so the four fields it changes are not unfolded again.
  obtain ⟨fresh, made⟩ : ∃ fresh : GameState Seed, fresh = { g with
      rngSeed := (draw g.rngSeed).2
      currentPiece := shapes (draw g.rngSeed).1
      pieceX := boardWidth / 2 - 2
      pieceY := 0 } := ⟨_, rfl⟩
  have four : Piece.size fresh.currentPiece = 4 := by rw [made]; exact size_shapes _
  have onScreen : 0 ≤ fresh.pieceY := by rw [made]
  have board : fresh.board = g.board := by rw [made]
  have score : fresh.score = g.score := by rw [made]
  rw [← board, ← score] at conserved
  rw [← score] at hundreds
  rw [GameState.spawnPiece, ← made]
  -- A piece that collides where it spawns ends the game.
  rcases fresh.checkCollision_cases fresh.pieceX fresh.pieceY fresh.currentPiece with
    collides | clear
  · rw [collides]
    exact ⟨_, rfl, four, onScreen, fun goesOn => by simp at goesOn, conserved, hundreds⟩
  · have fits := GameState.fits_of_clear onScreen clear
    rw [clear]
    exact ⟨_, rfl, four, onScreen, fun _ => fits, conserved, hundreds⟩

/-- An empty board has no taken cell. -/
theorem occupied_empty : Board.occupied (fun _ => emptyRow) = 0 := by
  simp [Board.occupied, emptyRow]

/-- A new game is sound. -/
theorem GameState.new_sound (draw : Seed → Fin 7 × Seed) (seed : Seed) :
    ∃ g, GameState.new draw seed = .ok g ∧ g.Sound 0 := by
  apply GameState.spawns draw
  · simp [occupied_empty]
  · exact Nat.dvd_zero 100

/-- A move keeps a game sound. -/
theorem GameState.Sound.moveHorizontal {g : GameState Seed} {locked : Nat} (sound : g.Sound locked)
    (dir : Int) : ∃ next, g.moveHorizontal dir = .ok next ∧ next.Sound locked := by
  rw [GameState.moveHorizontal]
  rcases g.checkCollision_cases (g.pieceX + dir) g.pieceY g.currentPiece with collides | clear
  · rw [collides]
    exact ⟨_, rfl, sound⟩
  · have fits := GameState.fits_of_clear sound.onScreen clear
    rw [clear]
    exact ⟨_, rfl, sound.four, sound.onScreen, fun _ => fits, sound.conserved, sound.hundreds⟩

/-- A turn keeps a game sound. -/
theorem GameState.Sound.rotatePiece {g : GameState Seed} {locked : Nat} (sound : g.Sound locked) :
    ∃ next, g.rotatePiece = .ok next ∧ next.Sound locked := by
  rw [GameState.rotatePiece]
  rcases g.checkCollision_cases g.pieceX g.pieceY (rotated g.currentPiece) with collides | clear
  · rw [collides]
    exact ⟨_, rfl, sound⟩
  · have fits := GameState.fits_of_clear sound.onScreen clear
    have four : Piece.size (rotated g.currentPiece) = 4 := by rw [size_rotated, sound.four]
    rw [clear]
    exact ⟨_, rfl, four, sound.onScreen, fun _ => fits, sound.conserved, sound.hundreds⟩

/-- Locking a placed piece takes as many empty cells as the piece has. -/
theorem GameState.Placed.locked {g : GameState Seed} (placed : g.Placed) :
    ∃ next, g.lockPiece = .ok next ∧ next.score = g.score ∧
      next.board.occupied = g.board.occupied + Piece.size g.currentPiece := by
  refine ⟨_, g.lockPiece_ok, rfl, ?_⟩
  rw [← placed.card_cells]
  exact Board.occupied_set fun place covered => placed.empty covered

/-- A tick keeps a game sound, with one more locked piece if it locks one. -/
theorem GameState.Sound.tick (draw : Seed → Fin 7 × Seed) {g : GameState Seed} {locked : Nat}
    (sound : g.Sound locked) : g.tick draw = .error .addOverflow ∨
      ∃ next, g.tick draw = .ok next ∧
        next.Sound (if g.locks .tick then locked + 1 else locked) := by
  rw [GameState.tick, GameState.locks]
  -- A game that is over does not change.
  by_cases ended : g.gameOver = true
  · rw [if_pos ended]
    exact .inr ⟨_, rfl, by simpa [ended] using sound⟩
  have placed := sound.placed (by simpa using ended)
  rw [if_neg ended]
  rcases g.checkCollision_cases g.pieceX (g.pieceY + 1) g.currentPiece with collides | clear
  · -- The piece is locked, full rows go, and the next piece comes.
    obtain ⟨full, lock, score, taken⟩ := placed.locked
    have locks : (!g.gameOver && (g.checkCollision g.pieceX (g.pieceY + 1)
        g.currentPiece).toOption == some true) = true := by simp [ended, collides, Except.toOption]
    rw [collides] at locks ⊢
    rw [if_pos locks]
    simp only [Bind.bind, Except.bind, if_true, lock]
    rcases full.clearLines_conserves with overflow | ⟨after, lines, cleared, points, cells⟩
    · rw [overflow]
      exact .inl rfl
    · have hundreds := sound.hundreds
      have conserved := sound.conserved
      rw [score] at points
      rw [sound.four] at taken
      have balance : after.board.occupied + after.score.toNat / 10 = 4 * (locked + 1) := by omega
      rw [cleared]
      exact .inr (GameState.spawns draw balance (by omega))
  · -- The piece falls by one row, and no piece is locked.
    have high := sound.onScreen
    have fits := GameState.fits_of_clear (by omega) clear
    have falls : ¬ (!g.gameOver && (Except.ok false : Except Panic Bool).toOption == some true) = true := by
      simp [Except.toOption]
    rw [clear, if_neg falls]
    exact .inr ⟨_, rfl, sound.four, by simp only; omega, fun _ => fits, sound.conserved,
      sound.hundreds⟩

/-- Every command keeps a game sound, and fails only on the score. -/
theorem GameState.Sound.run (draw : Seed → Fin 7 × Seed) {g : GameState Seed} {locked : Nat}
    (sound : g.Sound locked) (command : Command) : g.run draw command = .error .addOverflow ∨
      ∃ next, g.run draw command = .ok next ∧
        next.Sound (if g.locks command then locked + 1 else locked) := by
  cases command with
  | move dir => exact .inr (sound.moveHorizontal dir)
  | rotate => exact .inr sound.rotatePiece
  | tick => exact sound.tick draw

/-- Every game that is played is sound. -/
theorem Played.sound {draw : Seed → Fin 7 × Seed} {seed : Seed} {g : GameState Seed} {locked : Nat}
    (played : Played draw seed g locked) : g.Sound locked := by
  induction played with
  | start started =>
    obtain ⟨first, same, sound⟩ := GameState.new_sound draw seed
    rw [started, Except.ok.injEq] at same
    rw [same]
    exact sound
  | step command _ ran ih =>
    rcases ih.run draw command with overflow | ⟨next, same, sound⟩
    · rw [ran] at overflow
      cases overflow
    · rw [ran, Except.ok.injEq] at same
      rw [same]
      exact sound

/-- What a game never breaks, with the number of pieces locked so far. -/
structure GameState.Invariant (draw : Seed → Fin 7 × Seed) (g : GameState Seed) (locked : Nat) :
    Prop where
  /-- While the game goes on, the four cells of the piece are inside the board, on empty cells. -/
  inside : g.gameOver = false → Piece.size g.currentPiece = 4 ∧
    ∀ r c, g.currentPiece r c ≠ 0 → ∃ (row : Fin boardHeight) (column : Fin boardWidth),
      (row.val : Int) = g.pieceY + r.val ∧ (column.val : Int) = g.pieceX + c.val ∧
        g.board row column = 0
  /-- No access to the board is out of bounds, whatever command comes next. -/
  inBounds : ∀ command, g.run draw command ≠ .error .indexOutOfBounds
  /-- Locking the piece writes four cells, which were empty. -/
  locking : g.gameOver = false → ∃ places : Finset (Fin boardHeight × Fin boardWidth),
    places.card = 4 ∧ (∀ place ∈ places, g.board place.1 place.2 = 0) ∧
    g.lockPiece = .ok { g with board := fun y x => if (y, x) ∈ places then 1 else g.board y x }
  /-- The taken cells are four for each locked piece, less a tenth of the score. -/
  conserved : g.board.occupied + g.score.toNat / 10 = 4 * locked ∧ 10 ∣ g.score.toNat

/--
A game starts without a panic, and keeps its invariant under all commands.

The generator is arbitrary, so the pieces of a game can come in any order.
-/
theorem Played.keepsInvariant (draw : Seed → Fin 7 × Seed) (seed : Seed) :
    (∃ first, GameState.new draw seed = .ok first) ∧
    ∀ (g : GameState Seed) (locked : Nat), Played draw seed g locked → g.Invariant draw locked := by
  -- Every played game is sound, and the invariant is read off that.
  constructor
  · obtain ⟨first, started, -⟩ := GameState.new_sound draw seed
    exact ⟨first, started⟩
  intro g locked played
  have sound := played.sound
  constructor
  case inside => exact fun goesOn => ⟨sound.four, sound.placed goesOn⟩
  case inBounds =>
    intro command
    rcases sound.run draw command with overflow | ⟨next, ran, -⟩
    · rw [overflow]
      simp
    · rw [ran]
      simp
  case locking =>
    intro goesOn
    have placed := sound.placed goesOn
    exact ⟨g.cells, by rw [placed.card_cells, sound.four], fun place => placed.empty, g.lockPiece_ok⟩
  case conserved => exact ⟨sound.conserved, Nat.dvd_trans (by decide) sound.hundreds⟩

/-- A list of commands, with the count of the pieces that they lock. -/
def GameState.runAll (draw : Seed → Fin 7 × Seed) :
    List Command → GameState Seed × Nat → Except Panic (GameState Seed × Nat)
  | [], state => .ok state
  | command :: rest, (g, locked) => do
    let next ← g.run draw command
    GameState.runAll draw rest (next, if g.locks command then locked + 1 else locked)

/-- A game stays one that is played under a list of commands. -/
theorem Played.runAll {draw : Seed → Fin 7 × Seed} {seed : Seed} {last : GameState Seed × Nat} :
    ∀ (commands : List Command) {g : GameState Seed} {locked : Nat}, Played draw seed g locked →
      GameState.runAll draw commands (g, locked) = .ok last → Played draw seed last.1 last.2 := by
  -- The runs are those of `Played`, one command at a time.
  intro commands
  induction commands with
  | nil =>
    intro g locked played done
    cases done
    exact played
  | cons command rest ih =>
    intro g locked played done
    unfold GameState.runAll at done
    cases ran : g.run draw command with
    | error panic =>
      rw [ran] at done
      cases done
    | ok next =>
      rw [ran] at done
      exact ih (played.step command ran) done

/-- The pieces of the program itself: a turn, a move, and ticks until the first piece is locked. -/
theorem invariant_nextPieceIndex : ∃ g, Played nextPieceIndex 0x5EED g 1 ∧
    g.board.occupied = 4 ∧ g.Invariant nextPieceIndex 1 := by
  have isOk : ∀ {Value : Type} {result : Except Panic Value} {value : Value},
      result.toOption = some value → result = .ok value := by
    intro Value result value same
    cases result with
    | error panic => cases same
    | ok value => exact congrArg Except.ok (Option.some.inj same)
  let commands : List Command := .rotate :: .move (-1) :: List.replicate 18 .tick
  have facts : ((GameState.new nextPieceIndex (0x5EED : UInt32)).toOption.bind fun first =>
      (GameState.runAll nextPieceIndex commands (first, 0)).toOption).map
        (fun last => (last.2, last.1.board.occupied)) = some (1, 4) := by decide
  obtain ⟨⟨g, locked⟩, ran, counts⟩ := Option.map_eq_some_iff.mp facts
  obtain ⟨first, started, ran⟩ := Option.bind_eq_some_iff.mp ran
  obtain ⟨rfl, occupied⟩ : locked = 1 ∧ g.board.occupied = 4 := by simpa using counts
  have played := (Played.start (isOk started)).runAll commands (isOk ran)
  exact ⟨g, played, occupied, (Played.keepsInvariant nextPieceIndex 0x5EED).2 g 1 played⟩

end AtOS.Tetris
