import AtOS.Paging.Pool
import AtOS.Processes.Args

/-! The arguments a program parses are those the kernel pushed. -/

namespace AtOS

open ByteMemory RadixForest

section Image

/-- The arguments lie in an image one below the other, from a top down to a bottom. -/
def Placed (image : Mem) : Nat → List String → List Nat → Nat → Prop
  | top, [], [], bottom => bottom = top
  | top, arg :: args, start :: starts, bottom =>
    start + (asBytes arg).length = top ∧
      (∀ position < (asBytes arg).length, (asBytes arg)[position]? = some (image (start + position))) ∧
      Placed image start args starts bottom
  | _, _, _, _ => False

/-- The arguments stay as long as the bytes between bottom and top do. -/
theorem Placed.congr {image next : Mem} {args : List String} {starts : List Nat} {top bottom : Nat}
    (placed : Placed image top args starts bottom)
    (same : ∀ position, bottom ≤ position → position < top → next position = image position) :
    bottom ≤ top ∧ Placed next top args starts bottom := by
  -- The induction is on the arguments, from the top down.
  induction args generalizing top starts with
  | nil =>
    cases starts with
    | nil => exact ⟨Nat.le_of_eq placed, placed⟩
    | cons start starts => exact placed.elim
  | cons arg args ih =>
    cases starts with
    | nil => exact placed.elim
    | cons start starts =>
      obtain ⟨ends, bytes, below⟩ := placed
      -- The arguments below are out of the range between `start` and `top`, so the hypothesis
      -- covers them.
      obtain ⟨ordered, kept⟩ := ih below fun position above under => same position above (by omega)
      refine ⟨by omega, ends, fun position inside => ?_, kept⟩
      rw [same _ (by omega) (by omega)]
      exact bytes position inside

/-- The strings go down, so what is left of them is at or below the top. -/
theorem Placed.ordered {image : Mem} {args : List String} {starts : List Nat} {top bottom : Nat}
    (placed : Placed image top args starts bottom) : bottom ≤ top :=
  (placed.congr fun _ _ _ => rfl).1

/-- No string starts above the top. -/
theorem Placed.start_le {image : Mem} {args : List String} {starts : List Nat} {top bottom : Nat}
    (placed : Placed image top args starts bottom) : ∀ start ∈ starts, start ≤ top := by
  induction args generalizing top starts with
  | nil =>
    cases starts with
    | nil => simp
    | cons start starts => exact placed.elim
  | cons arg args ih =>
    cases starts with
    | nil => exact placed.elim
    | cons first starts =>
      obtain ⟨ends, -, below⟩ := placed
      intro start member
      rcases List.mem_cons.mp member with rfl | later
      · omega
      · have under := ih below start later
        omega

/-- Each argument has a start. -/
theorem Placed.length {image : Mem} {args : List String} {starts : List Nat} {top bottom : Nat}
    (placed : Placed image top args starts bottom) : starts.length = args.length := by
  induction args generalizing top starts with
  | nil =>
    cases starts with
    | nil => rfl
    | cons start starts => exact placed.elim
  | cons arg args ih =>
    cases starts with
    | nil => exact placed.elim
    | cons start starts => rw [List.length_cons, List.length_cons, ih placed.2.2]

/-- Copying the arguments places them below the start, and changes nothing above it. -/
theorem placeArgs_spec {args : List String} {image after : Mem} {sp bottom : Nat} {starts : List Nat}
    (done : placeArgs args image sp = .ok (after, bottom, starts)) :
    Placed after sp args starts bottom ∧ ∀ position ≥ sp, after position = image position := by
  -- Each argument is stored below all those before it, so these stay.
  induction args generalizing image sp starts with
  | nil =>
    cases done
    exact ⟨rfl, fun _ _ => rfl⟩
  | cons arg args ih =>
    rw [placeArgs] at done
    dsimp only at done
    -- An argument that does not fit is the error.
    split at done
    · cases done
    · rename_i enough
      generalize rest : placeArgs args (store image (sp - (asBytes arg).length) (asBytes arg))
        (sp - (asBytes arg).length) = result at done
      cases result with
      | error error => cases done
      | ok value =>
        obtain ⟨final, low, later⟩ := value
        cases done
        obtain ⟨placed, kept⟩ := ih rest
        -- The string is below those placed before it, and above those placed after it.
        refine ⟨⟨by omega, fun position inside => ?_, placed⟩, fun position above => ?_⟩
        · rw [kept _ (by omega)]
          rw [store_inside _ _ _ inside, List.getElem?_eq_getElem inside]
        · rw [kept position (by omega)]
          exact store_outside _ _ _ (by simp only [block, Set.mem_Ico]; omega)

/-- The offsets are written as words, and nothing outside them changes. -/
theorem placeOffsets_spec {sp : Nat} (starts : List Nat) {i : Nat} {image : Mem}
    (fits : ∀ start ∈ starts, start - sp < 2 ^ 64) :
    (∀ j < starts.length,
      readLE (placeOffsets sp starts i image) (sp + (i + j) * 8) 8 = starts.getD j 0 - sp) ∧
    ∀ position, ¬ (sp + i * 8 ≤ position ∧ position < sp + (i + starts.length) * 8) →
      placeOffsets sp starts i image position = image position := by
  -- The induction is on the offsets still to come; each one is a word of its own.
  induction starts generalizing i image with
  | nil => exact ⟨fun j inside => absurd inside (Nat.not_lt_zero _), fun _ _ => rfl⟩
  | cons start starts ih =>
    obtain ⟨words, others⟩ := @ih (i + 1) (writeLE image (sp + i * 8) 8 (start - sp))
      fun other member => fits other (by simp [member])
    rw [placeOffsets, List.length_cons]
    refine ⟨fun j inside => ?_, fun position outside => ?_⟩
    · -- The first word is written here and the later ones are further up.
      cases j with
      | zero =>
        have kept : Set.EqOn (placeOffsets sp starts (i + 1)
            (writeLE image (sp + i * 8) 8 (start - sp))) (writeLE image (sp + i * 8) 8 (start - sp))
            (block (sp + i * 8) 8) := fun position within => others position (by
          simp only [block, Set.mem_Ico] at within
          omega)
        have width : start - sp < 256 ^ 8 :=
          Nat.lt_of_lt_of_eq (fits start List.mem_cons_self) (by decide)
        rw [Nat.add_zero i, readLE_congr kept, readLE_writeLE, Nat.mod_eq_of_lt width,
          List.getD_cons_zero]
      | succ j =>
        have word := words j (by omega)
        rw [show i + 1 + j = i + (j + 1) by omega] at word
        rw [word, List.getD_cons_succ]
    · rw [others position (by omega)]
      exact writeLE_outside _ _ _ _ (by simp only [block, Set.mem_Ico]; omega)

/-- An argument ends where the one before it starts. -/
theorem Placed.arg {image : Mem} {args : List String} {starts : List Nat} {top bottom i : Nat}
    {arg : String} (placed : Placed image top args starts bottom) (here : args[i]? = some arg) :
    bottom ≤ starts.getD i 0 ∧
      starts.getD i 0 + (asBytes arg).length = (if i = 0 then top else starts.getD (i - 1) 0) ∧
      (if i = 0 then top else starts.getD (i - 1) 0) ≤ top ∧
      ∀ position < (asBytes arg).length,
        (asBytes arg)[position]? = some (image (starts.getD i 0 + position)) := by
  -- The induction is on the arguments, from the top down.
  induction args generalizing top starts i with
  | nil => cases here
  | cons first args ih =>
    cases starts with
    | nil => exact placed.elim
    | cons start starts =>
      -- The first argument ends at the top. The later ones end where the one before them starts.
      obtain ⟨ends, bytes, below⟩ := placed
      have ordered := below.ordered
      cases i with
      | zero =>
        cases here
        exact ⟨ordered, ends, Nat.le_refl _, bytes⟩
      | succ i =>
        obtain ⟨above, meets, under, content⟩ := ih below here
        rw [List.getD_cons_succ, if_neg (Nat.succ_ne_zero i), Nat.add_sub_cancel]
        cases i with
        | zero => exact ⟨above, meets, by rw [List.getD_cons_zero]; omega, content⟩
        | succ i =>
          rw [if_neg (Nat.succ_ne_zero i), Nat.add_sub_cancel] at meets under
          rw [List.getD_cons_succ]
          exact ⟨above, meets, by omega, content⟩

/-- What the buffer holds when all arguments fit: the arguments, and a table of offsets below. -/
structure ArgsImage (args : List String) (image : Mem) (sp : Nat) (starts : List Nat) (bottom : Nat) :
    Prop where
  few : args.length ≤ maxArgs
  aligned : sp % 16 = 0
  room : sp + 8 * args.length ≤ bottom
  placed : Placed image stackBufSize args starts bottom
  offsets : ∀ i < args.length, readLE image (sp + 8 * i) 8 = starts.getD i 0 - sp

theorem argsImage_spec {args : List String} {image : Mem} {sp : Nat}
    (done : argsImage args = .ok (image, sp)) : ∃ starts bottom, ArgsImage args image sp starts bottom := by
  rw [argsImage] at done
  -- More than 64 arguments are refused before anything is written.
  split at done
  · cases done
  · rename_i few
    generalize placing : placeArgs args (fun _ => 0) stackBufSize = result at done
    cases result with
    | error error => cases done
    | ok value =>
      obtain ⟨placedImage, bottom, starts⟩ := value
      obtain ⟨placed, -⟩ := placeArgs_spec placing
      have low : bottom ≤ 4096 := placed.ordered
      -- Both roundings to sixteen bytes are the kernel's bit mask.
      have rounded : bottom &&& 0xFFFFFFFFFFFFFFF0 = bottom - bottom % 16 :=
        @BitMasks.and_range_eq_sub _ 4 64 (by decide) (by omega)
      dsimp only at done
      rw [rounded] at done
      -- A table that does not fit under the strings is the other error.
      split at done
      · cases done
      · rename_i enough
        have final : bottom - bottom % 16 - args.length * 8 &&& 0xFFFFFFFFFFFFFFF0 =
            bottom - bottom % 16 - args.length * 8 - (bottom - bottom % 16 - args.length * 8) % 16 :=
          @BitMasks.and_range_eq_sub _ 4 64 (by decide) (by omega)
        rw [final] at done
        generalize spEq : bottom - bottom % 16 - args.length * 8 -
          (bottom - bottom % 16 - args.length * 8) % 16 = newSp at done
        cases done
        have lengths := placed.length
        -- The strings start at 4096 or below, so the distances fit a word.
        obtain ⟨words, others⟩ := @placeOffsets_spec sp starts 0 placedImage fun start member => by
          have under : start ≤ 4096 := placed.start_le start member
          omega
        -- The table is below the strings, so it does not disturb them.
        refine ⟨starts, bottom, Nat.le_of_not_lt few, by omega, by omega, ?_, fun i inside => ?_⟩
        · refine (placed.congr fun position above _ => others position ?_).2
          omega
        · have word := words i (by omega)
          rw [Nat.zero_add, Nat.mul_comm] at word
          exact word

end Image

section Program

variable {read : Nat → Option UInt8} {image : Mem}

/-- A computation that finds the items one after the other collects all of them. -/
theorem mapM_range {Item : Type} {find : Nat → Option Item} {items : List Item}
    (each : ∀ i < items.length, find i = items[i]?) :
    (List.range items.length).mapM find = some items := by
  induction items using List.reverseRecOn with
  | nil => rfl
  | append_singleton items last ih =>
    have before : (List.range items.length).mapM find = some items := ih fun i inside => by
      rw [each i (by simp; omega), List.getElem?_append_left inside]
    have final : find items.length = some last := by
      rw [each items.length (by simp)]
      simp
    rw [List.length_append, List.length_singleton, List.range_succ, List.mapM_append, before]
    simp [final]

/-- Bytes that are there one by one are read as a slice. -/
theorem readSlice_eq {start : Nat} {data : List UInt8}
    (each : ∀ position < data.length, read (start + position) = data[position]?) :
    readSlice read start data.length = some data := mapM_range each

/-- The value of a word depends only on where it starts. -/
theorem readLE_shift (mem : Mem) (start origin count : Nat) :
    readLE (fun position => mem (start + position)) origin count = readLE mem (start + origin) count := by
  induction count generalizing origin with
  | zero => rfl
  | succ count ih => rw [readLE, readLE, ih, Nat.add_assoc]

/-- Eight bytes of an image are read as its word. -/
theorem readU64_eq {start origin : Nat}
    (each : ∀ position < 8, read (start + position) = some (image (origin + position))) :
    readU64 read start = some (UInt64.ofNat (readLE image origin 8)) := by
  -- The eight bytes are read out of the image at the same place.
  have slice : readSlice read start 8 = some ((List.range 8).map fun k => image (origin + k)) := by
    have bytes := @readSlice_eq read start ((List.range 8).map fun k => image (origin + k))
      fun position inside => by
        rw [List.length_map, List.length_range] at inside
        rw [each position inside, List.getElem?_map, List.getElem?_range inside]
        rfl
    rwa [List.length_map, List.length_range] at bytes
  have word : readLE (fun position => ((List.range 8).map fun k => image (origin + k)).getD position 0) 0 8 =
      readLE image origin 8 := by
    rw [← Nat.add_zero origin, ← readLE_shift image origin 0 8, Nat.add_zero]
    -- Reading a word of a list is reading it out of the image the list was copied from.
    refine readLE_congr fun position inside => ?_
    simp only [block, Set.mem_Ico] at inside
    rw [List.getD_eq_getElem?_getD, List.getElem?_map, List.getElem?_range (by omega)]
    rfl
  rw [readU64, slice, Option.map_some, word]

/-- Where the kernel puts the stack pointer. -/
theorem newSp_toNat {stackTop : UInt64} {sp : Nat} (room : 4096 ≤ stackTop.toNat) (inBuffer : sp ≤ 4096) :
    (stackTop - UInt64.ofNat (4096 - sp)).toNat = stackTop.toNat - 4096 + sp := by
  have size : (UInt64.ofNat (4096 - sp)).toNat = 4096 - sp := by
    rw [UInt64.toNat_ofNat', Nat.mod_eq_of_lt (by omega)]
  rw [UInt64.toNat_sub_of_le _ _ (by rw [UInt64.le_iff_toNat_le]; omega), size]
  omega

/-- Decoding what was encoded gives the string back. -/
theorem fromUTF8_asBytes (arg : String) : String.fromUTF8? (asBytes arg).toByteArray = some arg := by
  have bytes : (asBytes arg).toByteArray = arg.toByteArray := by
    rw [asBytes]
    apply ByteArray.ext
    simp
  rw [bytes, String.fromUTF8?, dif_pos arg.isValidUTF8]
  rfl

/-- A program that finds the image below its stack top parses the arguments in it. -/
theorem ArgsImage.parseArgs {args : List String} {sp bottom : Nat} {starts : List Nat}
    (layout : ArgsImage args image sp starts bottom) {stackTop : UInt64}
    (room : 4096 ≤ stackTop.toNat)
    (there : ∀ position, sp ≤ position → position < 4096 →
      read (stackTop.toNat - 4096 + position) = some (image position)) :
    AtOS.parseArgs read (UInt64.ofNat args.length) (stackTop - UInt64.ofNat (4096 - sp)) stackTop =
      some args := by
  -- Every number here is at most 4096, so no word wraps around.
  have few : args.length ≤ 64 := layout.few
  have top : bottom ≤ 4096 := layout.placed.ordered
  have table := layout.room
  -- The count is handed over in a register.
  have count : (UInt64.ofNat args.length).toNat = args.length := by
    rw [UInt64.toNat_ofNat', Nat.mod_eq_of_lt (by omega)]
  have finalSp := newSp_toNat room (by omega : sp ≤ 4096)
  generalize stackTop - UInt64.ofNat (4096 - sp) = newSp at finalSp
  let offsets := (List.range args.length).map fun i => UInt64.ofNat (starts.getD i 0 - sp)
  have size : offsets.length = args.length := by simp [offsets]
  have offset : ∀ i < args.length, offsets.getD i 0 = UInt64.ofNat (starts.getD i 0 - sp) := by
    intro i inside
    simp only [offsets]
    rw [List.getD_eq_getElem?_getD, List.getElem?_map, List.getElem?_range inside]
    rfl
  -- First the table of offsets is read.
  have tableRead : (List.range args.length).mapM (fun i => readU64 read (newSp.toNat + 8 * i)) =
      some offsets := by
    rw [← size]
    refine mapM_range fun i inside => ?_
    rw [size] at inside
    have word := @readU64_eq read image (newSp.toNat + 8 * i) (sp + 8 * i) fun position below => by
      have place : newSp.toNat + 8 * i + position =
          stackTop.toNat - 4096 + (sp + 8 * i + position) := by omega
      rw [place]
      exact there (sp + 8 * i + position) (by omega) (by omega)
    rw [word, layout.offsets i inside]
    simp [offsets, inside]
  rw [AtOS.parseArgs, count, if_neg (by simp only [maxArgs]; omega), tableRead, Option.bind_some]
  refine mapM_range fun i inside => ?_
  -- Then each argument is the slice between two offsets.
  obtain ⟨above, meets, under, content⟩ := layout.placed.arg (List.getElem?_eq_getElem inside)
  -- A distance within the page is the number it stands for.
  have small : ∀ distance, distance ≤ 4096 → (UInt64.ofNat distance).toNat = distance :=
    fun distance bound => by rw [UInt64.toNat_ofNat', Nat.mod_eq_of_lt (by omega)]
  have limit := stackTop.toNat_lt
  simp only [stackBufSize] at meets under
  have startEq : (newSp + offsets.getD i 0).toNat = stackTop.toNat - 4096 + starts.getD i 0 := by
    rw [offset i inside, UInt64.toNat_add, small _ (by omega), finalSp, Nat.mod_eq_of_lt (by omega)]
    omega
  -- The first argument ends at the stack's top and every other one at the start of the one before
  -- it.
  have lenEq : (if i = 0 then stackTop - (newSp + offsets.getD i 0)
      else offsets.getD (i - 1) 0 - offsets.getD i 0).toNat = (asBytes args[i]).length := by
    by_cases first : i = 0
    · rw [if_pos first] at meets under ⊢
      rw [UInt64.toNat_sub_of_le _ _ (by rw [UInt64.le_iff_toNat_le, startEq]; omega), startEq]
      omega
    · rw [if_neg first] at meets under ⊢
      have before := offset (i - 1) (by omega)
      rw [offset i inside, before, UInt64.toNat_sub_of_le _ _ (by
        rw [UInt64.le_iff_toNat_le, small _ (by omega), small _ (by omega)]
        omega), small _ (by omega), small _ (by omega)]
      omega
  -- The slice has the bytes of the argument, which read back as the argument.
  have slice : readSlice read (stackTop.toNat - 4096 + starts.getD i 0) (asBytes args[i]).length =
      some (asBytes args[i]) := readSlice_eq fun position below => by
    rw [content position below, Nat.add_assoc]
    exact there _ (by omega) (by omega)
  rw [parseArg]
  simp only [startEq, lenEq]
  rw [slice, Option.bind_some, fromUTF8_asBytes, List.getElem?_eq_getElem inside]

end Program

section HandOver

variable {alloc : PageAllocator} {roots : Set Nat} {free : List Nat} {managed : Set Nat}
  {pctx : ProcessContext}

/-- A stack pointer that is aligned, and below which a buffer's length of user memory is mapped. -/
structure StackMapped (mem : Mem) (root sp : Nat) : Prop where
  aligned : sp % 16 = 0
  room : stackBufSize ≤ sp
  low : sp ≤ 2 ^ 39
  mapped : ∀ va, sp - stackBufSize ≤ va → va < sp → (ttbr0ToPa mem va root).isSome

/-- Memory that faults outside a range. -/
def readWithin (low high : Nat) (read : Nat → Option UInt8) (va : Nat) : Option UInt8 :=
  if low ≤ va ∧ va < high then read va else none

/-- The arguments have been handed over: the program parses them, and reads nothing else. -/
structure HandedOver (args : List String) (before after : ProcessContext) (mem : Mem) : Prop where
  aligned : after.spEl0.toNat % 16 = 0
  space : after.ttbr0 = before.ttbr0
  parsed : parseArgs (byteAt mem after.ttbr0.toNat) (after.x.get 0) (after.x.get 1)
    (after.x.get 2) = some args
  inside : parseArgs (readWithin after.spEl0.toNat before.spEl0.toNat
    (byteAt mem after.ttbr0.toNat)) (after.x.get 0) (after.x.get 1) (after.x.get 2) = some args

/-- All bytes below the old stack pointer are mapped, so the arguments can be copied there. -/
theorem StackMapped.copies (owned : Owned alloc roots free managed)
    (live : pctx.ttbr0.toNat ∈ roots)
    (stack : StackMapped alloc.mem pctx.ttbr0.toNat pctx.spEl0.toNat) {args : List String}
    {image : Mem} {sp : Nat} (pushing : argsImage args = .ok (image, sp)) :
    (copyToPages ((List.range (4096 - sp)).map fun position => image (sp + position))
      (pctx.spEl0 - UInt64.ofNat (4096 - sp)).toNat pctx.ttbr0.toNat alloc).1 = .ok () := by
  -- The page under the stack's top is mapped, so the copy cannot fail.
  obtain ⟨starts, bottom, layout⟩ := argsImage_spec pushing
  have room : 4096 ≤ pctx.spEl0.toNat := stack.room
  have top : bottom ≤ 4096 := layout.placed.ordered
  have table := layout.room
  obtain ⟨done, copied⟩ := copyToPages_spec owned live
    ((List.range (4096 - sp)).map fun position => image (sp + position))
    (pctx.spEl0 - UInt64.ofNat (4096 - sp)).toNat
  refine copied.ok_iff.mpr fun offset within => ?_
  rw [List.length_map, List.length_range] at within
  -- Every byte of the range lies in that page, since the strings go down from its end.
  have mapped := stack.mapped (pctx.spEl0.toNat - 4096 + sp + offset)
    (by simp only [stackBufSize]; omega) (by omega)
  rw [newSp_toNat room (by omega : sp ≤ 4096)]
  rw [ttbr0ToPa_eq, Option.isSome_map] at mapped
  exact mapped

/-- Arguments that fit the buffer are pushed. -/
theorem initializeArgs_ok (owned : Owned alloc roots free managed)
    (live : pctx.ttbr0.toNat ∈ roots)
    (stack : StackMapped alloc.mem pctx.ttbr0.toNat pctx.spEl0.toNat) {args : List String}
    {image : Mem} {sp : Nat} (pushing : argsImage args = .ok (image, sp)) :
    ∃ after last, initializeArgs args pctx alloc = (.ok (), after, last) := by
  have copies := stack.copies owned live pushing
  rw [initializeArgs, pushArgsToStack, pushing]
  simp only [stackBufSize]
  generalize copyToPages _ _ _ alloc = written at copies
  obtain ⟨written, last⟩ := written
  dsimp only at copies
  subst copies
  exact ⟨_, _, rfl⟩

/-- What `initialize_args` hands over is what the program parses, or nothing has happened. -/
theorem initializeArgs_handedOver (owned : Owned alloc roots free managed)
    (live : pctx.ttbr0.toNat ∈ roots)
    (stack : StackMapped alloc.mem pctx.ttbr0.toNat pctx.spEl0.toNat) (args : List String) :
    Loop.Outcome (fun _ after => HandedOver args pctx after.1 after.2.mem)
      (fun error after => argsImage args = .error error ∧ after = (pctx, alloc))
      (initializeArgs args pctx alloc) := by
  -- The strings and the table are laid out first, and only then copied to the stack.
  rw [initializeArgs, pushArgsToStack]
  cases pushing : argsImage args with
  | error error => exact .failed ⟨rfl, rfl⟩
  | ok value =>
    obtain ⟨image, sp⟩ := value
    -- From here the image, its pointer and the stack's top are known.
    obtain ⟨starts, bottom, layout⟩ := argsImage_spec pushing
    have room : 4096 ≤ pctx.spEl0.toNat := stack.room
    have low := stack.low
    have top : bottom ≤ 4096 := layout.placed.ordered
    have table := layout.room
    have finalSp := newSp_toNat room (by omega : sp ≤ 4096)
    have sixteen := stack.aligned
    have onImage := layout.aligned
    generalize bytesEq : ((List.range (4096 - sp)).map fun position => image (sp + position)) = bytes
    have size : bytes.length = 4096 - sp := by simp [← bytesEq]
    -- The bytes handed over are those of the image from `sp` on.
    have content : ∀ position, sp ≤ position → position < 4096 →
        bytes[position - sp]? = some (image position) := by
      intro position above below
      rw [← bytesEq, List.getElem?_map, List.getElem?_range (by omega), Option.map_some,
        Nat.add_sub_cancel' above]
    obtain ⟨done, copied⟩ := copyToPages_spec owned live bytes
      (pctx.spEl0 - UInt64.ofNat (4096 - sp)).toNat
    have succeeded := bytesEq ▸ stack.copies owned live pushing
    -- The copy has put the image at the same distance below the stack's top.
    have written : ∀ position, sp ≤ position → position < 4096 →
        byteAt (copyToPages bytes (pctx.spEl0 - UInt64.ofNat (4096 - sp)).toNat pctx.ttbr0.toNat
          alloc).2.mem pctx.ttbr0.toNat (pctx.spEl0.toNat - 4096 + position) =
          some (image position) := by
      intro position above below
      rw [copied.byteAt owned live (by omega) succeeded (by omega), if_pos (by omega), finalSp,
        ← content position above below]
      congr 1
      omega
    simp only [stackBufSize, bytesEq]
    generalize copyToPages bytes (pctx.spEl0 - UInt64.ofNat (4096 - sp)).toNat pctx.ttbr0.toNat alloc =
      outcome at succeeded written
    obtain ⟨result, after⟩ := outcome
    dsimp only at succeeded written
    subst succeeded
    -- The three registers hold the count, the new pointer and the stack's top.
    obtain ⟨argc, newSp, spTop⟩ := argRegisters pctx.x (UInt64.ofNat args.length)
      (pctx.spEl0 - UInt64.ofNat (4096 - sp)) pctx.spEl0
    refine .done ⟨?_, rfl, ?_, ?_⟩
    · dsimp only
      rw [finalSp]
      omega
    · dsimp only
      rw [argc, newSp, spTop]
      exact layout.parseArgs room written
    · dsimp only
      rw [argc, newSp, spTop]
      -- `start.rs` reads at or above its stack pointer only, and everything it needs is there.
      refine layout.parseArgs room fun position above below => ?_
      rw [readWithin, if_pos (by rw [finalSp]; omega)]
      exact written position above below

/-- From four frames one can make an address space with a page for a stack. -/
theorem exists_stackMapped : ∃ alloc roots free managed root,
    Owned alloc roots free managed ∧ root ∈ roots ∧ root < 2 ^ 39 ∧
      StackMapped alloc.mem root 0x2000 := by
  -- A pool of four frames: one for a root, and three for a page.
  let pool : Pool := ⟨initFrames 0xffffff8000000000 0xffffff8000004000
    ⟨fun _ => 0, ⟨0, 0⟩, 0, 0⟩, ∅⟩
  have booted : pool.Booted 0xffffff8000000000 0xffffff8000004000 :=
    ⟨by decide, by decide, by decide, rfl, fun _ => 0, ⟨0, 0⟩, rfl, rfl, by decide, rfl⟩
  obtain ⟨free, conserved⟩ := booted.conserved
  have size : free.length = 4 := conserved.owned.count.symm.trans (by decide)
  cases free with
  | nil => cases size
  | cons root free =>
    have isFrame := conserved.owned.free_frame (List.mem_cons_self : root ∈ root :: free)
    obtain ⟨popped, -, -, -, -, owned, childless⟩ := conserved.owned.newRoot
    have live : root ∈ insert root pool.live := Set.mem_insert _ _
    -- The new root maps nothing, so the page is taken from the three frames left.
    have outcome := allocPage_spec owned live 0x1000
    generalize allocPage 0x1000 root popped = result at outcome
    rw [List.length_cons] at size
    cases result with
    | error panic =>
      rcases outcome with ⟨-, mapped⟩ | ⟨-, few, -⟩
      · rw [leafOf, walk_childless childless (by simp [pagePath])] at mapped
        cases mapped
      · omega
    | ok value =>
      obtain ⟨pa, after⟩ := value
      obtain ⟨taken, rest, added⟩ := outcome
      refine ⟨after, _, rest, _, root, added.owned, live, isFrame.2, by decide, by decide, by decide, ?_⟩
      -- The page is 0x1000, which is the one under the stack's top.
      intro va above below
      simp only [stackBufSize] at above
      rw [ttbr0ToPa_eq, Option.isSome_map, added.leaves root live _ (pagePath_length va),
        if_pos ⟨rfl, pagePath_of_page (by omega)⟩]
      rfl

/-- Two arguments are handed over to a process whose stack is one page. -/
theorem initializeArgs_handedOver_two : ∃ pctx alloc after,
    initializeArgs ["init", "hi there"] pctx alloc = (.ok (), after) ∧
      HandedOver ["init", "hi there"] pctx after.1 after.2.mem := by
  obtain ⟨alloc, roots, free, managed, root, owned, live, small, stack⟩ := exists_stackMapped
  -- The process has its stack's end at 0x2000 and the root of the pool as its tables.
  let pctx := ProcessContext.new 0 0x2000 0 (UInt64.ofNat root)
  have rootEq : pctx.ttbr0.toNat = root := by
    rw [show pctx.ttbr0 = UInt64.ofNat root from rfl, UInt64.toNat_ofNat', Nat.mod_eq_of_lt (by omega)]
  have outcome := @initializeArgs_handedOver alloc roots free managed pctx owned (rootEq ▸ live)
    (by rw [rootEq]; exact stack) ["init", "hi there"]
  generalize resultEq : initializeArgs ["init", "hi there"] pctx alloc = result at outcome
  cases outcome with
  | done handed => exact ⟨pctx, alloc, _, resultEq, handed⟩
  | failed failed =>
    -- The two strings fit the buffer, so the error cannot be.
    have fits : (match argsImage ["init", "hi there"] with
      | .ok _ => true
      | .error _ => false) = true := by decide
    rw [failed.1] at fits
    cases fits

end HandOver

end AtOS
