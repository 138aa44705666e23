import AtOS.Loader.BuildsImage
import AtOS.Loader.Segments
import AtOS.Processes.Starting

/-! The user stack lies above the segments with a gap between, and has room for all arguments. -/

namespace AtOS

open ByteMemory RadixForest

/-- The lowest page of the stack. -/
def lowestStackPage (stackTop : Nat) : Nat := (stackTop - 1) / 4096 - 13

/-- Where the stack lies: aligned, on 14 consecutive pages, and seven pages above every segment. -/
structure StackFits (segments : List Elf64ProgHdr) : Prop where
  computed : wrapping (imageEnd segments 0 + 0x16000) &&& 0xFFFFFFFFFFFFFFF0 = stackTopOf segments
  aligned : stackTopOf segments % 16 = 0
  low : stackTopOf segments ≤ 2 ^ 39
  noUnderflow : ∀ i < 14, (i + 1) * 4096 ≤ stackTopOf segments
  consecutive : ∀ i < 14,
    wrapping (stackTopOf segments + 2 ^ 64 - i * 4096 - 1) / 4096 + i =
      (stackTopOf segments - 1) / 4096
  lowest : lowestStackPage (stackTopOf segments) + 13 = (stackTopOf segments - 1) / 4096
  guards : ∀ page ∈ imagePages segments, page + 7 < lowestStackPage (stackTopOf segments)

/-- The subtractions of `push_args_to_stack` that no check precedes. -/
structure ArgsFit (args : List String) (stackTop sp : Nat) : Prop where
  offsets : ∀ image bottom starts, placeArgs args (fun _ => 0) stackBufSize = .ok (image, bottom, starts) →
    ∀ start ∈ starts, sp ≤ start
  buffer : sp ≤ stackBufSize
  top : stackBufSize - sp ≤ stackTop
  /-- What is copied lies in the pages of the stack. -/
  inStack : ∀ va, stackTop - (stackBufSize - sp) ≤ va → va < stackTop →
    lowestStackPage stackTop ≤ va / 4096 ∧ va / 4096 ≤ (stackTop - 1) / 4096

/-- A finished stack: its pages are mapped, the guard pages are not, and all arguments can be pushed. -/
structure StackBuilt (segments : List Elf64ProgHdr) (alloc : PageAllocator) (root : Nat) : Prop where
  mapped : ∀ page, lowestStackPage (stackTopOf segments) ≤ page →
    page ≤ (stackTopOf segments - 1) / 4096 → pageSlot page ∈ mappedPages alloc.mem root
  unmapped : ∀ page, (∀ other ∈ imagePages segments, other < page) →
    page < lowestStackPage (stackTopOf segments) → pageSlot page ∉ mappedPages alloc.mem root
  args : ∀ args image sp, argsImage args = .ok (image, sp) → ArgsFit args (stackTopOf segments) sp
  pushes : ∀ args image sp pctx, argsImage args = .ok (image, sp) →
    pctx.spEl0.toNat = stackTopOf segments → pctx.ttbr0.toNat = root →
    ∃ result after, pushArgsToStack args pctx alloc = (.ok result, after) ∧
      result.2.1.toNat = stackTopOf segments - (stackBufSize - sp)

section Numbers

variable {segments : List Elf64ProgHdr}

/-- The pages the stack loop maps are those from the lowest one to the top. -/
theorem StackFits.mem_pages (fits : StackFits segments) {page : Nat} :
    page ∈ stackPages (stackTopOf segments) (List.range 14) ↔
      lowestStackPage (stackTopOf segments) ≤ page ∧ page ≤ (stackTopOf segments - 1) / 4096 := by
  have lowest := fits.lowest
  have room := fits.noUnderflow 13 (by decide)
  constructor
  · rintro ⟨i, inside, rfl⟩
    rw [List.mem_range] at inside
    omega
  · rintro ⟨above, below⟩
    refine ⟨(stackTopOf segments - 1) / 4096 - page, List.mem_range.mpr (by omega), ?_⟩
    omega

/-- No page of the stack is a page of a segment. -/
theorem StackFits.apart (fits : StackFits segments) :
    PagesFree (imageSlots segments) (stackPages (stackTopOf segments) (List.range 14)) := by
  have low := fits.low
  have room := fits.noUnderflow 13 (by decide)
  refine ⟨stackPages_injOn (by omega), ?_⟩
  rintro page inside ⟨other, inImage, same⟩
  obtain ⟨above, below⟩ := fits.mem_pages.mp inside
  have guard := fits.guards other inImage
  have values := congrArg Fin.val same
  simp only [pageSlot, pageOf] at values
  omega

end Numbers

section Args

variable {segments : List Elf64ProgHdr} {args : List String} {image : Mem} {sp : Nat}

/-- No string starts below the lowest one. -/
theorem Placed.bottom_le {top bottom : Nat} {starts : List Nat}
    (placed : Placed image top args starts bottom) : ∀ start ∈ starts, bottom ≤ start := by
  induction args generalizing top starts with
  | nil =>
    cases starts with
    | nil => simp
    | cons start starts => exact placed.elim
  | cons arg args ih =>
    cases starts with
    | nil => exact placed.elim
    | cons first starts =>
      obtain ⟨-, -, below⟩ := placed
      intro start member
      rcases List.mem_cons.mp member with rfl | later
      · exact below.ordered
      · exact ih below start later

/-- Arguments that pass the checks start above the final `sp`, and the buffer bounds both. -/
theorem argsImage_below (done : argsImage args = .ok (image, sp)) {placed : Mem} {bottom : Nat}
    {starts : List Nat}
    (placing : placeArgs args (fun _ => 0) stackBufSize = .ok (placed, bottom, starts)) :
    sp ≤ bottom ∧ (∀ start ∈ starts, bottom ≤ start) ∧ bottom ≤ stackBufSize := by
  obtain ⟨inPlace, -⟩ := placeArgs_spec placing
  refine ⟨?_, inPlace.bottom_le, inPlace.ordered⟩
  rw [argsImage] at done
  split at done
  · -- A list that is too long and one that does not fit are the errors.
    cases done
  · rw [placing] at done
    dsimp only at done
    split at done
    · cases done
    · rename_i enough
      rw [Except.ok.injEq, Prod.mk.injEq] at done
      -- Masking and subtracting only take the pointer further down.
      have masked : (bottom &&& 0xFFFFFFFFFFFFFFF0) ≤ bottom := Nat.and_le_left
      have final : ((bottom &&& 0xFFFFFFFFFFFFFFF0) - args.length * 8 &&& 0xFFFFFFFFFFFFFFF0) ≤
          (bottom &&& 0xFFFFFFFFFFFFFFF0) - args.length * 8 := Nat.and_le_left
      rw [done.2] at final
      generalize bottom &&& 0xFFFFFFFFFFFFFFF0 = rounded at masked final
      omega

/-- Arguments that pass the checks fit into the stack, whose upper 13 pages are longer than the buffer. -/
theorem StackFits.argsFit (fits : StackFits segments) (done : argsImage args = .ok (image, sp)) :
    ArgsFit args (stackTopOf segments) sp := by
  -- The stack has room for the largest of the 14 pages' offsets.
  have room := fits.noUnderflow 13 (by decide)
  have lowest := fits.lowest
  obtain ⟨starts, bottom, layout⟩ := argsImage_spec done
  have table := layout.room
  have top : bottom ≤ 4096 := layout.placed.ordered
  constructor
  case offsets =>
    intro placed bottom starts placing start member
    obtain ⟨below, above, -⟩ := argsImage_below done placing
    exact Nat.le_trans below (above start member)
  -- All the bytes lie in the 4096 below the top.
  case buffer =>
    show sp ≤ 4096
    omega
  case top =>
    show 4096 - sp ≤ _
    omega
  case inStack =>
    intro va above below
    simp only [stackBufSize] at above
    omega

end Args

section Built

variable {segments : List Elf64ProgHdr} {start alloc : PageAllocator} {roots managed : Set Nat}
  {root : Nat} {rest : List Nat}

/-- Where the pages of the segments and of the stack are mapped, the stack is ready for arguments. -/
theorem StackFits.built (fits : StackFits segments)
    (building : Building start alloc roots managed root rest)
    (mapped : mappedPages alloc.mem root =
      imageSlots segments ∪ pageSlot '' stackPages (stackTopOf segments) (List.range 14)) :
    StackBuilt segments alloc root := by
  have low := fits.low
  have room := fits.noUnderflow 13 (by decide)
  have lowest := fits.lowest
  -- The pages of the stack are the last fourteen below its top.
  have here : ∀ page, lowestStackPage (stackTopOf segments) ≤ page →
      page ≤ (stackTopOf segments - 1) / 4096 → pageSlot page ∈ mappedPages alloc.mem root := by
    intro page above below
    rw [mapped]
    exact Or.inr ⟨page, fits.mem_pages.mpr ⟨above, below⟩, rfl⟩
  constructor
  case mapped => exact here
  case unmapped =>
    intro page behind before inside
    rw [mapped] at inside
    -- A page in between would have to belong to the image or to the stack.
    rcases inside with ⟨other, inImage, same⟩ | ⟨other, inStack, same⟩
    · have guard := fits.guards other inImage
      have less := behind other inImage
      have values := congrArg Fin.val same
      simp only [pageSlot, pageOf] at values
      omega
    · obtain ⟨above, below⟩ := fits.mem_pages.mp inStack
      have values := congrArg Fin.val same
      simp only [pageSlot, pageOf] at values
      omega
  case args => exact fun args image sp done => fits.argsFit done
  case pushes =>
    intro args image sp pctx done top space
    -- The buffer is shorter than the stack, so all its bytes find a mapped page.
    have stack : StackMapped alloc.mem pctx.ttbr0.toNat pctx.spEl0.toNat := by
      rw [top, space]
      refine ⟨fits.aligned, ?_, low, fun va above below => ?_⟩
      · show 4096 ≤ _
        omega
      · simp only [stackBufSize] at above
        rw [ttbr0ToPa_isSome, ← mem_mappedPages, ← pageSlot_div]
        exact here (va / 4096) (by omega) (by omega)
    obtain ⟨-, buffer, fitsTop, -⟩ := fits.argsFit done
    have copies := stack.copies building.owned (space ▸ building.live) done
    have newSp := @newSp_toNat pctx.spEl0 sp (by rw [top]; omega) buffer
    rw [pushArgsToStack, done]
    simp only [stackBufSize] at *
    generalize copyToPages _ _ _ alloc = written at copies
    obtain ⟨written, last⟩ := written
    dsimp only at copies
    subst copies
    refine ⟨_, _, rfl, ?_⟩
    rw [newSp]
    omega

end Built

end AtOS
