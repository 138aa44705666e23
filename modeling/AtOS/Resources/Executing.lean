import AtOS.Resources.Forking

/-! `exec` and `exit` with what they give up: an address space and a kernel stack. -/

namespace AtOS

open ByteMemory RadixForest SlotTable

variable {k next : Kernel} {self : Process} {roots : Set Nat} {free : List Nat} {managed : Set Nat}
  {bytes : List UInt8} {args : List String} {slot : Fin maxProcesses}

/-- What an `exec` that succeeds has put in the place of the old program. -/
structure Kernel.ExecOwns (k : Kernel) (process : Process) (roots : Set Nat) (managed : Set Nat)
    (root : Nat) (pctx : ProcessContext) (next : Kernel) (old stack : Fin maxProcesses)
    (rest : List Nat) : Prop where
  fresh : root ∉ insert k.kernelL1 roots
  ttbr0 : pctx.ttbr0.toNat = root
  spEl1 : pctx.spEl1 = UInt64.ofNat (kernelStackTop stack)
  active : k.kernelStacks old = .allocated process.pid
  unused : Function.update k.kernelStacks old (.queuedToFree process.pid) stack = .free
  kernelStacks : next.kernelStacks = Function.update
    (Function.update k.kernelStacks old (.queuedToFree process.pid)) stack (.allocated process.pid)
  accounted : next.resources.Accounted (insert root (roots \ {process.pctx.ttbr0.toNat})) rest managed
  /-- The address spaces of other programs are not touched. -/
  kept : Kept k.alloc.mem next.alloc.mem (roots \ {process.pctx.ttbr0.toNat})

/-- The kernel that has given up an address space and a kernel stack. -/
theorem Resources.Accounted.givenUp {alloc : PageAllocator} {root : Nat} {rest : List Nat}
    (loaded : ({ k.resources with alloc } : Resources).Accounted (insert root roots) rest managed)
    (distinct : root ≠ self.pctx.ttbr0.toNat) (live : self.pctx.ttbr0.toNat ∈ roots)
    {old : Fin maxProcesses} (active : k.kernelStacks old = .allocated self.pid) :
    ∃ freed, freed.length = (nodes (child alloc.mem) 3 self.pctx.ttbr0.toNat).ncard ∧
      (k.givenUp self old alloc).resources.Accounted
        (insert root (roots \ {self.pctx.ttbr0.toNat})) (freed ++ rest) managed ∧
      Kept alloc.mem (k.givenUp self old alloc).alloc.mem
        (insert root (roots \ {self.pctx.ttbr0.toNat})) := by
  -- The frames of the old address space come back.
  obtain ⟨freed, count, -, freed', kept⟩ := loaded.freeSpace (Set.mem_insert_of_mem root live)
  have split : insert root roots \ {self.pctx.ttbr0.toNat} =
      insert root (roots \ {self.pctx.ttbr0.toNat}) :=
    Set.insert_sdiff_of_notMem _ (by simpa using distinct)
  rw [split] at freed'
  refine ⟨freed, count, ?_, ?_⟩
  · -- The queued stack is used as long as it is not freed, so the same entries are taken.
    apply freed'.congr
    · rfl
    · rfl
    · exact stackEntries_used (by simp [active]) (by simp)
  · refine kept.mono ?_
    rintro other (rfl | ⟨inside, apart⟩)
    · exact ⟨Set.mem_insert_of_mem _ (Set.mem_insert _ _), distinct⟩
    · exact ⟨Set.mem_insert_of_mem _ (Set.mem_insert_of_mem _ inside), apart⟩

/-- An `exec` that succeeds owns what it has taken, and has given up what it had. -/
theorem Kernel.exec_owns (accounted : k.resources.Accounted roots free managed)
    (live : self.pctx.ttbr0.toNat ∈ roots) (loadsFresh : LoadsFresh bytes)
    (done : k.exec slot self bytes args = .ok (.ok (), next)) :
    ∃ root pctx old stack rest,
      k.ExecOwns self roots managed root pctx next old stack rest ∧
      next.processTable = put k.processTable slot (some { self with pctx }) := by
  cases Kernel.exec_ends done with
  -- The call went through its four stages, so each of them succeeded.
  | @withStack entry sp root alloc last old stack top mid _ pctx loads active allocated pushes =>
    have here := Kernel.getActiveStackIndex_some active
    obtain ⟨fresh, keptLoaded, left, loaded⟩ := accounted.loaded loadsFresh loads
    have distinct : root ≠ self.pctx.ttbr0.toNat := by
      rintro rfl
      exact fresh (Set.mem_insert_of_mem _ live)
    obtain ⟨freed, -, given, keptGiven⟩ := loaded.givenUp distinct live here
    obtain ⟨taken, rest, took⟩ := allocated.taken given
    -- The new root is a frame, so it fits a register.
    have isFrame : IsFrame root := by
      have ownedLoaded := loaded.owned
      exact ownedLoaded.node_frame (Set.mem_insert_of_mem _ (Set.mem_insert _ _)) (root_mem_nodes root)
    have fits : (UInt64.ofNat root).toNat = root := by
      obtain ⟨-, small⟩ := isFrame
      rw [UInt64.toNat_ofNat', Nat.mod_eq_of_lt (by omega)]
    have liveNew : (ProcessContext.new (UInt64.ofNat entry) (UInt64.ofNat sp) top
        (UInt64.ofNat root)).ttbr0.toNat ∈ insert root (roots \ {self.pctx.ttbr0.toNat}) := by
      rw [show (ProcessContext.new (UInt64.ofNat entry) (UInt64.ofNat sp) top
        (UInt64.ofNat root)).ttbr0 = UInt64.ofNat root from rfl, fits]
      exact Set.mem_insert _ _
    obtain ⟨pushed, keptPushed, holding⟩ := took.accounted.pushed liveNew pushes
    have ttbr0 : pctx.ttbr0 = UInt64.ofNat root := congrArg Holding.ttbr0 holding
    have spEl1 : pctx.spEl1 = top := congrArg Holding.spEl1 holding
    refine ⟨root, pctx, old, stack, rest, ⟨fresh, ttbr0 ▸ fits, spEl1.trans allocated.top_eq, here,
      allocated.free, allocated.kernelStacks, ?_, ?_⟩, ?_⟩
    · apply pushed.congr <;> rfl
    · -- The others are kept by all four stages.
      have others : roots \ {self.pctx.ttbr0.toNat} ⊆
          insert root (roots \ {self.pctx.ttbr0.toNat}) := Set.subset_insert _ _
      have early : Kept k.alloc.mem alloc.mem (roots \ {self.pctx.ttbr0.toNat}) :=
        keptLoaded.mono fun other inside => Set.mem_insert_of_mem _ inside.1
      refine ((early.trans (keptGiven.mono others)).trans (took.kept.mono others)).trans
        (keptPushed.mono fun other inside => ?_)
      refine ⟨Set.mem_insert_of_mem _ (Set.mem_insert_of_mem _ inside), ?_⟩
      rintro rfl
      rw [show (ProcessContext.new (UInt64.ofNat entry) (UInt64.ofNat sp) top
        (UInt64.ofNat root)).ttbr0 = UInt64.ofNat root from rfl, fits] at inside
      exact fresh (Set.mem_insert_of_mem _ inside.1)
    · obtain ⟨_, _, _, _, same⟩ := allocated.next_eq
      rw [same]
      rfl

end AtOS
