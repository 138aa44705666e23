import AtOS.Paging.PageAllocator
import AtOS.Library.BitMasks
import AtOS.Library.RadixForest
import AtOS.Paging.Entries
import AtOS.Library.TranslatedStore
import AtOS.Paging.AllocPage
import AtOS.Paging.CopyToPages
import AtOS.Paging.FreePage
import AtOS.Paging.FreePageTable
import AtOS.Paging.DuplicateTable
import AtOS.Paging.DuplicateVaSpace
import AtOS.Paging.Pool
import AtOS.Paging.Refinement
import AtOS.Loader.LoadElf
import AtOS.Loader.BuildsImage
import AtOS.Library.SlotTable
import AtOS.Processes.Abstraction
import AtOS.Processes.ArgsRoundTrip
import AtOS.Processes.Boot
import AtOS.Processes.Channels
import AtOS.Processes.Delivery
import AtOS.Processes.MutexSafety
import AtOS.Processes.Stranding
import AtOS.Resources.Handling
import AtOS.Resources.Reclaiming
import AtOS.Loader.LoadsFresh
import AtOS.Processes.Starting
import AtOS.Resources.Bases
import AtOS.Resources.Owners
import AtOS.Resources.StackCount
import AtOS.Interrupts.Nesting
import AtOS.Paging.Rollback
import AtOS.Processes.RoundRobin
import AtOS.Shell.Lexer
import AtOS.Shell.Parser
import AtOS.Shell.Printing
import AtOS.Loader.Building
import AtOS.Loader.CheckedLoad
import AtOS.Loader.Safety
import AtOS.Processes.UserStack
import AtOS.Loader.Returning
import AtOS.Processes.FailedSpawn
import AtOS.Paging.RootEntries
import AtOS.Resources.StackRuns
import AtOS.Console.KernelIo
import AtOS.Console.LineEditing
import AtOS.Library.Sweep
import AtOS.Tetris.Cells
import AtOS.Tetris.ClearLines
import AtOS.Tetris.Placement
import AtOS.Tetris.Play
import AtOS.Resources.ExecFailures
import AtOS.Resources.WholeForks
import AtOS.Resources.Affording
import AtOS.Resources.Programs
import AtOS.Resources.Families
import AtOS.Resources.Sleepers
import AtOS.Resources.Waiters
import AtOS.Processes.Living
import AtOS.Resources.Vectors
import AtOS.Resources.Isolation
import AtOS.Console.Input
import AtOS.Resources.Bystanders
import AtOS.Resources.ForkCopies
import AtOS.Resources.Crowding
import AtOS.Resources.StaleRoots
import AtOS.Loader.FrameTotal
import AtOS.Resources.FrameAccount
import AtOS.Resources.Answers
import AtOS.Processes.ExecCall
import AtOS.Resources.ProgramStart
import AtOS.Processes.Newcomers
import AtOS.Programs.Ending
import AtOS.Programs.Shutdown
import AtOS.Library.Stage1
import AtOS.Loader.LoadMoves
import AtOS.Paging.Mmu
import AtOS.Resources.KernelMoves
import AtOS.Resources.PoolRuns
import AtOS.Paging.KernelTables
import AtOS.Resources.Translation
