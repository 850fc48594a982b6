import CrashInvestigator.Library.Runs
import CrashInvestigator.Tracker.Proofs.OwnershipProofs
import CrashInvestigator.Tracker.Proofs.BuildProofs
import CrashInvestigator.Detection.Proofs.SequentialProofs
import CrashInvestigator.MemoryPool.Proofs.TilingProofs
import CrashInvestigator.HashItems.Entries
import CrashInvestigator.HashItems.Proofs.PatchProofs
import CrashInvestigator.HashItems.Proofs.ChainProofs
import CrashInvestigator.HashItems.Proofs.OperationProofs
import CrashInvestigator.HashItems.Proofs.MapProofs
import CrashInvestigator.HashItems.Proofs.EntryListProofs
import CrashInvestigator.Tracker.Proofs.CounterProofs
import CrashInvestigator.Library.Alignment
import CrashInvestigator.Tracker.Aligned
import CrashInvestigator.Tracker.Proofs.AlignedProofs
import CrashInvestigator.Tracker.Proofs.AlignedBoundsProofs
import CrashInvestigator.Tracker.Proofs.RoundingProofs
import CrashInvestigator.Tracker.Signal
import CrashInvestigator.Tracker.Proofs.SignalProofs
import CrashInvestigator.Tracker.NewOperators
import CrashInvestigator.Tracker.Proofs.NewOperatorProofs
import CrashInvestigator.HashItems.Proofs.IterationProofs
import CrashInvestigator.Tracker.Proofs.ExhaustionProofs
import CrashInvestigator.Tracker.Chronicle
import CrashInvestigator.Tracker.Proofs.ReportProofs
import CrashInvestigator.LeakOnly.Analyzer
import CrashInvestigator.LeakOnly.Proofs.AnalyzerProofs
import CrashInvestigator.LeakOnly.Lifecycle
import CrashInvestigator.LeakOnly.Proofs.LifecycleProofs
import CrashInvestigator.Backend.Machine
import CrashInvestigator.Backend.Proofs.AllocatorProofs
import CrashInvestigator.Backend.Calloc
import CrashInvestigator.Backend.Proofs.CallocProofs
import CrashInvestigator.Library.Reentrant
import CrashInvestigator.Reentry.Routines
import CrashInvestigator.Reentry.Proofs.SafetyProofs
import CrashInvestigator.Tracker.Nesting
import CrashInvestigator.Tracker.Proofs.NestingProofs
import CrashInvestigator.Lifetime.Routines
import CrashInvestigator.Lifetime.Life
import CrashInvestigator.Lifetime.Proofs.RoutineProofs
import CrashInvestigator.Lifetime.Proofs.CallProofs
import CrashInvestigator.Lifetime.Proofs.PhaseProofs
import CrashInvestigator.Lifetime.Proofs.LifeProofs
import CrashInvestigator.Lifetime.Exit
import CrashInvestigator.Lifetime.Proofs.ExitProofs
import CrashInvestigator.Hook.FunctionTable
import CrashInvestigator.Hook.Proofs.FunctionTableProofs
import CrashInvestigator.MemoryPool.Alignment
import CrashInvestigator.MemoryPool.Proofs.AlignmentProofs
import CrashInvestigator.MemoryPool.Bounds
import CrashInvestigator.MemoryPool.Proofs.BoundsProofs
import CrashInvestigator.Tracker.BacktraceOwners
import CrashInvestigator.Tracker.Proofs.BacktraceOwnerProofs
import CrashInvestigator.Library.Words
import CrashInvestigator.Library.Positional
import CrashInvestigator.Stacks.Backtrace
import CrashInvestigator.Stacks.Proofs.KeyProofs
import CrashInvestigator.Stacks.Proofs.BucketProofs
import CrashInvestigator.MemoryPool.Proofs.PoolProofs
import CrashInvestigator.MemoryPool.Bytes
import CrashInvestigator.MemoryPool.Proofs.BytesProofs
import CrashInvestigator.MemoryPool.Proofs.TenancyProofs
import CrashInvestigator.MemoryPool.Proofs.ReallocProofs
import CrashInvestigator.Library.Simulation
import CrashInvestigator.Library.Critical
import CrashInvestigator.Detection.Locked
import CrashInvestigator.Detection.Proofs.LockedProofs
import CrashInvestigator.Library.Places
import CrashInvestigator.Detection.Reports
import CrashInvestigator.Detection.Proofs.ReportRaceProofs
import CrashInvestigator.Tracker.DefaultCallback
import CrashInvestigator.Tracker.Monitor
import CrashInvestigator.Tracker.Proofs.CallbackProofs
import CrashInvestigator.Tracker.Proofs.BooksProofs
import CrashInvestigator.Tracker.Proofs.DefaultRunProofs
import CrashInvestigator.Library.Lines
import CrashInvestigator.Tracker.ReportText
import CrashInvestigator.Tracker.Proofs.ReportTextProofs
import CrashInvestigator.Tracker.Threads
import CrashInvestigator.Tracker.Proofs.ThreadProofs
import CrashInvestigator.LeakOnly.Builds
import CrashInvestigator.LeakOnly.Proofs.BuildProofs
import CrashInvestigator.Library.Interrupts
import CrashInvestigator.Reentry.Signals
import CrashInvestigator.Reentry.Proofs.SignalProofs
import CrashInvestigator.Tracker.Proofs.RawBlockProofs
import CrashInvestigator.Reentry.Refinement
import CrashInvestigator.Reentry.Proofs.PartProofs
import CrashInvestigator.Reentry.Proofs.LockedBlockProofs
import CrashInvestigator.Reentry.Proofs.RefinementProofs
import CrashInvestigator.Library.Fallible
import CrashInvestigator.Lifetime.Exported
import CrashInvestigator.Lifetime.Proofs.ExportedPartProofs
import CrashInvestigator.Lifetime.Proofs.ExportedProofs
import CrashInvestigator.Tracker.Proofs.ThresholdProofs
import CrashInvestigator.Tracker.Proofs.RawEventProofs
import CrashInvestigator.Lifetime.Living
import CrashInvestigator.Lifetime.Proofs.LivingProofs
import CrashInvestigator.Lifetime.World
import CrashInvestigator.Lifetime.Proofs.WorldProofs
import CrashInvestigator.Lifetime.Threshold
import CrashInvestigator.Lifetime.Proofs.ThresholdProofs
import CrashInvestigator.Lifetime.History
import CrashInvestigator.Lifetime.Proofs.HistoryProofs
import CrashInvestigator.Lifetime.Nested
import CrashInvestigator.Lifetime.Proofs.NestedProofs
import CrashInvestigator.Lifetime.Aligned
import CrashInvestigator.Lifetime.Proofs.AlignedProofs
