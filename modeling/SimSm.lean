import SimSm.Gpu
import SimSm.Library.Outcome
import SimSm.Library.Pointwise
import SimSm.Library.Rendezvous
import SimSm.Occupancy
import SimSm.Policies
import SimSm.Execution
import SimSm.Reconvergence
import SimSm.PathMachine
import SimSm.SingleWarp
import SimSm.Structured
import SimSm.Divergence
import SimSm.Tick
import SimSm.Residency
import SimSm.Admission
import SimSm.Barrier
import SimSm.Stranding
import SimSm.Progress
import SimSm.Latency
import SimSm.Accounting
import SimSm.Library.Recency
import SimSm.Lru
import SimSm.Exits
import SimSm.Traffic
import SimSm.Conservation
import SimSm.Amat
import SimSm.Dispatch
import SimSm.Faults
import SimSm.Library.Interleaving
import SimSm.MemoryPaths
import SimSm.GridMachine
import SimSm.GridRun
import SimSm.NamedWarps
import SimSm.RaceFreedom
import SimSm.Benchmarks
import SimSm.CacheLedger
import SimSm.Fairness
import SimSm.Atomicity
import SimSm.Isolation
import SimSm.ShadowPcs
import SimSm.Grids
import SimSm.ActiveSet
import SimSm.GreedyThenOldest
import SimSm.DispatchAge
import SimSm.Analyzer
import SimSm.BankConflicts
import SimSm.BulkSynchronous
import SimSm.GridPartition
import SimSm.Histogram
import SimSm.LifeCycle
import SimSm.WarpMemory
import SimSm.HistogramRun
import SimSm.Gemm
import SimSm.GemmRun
import SimSm.Library.StridedSum
import SimSm.Reduction
import SimSm.ReductionRun
import SimSm.AgreeingWrites
import SimSm.Coalescing
import SimSm.Library.Descent
import SimSm.Memcpy
import SimSm.Termination
import SimSm.Diagnoses
import SimSm.MemcpyBenchmark
import SimSm.Transactions
import SimSm.WorkDone
import SimSm.Analysis
