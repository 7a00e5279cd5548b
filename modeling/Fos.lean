import Fos.Console.KeyboardProperties
import Fos.Console.LineEditorProperties
import Fos.Console.Readline
import Fos.Debug.StabsProperties
import Fos.Foundation.Chains
import Fos.Foundation.Ownership
import Fos.Foundation.Recency
import Fos.Foundation.Ring
import Fos.Foundation.Runs
import Fos.Foundation.Slots
import Fos.Foundation.Tiling
import Fos.Foundation.Weakest
import Fos.Kernel.AccessProperties
import Fos.Kernel.AllocationProperties
import Fos.Kernel.AtomicCreation
import Fos.Kernel.Bookkeeping
import Fos.Kernel.BootMapping
import Fos.Kernel.BootMappingProperties
import Fos.Kernel.Confinement
import Fos.Kernel.Conservation
import Fos.Kernel.CreationSizesProperties
import Fos.Kernel.EmptyFlags
import Fos.Kernel.EmptyTables
import Fos.Kernel.EnvFreeProperties
import Fos.Kernel.EnvironmentIdsProperties
import Fos.Kernel.FaultsProperties
import Fos.Kernel.FramesStorage
import Fos.Kernel.Isolation
import Fos.Kernel.Lifetimes
import Fos.Kernel.ListRuns
import Fos.Kernel.ListedPages
import Fos.Kernel.MappingRuns
import Fos.Kernel.PageCall
import Fos.Kernel.PageStoreProperties
import Fos.Kernel.ProgramHeadersProperties
import Fos.Kernel.RangeAgreement
import Fos.Kernel.Rejections
import Fos.Kernel.RequiredFrames
import Fos.Kernel.ScarceMemory
import Fos.Kernel.StartupProperties
import Fos.Kernel.System
import Fos.Kernel.TableFileProperties
import Fos.Kernel.WrittenBytes
import Fos.Kernel.ZeroPages
import Fos.Layout
import Fos.Library.BufferedText
import Fos.Library.Concurrency
import Fos.Library.CprintfProperties
import Fos.Library.NumbersProperties
import Fos.Library.Split
import Fos.Process.HeapPages
import Fos.Process.Release
import Fos.Queue.Concat
import Fos.Queue.Lists
import Fos.Queue.ListsProperties
import Fos.Queue.Traversal
import Fos.Sched.BoundedWaiting
import Fos.Sched.ExitAndKill
import Fos.Sched.RoundRobin
import Fos.Sched.Schedule
import Fos.Sched.ScheduleProperties
import Fos.Sched.Scheduler
import Fos.Sched.SchedulerProperties
import Fos.Sched.SchedulerRuns
import Fos.UserHeap.BestFit
import Fos.UserHeap.Capacity
import Fos.UserHeap.Coalescing
import Fos.UserHeap.Pointers
import Fos.UserHeap.Requests
import Fos.UserHeap.Session
