import Composite.Kernel.Retype.Outcome
import Composite.Kernel.Retype.Balance
import Composite.Kernel.CapMove
import Composite.Kernel.Construction
import Composite.Kernel.Captbl.Quiescence
import Composite.Kernel.InvocationStack
import Composite.Kernel.Dispatch.LoadedPgtbl
import Composite.Kernel.Dispatch.Marks
import Composite.Kernel.Dispatch.Notifications
import Composite.Kernel.Dispatch.Components
import Composite.Kernel.Endpoints.Parents
import Composite.Kernel.Deactivation
import Composite.Kernel.Dispatch.Priorities
import Composite.Kernel.Dispatch.Resumption
import Composite.Kernel.Ipi.Delivery
import Composite.Kernel.Dispatch.Timer
import Composite.Kernel.Dispatch.Wakeup
import Composite.Kernel.Dispatch.Encoding
import Composite.Kernel.Dispatch.Accounting
import Composite.KernelApi.Capids.Runs
import Composite.KernelApi.Memory.Runs
import Composite.Capmgr.Shmem.Runs
import Composite.Eos.Wakeup
import Composite.Eos.Net.Delivery
import Composite.Eos.Tx.Nodes
import Composite.Eos.Acceptance
import Composite.Eos.Conn.Scan
import Composite.Eos.Counters.Runs
import Composite.Sl.CriticalSection
import Composite.Sl.Freeing
import Composite.Sl.Timeouts
import Composite.Sl.WakeupCount
import Composite.Sl.Window.Runs
import Composite.Sl.Bitmap.Runs
import Composite.Kernel.Tcap.Union
import Composite.Bitmap.Contiguous
import Composite.Kernel.PageScan
import Composite.Component.ThdInit
import Composite.Heap.Runs
import Composite.Sl.Replenish
import Composite.KernelApi.Vas
