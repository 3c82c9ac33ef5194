import Pintos.FixedPoint
import Pintos.KernelList
import Pintos.ThreadState
import Pintos.Scheduler
import Pintos.Transitions
import Pintos.SchedulerSpec
import Pintos.StatusDiscipline
import Pintos.StatusRuns
import Pintos.ReadyOrder
import Pintos.Preemption
import Pintos.SleepQueue
import Pintos.DispatchFrame
import Pintos.Donation
import Pintos.PriorityRange
import Pintos.Creation
import Pintos.Mlfqs
import Pintos.FileList
import Pintos.Vm.Swap
import Pintos.Vm.Frame
import Pintos.Vm.Clock
import Pintos.Filesys.Directory
import Pintos.Filesys.Path
import Pintos.Filesys.Handles
import Pintos.Filesys.Readdir
import Pintos.Filesys.HandleRuns
import Pintos.Filesys.Tree
