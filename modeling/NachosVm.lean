import NachosVm.Machine.Config
import NachosVm.Machine.TranslationTable
import NachosVm.Kernel.State
import NachosVm.Vm.PhysMem
import NachosVm.Vm.FreeList
import NachosVm.Machine.MainMemory
import NachosVm.Machine.Mmu
import NachosVm.Vm.PageFault
import NachosVm.Vm.FrameTable
import NachosVm.Machine.Translation
import NachosVm.Machine.VirtualMemory
import NachosVm.Machine.ByteAccess
import NachosVm.Vm.SwapManager
import NachosVm.Vm.SwapRun
import NachosVm.Kernel.Semaphore
import NachosVm.Kernel.Lock
import NachosVm.Kernel.Exception
import NachosVm.Utility.List
import NachosVm.Utility.SortedList
import NachosVm.Kernel.WaitQueue
import NachosVm.Vm.PhysMemList
import NachosVm.Kernel.ReadWrite
