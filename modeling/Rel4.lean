import Rel4.VSpace.Root
import Rel4.Kernel.Bitfields
import Rel4.Kernel.Zombies
import Rel4.Kernel.Reset
import Rel4.Ipc.CapTransfer
import Rel4.Kernel.Affinity
import Rel4.Kernel.CopyRegisters
import Rel4.Kernel.Allocation
import Rel4.Kernel.IrqRun
import Rel4.Kernel.Flush
import Rel4.Kernel.Structures
import Rel4.Kernel.RootPlacement
import Rel4.Kernel.AsidRun
import Rel4.Kernel.Attenuate
import Rel4.Kernel.FaultReply
import Rel4.Kernel.RoundRobin
import Rel4.Kernel.SignalRun
import Rel4.Kernel.BadgedSends
import Rel4.Kernel.Fastpath
