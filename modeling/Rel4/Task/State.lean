import Rel4.CSpace.Cte

/-!
The state of the kernel: capability slots, threads, endpoints, notifications,
the scheduler and the interrupt table (`sel4_task`, `sel4_ipc`, `kernel`).

Objects are kept by address, as the source reaches them. `Origin` and
`readyOrder` are history variables: they say where the cap in a slot came from
and in which order threads became ready, and nothing in the model reads them.
-/

namespace Rel4.Task
open Lib.Bitfield Common CSpace Function

/-! ## Thread states -/

inductive ThreadState where
  | inactive
  | running
  | restart
  | blockedOnReceive
  | blockedOnSend
  | blockedOnReply
  | blockedOnNotification
  | idleThreadState
  | exited
  /-- A value that the enumeration of the source does not have. -/
  | undefined
  deriving DecidableEq, Repr

namespace ThreadState

def toWord : ThreadState → Word
  | .inactive => 0
  | .running => 1
  | .restart => 2
  | .blockedOnReceive => 3
  | .blockedOnSend => 4
  | .blockedOnReply => 5
  | .blockedOnNotification => 6
  | .idleThreadState => 7
  | .exited => 8
  | .undefined => 15

def ofWord (w : Word) : ThreadState :=
  match w.toNat with
  | 0 => .inactive
  | 1 => .running
  | 2 => .restart
  | 3 => .blockedOnReceive
  | 4 => .blockedOnSend
  | 5 => .blockedOnReply
  | 6 => .blockedOnNotification
  | 7 => .idleThreadState
  | 8 => .exited
  | _ => .undefined

end ThreadState

namespace Field

def tsBlockingIpcBadge : Field 3 := ⟨2, 0, 64, 0, false⟩
def tsBlockingIpcCanGrant : Field 3 := ⟨1, 3, 1, 0, false⟩
def tsBlockingIpcCanGrantReply : Field 3 := ⟨1, 2, 1, 0, false⟩
def tsBlockingIpcIsCall : Field 3 := ⟨1, 1, 1, 0, false⟩
def tsTcbQueued : Field 3 := ⟨1, 0, 1, 0, false⟩
def tsBlockingObject : Arch → Field 3
  | .riscv64 => ⟨0, 4, 35, 4, true⟩
  | .aarch64 => ⟨0, 4, 44, 4, true⟩
def tsType : Field 3 := ⟨0, 0, 4, 0, false⟩

def epQueueHead : Field 2 := ⟨1, 0, 64, 0, false⟩
def epQueueTail : Arch → Field 2
  | .riscv64 => ⟨0, 2, 37, 2, true⟩
  | .aarch64 => ⟨0, 2, 46, 2, true⟩
def epState : Field 2 := ⟨0, 0, 2, 0, false⟩

def ntfnBoundTcb : Arch → Field 4
  | .riscv64 => ⟨3, 0, 39, 0, true⟩
  | .aarch64 => ⟨3, 0, 48, 0, true⟩
def ntfnMsgIdentifier : Field 4 := ⟨2, 0, 64, 0, false⟩
def ntfnQueueHead : Arch → Field 4
  | .riscv64 => ⟨1, 0, 39, 0, true⟩
  | .aarch64 => ⟨1, 0, 48, 0, true⟩
def ntfnQueueTail : Arch → Field 4
  | .riscv64 => ⟨0, 25, 39, 0, true⟩
  | .aarch64 => ⟨0, 16, 48, 0, true⟩
def ntfnState : Field 4 := ⟨0, 0, 2, 0, false⟩

def faultType : Field 2 := ⟨0, 0, 4, 0, false⟩

end Field

/-! ## Registers (`arch/*/registers.rs`) -/

inductive ArchReg where
  | tlsBase
  | cap
  | badge
  | msgInfo
  | faultIP
  | nextIP
  | msg (i : Nat)
  | frame (i : Nat)
  | gp (i : Nat)
  | faultMessage (id i : Nat)
  deriving DecidableEq, Repr

/-- `msgRegisterNum` -/
def msgRegisterNum : Nat := 4

/-- `frameRegisters` -/
def frameRegisters : Arch → List Nat
  | .riscv64 => [33, 0, 1, 2, 7, 8, 17, 18, 19, 20, 21, 22, 23, 24, 25, 26]
  | .aarch64 => [34, 31, 33, 0, 1, 2, 3, 4, 5, 6, 7, 8, 16, 17, 18, 29, 30]

/-- `gpRegisters` -/
def gpRegisters : Arch → List Nat
  | .riscv64 => [9, 10, 11, 12, 13, 14, 15, 16, 4, 5, 6, 27, 28, 29, 30, 3]
  | .aarch64 => [9, 10, 11, 12, 13, 14, 15, 19, 20, 21, 22, 23, 24, 25, 26, 27, 28, 35, 36]

def frameRegNum (a : Arch) : Nat := (frameRegisters a).length
def gpRegNum (a : Arch) : Nat := (gpRegisters a).length

/-- `fault_messages` -/
def faultMessages : Arch → List (List Nat)
  | .riscv64 => [[33, 1, 0, 9, 10, 11, 12, 13, 14, 15], [33, 1, 0, 0, 0, 0, 0, 0, 0, 0]]
  | .aarch64 => [[0, 1, 2, 3, 4, 5, 6, 7, 34, 31, 32, 33], [34, 31, 33, 0, 0, 0, 0, 0, 0, 0, 0, 0]]

/-- `n_syscallMessage` -/
def syscallMessageNum : Arch → Nat
  | .riscv64 => 10
  | .aarch64 => 12

/-- `n_exceptionMessage` -/
def exceptionMessageNum : Arch → Nat
  | .riscv64 => 2
  | .aarch64 => 3

/-- `MessageID_Syscall` and `MessageID_Exception` -/
def messageIDSyscall : Nat := 0
def messageIDException : Nat := 1

/-- `to_index`; the cap and badge registers are one register. The callers keep
the indices inside the tables. -/
def ArchReg.toIndex : Arch → ArchReg → Nat
  | .riscv64, .tlsBase => 3
  | .riscv64, .cap => 9
  | .riscv64, .badge => 9
  | .riscv64, .msgInfo => 10
  | .riscv64, .faultIP => 33
  | .riscv64, .nextIP => 34
  | .riscv64, .msg i => 11 + i
  | .aarch64, .tlsBase => 35
  | .aarch64, .cap => 0
  | .aarch64, .badge => 0
  | .aarch64, .msgInfo => 1
  | .aarch64, .faultIP => 34
  | .aarch64, .nextIP => 32
  | .aarch64, .msg i => 2 + i
  | a, .frame i => (frameRegisters a).getD i 0
  | a, .gp i => (gpRegisters a).getD i 0
  | a, .faultMessage id i => ((faultMessages a).getD id []).getD i 0

/-! ## Threads -/

/-- `tcb_t` -/
structure Tcb where
  registers : Nat → Word
  tcbState : Words 3
  tcbBoundNotification : Word
  tcbFault : Words 2
  tcbLookupFailure : Words 2
  domain : Word
  tcbMCP : Word
  tcbPriority : Word
  tcbTimeSlice : Word
  tcbFaultHandler : Word
  tcbIPCBuffer : Word
  tcbSchedNext : Word
  tcbSchedPrev : Word
  tcbEPNext : Word
  tcbEPPrev : Word

/-- `tcb_queue_t` -/
structure TcbQueue where
  head : Word
  tail : Word
  deriving DecidableEq, Repr

/-! ## Errors -/

/-- `seL4_Error` -/
inductive SyscallErrorType where
  | noError
  | invalidArgument
  | invalidCapability
  | illegalOperation
  | rangeError
  | alignmentError
  | failedLookup
  | truncatedMessage
  | deleteFirst
  | revokeFirst
  | notEnoughMemory
  deriving DecidableEq, Repr

/-- `syscall_error_t`. An error sets the fields it speaks of and leaves the others. -/
structure SyscallErrorT where
  invalidArgumentNumber : Word
  invalidCapNumber : Word
  rangeErrorMin : Word
  rangeErrorMax : Word
  memoryLeft : Word
  failedLookupWasSource : Word
  type : SyscallErrorType
  deriving DecidableEq, Repr

/-! ## History of caps -/

/-- Where the cap in a slot came from: its own number, the numbers of the caps
it was derived from (the nearest first), and the number of its object. -/
structure Origin where
  id : Nat
  ancestors : List Nat
  object : Nat
  deriving DecidableEq, Repr

/-! ## The kernel -/

structure KernelState where
  ctes : Slots
  tcbs : Word → Tcb
  endpoints : Word → Words 2
  notifications : Word → Words 4
  ksReadyQueues : Word → TcbQueue
  ksReadyQueuesL1Bitmap : Word → Word
  ksReadyQueuesL2Bitmap : Word → Word → Word
  ksCurThread : Word
  ksIdleThread : Word
  ksSchedulerAction : Word
  ksCurDomain : Word
  ksDomainTime : Word
  ksDomScheduleIdx : Word
  ksWorkUnitsCompleted : Word
  intStateIRQTable : Word → Word
  intStateIRQNode : Word
  /-- What the hardware answers to the `n`-th question for a pending interrupt,
  and how many times it was asked. -/
  irqPending : Nat → Bool
  irqPolls : Nat
  /-- The words of frames, page tables and ASID pools, by kernel address. -/
  userMemory : Word → Word
  /-- `riscvKSASIDTable`, `armKSASIDTable`: the pools, by the high bits of the ASID. -/
  asidTable : Word → Word
  /-- The static table for threads without an address space: `kernel_root_pageTable`,
  `armKSGlobalUserVSpace`. -/
  globalVSpace : Word
  /-- The register with the user's root table: `satp`, `TTBR0_EL1`. -/
  userRoot : Word
  currentSyscallError : SyscallErrorT
  currentLookupFault : Words 2
  currentFault : Words 2
  /-- The slots of the extra caps of the message, `0` behind the last. -/
  currentExtraCaps : Nat → Word
  /-- History: the origin of the cap in each slot. -/
  origin : Word → Origin
  /-- History: the next unused number. -/
  fresh : Nat
  /-- History: the threads in the ready queues, in the order in which they joined. -/
  readyOrder : List Word

/-- Zeroed memory. -/
def Tcb.zero : Tcb :=
  ⟨fun _ => 0, fun _ => 0, 0, fun _ => 0, fun _ => 0, 0, 0, 0, 0, 0, 0, 0, 0, 0, 0⟩

namespace KernelState

/-- Zeroed memory, with no cap and no interrupt. -/
def zero : KernelState where
  ctes := fun _ => emptyCte
  tcbs := fun _ => Tcb.zero
  endpoints := fun _ _ => 0
  notifications := fun _ _ => 0
  ksReadyQueues := fun _ => ⟨0, 0⟩
  ksReadyQueuesL1Bitmap := fun _ => 0
  ksReadyQueuesL2Bitmap := fun _ _ => 0
  ksCurThread := 0
  ksIdleThread := 0
  ksSchedulerAction := 0
  ksCurDomain := 0
  ksDomainTime := 0
  ksDomScheduleIdx := 0
  ksWorkUnitsCompleted := 0
  intStateIRQTable := fun _ => 0
  intStateIRQNode := 0
  irqPending := fun _ => false
  irqPolls := 0
  userMemory := fun _ => 0
  asidTable := fun _ => 0
  globalVSpace := 0
  userRoot := 0
  currentSyscallError := ⟨0, 0, 0, 0, 0, 0, .noError⟩
  currentLookupFault := fun _ => 0
  currentFault := fun _ => 0
  currentExtraCaps := fun _ => 0
  origin := fun _ => ⟨0, [], 0⟩
  fresh := 0
  readyOrder := []

variable (a : Arch)

def modifyTcb (s : KernelState) (t : Word) (f : Tcb → Tcb) : KernelState :=
  { s with tcbs := update s.tcbs t (f (s.tcbs t)) }

def setCtes (s : KernelState) (σ : Slots) : KernelState := { s with ctes := σ }

/-- Record an error and return. -/
def fail (s : KernelState) (f : SyscallErrorT → SyscallErrorT) : KernelState × ExceptionT :=
  ({ s with currentSyscallError := f s.currentSyscallError }, .syscallError)

/-- `tcbArch.get_register` -/
def getRegister (s : KernelState) (t : Word) (r : ArchReg) : Word :=
  (s.tcbs t).registers (r.toIndex a)

/-- `tcbArch.set_register` -/
def setRegister (s : KernelState) (t : Word) (r : ArchReg) (v : Word) : KernelState :=
  s.modifyTcb t fun tcb =>
    { tcb with registers := update tcb.registers (r.toIndex a) v }

/-- `tcb_t::get_state` -/
def getState (s : KernelState) (t : Word) : ThreadState :=
  ThreadState.ofWord (Field.tsType.stored (s.tcbs t).tcbState)

def tsGet (s : KernelState) (t : Word) (f : Field 3) : Word :=
  f.get (signExt a) (s.tcbs t).tcbState

def tsSet (s : KernelState) (t : Word) (f : Field 3) (v : Word) : KernelState :=
  s.modifyTcb t fun tcb => { tcb with tcbState := f.set tcb.tcbState v }

/-- `is_runnable` -/
def isRunnable (s : KernelState) (t : Word) : Bool :=
  s.getState t = .running ∨ s.getState t = .restart

/-- `is_stopped` -/
def isStopped (s : KernelState) (t : Word) : Bool :=
  match s.getState t with
  | .inactive | .blockedOnNotification | .blockedOnReceive | .blockedOnReply
  | .blockedOnSend => true
  | _ => false

/-- `get_cspace`: the address of the `i`-th slot of a thread. -/
def getCspace (t i : Word) : Word := (t &&& ~~~mask (tcbBits a)) + 32 * i

end KernelState

/-! ## Constants of the scheduler -/

def resumeCurrentThread : Word := 0
def chooseNewThread : Word := 1
def configTimeSlice : Word := 5
def numPriorities : Word := 256
def l2BitmapSize : Word := 4

end Rel4.Task
