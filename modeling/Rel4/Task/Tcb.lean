import Rel4.Lib.Loop
import Rel4.Kernel.Syscall
import Rel4.Task.History
import Rel4.Task.Scheduler

/-!
The methods of a thread that touch its capability slots, its message registers
and its IPC buffer (`sel4_task/src/tcb.rs`, the faults of
`sel4_common/src/fault.rs`).
-/

namespace Rel4.Task
open Lib.Bitfield Lib.Loop Common CSpace Kernel Function

/-! ## Faults -/

inductive FaultType where
  | nullFault
  | capFault
  | unknownSyscall
  | userException
  | vmFault
  /-- A value that the enumeration of the source does not have. -/
  | undefined
  deriving DecidableEq, Repr

def FaultType.ofWord (w : Word) : FaultType :=
  match w.toNat with
  | 0 => .nullFault
  | 1 => .capFault
  | 2 => .unknownSyscall
  | 3 => .userException
  | 5 => .vmFault
  | _ => .undefined

inductive LookupFaultType where
  | invalidRoot
  | missingCap
  | depthMismatch
  | guardMismatch
  deriving DecidableEq, Repr

def LookupFaultType.ofWord (w : Word) : LookupFaultType :=
  match w.toNat with
  | 0 => .invalidRoot
  | 1 => .missingCap
  | 2 => .depthMismatch
  | _ => .guardMismatch

namespace Field

def capFaultAddress : Field 2 := ⟨1, 0, 64, 0, false⟩
def capFaultInReceivePhase : Field 2 := ⟨0, 63, 1, 0, false⟩
def unknownSyscallNumber : Field 2 := ⟨1, 0, 64, 0, false⟩
def userExceptionNumber : Field 2 := ⟨0, 32, 32, 0, false⟩
def userExceptionCode : Field 2 := ⟨0, 4, 28, 0, false⟩
def vmFaultAddress : Field 2 := ⟨1, 0, 64, 0, false⟩
def vmFaultFsr : Arch → Field 2
  | .riscv64 => ⟨0, 27, 5, 0, false⟩
  | .aarch64 => ⟨0, 32, 32, 0, false⟩
def vmFaultInstructionFault : Arch → Field 2
  | .riscv64 => ⟨0, 19, 1, 0, false⟩
  | .aarch64 => ⟨0, 31, 1, 0, false⟩

def lfGuardFound : Field 2 := ⟨1, 0, 64, 0, false⟩

end Field

def Layout.capFault : Layout 2 where
  fields := [Field.capFaultAddress, Field.capFaultInReceivePhase, Field.faultType]
  fits := by decide
  disjoint := by decide

/-- `new_cap_fault` -/
def newCapFault (address inReceivePhase : Word) : Words 2 :=
  Layout.capFault.build [address, inReceivePhase, 1]

/-- `get_fault_type` -/
def getFaultType (fault : Words 2) : FaultType := FaultType.ofWord (Field.faultType.stored fault)

/-- `get_lookup_fault_type` -/
def getLookupFaultType (fault : Words 2) : LookupFaultType :=
  LookupFaultType.ofWord (Kernel.Field.lookupFaultType.stored fault)

namespace KernelState

variable (a : Arch)

/-! ## Reply caps and restarting -/

/-- `setup_reply_master`. The new cap has no parent. -/
def setupReplyMaster (s : KernelState) (t : Word) : KernelState :=
  let slot := getCspace a t tcbReply
  if s.ctes.capType slot = .nullCap then
    { s with
      ctes := update s.ctes slot ⟨newReplyCap 1 1 t, newMdbNode a 0 1 1 0⟩
      origin := update s.origin slot ⟨s.fresh, [], s.fresh⟩
      fresh := s.fresh + 1 }
  else s

/-- `restart` -/
def restart (s : KernelState) (t : Word) : KernelState :=
  if s.isStopped t then
    let s := s.setupReplyMaster a t
    let s := s.setThreadState a t .restart
    let s := s.schedEnqueue a t
    s.possibleSwitchTo a t
  else s

/-- `setup_caller_cap`, called on the receiver `t`. -/
def setupCallerCap (s : KernelState) (t sender : Word) (canGrant : Bool) : Exec KernelState := do
  let s := s.setThreadState a sender .blockedOnReply
  let replySlot := getCspace a sender tcbReply
  let masterCap := (s.ctes replySlot).cap
  ensure (getCapType masterCap = .replyCap)
  ensure (getReplyMaster a masterCap = 1)
  ensure (getReplyCanGrant a masterCap = 1)
  ensure (getReplyTcbPtr a masterCap = sender)
  let callerSlot := getCspace a t tcbCaller
  ensure (s.ctes.capType callerSlot = .nullCap)
  s.insertCap a (newReplyCap (flag canGrant) 0 sender) replySlot callerSlot

/-! ## Lookups -/

/-- `lookup_slot` -/
def lookupSlot (s : KernelState) (t capPtr : Word) : Exec ResolveAddressBitsRet :=
  resolveAddressBits a s.ctes (s.ctes (getCspace a t tcbCTable)).cap capPtr wordBits

def getFrameVmRights (cap : CapT) : Word := (CSpace.Field.frameVmRights a).get (signExt a) cap

/-- The common part of `lookup_ipc_buffer` and `lookup_mut_ipc_buffer`: the
address of the buffer in the frame, if the rights to the frame suffice. -/
def ipcBufferInFrame (s : KernelState) (t : Word) (bufferCap : CapT) (isReceiver : Bool) :
    Exec (Option Word) :=
  let vmRights := getFrameVmRights a bufferCap
  if vmRights = vmReadWrite a ∨ (isReceiver = false ∧ vmRights = vmReadOnly a) then do
    let pageBits ← pageBitsForSize (getFrameSize a bufferCap)
    return some (getFrameBasePtr a bufferCap + ((s.tcbs t).tcbIPCBuffer &&& mask pageBits))
  else .ok none

/-- `lookup_ipc_buffer` -/
def lookupIpcBuffer (s : KernelState) (t : Word) (isReceiver : Bool) : Exec (Option Word) :=
  let bufferCap := (s.ctes (getCspace a t tcbBuffer)).cap
  if getCapType bufferCap ≠ .frameCap then .ok none
  else if getFrameIsDevice a bufferCap ≠ 0 then .ok none
  else s.ipcBufferInFrame a t bufferCap isReceiver

/-- `lookup_mut_ipc_buffer`, which does not look at the device bit. -/
def lookupMutIpcBuffer (s : KernelState) (t : Word) (isReceiver : Bool) : Exec (Option Word) :=
  let bufferCap := (s.ctes (getCspace a t tcbBuffer)).cap
  if getCapType bufferCap ≠ .frameCap then .ok none
  else s.ipcBufferInFrame a t bufferCap isReceiver

/-- The IPC buffer of a thread depends on its buffer slot and its TCB only. -/
theorem lookupIpcBuffer_congr {a : Arch} {s s' : KernelState} {t : Word} {isReceiver : Bool}
    (hcap : (s'.ctes (getCspace a t tcbBuffer)).cap = (s.ctes (getCspace a t tcbBuffer)).cap)
    (hbuf : (s'.tcbs t).tcbIPCBuffer = (s.tcbs t).tcbIPCBuffer) :
    s'.lookupIpcBuffer a t isReceiver = s.lookupIpcBuffer a t isReceiver := by
  unfold lookupIpcBuffer ipcBufferInFrame
  simp only [hcap, hbuf]

theorem lookupMutIpcBuffer_congr {a : Arch} {s s' : KernelState} {t : Word} {isReceiver : Bool}
    (hcap : (s'.ctes (getCspace a t tcbBuffer)).cap = (s.ctes (getCspace a t tcbBuffer)).cap)
    (hbuf : (s'.tcbs t).tcbIPCBuffer = (s.tcbs t).tcbIPCBuffer) :
    s'.lookupMutIpcBuffer a t isReceiver = s.lookupMutIpcBuffer a t isReceiver := by
  unfold lookupMutIpcBuffer ipcBufferInFrame
  simp only [hcap, hbuf]

/-- The loop of `lookup_extra_caps` from cap `i` on, over `n` caps. The first
lookup that fails ends it with a fault. -/
def lookupExtraCapsFrom (s : KernelState) (t buffer : Word) :
    Nat → Nat → (Nat → Word) → Exec ((Nat → Word) × Option (Words 2))
  | i, 0, res =>
    .ok (if i < msgMaxExtraCaps then update res i 0 else res, none)
  | i, n + 1, res => do
    let cptr := s.userMemory (bufferCapsOrBadges buffer i)
    let luRet ← s.lookupSlot a t cptr
    if luRet.status ≠ .none then return (res, some (newCapFault cptr 0))
    lookupExtraCapsFrom s t buffer (i + 1) n (update res i luRet.slot)

/-- `lookup_extra_caps_with_buf`: the slots, and the fault if there is one. -/
def lookupExtraCapsWithBuf (s : KernelState) (t : Word) (res : Nat → Word) (buf : Option Word) :
    Exec ((Nat → Word) × Option (Words 2)) :=
  let info := MessageInfo.fromWordSecurity (s.getRegister a t .msgInfo)
  match buf with
  | some buffer => s.lookupExtraCapsFrom a t buffer 0 info.getExtraCaps.toNat res
  | none => .ok (res, none)

/-- `lookup_extra_caps` -/
def lookupExtraCaps (s : KernelState) (t : Word) (res : Nat → Word) :
    Exec ((Nat → Word) × Option (Words 2)) := do
  let buf ← s.lookupIpcBuffer a t false
  s.lookupExtraCapsWithBuf a t res buf

/-- `get_receive_slot`. It does not ask whether the slot is empty. -/
def getReceiveSlot (s : KernelState) (t : Word) : Exec (Option Word) := do
  match ← s.lookupIpcBuffer a t true with
  | none => return none
  | some buffer =>
    let luRet ← s.lookupSlot a t (s.userMemory (bufferReceiveCNode buffer))
    if luRet.status ≠ .none then return none
    let lusRet ← resolveAddressBits a s.ctes (s.ctes luRet.slot).cap
      (s.userMemory (bufferReceiveIndex buffer)) (s.userMemory (bufferReceiveDepth buffer))
    if lusRet.status ≠ .none ∨ lusRet.bitsRemaining ≠ 0 then return none
    return some lusRet.slot

/-! ## Message registers -/

def setUserWord (s : KernelState) (p v : Word) : KernelState :=
  { s with userMemory := update s.userMemory p v }

/-- `set_mr`: the state and the number of message words written so far. -/
def setMr (s : KernelState) (t : Word) (offset : Nat) (reg : Word) :
    Exec (KernelState × Nat) :=
  if offset ≥ msgRegisterNum then do
    match ← s.lookupMutIpcBuffer a t true with
    | some buffer => return (s.setUserWord (bufferMsg buffer offset) reg, offset + 1)
    | none => return (s, msgRegisterNum)
  else .ok (s.setRegister a t (.msg offset) reg, offset + 1)

/-- `set_mr` for several words in a row. -/
def setMrs (s : KernelState) (t : Word) : Nat → List Word → Exec (KernelState × Nat)
  | offset, [] => .ok (s, offset)
  | offset, [w] => s.setMr a t offset w
  | offset, w :: ws => do
    let (s, _) ← s.setMr a t offset w
    setMrs s t (offset + 1) ws

/-- `set_lookup_fault_mrs` -/
def setLookupFaultMrs (s : KernelState) (t : Word) (offset : Nat) (fault : Words 2) :
    Exec (KernelState × Nat) :=
  let lufType := Kernel.Field.lookupFaultType.stored fault + 1
  let bitsLeft := Kernel.Field.lfBitsLeft.stored fault
  let bitsFound := Kernel.Field.lfBitsFound.stored fault
  match getLookupFaultType fault with
  | .invalidRoot => s.setMrs a t offset [lufType]
  | .missingCap => s.setMrs a t offset [lufType, bitsLeft]
  | .depthMismatch => s.setMrs a t offset [lufType, bitsLeft, bitsFound]
  | .guardMismatch =>
    s.setMrs a t offset [lufType, bitsLeft, Field.lfGuardFound.stored fault, bitsFound]

/-- `copy_mrs`: the state and the number of words copied. -/
def copyMrs (s : KernelState) (t receiver : Word) (length : Nat) : Exec (KernelState × Nat) := do
  let len := min length msgRegisterNum
  let s := forLoop (fun i s => s.setRegister a receiver (.msg i) (s.getRegister a t (.msg i)))
    0 len s
  let sendBuffer ← s.lookupIpcBuffer a t false
  let recvBuffer ← s.lookupMutIpcBuffer a receiver true
  match sendBuffer, recvBuffer with
  | some sendBuffer, some recvBuffer =>
    let s := forLoop
      (fun i s => s.setUserWord (bufferMsg recvBuffer i) (s.userMemory (bufferMsg sendBuffer i)))
      len (length - len) s
    return (s, len + (length - len))
  | _, _ => return (s, len)

/-- `copy_fault_mrs` -/
def copyFaultMrs (s : KernelState) (t receiver : Word) (id length : Nat) : Exec KernelState := do
  let len := min length msgRegisterNum
  let s := forLoop
    (fun i s => s.setRegister a receiver (.msg i) (s.getRegister a t (.faultMessage id i)))
    0 len s
  match ← s.lookupMutIpcBuffer a receiver true with
  | some buffer =>
    return forLoop
      (fun i s => s.setUserWord (bufferMsg buffer i) (s.getRegister a t (.faultMessage id i)))
      len (length - len) s
  | none => return s

/-- `copy_fault_mrs_for_reply` -/
def copyFaultMrsForReply (s : KernelState) (t receiver : Word) (id length : Nat) :
    Exec KernelState := do
  let len := min length msgRegisterNum
  let s := forLoop
    (fun i s => s.setRegister a receiver (.faultMessage id i) (s.getRegister a t (.msg i)))
    0 len s
  match ← s.lookupIpcBuffer a t false with
  | some buffer =>
    return forLoop
      (fun i s => s.setRegister a receiver (.faultMessage id i)
        (s.userMemory (bufferMsg buffer i)))
      len (length - len) s
  | none => return s

end KernelState

end Rel4.Task
