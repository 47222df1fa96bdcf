import Rel4.Kernel.Delete
import Rel4.Task.Tcb

/-!
Message transfer between threads (`sel4_ipc/src/transfer.rs`).
-/

namespace Rel4.Ipc
open Lib.Bitfield Common CSpace Rel4.Task Kernel

variable (a : Arch)

/-! ## Caps in a message -/

/-- One turn of the loop of `set_transfer_caps`: a cap of the message is derived
into the receive slot; `none` ends the loop. -/
def transferCap (s : KernelState) (slot dest : Word) : Exec (Option KernelState) := do
  let (status, newCap) ← deriveCap a s.ctes slot (s.ctes slot).cap
  if status ≠ .none ∨ getCapType newCap = .nullCap then return none
  let s ← s.insertCap a newCap slot dest
  return some s

/-- The cap is to the endpoint that the message goes through; its badge is sent
instead of the cap. -/
def isUnwrapped (cap : CapT) (endpoint : Option Word) : Bool :=
  getCapType cap = .endpointCap ∧ endpoint = some (getEpPtr a cap)

/-- `info.set_caps_unwrapped(info.get_caps_unwrapped() | (1 << i))` -/
def unwrapCap (info : MessageInfo) (i : Nat) : MessageInfo :=
  Common.Field.miCapsUnwrapped.set info (info.getCapsUnwrapped ||| bit (BitVec.ofNat 64 i))

/-- The loop of `set_transfer_caps` from cap `i` on, over at most `n` caps. Only
one cap can go to the receive slot. -/
def transferCapsFrom (endpoint : Option Word) (buffer : Word) (extraCaps : Nat → Word) :
    Nat → Nat → KernelState → MessageInfo → Option Word → Exec (KernelState × MessageInfo × Nat)
  | i, 0, s, info, _ => .ok (s, info, i)
  | i, n + 1, s, info, destSlot =>
    if extraCaps i = 0 then .ok (s, info, i)
    else
      let slot := extraCaps i
      let cap := (s.ctes slot).cap
      if isUnwrapped a cap endpoint then
        let s := s.setUserWord (bufferCapsOrBadges buffer i) (getEpBadge a cap)
        transferCapsFrom endpoint buffer extraCaps (i + 1) n s (unwrapCap info i) destSlot
      else
        match destSlot with
        | none => .ok (s, info, i)
        | some dest => do
          match ← transferCap a s slot dest with
          | none => return (s, info, i)
          | some s => transferCapsFrom endpoint buffer extraCaps (i + 1) n s info none

/-- `set_transfer_caps`, called on the receiver `t`. -/
def setTransferCaps (s : KernelState) (t : Word) (endpoint : Option Word) (info : MessageInfo)
    (extraCaps : Nat → Word) : Exec (KernelState × MessageInfo) := do
  let info := Common.Field.miExtraCaps.set info 0
  let info := Common.Field.miCapsUnwrapped.set info 0
  match ← s.lookupMutIpcBuffer a t true with
  | none => return (s, info)
  | some buffer =>
    if extraCaps 0 = 0 then return (s, info)
    let destSlot ← s.getReceiveSlot a t
    let (s, info, i) ←
      transferCapsFrom a endpoint buffer extraCaps 0 msgMaxExtraCaps s info destSlot
    return (s, Common.Field.miExtraCaps.set info (BitVec.ofNat 64 i))

/-! ## Messages -/

/-- The words of a fault message: `set_mr` calls of `do_fault_transfer`. -/
def setFaultMrs (s : KernelState) (t receiver : Word) : Exec (KernelState × Nat) :=
  let fault := (s.tcbs t).tcbFault
  let faultIP := s.getRegister a t .faultIP
  match getFaultType fault with
  | .capFault => do
    let (s, _) ← s.setMrs a receiver 0
      [faultIP, Task.Field.capFaultAddress.stored fault,
        Task.Field.capFaultInReceivePhase.stored fault]
    s.setLookupFaultMrs a receiver 3 (s.tcbs t).tcbLookupFailure
  | .unknownSyscall => do
    let s ← s.copyFaultMrs a t receiver messageIDSyscall (syscallMessageNum a)
    s.setMrs a receiver (syscallMessageNum a) [Task.Field.unknownSyscallNumber.stored fault]
  | .userException => do
    let s ← s.copyFaultMrs a t receiver messageIDException (exceptionMessageNum a)
    s.setMrs a receiver (exceptionMessageNum a)
      [Task.Field.userExceptionNumber.stored fault, Task.Field.userExceptionCode.stored fault]
  | .vmFault =>
    s.setMrs a receiver 0
      [faultIP, Task.Field.vmFaultAddress.stored fault,
        (Task.Field.vmFaultInstructionFault a).stored fault, (Task.Field.vmFaultFsr a).stored fault]
  | _ => .error .panicked

/-- `do_fault_transfer` -/
def doFaultTransfer (s : KernelState) (t receiver badge : Word) : Exec KernelState := do
  let (s, sent) ← setFaultMrs a s t receiver
  let label := Task.Field.faultType.stored (s.tcbs t).tcbFault
  let msgInfo := MessageInfo.new label 0 0 (BitVec.ofNat 64 sent)
  let s := s.setRegister a receiver .msgInfo msgInfo.toWord
  return s.setRegister a receiver .badge badge

/-- The slots of the caps that the sender grants; a fault in their lookup is ignored. -/
def grantedCaps (s : KernelState) (t : Word) (canGrant : Bool) : Exec (Nat → Word) :=
  if canGrant then do
    let (extraCaps, _) ← s.lookupExtraCaps a t fun _ => 0
    return extraCaps
  else .ok fun _ => 0

/-- `do_normal_transfer` -/
def doNormalTransfer (s : KernelState) (t receiver : Word) (endpoint : Option Word) (badge : Word)
    (canGrant : Bool) : Exec KernelState := do
  let tag := MessageInfo.fromWordSecurity (s.getRegister a t .msgInfo)
  let extraCaps ← grantedCaps a s t canGrant
  let (s, msgTransferred) ← s.copyMrs a t receiver tag.getLength.toNat
  let (s, tag) ← setTransferCaps a s receiver endpoint tag extraCaps
  let tag := Common.Field.miLength.set tag (BitVec.ofNat 64 msgTransferred)
  let s := s.setRegister a receiver .msgInfo (MessageInfo.toWord tag)
  return s.setRegister a receiver .badge badge

/-- `do_ipc_transfer` -/
def doIpcTransfer (s : KernelState) (t receiver : Word) (endpoint : Option Word) (badge : Word)
    (grant : Bool) : Exec KernelState :=
  if getFaultType (s.tcbs t).tcbFault = .nullFault then
    doNormalTransfer a s t receiver endpoint badge grant
  else doFaultTransfer a s t receiver badge

/-! ## Replies -/

/-- `do_fault_reply_transfer`: the state, and whether the receiver restarts. -/
def doFaultReplyTransfer (s : KernelState) (t receiver : Word) : Exec (KernelState × Bool) :=
  let tag := MessageInfo.fromWordSecurity (s.getRegister a t .msgInfo)
  let label := MessageLabel.ofWord a tag.getUsizeLabel
  let length := tag.getLength.toNat
  let restarts : Bool := label = .invalidInvocation
  match getFaultType (s.tcbs receiver).tcbFault with
  | .unknownSyscall => do
    let s ← s.copyFaultMrsForReply a t receiver messageIDSyscall
      (min length (syscallMessageNum a))
    return (s, restarts)
  | .userException => do
    let s ← s.copyFaultMrsForReply a t receiver messageIDException
      (min length (exceptionMessageNum a))
    return (s, restarts)
  | _ => .ok (s, true)

/-- `do_reply`. The fault of the receiver stays in its TCB. -/
def doReply (s : KernelState) (t receiver slot : Word) (grant : Bool) : Exec KernelState := do
  ensure (s.getState receiver = .blockedOnReply)
  if getFaultType (s.tcbs receiver).tcbFault = .nullFault then
    let s ← doIpcTransfer a s t receiver none 0 grant
    let s ← deleteOne a s slot
    let s := s.setThreadState a receiver .running
    return s.possibleSwitchTo a receiver
  else
    let s ← deleteOne a s slot
    let (s, restarts) ← doFaultReplyTransfer a s t receiver
    if restarts then
      return (s.setThreadState a receiver .restart).possibleSwitchTo a receiver
    else return s.setThreadState a receiver .inactive

/-! ## Signals to the bound thread -/

/-- `complete_signal`: whether a signal was waiting in the bound notification. -/
def completeSignal (s : KernelState) (t : Word) : KernelState × Bool :=
  let ntfn := (s.tcbs t).tcbBoundNotification
  if ntfn ≠ 0 ∧ getNtfnState s ntfn = .active then
    let badge := Task.Field.ntfnMsgIdentifier.stored (s.notifications ntfn)
    let s := s.setRegister a t .badge badge
    (setNtfnState s ntfn .idle, true)
  else (s, false)

end Rel4.Ipc
