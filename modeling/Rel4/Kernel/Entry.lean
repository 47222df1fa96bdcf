import Rel4.Ipc.Endpoint

/-!
Faults and yielding (`kernel/src/syscall/mod.rs`).
-/

namespace Rel4.Kernel
open Lib.Bitfield Common CSpace Rel4.Task Ipc

variable (a : Arch)

/-! ## Faults -/

/-- The message of a fault may go through the cap. It is not asked whether the
cap allows to send. -/
def isFaultHandlerCap (cap : CapT) : Bool :=
  getCapType cap = .endpointCap ∧ (getEpCanGrant a cap ≠ 0 ∨ getEpCanGrantReply a cap ≠ 0)

/-- The thread records the current fault, and the lookup failure of a cap fault. -/
def recordFault (s : KernelState) (t : Word) (lookupFault : Words 2) : KernelState :=
  let s := s.modifyTcb t fun tcb => { tcb with tcbFault := s.currentFault }
  if getFaultType (s.tcbs t).tcbFault = .capFault then
    s.modifyTcb t fun tcb => { tcb with tcbLookupFailure := lookupFault }
  else s

/-- `send_fault_ipc` -/
def sendFaultIpc (s : KernelState) (t : Word) : Exec (KernelState × ExceptionT) := do
  let originLookupFault := s.currentLookupFault
  let handler := (s.tcbs t).tcbFaultHandler
  let luRet ← s.lookupSlot a t handler
  if luRet.status ≠ .none then
    return ({ s with currentFault := newCapFault handler 0 }, .fault)
  let handlerCap := (s.ctes luRet.slot).cap
  if isFaultHandlerCap a handlerCap then
    let s := recordFault s t originLookupFault
    let s ← sendIpc a s (getEpPtr a handlerCap) t true true (getEpCanGrant a handlerCap ≠ 0)
      (getEpBadge a handlerCap) true
    return (s, .none)
  else
    return ({ s with
      currentFault := newCapFault handler 0, currentLookupFault := lookupFaultMissingCap 0 }, .fault)

/-- `handle_fault` -/
def handleFault (s : KernelState) (t : Word) : Exec KernelState := do
  let (s, status) ← sendFaultIpc a s t
  if status ≠ .none then return s.setThreadState a t .inactive
  return s

/-! ## Yielding -/

/-- `handle_yield` -/
def handleYield (s : KernelState) : KernelState :=
  let s := s.schedDequeue a s.ksCurThread
  let s := s.schedAppend a s.ksCurThread
  s.rescheduleRequired a

end Rel4.Kernel
