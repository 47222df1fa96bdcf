import Rel4.Ipc.Transfer

/-!
Invocations of threads
(`kernel/src/syscall/invocation/decode/decode_tcb_invocation.rs`,
`invoke_tcb.rs`, the binding of notifications in `syscall/utils.rs`).
-/

namespace Rel4.Kernel
open Lib.Bitfield Lib.Loop Common CSpace Rel4.Task Ipc

variable (a : Arch)

def truncatedMessage (e : SyscallErrorT) : SyscallErrorT := { e with type := .truncatedMessage }

def illegalOperation (e : SyscallErrorT) : SyscallErrorT := { e with type := .illegalOperation }

/-- The current thread restarts once the invocation is through. -/
def restartCurrent (s : KernelState) : KernelState := s.setThreadState a s.ksCurThread .restart

/-- `rescheduleRequired` if the thread is the current one. -/
def rescheduleIfCurrent (s : KernelState) (t : Word) : KernelState :=
  if t = s.ksCurThread then s.rescheduleRequired a else s

/-! ## Suspending and resuming -/

/-- `invoke_tcb_suspend` -/
def invokeTcbSuspend (s : KernelState) (t : Word) : Exec KernelState := do
  let s ← cancelIpc a s t
  return s.suspend a t

/-- `invoke_tcb_resume` -/
def invokeTcbResume (s : KernelState) (t : Word) : Exec KernelState := do
  let s ← cancelIpc a s t
  return s.restart a t

/-- The label `TCBSuspend` in `decode_tcb_invocation`. -/
def decodeTcbSuspend (s : KernelState) (cap : CapT) : Exec (KernelState × ExceptionT) := do
  let s ← invokeTcbSuspend a (restartCurrent a s) (getTcbPtr a cap)
  return (s, .none)

/-- The label `TCBResume` in `decode_tcb_invocation`. -/
def decodeTcbResume (s : KernelState) (cap : CapT) : Exec (KernelState × ExceptionT) := do
  let s ← invokeTcbResume a (restartCurrent a s) (getTcbPtr a cap)
  return (s, .none)

/-- The optional first steps of a register invocation, each as its flag says. -/
def suspendIf (s : KernelState) (flag t : Word) : Exec KernelState :=
  if flag ≠ 0 then invokeTcbSuspend a s t else .ok s

def resumeIf (s : KernelState) (flag t : Word) : Exec KernelState :=
  if flag ≠ 0 then invokeTcbResume a s t else .ok s

/-! ## Registers -/

/-- The two loops of `invoke_tcb_write_registers`. -/
def writeRegisters (s : KernelState) (dest : Word) (n : Nat) (buffer : Word) : KernelState :=
  let n := min n (frameRegNum a + gpRegNum a)
  let s := forLoop (fun i s => s.setRegister a dest (.frame i) (getSyscallArg a s (i + 2) buffer))
    0 (min n (frameRegNum a)) s
  forLoop (fun i s => s.setRegister a dest (.gp i)
      (getSyscallArg a s (i + frameRegNum a + 2) buffer))
    0 (min (n - frameRegNum a) (gpRegNum a)) s

/-- `invoke_tcb_write_registers` -/
def invokeTcbWriteRegisters (s : KernelState) (dest resumeTarget n buffer : Word) :
    Exec KernelState := do
  let s := writeRegisters a s dest n.toNat buffer
  let s := s.setRegister a dest .nextIP (s.getRegister a dest .faultIP)
  let s ← resumeIf a s resumeTarget dest
  return rescheduleIfCurrent a s dest

/-- `decode_write_registers` -/
def decodeWriteRegisters (s : KernelState) (cap : CapT) (length buffer : Word) :
    Exec (KernelState × ExceptionT) :=
  if length < 2 then .ok (s.fail truncatedMessage)
  else
    let flags := getSyscallArg a s 0 buffer
    let w := getSyscallArg a s 1 buffer
    if length - 2 < w then .ok (s.fail truncatedMessage)
    else
      let thread := getTcbPtr a cap
      if thread = s.ksCurThread then .ok (s.fail illegalOperation)
      else do
        let s ← invokeTcbWriteRegisters a (restartCurrent a s) thread (flags &&& bit 0) w buffer
        return (s, .none)

/-- The message registers and the words of the buffer that
`invoke_tcb_read_registers` fills: the frame registers of `src` first, then the
general ones, `n` at most. Without a buffer it stops at the message registers. -/
def readRegisters (s : KernelState) (thread src : Word) (n : Nat) (buffer : Option Word) :
    KernelState × Nat :=
  let frames := min n (frameRegNum a)
  let gps := min (n - frameRegNum a) (gpRegNum a)
  let inRegisters := min frames msgRegisterNum
  let s := forLoop
    (fun i s => s.setRegister a thread (.msg i) (s.getRegister a src (.frame i))) 0 inRegisters s
  match buffer with
  | none => (s, inRegisters)
  | some buffer =>
    let s := forLoop
      (fun i s => s.setUserWord (bufferMsg buffer i) (s.getRegister a src (.frame i)))
      inRegisters (frames - inRegisters) s
    -- there are more frame registers than message registers
    let s := forLoop
      (fun i s => s.setUserWord (bufferMsg buffer (i + frameRegNum a)) (s.getRegister a src (.gp i)))
      0 gps s
    (s, gps + frames)

/-- The answer of `invoke_tcb_read_registers` to a caller that waits for it. -/
def answerRegisters (s : KernelState) (thread src n : Word) (call : Bool) : Exec KernelState :=
  if call then do
    let buffer ← s.lookupMutIpcBuffer a thread true
    let s := s.setRegister a thread .badge 0
    let (s, length) := readRegisters a s thread src n.toNat buffer
    let info := MessageInfo.new 0 0 0 (BitVec.ofNat 64 length)
    return s.setRegister a thread .msgInfo info.toWord
  else .ok s

/-- `invoke_tcb_read_registers` -/
def invokeTcbReadRegisters (s : KernelState) (src suspendSource n : Word) (call : Bool) :
    Exec KernelState := do
  let thread := s.ksCurThread
  let s ← suspendIf a s suspendSource src
  let s ← answerRegisters a s thread src n call
  return s.setThreadState a thread .running

def registerRangeError (e : SyscallErrorT) : SyscallErrorT :=
  { e with type := .rangeError, rangeErrorMin := 1,
           rangeErrorMax := BitVec.ofNat 64 (frameRegNum a + gpRegNum a) }

/-- `decode_read_registers` -/
def decodeReadRegisters (s : KernelState) (cap : CapT) (length : Word) (call : Bool)
    (buffer : Word) : Exec (KernelState × ExceptionT) :=
  if length < 2 then .ok (s.fail truncatedMessage)
  else
    let flags := getSyscallArg a s 0 buffer
    let n := getSyscallArg a s 1 buffer
    if n < 1 ∨ n > BitVec.ofNat 64 (frameRegNum a + gpRegNum a) then
      .ok (s.fail (registerRangeError a))
    else
      let thread := getTcbPtr a cap
      if thread = s.ksCurThread then .ok (s.fail illegalOperation)
      else do
        let s ← invokeTcbReadRegisters a (restartCurrent a s) thread (flags &&& bit 0) n call
        return (s, .none)

/-- The loop of `invoke_tcb_copy_registers`, which runs over the general
registers when the frame is to be transferred. -/
def copyGpRegisters (s : KernelState) (dest src : Word) : KernelState :=
  forLoop (fun i s => s.setRegister a dest (.gp i) (s.getRegister a src (.gp i))) 0 (gpRegNum a) s

/-- `invoke_tcb_copy_registers` -/
def invokeTcbCopyRegisters (s : KernelState) (dest src suspendSource resumeTarget transferFrame :
    Word) : Exec KernelState := do
  let s ← suspendIf a s suspendSource src
  let s ← resumeIf a s resumeTarget dest
  let s := if transferFrame ≠ 0 then copyGpRegisters a s dest src else s
  return rescheduleIfCurrent a s dest

/-- `decode_copy_registers`. It looks at the kind of the invoked cap, not of the
source cap. -/
def decodeCopyRegisters (s : KernelState) (cap : CapT) (buffer : Word) :
    Exec (KernelState × ExceptionT) :=
  let flags := getSyscallArg a s 0 buffer
  match getExtraCapByIndex s 0 with
  | none => .error .unwrapNone
  | some slot =>
    let sourceCap := (s.ctes slot).cap
    if getCapType cap ≠ .threadCap then .ok (s.fail truncatedMessage)
    else do
      convertToTypeRef (getTcbPtr a sourceCap)
      convertToTypeRef (getTcbPtr a cap)
      let s ← invokeTcbCopyRegisters a s (getTcbPtr a cap) (getTcbPtr a sourceCap)
        (flags &&& bit 0) (flags &&& bit 1) (flags &&& bit 2)
      return (s, .none)

/-! ## Priorities and domains -/

/-- `check_prio`: the error, if there is one. The priority to be set is at most
the maximum controlled priority of the thread with the authority. -/
def checkPrio (s : KernelState) (prio auth : Word) : Option (SyscallErrorT → SyscallErrorT) :=
  let mcp := (s.tcbs auth).tcbMCP
  if prio > mcp then
    some fun e => { e with type := .rangeError, rangeErrorMin := 0, rangeErrorMax := mcp }
  else none

def authorityNotTcb (e : SyscallErrorT) : SyscallErrorT :=
  { e with type := .invalidCapability, invalidCapNumber := 1 }

/-- The common part of `decode_set_priority` and `decode_set_mc_priority`: the
value to be set, checked against the authority in the first extra cap. -/
def decodePrio (s : KernelState) (length buffer : Word) (set : KernelState → Word → KernelState) :
    KernelState × ExceptionT :=
  if length < 1 then s.fail truncatedMessage
  else
    match getExtraCapByIndex s 0 with
    | none => s.fail truncatedMessage
    | some slot =>
      let prio := getSyscallArg a s 0 buffer
      let authCap := (s.ctes slot).cap
      if getCapType authCap ≠ .threadCap then s.fail authorityNotTcb
      else
        match checkPrio s prio (getTcbPtr a authCap) with
        | some e => s.fail e
        | none => (set (restartCurrent a s) prio, .none)

/-- `decode_set_priority`, with `invoke_tcb_set_priority`. -/
def decodeSetPriority (s : KernelState) (cap : CapT) (length buffer : Word) :
    KernelState × ExceptionT :=
  decodePrio a s length buffer fun s prio => s.setPriority a (getTcbPtr a cap) prio

/-- `decode_set_mc_priority`, with `invoke_tcb_set_mcp`. -/
def decodeSetMcPriority (s : KernelState) (cap : CapT) (length buffer : Word) :
    KernelState × ExceptionT :=
  decodePrio a s length buffer fun s mcp => s.setMcpPriority (getTcbPtr a cap) mcp

/-- `decode_set_sched_params`. The test for the extra cap is the wrong way
round: with a cap it fails, without one it unwraps the cap that is not there. -/
def decodeSetSchedParams (s : KernelState) (cap : CapT) (length buffer : Word) :
    Exec (KernelState × ExceptionT) :=
  if length < 2 ∨ (getExtraCapByIndex s 0).isSome then .ok (s.fail truncatedMessage)
  else
    match getExtraCapByIndex s 0 with
    | none => .error .unwrapNone
    | some slot =>
      let mcp := getSyscallArg a s 0 buffer
      let prio := getSyscallArg a s 1 buffer
      let authCap := (s.ctes slot).cap
      if getCapType authCap ≠ .threadCap then .ok (s.fail authorityNotTcb)
      else
        match checkPrio s mcp (getTcbPtr a authCap) with
        | some e => .ok (s.fail e)
        | none =>
          match checkPrio s prio (getTcbPtr a authCap) with
          | some e => .ok (s.fail e)
          | none =>
            let s := (restartCurrent a s).setMcpPriority (getTcbPtr a cap) mcp
            .ok (s.setPriority a (getTcbPtr a cap) prio, .none)

/-- `decode_domain_invocation` for the label `DomainSetSet`. There is one domain. -/
def decodeDomainInvocation (s : KernelState) (length buffer : Word) : KernelState × ExceptionT :=
  if length = 0 then s.fail truncatedMessage
  else
    let domain := getSyscallArg a s 0 buffer
    if domain ≥ 1 then
      s.fail fun e => { e with type := .invalidArgument, invalidArgumentNumber := 0 }
    else
      match getExtraCapByIndex s 0 with
      | none => s.fail truncatedMessage
      | some slot =>
        let threadCap := (s.ctes slot).cap
        if getCapType threadCap ≠ .threadCap then
          s.fail fun e => { e with type := .invalidArgument, invalidArgumentNumber := 1 }
        else ((restartCurrent a s).setDomain a (getTcbPtr a threadCap) domain, .none)

/-! ## Bound notifications -/

/-- `do_bind_notification` -/
def doBindNotification (s : KernelState) (t ntfn : Word) : KernelState :=
  (setBoundTcb a s ntfn t).modifyTcb t fun tcb => { tcb with tcbBoundNotification := ntfn }

/-- `decode_bind_notification`, with `invoke_tcb_bind_notification`. It does not
ask whether the notification is bound to another thread. -/
def decodeBindNotification (s : KernelState) (cap : CapT) : KernelState × ExceptionT :=
  match getExtraCapByIndex s 0 with
  | none => s.fail truncatedMessage
  | some slot =>
    let tcb := getTcbPtr a cap
    if (s.tcbs tcb).tcbBoundNotification ≠ 0 then s.fail illegalOperation
    else
      let ntfnCap := (s.ctes slot).cap
      if getCapType ntfnCap ≠ .notificationCap then s.fail illegalOperation
      else
        let ntfn := getNfPtr a ntfnCap
        if getNfCanReceive a ntfnCap = 0 then s.fail illegalOperation
        else
          let queue := getNtfnQueue a s ntfn
          if queue.head ≠ 0 ∨ queue.tail ≠ 0 then s.fail illegalOperation
          else (doBindNotification a (restartCurrent a s) tcb ntfn, .none)

/-- `decode_unbind_notification`, with `invoke_tcb_unbind_notification`. -/
def decodeUnbindNotification (s : KernelState) (cap : CapT) : KernelState × ExceptionT :=
  let tcb := getTcbPtr a cap
  if (s.tcbs tcb).tcbBoundNotification = 0 then s.fail illegalOperation
  else (safeUnbindNotification a (restartCurrent a s) tcb, .none)

end Rel4.Kernel
