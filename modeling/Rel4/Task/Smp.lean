import Rel4.Lib.Guard
import Rel4.Task.ReadyQueue

/-!
The scheduler of the multi-core build (`sel4_task/src/scheduler.rs`, `tcb.rs`
with `ENABLE_SMP`).

Every core has ready queues, bitmaps and a current thread of its own in `ksSMP`,
and a thread waits in the queues of the core that its `tcbAffinity` names. All
arrays are indexed with a check, which ends the kernel with `outOfRange`.
The kernel runs on one core at a time, under a lock.
-/

namespace Rel4.Task
open Lib.Bitfield Common Function

/-! ## State -/

/-- `CONFIG_MAX_NUM_NODES` -/
def maxNumNodes : Nat := 4

/-- `CONFIG_NUM_DOMAINS` -/
def numDomains : Nat := 1

/-- `NUM_READY_QUEUES` -/
def numReadyQueues : Nat := numDomains * numPriorities.toNat

/-- `SmpStateData` -/
structure SmpStateData where
  ipiReschedulePending : Word
  ksReadyQueues : Word → TcbQueue
  ksReadyQueuesL1Bitmap : Word → Word
  ksReadyQueuesL2Bitmap : Word → Word → Word
  ksCurThread : Word
  ksIdleThread : Word
  ksSchedulerAction : Word

/-- `tcb_t` with its core. -/
structure SmpTcb extends Tcb where
  tcbAffinity : Word

/-- A core that exists: `cpu_id()` gives no other number. -/
abbrev Cpu := { c : Word // c.toNat < maxNumNodes }

structure SmpState where
  tcbs : Word → SmpTcb
  ksSMP : Word → SmpStateData
  ksCurDomain : Word
  ksDomainTime : Word
  ksDomScheduleIdx : Word
  ksWorkUnitsCompleted : Word
  /-- The variables of the single-core build are still there. -/
  ksCurThread : Word
  ksIdleThread : Word
  currentSyscallError : SyscallErrorT

/-- The check of an index into an array of `n` entries. -/
def checkIndex (i : Word) (n : Nat) : Exec Unit :=
  if i.toNat < n then .ok () else .error .outOfRange

namespace SmpState

variable (a : Arch)

def modifyTcb (s : SmpState) (t : Word) (f : SmpTcb → SmpTcb) : SmpState :=
  { s with tcbs := update s.tcbs t (f (s.tcbs t)) }

def modifyNode (s : SmpState) (c : Word) (f : SmpStateData → SmpStateData) : SmpState :=
  { s with ksSMP := update s.ksSMP c (f (s.ksSMP c)) }

def setSchedNext (s : SmpState) (t v : Word) : SmpState :=
  s.modifyTcb t fun tcb => { tcb with tcbSchedNext := v }

def setSchedPrev (s : SmpState) (t v : Word) : SmpState :=
  s.modifyTcb t fun tcb => { tcb with tcbSchedPrev := v }

def tsGet (s : SmpState) (t : Word) (f : Field 3) : Word := f.get (signExt a) (s.tcbs t).tcbState

def tsSet (s : SmpState) (t : Word) (f : Field 3) (v : Word) : SmpState :=
  s.modifyTcb t fun tcb => { tcb with tcbState := f.set tcb.tcbState v }

/-- `get_state` -/
def getState (s : SmpState) (t : Word) : ThreadState :=
  ThreadState.ofWord (Field.tsType.stored (s.tcbs t).tcbState)

/-- `is_runnable` -/
def isRunnable (s : SmpState) (t : Word) : Bool :=
  s.getState t = .running ∨ s.getState t = .restart

def getRegister (s : SmpState) (t : Word) (r : ArchReg) : Word :=
  (s.tcbs t).registers (r.toIndex a)

def setRegister (s : SmpState) (t : Word) (r : ArchReg) (v : Word) : SmpState :=
  s.modifyTcb t fun tcb =>
    { tcb with registers := update tcb.registers (r.toIndex a) v }

/-- The current thread of a core. -/
def current (s : SmpState) (cpu : Cpu) : Word := (s.ksSMP cpu).ksCurThread

/-- `get_ks_scheduler_action` -/
def action (s : SmpState) (cpu : Cpu) : Word := (s.ksSMP cpu).ksSchedulerAction

/-- `set_ks_scheduler_action` -/
def setAction (s : SmpState) (cpu : Cpu) (v : Word) : SmpState :=
  s.modifyNode cpu fun n => { n with ksSchedulerAction := v }

/-- `set_current_thread` -/
def setCurrentThread (s : SmpState) (cpu : Cpu) (t : Word) : SmpState :=
  s.modifyNode cpu fun n => { n with ksCurThread := t }

/-! ## Bitmaps -/

/-- `addToBitmap` -/
def addToBitmap (s : SmpState) (cpu dom prio : Word) : Exec SmpState := do
  let l1index := KernelState.prioToL1Index prio
  let i := KernelState.invertL1Index l1index
  checkIndex cpu maxNumNodes
  checkIndex dom numDomains
  checkIndex i l2BitmapSize.toNat
  return s.modifyNode cpu fun n =>
    let row := n.ksReadyQueuesL2Bitmap dom
    let row := update row i (row i ||| bit (prio &&& mask 6))
    { n with
      ksReadyQueuesL1Bitmap := update n.ksReadyQueuesL1Bitmap dom
        (n.ksReadyQueuesL1Bitmap dom ||| bit l1index)
      ksReadyQueuesL2Bitmap := update n.ksReadyQueuesL2Bitmap dom row }

/-- `removeFromBitmap` -/
def removeFromBitmap (s : SmpState) (cpu dom prio : Word) : Exec SmpState := do
  let l1index := KernelState.prioToL1Index prio
  let i := KernelState.invertL1Index l1index
  checkIndex cpu maxNumNodes
  checkIndex dom numDomains
  checkIndex i l2BitmapSize.toNat
  return s.modifyNode cpu fun n =>
    let row := n.ksReadyQueuesL2Bitmap dom
    let row := update row i (row i &&& ~~~bit (prio &&& mask 6))
    { n with
      ksReadyQueuesL1Bitmap :=
        if row i = 0 then update n.ksReadyQueuesL1Bitmap dom
          (n.ksReadyQueuesL1Bitmap dom &&& ~~~bit l1index)
        else n.ksReadyQueuesL1Bitmap
      ksReadyQueuesL2Bitmap := update n.ksReadyQueuesL2Bitmap dom row }

/-- `getHighestPrio` -/
def getHighestPrio (s : SmpState) (cpu : Cpu) (dom : Word) : Exec Word := do
  checkIndex dom numDomains
  let l1index := wordBits - 1 - ((s.ksSMP cpu).ksReadyQueuesL1Bitmap dom).clz
  let i := KernelState.invertL1Index l1index
  checkIndex i l2BitmapSize.toNat
  let l2index := wordBits - 1 - ((s.ksSMP cpu).ksReadyQueuesL2Bitmap dom i).clz
  return (l1index <<< wordRadix) ||| l2index

/-- `isHighestPrio` -/
def isHighestPrio (s : SmpState) (cpu : Cpu) (dom prio : Word) : Exec Bool := do
  checkIndex dom numDomains
  if (s.ksSMP cpu).ksReadyQueuesL1Bitmap dom = 0 then return true
  else
    let highest ← s.getHighestPrio cpu dom
    return prio ≥ highest

/-! ## Ready queues -/

/-- `get_sched_queue` -/
def getSchedQueue (s : SmpState) (t idx : Word) : Exec TcbQueue := do
  checkIndex (s.tcbs t).tcbAffinity maxNumNodes
  checkIndex idx numReadyQueues
  return (s.ksSMP (s.tcbs t).tcbAffinity).ksReadyQueues idx

/-- A write through the reference that `get_sched_queue` returned. -/
def modifyQueue (s : SmpState) (c idx : Word) (f : TcbQueue → TcbQueue) : SmpState :=
  s.modifyNode c fun n =>
    { n with ksReadyQueues := update n.ksReadyQueues idx (f (n.ksReadyQueues idx)) }

/-- Both enqueue functions link the thread behind the tail; they differ in the
end of the queue they test for emptiness. -/
def linkBehindTail (s : SmpState) (t : Word) (isEmpty : TcbQueue → Bool) : Exec SmpState := do
  let dom := (s.tcbs t).domain
  let prio := (s.tcbs t).tcbPriority
  let c := (s.tcbs t).tcbAffinity
  let idx := KernelState.readyQueuesIndex dom prio
  let queue ← s.getSchedQueue t idx
  let s ← (if isEmpty queue then
      (s.modifyQueue c idx fun q => { q with head := t }).addToBitmap c dom prio
    else do
      convertToTypeRef queue.tail
      return s.setSchedNext queue.tail t)
  let s := (s.setSchedPrev t queue.tail).setSchedNext t 0
  let s := s.modifyQueue c idx fun q => { q with tail := t }
  return s.tsSet t Field.tsTcbQueued 1

/-- `update_queue`: another core may have to reschedule. -/
def updateQueue (s : SmpState) (cpu : Cpu) (t : Word) : Exec SmpState :=
  let c := (s.tcbs t).tcbAffinity
  if c ≠ cpu.val ∧ (s.tcbs t).domain = s.ksCurDomain then do
    checkIndex c maxNumNodes
    let node := s.ksSMP c
    convertToTypeRef node.ksCurThread
    if node.ksIdleThread = node.ksCurThread ∨
        (s.tcbs t).tcbPriority > (s.tcbs node.ksCurThread).tcbPriority then
      return s.modifyNode cpu fun n =>
        { n with ipiReschedulePending := n.ipiReschedulePending ||| bit c }
    else return s
  else return s

/-- `sched_enqueue` -/
def schedEnqueue (s : SmpState) (cpu : Cpu) (t : Word) : Exec SmpState := do
  let s ← (if s.tsGet a t Field.tsTcbQueued = 0 then s.linkBehindTail t fun q => q.tail = 0
    else return s)
  s.updateQueue cpu t

/-- `sched_append` -/
def schedAppend (s : SmpState) (cpu : Cpu) (t : Word) : Exec SmpState := do
  let s ← (if s.tsGet a t Field.tsTcbQueued = 0 then s.linkBehindTail t fun q => q.head = 0
    else return s)
  s.updateQueue cpu t

/-- The first half of `sched_dequeue`: the predecessor, or the head, skips `t`. -/
def schedSkipNext (s : SmpState) (t idx : Word) : Exec SmpState :=
  let next := (s.tcbs t).tcbSchedNext
  let c := (s.tcbs t).tcbAffinity
  if (s.tcbs t).tcbSchedPrev ≠ 0 then return s.setSchedNext (s.tcbs t).tcbSchedPrev next
  else
    let s := s.modifyQueue c idx fun q => { q with head := next }
    if next = 0 then s.removeFromBitmap c (s.tcbs t).domain (s.tcbs t).tcbPriority else return s

/-- The second half: the successor, or the tail, skips `t`. -/
def schedSkipPrev (s : SmpState) (t idx : Word) : SmpState :=
  let prev := (s.tcbs t).tcbSchedPrev
  if (s.tcbs t).tcbSchedNext ≠ 0 then s.setSchedPrev (s.tcbs t).tcbSchedNext prev
  else s.modifyQueue (s.tcbs t).tcbAffinity idx fun q => { q with tail := prev }

/-- `sched_dequeue` -/
def schedDequeue (s : SmpState) (t : Word) : Exec SmpState :=
  if s.tsGet a t Field.tsTcbQueued ≠ 0 then do
    let idx := KernelState.readyQueuesIndex (s.tcbs t).domain (s.tcbs t).tcbPriority
    let _ ← s.getSchedQueue t idx
    let s ← s.schedSkipNext t idx
    return (s.schedSkipPrev t idx).tsSet t Field.tsTcbQueued 0
  else return s

/-! ## Scheduling decisions -/

/-- `rescheduleRequired` -/
def rescheduleRequired (s : SmpState) (cpu : Cpu) : Exec SmpState := do
  let s ← (if s.action cpu ≠ resumeCurrentThread ∧ s.action cpu ≠ chooseNewThread then
      s.schedEnqueue a cpu (s.action cpu)
    else return s)
  return s.setAction cpu chooseNewThread

/-- `schedule_tcb` -/
def scheduleTcb (s : SmpState) (cpu : Cpu) (t : Word) : Exec SmpState :=
  if t = s.current cpu ∧ s.action cpu = resumeCurrentThread ∧ s.isRunnable t = false then
    s.rescheduleRequired a cpu
  else return s

/-- `set_thread_state` -/
def setThreadState (s : SmpState) (cpu : Cpu) (t : Word) (state : ThreadState) : Exec SmpState :=
  (s.tsSet t Field.tsType state.toWord).scheduleTcb a cpu t

/-- `possible_switch_to` -/
def possibleSwitchTo (s : SmpState) (cpu : Cpu) (target : Word) : Exec SmpState :=
  if s.ksCurDomain ≠ (s.tcbs target).domain ∨ (s.tcbs target).tcbAffinity ≠ cpu.val then
    s.schedEnqueue a cpu target
  else if s.action cpu ≠ resumeCurrentThread then do
    let s ← s.rescheduleRequired a cpu
    s.schedEnqueue a cpu target
  else return s.setAction cpu target

/-- `is_current`; the current thread is never the null pointer. -/
def isCurrent (s : SmpState) (cpu : Cpu) (t : Word) : Exec Bool := do
  convertToTypeRef (s.current cpu)
  return t = s.current cpu

/-- `rescheduleRequired` if the thread is the current one. -/
def rescheduleIfCurrent (s : SmpState) (cpu : Cpu) (t : Word) : Exec SmpState := do
  let isCurrent ← s.isCurrent cpu t
  if isCurrent then s.rescheduleRequired a cpu else return s

/-- `set_priority` -/
def setPriority (s : SmpState) (cpu : Cpu) (t prio : Word) : Exec SmpState := do
  let s ← s.schedDequeue a t
  let s := s.modifyTcb t fun tcb => { tcb with tcbPriority := prio }
  if s.isRunnable t then
    let isCurrent ← s.isCurrent cpu t
    if isCurrent then s.rescheduleRequired a cpu else s.possibleSwitchTo a cpu t
  else return s

/-- `set_domain` -/
def setDomain (s : SmpState) (cpu : Cpu) (t dom : Word) : Exec SmpState := do
  let s ← s.schedDequeue a t
  let s := s.modifyTcb t fun tcb => { tcb with domain := dom }
  let s ← (if s.isRunnable t then s.schedEnqueue a cpu t else return s)
  s.rescheduleIfCurrent a cpu t

/-- `timerTick` -/
def timerTick (s : SmpState) (cpu : Cpu) : Exec SmpState := do
  let current := s.current cpu
  convertToTypeRef current
  if s.getState current = .running then
    if (s.tcbs current).tcbTimeSlice > 1 then
      return s.modifyTcb current fun tcb => { tcb with tcbTimeSlice := tcb.tcbTimeSlice - 1 }
    else
      let s := s.modifyTcb current fun tcb => { tcb with tcbTimeSlice := configTimeSlice }
      let s ← s.schedAppend a cpu current
      s.rescheduleRequired a cpu
  else return s

/-- `suspend`. The source writes the fault address back to itself here. -/
def suspend (s : SmpState) (cpu : Cpu) (t : Word) : Exec SmpState := do
  let s :=
    if s.getState t = .running then s.setRegister a t .faultIP (s.getRegister a t .faultIP)
    else s
  let s ← s.setThreadState a cpu t .inactive
  s.schedDequeue a t

/-- `switch_to_this`, but for the address space. -/
def switchToThis (s : SmpState) (cpu : Cpu) (t : Word) : Exec SmpState := do
  let s ← s.schedDequeue a t
  return s.setCurrentThread cpu t

/-- `nextDomain`, for the one-entry domain schedule. -/
def nextDomain (s : SmpState) : SmpState :=
  let idx := s.ksDomScheduleIdx + 1
  let idx := if idx ≥ 1 then 0 else idx
  { s with ksDomScheduleIdx := idx, ksWorkUnitsCompleted := 0, ksCurDomain := 0,
           ksDomainTime := 60 }

/-- `chooseThread`. On `aarch64` the source writes the variable of the single-core build. -/
def chooseThread (s : SmpState) (cpu : Cpu) : Exec SmpState :=
  if (s.ksSMP cpu).ksReadyQueuesL1Bitmap 0 ≠ 0 then do
    let prio ← s.getHighestPrio cpu 0
    let idx := KernelState.readyQueuesIndex 0 prio
    checkIndex idx numReadyQueues
    let thread := ((s.ksSMP cpu).ksReadyQueues idx).head
    convertToTypeRef thread
    s.switchToThis a cpu thread
  else
    match a with
    | .riscv64 => do
      convertToTypeRef (s.ksSMP cpu).ksIdleThread
      s.switchToThis a cpu (s.ksSMP cpu).ksIdleThread
    | .aarch64 => return { s with ksCurThread := s.ksIdleThread }

/-- `scheduleChooseNewThread` -/
def scheduleChooseNewThread (s : SmpState) (cpu : Cpu) : Exec SmpState :=
  (if s.ksDomainTime = 0 then s.nextDomain else s).chooseThread a cpu

/-- The part of `schedule` for an action other than to resume the current thread. -/
def reschedule (s : SmpState) (cpu : Cpu) : Exec SmpState := do
  let current := s.current cpu
  convertToTypeRef current
  let wasRunnable := s.isRunnable current
  let s ← (if wasRunnable then s.schedEnqueue a cpu current else return s)
  if s.action cpu = chooseNewThread then s.scheduleChooseNewThread a cpu
  else
    let candidate := s.action cpu
    convertToTypeRef candidate
    convertToTypeRef (s.ksSMP cpu).ksIdleThread
    let candidatePrio := (s.tcbs candidate).tcbPriority
    let fastfail : Bool :=
      current = (s.ksSMP cpu).ksIdleThread ∨ candidatePrio < (s.tcbs current).tcbPriority
    let highest ← (if fastfail then s.isHighestPrio cpu s.ksCurDomain candidatePrio
      else return true)
    if highest = false then
      let s ← s.schedEnqueue a cpu candidate
      (s.setAction cpu chooseNewThread).scheduleChooseNewThread a cpu
    else if wasRunnable ∧ candidatePrio = (s.tcbs current).tcbPriority then
      let s ← s.schedAppend a cpu candidate
      (s.setAction cpu chooseNewThread).scheduleChooseNewThread a cpu
    else s.switchToThis a cpu candidate

/-- `schedule`. Sending the pending requests to the other cores is foreign code. -/
def schedule (s : SmpState) (cpu : Cpu) : Exec SmpState := do
  let s ← (if s.action cpu ≠ resumeCurrentThread then s.reschedule a cpu else return s)
  return (s.setAction cpu resumeCurrentThread).modifyNode cpu fun n =>
    { n with ipiReschedulePending := 0 }

/-- `activateThread` -/
def activateThread (s : SmpState) (cpu : Cpu) : Exec SmpState := do
  let thread := s.current cpu
  convertToTypeRef thread
  match s.getState thread with
  | .running => return s
  | .restart =>
    let pc := s.getRegister a thread .faultIP
    (s.setRegister a thread .nextIP pc).setThreadState a cpu thread .running
  | .idleThreadState => return s
  | _ => .error .panicked

end SmpState

end Rel4.Task
