import Rel4.VSpace.Asid

/-!
Ready queues and thread switching (`sel4_task/src/scheduler.rs`, `tcb.rs`),
single-core build.
-/

namespace Rel4.Task
open Lib.Bitfield Common VSpace Function

namespace KernelState

variable (a : Arch)

/-! ## Bitmaps -/

/-- `ready_queues_index` -/
def readyQueuesIndex (dom prio : Word) : Word := dom * numPriorities + prio

/-- `prio_to_l1index` -/
def prioToL1Index (prio : Word) : Word := prio >>> wordRadix

/-- `invert_l1index` -/
def invertL1Index (l1index : Word) : Word := l2BitmapSize - 1 - l1index

/-- `getHighestPrio` -/
def getHighestPrio (s : KernelState) (dom : Word) : Word :=
  let l1index := wordBits - 1 - (s.ksReadyQueuesL1Bitmap dom).clz
  let l2index := wordBits - 1 - (s.ksReadyQueuesL2Bitmap dom (invertL1Index l1index)).clz
  (l1index <<< wordRadix) ||| l2index

/-- `isHighestPrio` -/
def isHighestPrio (s : KernelState) (dom prio : Word) : Bool :=
  s.ksReadyQueuesL1Bitmap dom = 0 ∨ prio ≥ s.getHighestPrio dom

def setL1Bitmap (s : KernelState) (dom v : Word) : KernelState :=
  { s with ksReadyQueuesL1Bitmap := update s.ksReadyQueuesL1Bitmap dom v }

def setL2Bitmap (s : KernelState) (dom i v : Word) : KernelState :=
  let row := update (s.ksReadyQueuesL2Bitmap dom) i v
  { s with ksReadyQueuesL2Bitmap := update s.ksReadyQueuesL2Bitmap dom row }

/-- `addToBitmap` -/
def addToBitmap (s : KernelState) (dom prio : Word) : KernelState :=
  let l1index := prioToL1Index prio
  let i := invertL1Index l1index
  let s := s.setL1Bitmap dom (s.ksReadyQueuesL1Bitmap dom ||| bit l1index)
  s.setL2Bitmap dom i (s.ksReadyQueuesL2Bitmap dom i ||| bit (prio &&& mask 6))

/-- `removeFromBitmap` -/
def removeFromBitmap (s : KernelState) (dom prio : Word) : KernelState :=
  let l1index := prioToL1Index prio
  let i := invertL1Index l1index
  let s := s.setL2Bitmap dom i (s.ksReadyQueuesL2Bitmap dom i &&& ~~~bit (prio &&& mask 6))
  if s.ksReadyQueuesL2Bitmap dom i = 0 then
    s.setL1Bitmap dom (s.ksReadyQueuesL1Bitmap dom &&& ~~~bit l1index)
  else s

/-! ## Ready queues -/

def setReadyQueue (s : KernelState) (idx : Word) (q : TcbQueue) : KernelState :=
  { s with ksReadyQueues := update s.ksReadyQueues idx q }

def setSchedNext (s : KernelState) (t v : Word) : KernelState :=
  s.modifyTcb t fun tcb => { tcb with tcbSchedNext := v }

def setSchedPrev (s : KernelState) (t v : Word) : KernelState :=
  s.modifyTcb t fun tcb => { tcb with tcbSchedPrev := v }

/-- Both enqueue functions link the thread behind the tail; they differ in the
end of the queue they test for emptiness. -/
def linkBehindTail (s : KernelState) (t : Word) (empty : Bool) : KernelState :=
  let dom := (s.tcbs t).domain
  let prio := (s.tcbs t).tcbPriority
  let idx := readyQueuesIndex dom prio
  let queue := s.ksReadyQueues idx
  let s :=
    if empty then (s.setReadyQueue idx { queue with head := t }).addToBitmap dom prio
    else s.setSchedNext queue.tail t
  let s := s.setSchedPrev t queue.tail
  let s := s.setSchedNext t 0
  let s := s.setReadyQueue idx { s.ksReadyQueues idx with tail := t }
  { s.tsSet t Field.tsTcbQueued 1 with readyOrder := s.readyOrder ++ [t] }

/-- `sched_enqueue` -/
def schedEnqueue (s : KernelState) (t : Word) : KernelState :=
  if s.tsGet a t Field.tsTcbQueued = 0 then
    let idx := readyQueuesIndex (s.tcbs t).domain (s.tcbs t).tcbPriority
    s.linkBehindTail t ((s.ksReadyQueues idx).tail = 0)
  else s

/-- `sched_append` -/
def schedAppend (s : KernelState) (t : Word) : KernelState :=
  if s.tsGet a t Field.tsTcbQueued = 0 then
    let idx := readyQueuesIndex (s.tcbs t).domain (s.tcbs t).tcbPriority
    s.linkBehindTail t ((s.ksReadyQueues idx).head = 0)
  else s

/-- The first half of `sched_dequeue`: the predecessor, or the head, skips `t`. -/
def schedSkipNext (s : KernelState) (t : Word) : KernelState :=
  let dom := (s.tcbs t).domain
  let prio := (s.tcbs t).tcbPriority
  let idx := readyQueuesIndex dom prio
  let next := (s.tcbs t).tcbSchedNext
  if (s.tcbs t).tcbSchedPrev ≠ 0 then s.setSchedNext (s.tcbs t).tcbSchedPrev next
  else
    let s := s.setReadyQueue idx { s.ksReadyQueues idx with head := next }
    if next = 0 then s.removeFromBitmap dom prio else s

/-- The second half: the successor, or the tail, skips `t`. -/
def schedSkipPrev (s : KernelState) (t : Word) : KernelState :=
  let idx := readyQueuesIndex (s.tcbs t).domain (s.tcbs t).tcbPriority
  let prev := (s.tcbs t).tcbSchedPrev
  if (s.tcbs t).tcbSchedNext ≠ 0 then s.setSchedPrev (s.tcbs t).tcbSchedNext prev
  else s.setReadyQueue idx { s.ksReadyQueues idx with tail := prev }

/-- `sched_dequeue` -/
def schedDequeue (s : KernelState) (t : Word) : KernelState :=
  if s.tsGet a t Field.tsTcbQueued ≠ 0 then
    let s := (s.schedSkipNext t).schedSkipPrev t
    { s.tsSet t Field.tsTcbQueued 0 with readyOrder := s.readyOrder.erase t }
  else s

/-! ## Scheduling decisions -/

/-- `rescheduleRequired` -/
def rescheduleRequired (s : KernelState) : KernelState :=
  let s :=
    if s.ksSchedulerAction ≠ resumeCurrentThread ∧ s.ksSchedulerAction ≠ chooseNewThread then
      s.schedEnqueue a s.ksSchedulerAction
    else s
  { s with ksSchedulerAction := chooseNewThread }

/-- `schedule_tcb` -/
def scheduleTcb (s : KernelState) (t : Word) : KernelState :=
  if t = s.ksCurThread ∧ s.ksSchedulerAction = resumeCurrentThread ∧ s.isRunnable t = false then
    s.rescheduleRequired a
  else s

/-- `set_thread_state` -/
def setThreadState (s : KernelState) (t : Word) (state : ThreadState) : KernelState :=
  (s.tsSet t Field.tsType state.toWord).scheduleTcb a t

/-- `possible_switch_to` -/
def possibleSwitchTo (s : KernelState) (target : Word) : KernelState :=
  if s.ksCurDomain ≠ (s.tcbs target).domain then s.schedEnqueue a target
  else if s.ksSchedulerAction ≠ resumeCurrentThread then
    (s.rescheduleRequired a).schedEnqueue a target
  else { s with ksSchedulerAction := target }

/-- `set_priority` -/
def setPriority (s : KernelState) (t prio : Word) : KernelState :=
  let s := s.schedDequeue a t
  let s := s.modifyTcb t fun tcb => { tcb with tcbPriority := prio }
  if s.isRunnable t then
    if t = s.ksCurThread then s.rescheduleRequired a else s.possibleSwitchTo a t
  else s

/-- `set_mcp_priority` -/
def setMcpPriority (s : KernelState) (t mcp : Word) : KernelState :=
  s.modifyTcb t fun tcb => { tcb with tcbMCP := mcp }

/-- `set_domain` -/
def setDomain (s : KernelState) (t dom : Word) : KernelState :=
  let s := s.schedDequeue a t
  let s := s.modifyTcb t fun tcb => { tcb with domain := dom }
  let s := if s.isRunnable t then s.schedEnqueue a t else s
  if t = s.ksCurThread then s.rescheduleRequired a else s

/-- `timerTick` -/
def timerTick (s : KernelState) : KernelState :=
  let current := s.ksCurThread
  if s.getState current = .running then
    if (s.tcbs current).tcbTimeSlice > 1 then
      s.modifyTcb current fun tcb => { tcb with tcbTimeSlice := tcb.tcbTimeSlice - 1 }
    else
      let s := s.modifyTcb current fun tcb => { tcb with tcbTimeSlice := configTimeSlice }
      (s.schedAppend a current).rescheduleRequired a
  else s

/-- `switch_to_this` -/
def switchToThis (s : KernelState) (t : Word) : KernelState :=
  let s := (tcbSetVmRoot a s t).1
  { s.schedDequeue a t with ksCurThread := t }

/-- `nextDomain`, for the one-entry domain schedule. -/
def nextDomain (s : KernelState) : KernelState :=
  let idx := s.ksDomScheduleIdx + 1
  let idx := if idx ≥ 1 then 0 else idx
  { s with ksDomScheduleIdx := idx, ksWorkUnitsCompleted := 0, ksCurDomain := 0,
           ksDomainTime := 60 }

/-- `chooseThread` -/
def chooseThread (s : KernelState) : Exec KernelState :=
  if s.ksReadyQueuesL1Bitmap 0 ≠ 0 then do
    let prio := s.getHighestPrio 0
    let thread := (s.ksReadyQueues (readyQueuesIndex 0 prio)).head
    convertToTypeRef thread
    return s.switchToThis a thread
  else
    match a with
    | .riscv64 => .ok (s.switchToThis a s.ksIdleThread)
    | .aarch64 => .ok { setUserRoot s (globalRoot a s) with ksCurThread := s.ksIdleThread }

/-- `scheduleChooseNewThread` -/
def scheduleChooseNewThread (s : KernelState) : Exec KernelState :=
  (if s.ksDomainTime = 0 then s.nextDomain else s).chooseThread a

/-- The part of `schedule` for an action other than to resume the current thread. -/
def reschedule (s : KernelState) : Exec KernelState :=
  let current := s.ksCurThread
  let wasRunnable := s.isRunnable current
  let s := if wasRunnable then s.schedEnqueue a current else s
  if s.ksSchedulerAction = chooseNewThread then s.scheduleChooseNewThread a
  else
    let candidate := s.ksSchedulerAction
    let candidatePrio := (s.tcbs candidate).tcbPriority
    let fastfail : Bool :=
      current = s.ksIdleThread ∨ candidatePrio < (s.tcbs current).tcbPriority
    if fastfail ∧ s.isHighestPrio s.ksCurDomain candidatePrio = false then
      scheduleChooseNewThread a
        { s.schedEnqueue a candidate with ksSchedulerAction := chooseNewThread }
    else if wasRunnable ∧ candidatePrio = (s.tcbs current).tcbPriority then
      scheduleChooseNewThread a
        { s.schedAppend a candidate with ksSchedulerAction := chooseNewThread }
    else .ok (s.switchToThis a candidate)

/-- `schedule` -/
def schedule (s : KernelState) : Exec KernelState := do
  let s ← (if s.ksSchedulerAction ≠ resumeCurrentThread then s.reschedule a else .ok s)
  return { s with ksSchedulerAction := resumeCurrentThread }

/-- `activateThread` -/
def activateThread (s : KernelState) : Exec KernelState :=
  let thread := s.ksCurThread
  match s.getState thread with
  | .running => .ok s
  | .restart =>
    let pc := s.getRegister a thread .faultIP
    .ok ((s.setRegister a thread .nextIP pc).setThreadState a thread .running)
  | .idleThreadState => .ok s
  | _ => .error .panicked

/-- `suspend`. The source writes the fault address back to itself here. -/
def suspend (s : KernelState) (t : Word) : KernelState :=
  let s :=
    if s.getState t = .running then s.setRegister a t .faultIP (s.getRegister a t .faultIP)
    else s
  (s.setThreadState a t .inactive).schedDequeue a t

end KernelState

end Rel4.Task
