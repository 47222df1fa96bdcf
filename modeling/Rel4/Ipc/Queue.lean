import Rel4.Task.Scheduler

/-!
Queues of blocked threads at endpoints and notifications, and their
cancellation (`sel4_task/src/tcb_queue.rs`, `sel4_ipc/src/endpoint.rs`,
`sel4_ipc/src/notification.rs`).
-/

namespace Rel4.Ipc
open Lib.Bitfield Common Rel4.Task Function

inductive EPState where
  | idle
  | send
  | recv
  /-- The value 3, which the enumeration of the source does not have. -/
  | undefined
  deriving DecidableEq, Repr

namespace EPState

def toWord : EPState → Word
  | .idle => 0
  | .send => 1
  | .recv => 2
  | .undefined => 3

def ofWord (w : Word) : EPState :=
  match w.toNat with
  | 0 => .idle
  | 1 => .send
  | 2 => .recv
  | _ => .undefined

end EPState

inductive NtfnState where
  | idle
  | waiting
  | active
  /-- The value 3, which the enumeration of the source does not have. -/
  | undefined
  deriving DecidableEq, Repr

namespace NtfnState

def toWord : NtfnState → Word
  | .idle => 0
  | .waiting => 1
  | .active => 2
  | .undefined => 3

def ofWord (w : Word) : NtfnState :=
  match w.toNat with
  | 0 => .idle
  | 1 => .waiting
  | 2 => .active
  | _ => .undefined

end NtfnState

variable (a : Arch)

/-! ## The queue of blocked threads -/

def setEPNext (s : KernelState) (t v : Word) : KernelState :=
  s.modifyTcb t fun tcb => { tcb with tcbEPNext := v }

def setEPPrev (s : KernelState) (t v : Word) : KernelState :=
  s.modifyTcb t fun tcb => { tcb with tcbEPPrev := v }

/-- `ep_append` -/
def epAppend (s : KernelState) (queue : TcbQueue) (t : Word) : KernelState × TcbQueue :=
  let head := if queue.head = 0 then t else queue.head
  let s := if queue.head = 0 then s else setEPNext s queue.tail t
  let s := setEPPrev s t queue.tail
  let s := setEPNext s t 0
  (s, ⟨head, t⟩)

/-- The first half of `ep_dequeue`: the predecessor, or the head, skips `t`. -/
def epSkipNext (s : KernelState) (queue : TcbQueue) (t : Word) : KernelState × TcbQueue :=
  if (s.tcbs t).tcbEPPrev ≠ 0 then
    (setEPNext s (s.tcbs t).tcbEPPrev (s.tcbs t).tcbEPNext, queue)
  else (s, { queue with head := (s.tcbs t).tcbEPNext })

/-- The second half: the successor, or the tail, skips `t`. -/
def epSkipPrev (s : KernelState) (queue : TcbQueue) (t : Word) : KernelState × TcbQueue :=
  if (s.tcbs t).tcbEPNext ≠ 0 then
    (setEPPrev s (s.tcbs t).tcbEPNext (s.tcbs t).tcbEPPrev, queue)
  else (s, { queue with tail := (s.tcbs t).tcbEPPrev })

/-- `ep_dequeue` -/
def epDequeue (s : KernelState) (queue : TcbQueue) (t : Word) : KernelState × TcbQueue :=
  let r := epSkipNext s queue t
  epSkipPrev r.1 r.2 t

/-! ## Endpoints -/

def getEpState (s : KernelState) (ep : Word) : EPState :=
  EPState.ofWord (Field.epState.stored (s.endpoints ep))

def setEndpoint (s : KernelState) (ep : Word) (w : Words 2) : KernelState :=
  { s with endpoints := update s.endpoints ep w }

def setEpState (s : KernelState) (ep : Word) (state : EPState) : KernelState :=
  setEndpoint s ep (Field.epState.set (s.endpoints ep) state.toWord)

/-- `endpoint_t::get_queue` -/
def getEpQueue (s : KernelState) (ep : Word) : TcbQueue :=
  ⟨Field.epQueueHead.get (signExt a) (s.endpoints ep),
    (Field.epQueueTail a).get (signExt a) (s.endpoints ep)⟩

/-- `endpoint_t::set_queue` -/
def setEpQueue (s : KernelState) (ep : Word) (queue : TcbQueue) : KernelState :=
  setEndpoint s ep
    ((Field.epQueueTail a).set (Field.epQueueHead.set (s.endpoints ep) queue.head) queue.tail)

/-- `endpoint_t::cancel_ipc` -/
def epCancelIpc (s : KernelState) (ep t : Word) : KernelState :=
  let (s, queue) := epDequeue s (getEpQueue a s ep) t
  let s := setEpQueue a s ep queue
  let s := if queue.head = 0 then setEpState s ep .idle else s
  s.setThreadState a t .inactive

/-- A list of threads with more members than there are addresses has a cycle,
and a loop over it does not end. -/
def maxThreads : Nat := 2 ^ 64

/-- The loop of `cancel_all_ipc` and `cacncel_all_signal`: restart the threads
from `t` on. -/
def restartThreads : Nat → KernelState → Word → Exec KernelState
  | 0, _, _ => .error .outOfFuel
  | fuel + 1, s, t =>
    if t = 0 then .ok s
    else
      let s := (s.setThreadState a t .restart).schedEnqueue a t
      restartThreads fuel s (s.tcbs t).tcbEPNext

/-- `cancel_all_ipc` -/
def cancelAllIpc (s : KernelState) (ep : Word) : Exec KernelState :=
  match getEpState s ep with
  | .idle => .ok s
  | _ => do
    let head := (getEpQueue a s ep).head
    let s := setEpState s ep .idle
    let s := setEpQueue a s ep ⟨0, 0⟩
    let s ← restartThreads a maxThreads s head
    return s.rescheduleRequired a

/-- The loop of `cancel_badged_sends`: the threads from `t` on whose message has
the badge leave the queue. -/
def restartBadged (badge : Word) :
    Nat → KernelState → TcbQueue → Word → Exec (KernelState × TcbQueue)
  | 0, _, _, _ => .error .outOfFuel
  | fuel + 1, s, queue, t =>
    if t = 0 then .ok (s, queue)
    else
      let next := (s.tcbs t).tcbEPNext
      if s.tsGet a t Field.tsBlockingIpcBadge = badge then
        let s := (s.setThreadState a t .restart).schedEnqueue a t
        let (s, queue) := epDequeue s queue t
        restartBadged badge fuel s queue next
      else restartBadged badge fuel s queue next

/-- `cancel_badged_sends` -/
def cancelBadgedSends (s : KernelState) (ep badge : Word) : Exec KernelState :=
  match getEpState s ep with
  | .send => do
    let queue := getEpQueue a s ep
    let s := setEpState s ep .idle
    let s := setEpQueue a s ep ⟨0, 0⟩
    let (s, queue) ← restartBadged a badge maxThreads s queue queue.head
    let s := setEpQueue a s ep queue
    let s := if queue.head ≠ 0 then setEpState s ep .send else s
    return s.rescheduleRequired a
  | _ => .ok s

/-! ## Notifications -/

def getNtfnState (s : KernelState) (ntfn : Word) : NtfnState :=
  NtfnState.ofWord (Field.ntfnState.stored (s.notifications ntfn))

def setNotification (s : KernelState) (ntfn : Word) (w : Words 4) : KernelState :=
  { s with notifications := update s.notifications ntfn w }

def setNtfnState (s : KernelState) (ntfn : Word) (state : NtfnState) : KernelState :=
  setNotification s ntfn (Field.ntfnState.set (s.notifications ntfn) state.toWord)

def getBoundTcb (s : KernelState) (ntfn : Word) : Word :=
  (Field.ntfnBoundTcb a).get (signExt a) (s.notifications ntfn)

def setBoundTcb (s : KernelState) (ntfn t : Word) : KernelState :=
  setNotification s ntfn ((Field.ntfnBoundTcb a).set (s.notifications ntfn) t)

/-- `notification_t::get_queue` -/
def getNtfnQueue (s : KernelState) (ntfn : Word) : TcbQueue :=
  ⟨(Field.ntfnQueueHead a).get (signExt a) (s.notifications ntfn),
    (Field.ntfnQueueTail a).get (signExt a) (s.notifications ntfn)⟩

/-- `notification_t::set_queue` -/
def setNtfnQueue (s : KernelState) (ntfn : Word) (queue : TcbQueue) : KernelState :=
  setNotification s ntfn ((Field.ntfnQueueTail a).set
    ((Field.ntfnQueueHead a).set (s.notifications ntfn) queue.head) queue.tail)

/-- `cancel_signal` -/
def cancelSignal (s : KernelState) (ntfn t : Word) : KernelState :=
  let (s, queue) := epDequeue s (getNtfnQueue a s ntfn) t
  let s := setNtfnQueue a s ntfn queue
  let s := if queue.head = 0 then setNtfnState s ntfn .idle else s
  s.setThreadState a t .inactive

/-- `cacncel_all_signal` -/
def cancelAllSignal (s : KernelState) (ntfn : Word) : Exec KernelState :=
  if getNtfnState s ntfn = .waiting then do
    let head := (getNtfnQueue a s ntfn).head
    let s := setNtfnState s ntfn .idle
    let s := setNtfnQueue a s ntfn ⟨0, 0⟩
    let s ← restartThreads a maxThreads s head
    return s.rescheduleRequired a
  else .ok s

/-- `unbind_notification` -/
def unbindNotification (s : KernelState) (t : Word) : KernelState :=
  s.modifyTcb t fun tcb => { tcb with tcbBoundNotification := 0 }

/-- `safe_unbind_tcb` -/
def safeUnbindTcb (s : KernelState) (ntfn : Word) : KernelState :=
  let tcb := getBoundTcb a s ntfn
  let s := setBoundTcb a s ntfn 0
  if tcb ≠ 0 then unbindNotification s tcb else s

/-- `safe_unbind_notification`, with `do_unbind_notification`. -/
def safeUnbindNotification (s : KernelState) (t : Word) : KernelState :=
  let ntfn := (s.tcbs t).tcbBoundNotification
  if ntfn ≠ 0 then unbindNotification (setBoundTcb a s ntfn 0) t else s

end Rel4.Ipc
