import Rel4.Ipc.Transfer

/-!
Sending and receiving through endpoints and notifications
(`sel4_ipc/src/endpoint.rs`, `sel4_ipc/src/notification.rs`).
-/

namespace Rel4.Ipc
open Lib.Bitfield Common Rel4.Task Kernel

variable (a : Arch)

/-! ## Endpoints -/

/-- A thread joins the queue of an endpoint: the end of `send_ipc` and
`receive_ipc` where they block. -/
def epEnqueue (s : KernelState) (ep t : Word) (state : EPState) : KernelState :=
  let (s, queue) := epAppend s (getEpQueue a s ep) t
  setEpQueue a (setEpState s ep state) ep queue

/-- The head leaves the queue of an endpoint that has a partner for it. -/
def epDequeueHead (s : KernelState) (ep : Word) : Exec (KernelState × Word) := do
  let queue := getEpQueue a s ep
  let head := queue.head
  ensure (head ≠ 0)
  let (s, queue) := epDequeue s queue head
  let s := setEpQueue a s ep queue
  return (if queue.head = 0 then setEpState s ep .idle else s, head)

/-- What `send_ipc` leaves in the state of a thread that has to wait. The state
is written before the scheduler is asked. -/
def blockOnSend (s : KernelState) (ep src : Word) (doCall canGrant : Bool) (badge : Word)
    (canGrantReply : Bool) : KernelState :=
  let s := s.tsSet src Field.tsType ThreadState.blockedOnSend.toWord
  let s := s.tsSet src (Field.tsBlockingObject a) ep
  let s := s.tsSet src Field.tsBlockingIpcCanGrant (flag canGrant)
  let s := s.tsSet src Field.tsBlockingIpcBadge badge
  let s := s.tsSet src Field.tsBlockingIpcCanGrantReply (flag canGrantReply)
  let s := s.tsSet src Field.tsBlockingIpcIsCall (flag doCall)
  s.scheduleTcb a src

/-- The caller waits for the reply, or for nothing if it cannot be given a reply cap. -/
def awaitReply (s : KernelState) (receiver caller : Word) (canReply grant : Bool) :
    Exec KernelState :=
  if canReply then s.setupCallerCap a receiver caller grant
  else .ok (s.setThreadState a caller .inactive)

/-- `send_ipc` -/
def sendIpc (s : KernelState) (ep src : Word) (blocking doCall canGrant : Bool) (badge : Word)
    (canGrantReply : Bool) : Exec KernelState :=
  match getEpState s ep with
  | .idle | .send =>
    if blocking then
      let s := blockOnSend a s ep src doCall canGrant badge canGrantReply
      .ok (epEnqueue a s ep src .send)
    else .ok s
  | .recv => do
    let (s, dest) ← epDequeueHead a s ep
    let s ← doIpcTransfer a s src dest (some ep) badge canGrant
    let replyCanGrant : Bool := s.tsGet a dest Field.tsBlockingIpcCanGrant ≠ 0
    let s := (s.setThreadState a dest .running).possibleSwitchTo a dest
    if doCall then awaitReply a s dest src (canGrant || canGrantReply) replyCanGrant
    else return s
  | .undefined => .error .panicked

/-- What `receive_ipc` leaves in the state of a thread that has to wait. -/
def blockOnReceive (s : KernelState) (ep t : Word) (grant : Bool) : KernelState :=
  let s := s.tsSet t (Field.tsBlockingObject a) ep
  let s := s.tsSet t Field.tsBlockingIpcCanGrant (flag grant)
  s.setThreadState a t .blockedOnReceive

/-- `receive_ipc` -/
def receiveIpc (s : KernelState) (ep t : Word) (isBlocking grant : Bool) : Exec KernelState :=
  let (s, completed) := completeSignal a s t
  if completed then .ok s
  else match getEpState s ep with
  | .idle | .recv =>
    if isBlocking then .ok (epEnqueue a (blockOnReceive a s ep t grant) ep t .recv)
    else .ok (s.setRegister a t .badge 0)
  | .send => do
    let (s, sender) ← epDequeueHead a s ep
    let badge := s.tsGet a sender Field.tsBlockingIpcBadge
    let canGrant : Bool := s.tsGet a sender Field.tsBlockingIpcCanGrant ≠ 0
    let canGrantReply : Bool := s.tsGet a sender Field.tsBlockingIpcCanGrantReply ≠ 0
    let s ← doIpcTransfer a s sender t (some ep) badge canGrant
    if s.tsGet a sender Field.tsBlockingIpcIsCall ≠ 0 then
      awaitReply a s t sender (canGrant || canGrantReply) grant
    else return (s.setThreadState a sender .running).possibleSwitchTo a sender
  | .undefined => .error .panicked

/-! ## Notifications -/

def getMsgIdentifier (s : KernelState) (ntfn : Word) : Word :=
  Field.ntfnMsgIdentifier.stored (s.notifications ntfn)

def setMsgIdentifier (s : KernelState) (ntfn badge : Word) : KernelState :=
  setNotification s ntfn (Field.ntfnMsgIdentifier.set (s.notifications ntfn) badge)

/-- `notification_t::active` -/
def active (s : KernelState) (ntfn badge : Word) : KernelState :=
  setMsgIdentifier (setNtfnState s ntfn .active) ntfn badge

/-- A thread is woken by a signal. -/
def wakeWithBadge (s : KernelState) (t badge : Word) : KernelState :=
  let s := s.setThreadState a t .running
  (s.setRegister a t .badge badge).possibleSwitchTo a t

/-- `send_signal` -/
def sendSignal (s : KernelState) (ntfn badge : Word) : Exec KernelState :=
  match getNtfnState s ntfn with
  | .idle =>
    let tcb := getBoundTcb a s ntfn
    if tcb ≠ 0 ∧ s.getState tcb = .blockedOnReceive then do
      let s ← cancelIpc a s tcb
      return wakeWithBadge a s tcb badge
    else .ok (active s ntfn badge)
  | .waiting =>
    let queue := getNtfnQueue a s ntfn
    let dest := queue.head
    if dest ≠ 0 then
      let (s, queue) := epDequeue s queue dest
      let s := setNtfnQueue a s ntfn queue
      let s := if queue.head = 0 then setNtfnState s ntfn .idle else s
      .ok (wakeWithBadge a s dest badge)
    else .error .panicked
  | .active => .ok (setMsgIdentifier s ntfn (getMsgIdentifier s ntfn ||| badge))
  | .undefined => .error .panicked

/-- `receive_signal` -/
def receiveSignal (s : KernelState) (ntfn t : Word) (isBlocking : Bool) : Exec KernelState :=
  match getNtfnState s ntfn with
  | .idle | .waiting =>
    if isBlocking then
      let s := s.tsSet t (Field.tsBlockingObject a) ntfn
      let s := s.setThreadState a t .blockedOnNotification
      let (s, queue) := epAppend s (getNtfnQueue a s ntfn) t
      .ok (setNtfnQueue a (setNtfnState s ntfn .waiting) ntfn queue)
    else .ok (s.setRegister a t .badge 0)
  | .active =>
    let s := s.setRegister a t .badge (getMsgIdentifier s ntfn)
    .ok (setNtfnState s ntfn .idle)
  | .undefined => .error .panicked

end Rel4.Ipc
