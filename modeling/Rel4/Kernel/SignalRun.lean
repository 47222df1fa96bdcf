import Rel4.Lib.Merge
import Rel4.Kernel.QueueRun

/-!
Signals over whole runs.

A signal is handed to a thread or kept in the notification until a thread takes
it. Along every run of the IPC operations the badges that were sent to a
notification are those that threads were given and those that are pending, and
the notification is waiting exactly as long as threads wait for it.
-/

namespace Rel4.Kernel
open Lib.Bitfield Lib.Queues Lib.Merge Common Rel4.Task Ipc Function
open Task.KernelState

variable {op : IpcOp} {q : Wait → List Word}
  {badge ep w : Word}

def pendingIn (w : Words 4) : Option Word :=
  if NtfnState.ofWord (Field.ntfnState.stored w) = .active then
    some (Field.ntfnMsgIdentifier.stored w)
  else none

/-- The badges that wait in the notification to be taken, if it is active. -/
def pending (s : KernelState) (ntfn : Word) : Option Word := pendingIn (s.notifications ntfn)

variable {a : Arch} {P : Population a} {s₀ s s' : KernelState} {n m t : Word}

/-! ## What leaves the pending badges alone -/

theorem pending_of_eq (h : s'.notifications = s.notifications) (n : Word) :
    pending s' n = pending s n := by
  rw [pending, h, pending]

theorem pending_of_schedEq (h : SchedEq s' s) (n : Word) : pending s' n = pending s n := by
  have h := congrArg notifications (show s'.eraseSched = s.eraseSched from h)
  exact pending_of_eq h n

theorem pending_of_messageEq (h : MessageEq a s' s) (n : Word) : pending s' n = pending s n :=
  pending_of_eq (h.proj (·.notifications)) n

theorem pending_setThreadState (st : ThreadState) (n : Word) :
    pending (s.setThreadState a t st) n = pending s n :=
  pending_of_schedEq (schedEq_setThreadState st) n

theorem pending_of_relinks (h : Relinks s s') (n : Word) : pending s' n = pending s n := by
  obtain ⟨_, _, rfl⟩ := h
  rfl

theorem pending_wake (st : ThreadState) (n : Word) :
    pending ((s.setThreadState a t st).possibleSwitchTo a t) n = pending s n :=
  (pending_of_schedEq schedEq_possibleSwitchTo n).trans (pending_setThreadState st n)

theorem pending_wakeWithBadge (badge n : Word) :
    pending (wakeWithBadge a s t badge) n = pending s n :=
  (pending_of_schedEq schedEq_possibleSwitchTo n).trans (pending_setThreadState .running n)

/-! ## Writing to a notification -/

theorem pending_setNotification (w : Words 4) :
    pending (setNotification s m w) n = if n = m then pendingIn w else pending s n := by
  unfold pending setNotification
  by_cases hn : n = m
  · subst hn
    simp only [update_self, if_true]
  · simp only [update_of_ne hn, if_neg hn]

/-- A field beside the state and the message. -/
theorem pendingIn_set (hs : Field.ntfnState.Disjoint f) (hm : Field.ntfnMsgIdentifier.Disjoint f)
    (w : Words 4) (v : Word) : pendingIn (f.set w v) = pendingIn w := by
  unfold pendingIn
  rw [stored_set_of_disjoint hs, stored_set_of_disjoint hm]

theorem pending_setNtfnQueue (queue : TcbQueue) :
    pending (setNtfnQueue a s m queue) n = pending s n := by
  unfold setNtfnQueue
  rw [pending_setNotification, pendingIn_set (by cases a <;> decide) (by cases a <;> decide),
    pendingIn_set (by cases a <;> decide) (by cases a <;> decide)]
  split
  next hn => rw [hn, pending]
  · rfl

theorem pending_setBoundTcb (w : Word) : pending (setBoundTcb a s m w) n = pending s n := by
  unfold setBoundTcb
  rw [pending_setNotification, pendingIn_set (by cases a <;> decide) (by cases a <;> decide)]
  split
  next hn => rw [hn, pending]
  · rfl

theorem ntfnState_ofWord_set (st : NtfnState) (w : Words 4) :
    NtfnState.ofWord (Field.ntfnState.stored (Field.ntfnState.set w st.toWord)) = st := by
  rw [stored_set_self (by decide)]
  cases st <;> decide

theorem pending_setNtfnState (st : NtfnState) : pending (setNtfnState s m st) n =
      if n = m then (if st = .active then some (getMsgIdentifier s m) else none) else pending s n := by
  have hmsg : Field.ntfnMsgIdentifier.Disjoint Field.ntfnState := by decide
  unfold setNtfnState
  rw [pending_setNotification, pendingIn, ntfnState_ofWord_set, stored_set_of_disjoint hmsg]
  rfl

theorem pending_setMsgIdentifier (w : Word) : pending (setMsgIdentifier s m w) n =
      if n = m then (if getNtfnState s m = .active then some w else none) else pending s n := by
  have hmsg : Field.ntfnMsgIdentifier.stored
      (Field.ntfnMsgIdentifier.set (s.notifications m) w) = w := by
    have hfull : lowMask 64 = BitVec.allOnes 64 := by decide
    rw [stored_set_self (by decide), Field.raw]
    show w >>> 0 &&& lowMask 64 = w
    rw [hfull, BitVec.and_allOnes, BitVec.ushiftRight_zero]
  have hst : Field.ntfnState.Disjoint Field.ntfnMsgIdentifier := by decide
  unfold setMsgIdentifier
  rw [pending_setNotification, pendingIn, hmsg, stored_set_of_disjoint hst]
  rfl

theorem pending_active (badge : Word) :
    pending (active s m badge) n = if n = m then some badge else pending s n := by
  have hactive : getNtfnState (setNtfnState s m .active) m = .active := by
    simp only [getNtfnState, setNtfnState, setNotification, update_self, ntfnState_ofWord_set]
  unfold active
  rw [pending_setMsgIdentifier, if_pos hactive, pending_setNtfnState]
  split <;> rfl

theorem pending_of_ne (h : getNtfnState s n ≠ .active) : pending s n = none := if_neg h

theorem pending_of_active (h : getNtfnState s n = .active) :
    pending s n = some (getMsgIdentifier s n) :=
  if_pos h

/-- A notification that has nothing pending is made idle. -/
theorem pending_setNtfnState_idle (h : pending s m = none) :
    pending (setNtfnState s m .idle) n = pending s n := by
  rw [pending_setNtfnState]
  split
  next hn => rw [hn, h, if_neg (by decide)]
  · rfl

/-! ## Operations that are not about signals -/

theorem pending_restarts (n : Word) : RestartRule a fun s s' => pending s' n = pending s n where
  refl _ := rfl
  trans h h' := h'.trans h
  restart _ _ := (pending_of_schedEq schedEq_schedEnqueue n).trans (pending_setThreadState _ n)
  relink h := pending_of_relinks h n
  setEndpoint _ _ _ := rfl
  clear _ hwaiting := by
    have hnone := pending_of_ne (by rw [hwaiting]; decide)
    exact (pending_setNtfnQueue _).trans (pending_setNtfnState_idle hnone)
  reschedule _ := pending_of_schedEq schedEq_rescheduleRequired n

theorem pending_epEnqueue (state : EPState) (n : Word) :
    pending (epEnqueue a s ep t state) n = pending s n :=
  pending_of_relinks (relinks_epAppend (getEpQueue a s ep)) n

theorem pending_epRemove (n : Word) : pending (epRemove a s ep t) n = pending s n := by
  unfold epRemove
  simp only
  split <;> exact pending_of_relinks (relinks_epDequeue _) n

theorem pending_epDequeueHead (h : epDequeueHead a s ep = .ok (s', t)) (n : Word) :
    pending s' n = pending s n := by
  obtain ⟨u, -, h⟩ := bind_eq_ok.mp h
  cases h
  exact pending_epRemove n

theorem pending_awaitReply (h : awaitReply a s receiver caller canReply grant = .ok s') (n : Word) :
    pending s' n = pending s n := by
  rcases awaitReply_cases h with ⟨_, _, h⟩ | rfl
  · exact (pending_of_messageEq (messageEq_insertCap h) n).trans (pending_setThreadState _ n)
  · exact pending_setThreadState _ n

theorem pending_blockOnReceive (n : Word) :
    pending (blockOnReceive a s ep t grant) n = pending s n :=
  pending_setThreadState _ n

theorem pending_sendIpc
    (h : sendIpc a s ep src blocking doCall canGrant badge canGrantReply = .ok s') (n : Word) :
    pending s' n = pending s n := by
  have hblock : pending (epEnqueue a (blockOnSend a s ep src doCall canGrant badge canGrantReply)
      ep src .send) n = pending s n := (pending_epEnqueue _ n).trans
    (pending_of_schedEq schedEq_scheduleTcb n)
  unfold sendIpc at h
  cases hst : getEpState s ep <;> simp only [hst] at h
  case idle | send =>
    split at h <;> cases h
    · exact hblock
    · rfl
  case recv =>
    obtain ⟨⟨s₁, dest⟩, hd, h⟩ := bind_eq_ok.mp h
    obtain ⟨s₂, ht, h⟩ := bind_eq_ok.mp h
    have hwoken : pending ((s₂.setThreadState a dest .running).possibleSwitchTo a dest) n =
        pending s n := (pending_wake _ n).trans
      ((pending_of_messageEq (messageEq_doIpcTransfer ht) n).trans (pending_epDequeueHead hd n))
    split at h
    · exact (pending_awaitReply h n).trans hwoken
    · cases h
      exact hwoken
  case undefined => cases h

/-- The rest of `receive_ipc` after `complete_signal`. -/
theorem pending_receiveIpc (h : receiveIpc a s ep t isBlocking grant = .ok s') (n : Word) :
    pending s' n = pending (completeSignal a s t).1 n := by
  unfold receiveIpc at h
  generalize completeSignal a s t = r at h ⊢
  obtain ⟨s₁, completed⟩ := r
  simp only at h ⊢
  have hblock : pending (epEnqueue a (blockOnReceive a s₁ ep t grant) ep t .recv) n =
      pending s₁ n := (pending_epEnqueue _ n).trans (pending_blockOnReceive n)
  split at h
  · cases h
    rfl
  cases hst : getEpState s₁ ep <;> simp only [hst] at h
  case idle | recv =>
    split at h <;> cases h
    · exact hblock
    · rfl
  case send =>
    obtain ⟨⟨s₂, sender⟩, hd, h⟩ := bind_eq_ok.mp h
    obtain ⟨s₃, ht, h⟩ := bind_eq_ok.mp h
    have hsame : pending s₃ n = pending s₁ n :=
      (pending_of_messageEq (messageEq_doIpcTransfer ht) n).trans (pending_epDequeueHead hd n)
    split at h
    · exact (pending_awaitReply h n).trans hsame
    · cases h
      exact (pending_wake _ n).trans hsame
  case undefined => cases h

/-- `delete_one` takes no signals away. -/
theorem pending_rule (n : Word) : ImmediateRule a fun s s' => pending s' n = pending s n where
  refl _ := rfl
  trans h h' := h'.trans h
  archFinaliseCap h := pending_of_eq ((VSpaceEq.archFinaliseCap h).proj (·.notifications)) n
  cancelAllIpc _ h := (pending_restarts n).cancelAllIpc h
  cancelAllSignal _ h := (pending_restarts n).cancelAllSignal h
  safeUnbindTcb s ntfn := by
    unfold safeUnbindTcb
    simp only
    split <;> exact pending_setBoundTcb 0
  setEmptySlot _ _ _ := rfl

theorem pending_ntfnRemove (h : pending s m = none) (n : Word) :
    pending (ntfnRemove a s m t) n = pending s n := by
  have hqueue : ∀ queue x, pending (setNtfnQueue a (epDequeue s (getNtfnQueue a s m) t).1 m queue) x =
      pending s x := fun queue x =>
    (pending_setNtfnQueue _).trans (pending_of_relinks (relinks_epDequeue _) x)
  unfold ntfnRemove
  simp only
  split
  · rw [pending_setNtfnState_idle ((hqueue _ m).trans h), hqueue]
  · exact hqueue _ n

theorem NtfnState.mode_eq_waiting {st : NtfnState} :
    st.mode = some .blockedOnNotification ↔ st = .waiting := by
  cases st <;> simp [NtfnState.mode]

/-- A notification that a thread waits for. -/
theorem QueueInv.ntfnState_of_blocked (h : QueueInv P s) (ht : P.thread t)
    (hst : s.getState t = .blockedOnNotification) :
    getNtfnState s (s.tsGet a t (Field.tsBlockingObject a)) = .waiting := by
  obtain ⟨q, hq⟩ := h.queues
  have hplace : (blockView a s).place t =
      some (.notification (s.tsGet a t (Field.tsBlockingObject a))) := by
    simp only [BlockView.place, blockView, hst, waitingIn]
  have hmode : (getNtfnState s (s.tsGet a t (Field.tsBlockingObject a))).mode =
      some (s.getState t) := hq.mode (hq.known ht hplace) ((hq.mem_iff ht).mpr hplace)
  exact NtfnState.mode_eq_waiting.mp (hst ▸ hmode)

theorem QueueInv.pending_cancelIpc (h : QueueInv P s) (ht : P.thread t)
    (hrun : Kernel.cancelIpc a s t = .ok s') (n : Word) : pending s' n = pending s n := by
  unfold Kernel.cancelIpc at hrun
  cases hst : s.getState t <;> simp only [hst] at hrun
  case blockedOnReceive | blockedOnSend =>
    obtain ⟨-, -, hrun⟩ := bind_eq_ok.mp hrun
    obtain ⟨-, -, hrun⟩ := bind_eq_ok.mp hrun
    cases hrun
    exact (pending_setThreadState _ n).trans (pending_epRemove n)
  case blockedOnNotification =>
    obtain ⟨-, -, hrun⟩ := bind_eq_ok.mp hrun
    cases hrun
    have hnone : pending s (s.tsGet a t (Field.tsBlockingObject a)) = none :=
      pending_of_ne (by rw [h.ntfnState_of_blocked ht hst]; decide)
    exact (pending_setThreadState _ n).trans (pending_ntfnRemove hnone n)
  case blockedOnReply =>
    split at hrun
    · exact ((pending_rule n).deleteOne hrun).trans rfl
    · cases hrun
      rfl
  all_goals
    cases hrun
    rfl

/-! ## What an operation sends and hands over -/

/-- A thread waited before the step and does not wait after it. -/
def Woken (P : Population a) (s s' : KernelState) (t : Word) : Prop :=
  P.thread t ∧ (blockView a s).place t ≠ none ∧ (blockView a s').place t = none

namespace IpcOp

/-- The badges that the operation sends to the notification. -/
def signals (n : Word) : IpcOp → List Word
  | .sendSignal m badge => if m = n then [badge] else []
  | _ => []

/-- The threads that the operation hands a signal of the notification to: those that a
signal wakes, a receiver that does not have to wait, and a thread that receives
IPC while the notification it is bound to is active. -/
def Hands (P : Population a) (n : Word) (s s' : KernelState) : IpcOp → Word → Prop
  | .sendSignal m _, t => m = n ∧ Woken P s s' t
  | .receiveSignal m x _, t => m = n ∧ t = x ∧ (blockView a s').place x = none
  | .receiveIpc _ x _ _, t => t = x ∧ (s.tcbs x).tcbBoundNotification = n ∧ n ≠ 0 ∧
    getNtfnState s n = .active
  | _, _ => False

/-- These threads with what is in their badge registers afterwards. -/
structure Deliveries (P : Population a) (n : Word) (s : KernelState) (op : IpcOp) (s' : KernelState)
    (d : List (Word × Word)) : Prop where
  nodup : d.Nodup
  mem_iff : ∀ t w, (t, w) ∈ d ↔ op.Hands P n s s' t ∧ w = s'.getRegister a t .badge

variable {op : IpcOp}

theorem Deliveries.none (h : ∀ t, ¬op.Hands P n s s' t) : op.Deliveries P n s s' [] :=
  ⟨.nil, fun t _ => iff_of_false List.not_mem_nil fun hh => h t hh.1⟩

theorem Deliveries.one (h : ∀ x, op.Hands P n s s' x ↔ x = t) (hw : s'.getRegister a t .badge = w) :
    op.Deliveries P n s s' [(t, w)] := by
  refine ⟨List.nodup_singleton _, fun x v => ?_⟩
  rw [List.mem_singleton, Prod.mk.injEq, h]
  constructor
  · rintro ⟨rfl, rfl⟩
    exact ⟨rfl, hw.symm⟩
  · rintro ⟨rfl, rfl⟩
    exact ⟨rfl, hw⟩

end IpcOp

/-! ## Sending -/

theorem badge_wakeWithBadge (badge : Word) :
    (wakeWithBadge a s t badge).getRegister a t .badge = badge := by
  rw [wakeWithBadge, getRegister, schedEq_possibleSwitchTo.registers]
  exact getRegister_setRegister _ _

/-- A thread leaves its queue and runs: it is the one that is woken. -/
theorem woken_iff (hq : BlockInv P (blockView a s) q) (ht : t ∈ q i)
    (hu : Unlinks (blockView a s) (blockView a s₁) t i)
    (hv : blockView a s' = (blockView a s₁).setState t .running) (x : Word) :
    Woken P s s' x ↔ x = t := by
  have hplace : (blockView a s').place x = if x = t then none else (blockView a s).place x := by
    rw [hv, place_setState (fun _ => rfl : Free .running), BlockView.place, hu.state, hu.object]
    rfl
  unfold Woken
  rw [hplace]
  constructor
  · rintro ⟨-, hne, hnone⟩
    by_contra hx
    rw [if_neg hx] at hnone
    exact hne hnone
  · rintro rfl
    refine ⟨hq.thread_of_mem ht, ?_, if_pos rfl⟩
    rw [hq.waiting.place_eq ht]
    exact Option.some_ne_none i

/-- Nobody is woken where the queues stay as they are. -/
theorem not_woken (hv : blockView a s' = blockView a s) (x : Word) : ¬Woken P s s' x := by
  rintro ⟨-, hne, hnone⟩
  rw [hv] at hnone
  exact hne hnone

/-- What becomes of a signal: one thread gets it, or it is kept with those that are pending. -/
inductive Signalled (P : Population a) (n badge : Word) (s s' : KernelState) : Prop
  | handed (t : Word) (woken : ∀ x, Woken P s s' x ↔ x = t)
    (badge_eq : s'.getRegister a t .badge = badge) (before : pending s n = none)
    (after : pending s' n = none)
  | kept (woken : ∀ x, ¬Woken P s s' x)
    (after : pending s' n = some ((pending s n).elim badge (· ||| badge)))

theorem QueueInv.signalled_bound (h : QueueInv P s) (hst : getNtfnState s n = .idle)
    (ht : P.thread t) (hrecv : s.getState t = .blockedOnReceive) (badge : Word) :
    ∃ s₁, Kernel.cancelIpc a s t = .ok s₁ ∧ Signalled P n badge s (wakeWithBadge a s₁ t badge) := by
  obtain ⟨q, hq⟩ := h.queues
  have hplace : (blockView a s).place t =
      some (.endpoint (s.tsGet a t (Field.tsBlockingObject a))) := by
    simp only [BlockView.place, waitingIn, blockView, hrecv]
  have hmem := (hq.mem_iff ht).mpr hplace
  obtain ⟨s₁, hs₁, -, -⟩ := h.cancelIpc_waiting ht hplace
  have hview : blockView a (wakeWithBadge a s₁ t badge) =
      (blockView a (epRemove a s (s.tsGet a t (Field.tsBlockingObject a)) t)).setState t .running := by
    unfold Kernel.cancelIpc at hs₁
    simp only [hrecv] at hs₁
    obtain ⟨-, -, hs₁⟩ := bind_eq_ok.mp hs₁
    obtain ⟨-, -, hs₁⟩ := bind_eq_ok.mp hs₁
    cases hs₁
    rw [blockView_wakeWithBadge, epCancelIpc, blockView_setThreadState]
    simp only [BlockView.setState, update_idem]
    rfl
  have hnone : pending s n = none := pending_of_ne (by rw [hst]; decide)
  refine ⟨s₁, hs₁, .handed t (woken_iff hq hmem (hq.unlinks_epRemove hmem) hview)
    (badge_wakeWithBadge badge) hnone ?_⟩
  rw [pending_wakeWithBadge, h.pending_cancelIpc ht hs₁, hnone]

/-- Every signal is handed to one thread or kept. -/
theorem QueueInv.signalled (h : QueueInv P s) (hn : P.object (.notification n)) (badge : Word) :
    ∃ s', Ipc.sendSignal a s n badge = .ok s' ∧ Signalled P n badge s s' := by
  obtain ⟨q, hq⟩ := h.queues
  unfold Ipc.sendSignal
  cases hst : getNtfnState s n <;> simp only
  case idle =>
    have hnone : pending s n = none := pending_of_ne (by rw [hst]; decide)
    split
    next hbound =>
      obtain ⟨s₁, hs₁, hsig⟩ := h.signalled_bound hst (h.bound hn hbound.1) hbound.2 badge
      exact ⟨_, bind_eq_ok.mpr ⟨s₁, hs₁, rfl⟩, hsig⟩
    have hmode : (blockView a s).mode (.notification n) = none := congrArg NtfnState.mode hst
    refine ⟨_, rfl, .kept (not_woken ?_) ?_⟩
    · unfold active
      rw [blockView_setMsgIdentifier, blockView_setNtfnState]
      exact BlockView.setMode_self hmode
    · rw [pending_active, if_pos rfl, hnone]
      rfl
  case waiting =>
    have hnone : pending s n = none := pending_of_ne (by rw [hst]; decide)
    obtain ⟨dest, l, hl⟩ := hq.exists_head hn (by simp [blockView, hst, NtfnState.mode])
    have hdest : dest ∈ q (.notification n) := by simp [hl]
    have hends : getNtfnQueue a s n =
        ⟨(q (.notification n)).headD 0, (q (.notification n)).getLastD 0⟩ := hq.ends hn
    have hhead : (getNtfnQueue a s n).head = dest := by
      rw [hends, hl]
      rfl
    rw [hhead, if_pos (Population.ne_zero (hq.thread_of_mem hdest))]
    refine ⟨_, rfl, .handed dest (woken_iff hq hdest (hq.unlinks_ntfnRemove hdest)
      blockView_wakeWithBadge) (badge_wakeWithBadge badge) hnone ?_⟩
    exact (pending_wakeWithBadge _ _).trans ((pending_ntfnRemove hnone n).trans hnone)
  case active =>
    refine ⟨_, rfl, .kept (not_woken (blockView_setMsgIdentifier _ _)) ?_⟩
    rw [pending_setMsgIdentifier, if_pos rfl, if_pos hst, pending_of_active hst]
    rfl
  case undefined => exact absurd hst (hq.ntfnState_ne_undefined hn)

/-- A signal to another notification. -/
theorem QueueInv.pending_sendSignal (h : QueueInv P s) (hm : P.object (.notification m))
    (hne : n ≠ m) (hrun : Ipc.sendSignal a s m badge = .ok s') : pending s' n = pending s n := by
  unfold Ipc.sendSignal at hrun
  cases hst : getNtfnState s m <;> simp only [hst] at hrun
  case idle =>
    split at hrun
    next hbound =>
      obtain ⟨s₁, hs₁, hrun⟩ := bind_eq_ok.mp hrun
      cases hrun
      exact (pending_wakeWithBadge _ _).trans (h.pending_cancelIpc (h.bound hm hbound.1) hs₁ n)
    · cases hrun
      rw [pending_active, if_neg hne]
  case waiting =>
    split at hrun
    · cases hrun
      have hnone : pending s m = none := pending_of_ne (by rw [hst]; decide)
      exact (pending_wakeWithBadge _ _).trans (pending_ntfnRemove hnone n)
    · cases hrun
  case active =>
    cases hrun
    rw [pending_setMsgIdentifier, if_neg hne]
  case undefined => cases hrun

/-! ## Receiving -/

/-- What a receiver finds: it waits, it finds nothing, or it takes what is pending. -/
inductive Received (a : Arch) (n t : Word) (s s' : KernelState) : Prop
  | waits (place : (blockView a s').place t ≠ none) (same : pending s' n = pending s n)
  | nothing (place : (blockView a s').place t = none) (badge : s'.getRegister a t .badge = 0)
    (before : pending s n = none) (after : pending s' n = none)
  | taken (w : Word) (place : (blockView a s').place t = none)
    (badge : s'.getRegister a t .badge = w) (before : pending s n = some w)
    (after : pending s' n = none)

theorem pending_awaitSignal (h : pending s m = none) (n : Word) :
    pending (awaitSignal a s m t) n = pending s n := by
  unfold awaitSignal
  rw [pending_setNtfnQueue, pending_setNtfnState,
    pending_of_relinks (relinks_epAppend _), pending_setThreadState]
  split
  next hn =>
    rw [hn, h]
    rfl
  · rfl

theorem QueueInv.received (h : QueueInv P s) (ht : Ready P s t) (hn : P.object (.notification n))
    (hrun : Ipc.receiveSignal a s n t isBlocking = .ok s') : Received a n t s s' := by
  obtain ⟨q, hq⟩ := h.queues
  have hwait : getNtfnState s n = .idle ∨ getNtfnState s n = .waiting → Received a n t s s' := by
    intro hst
    have hs' := Except.ok.inj (hrun.symm.trans (receiveSignal_wait hst))
    have hnone : pending s n = none := pending_of_ne (by rcases hst with e | e <;> rw [e] <;> decide)
    have hmode : (getNtfnState s n).mode = none ∨
        (getNtfnState s n).mode = some .blockedOnNotification :=
      hst.imp (congrArg NtfnState.mode) (congrArg NtfnState.mode)
    split at hs'
    · have hblock := hq.awaitSignal ht.1 ht.2 hn hmode
      rw [← hs'] at hblock
      refine .waits ?_ (hs' ▸ pending_awaitSignal hnone n)
      rw [hblock.waiting.place_eq (i := .notification n) (by simp)]
      exact Option.some_ne_none _
    · subst hs'
      exact .nothing (by rw [blockView_setRegister]; exact ht.2) (getRegister_setRegister _ _) hnone
        hnone
  cases hst : getNtfnState s n
  case idle => exact hwait (.inl hst)
  case waiting => exact hwait (.inr hst)
  case active =>
    unfold Ipc.receiveSignal at hrun
    simp only [hst] at hrun
    cases hrun
    have hmode : (blockView a s).mode (.notification n) = none := congrArg NtfnState.mode hst
    refine .taken (getMsgIdentifier s n) ?_ (getRegister_setRegister _ _) (pending_of_active hst) ?_
    · rw [blockView_setNtfnState, blockView_setRegister]
      exact (congrArg (BlockView.place · t) (BlockView.setMode_self hmode)).trans ht.2
    · rw [pending_setNtfnState, if_pos rfl]
      rfl
  case undefined => exact absurd hst (hq.ntfnState_ne_undefined hn)

/-- A receiver at another notification. -/
theorem QueueInv.pending_receiveSignal (h : QueueInv P s) (hm : P.object (.notification m))
    (hne : n ≠ m) (hrun : Ipc.receiveSignal a s m t isBlocking = .ok s') :
    pending s' n = pending s n := by
  obtain ⟨q, hq⟩ := h.queues
  have hwait : getNtfnState s m = .idle ∨ getNtfnState s m = .waiting →
      pending s' n = pending s n := by
    intro hst
    have hnone : pending s m = none := pending_of_ne (by rcases hst with e | e <;> rw [e] <;> decide)
    obtain rfl := Except.ok.inj (hrun.symm.trans (receiveSignal_wait hst))
    split
    · exact pending_awaitSignal hnone n
    · rfl
  cases hst : getNtfnState s m
  case idle => exact hwait (.inl hst)
  case waiting => exact hwait (.inr hst)
  case active =>
    unfold Ipc.receiveSignal at hrun
    simp only [hst] at hrun
    cases hrun
    exact pending_setNtfnState _ |>.trans (if_neg hne)
  case undefined => exact absurd hst (hq.ntfnState_ne_undefined hm)

/-- A thread is bound to the notification while it is active. -/
def BoundActive (s : KernelState) (t n : Word) : Prop :=
  (s.tcbs t).tcbBoundNotification = n ∧ n ≠ 0 ∧ getNtfnState s n = .active

theorem pending_completeSignal (h : ¬BoundActive s t n) :
    pending (completeSignal a s t).1 n = pending s n := by
  unfold completeSignal
  simp only
  split
  next hactive =>
    have hne : n ≠ (s.tcbs t).tcbBoundNotification := by
      rintro rfl
      exact h ⟨rfl, hactive⟩
    exact pending_setNtfnState _ |>.trans (if_neg hne)
  · rfl

/-! ## Steps -/

theorem IpcOp.Deliveries.eq (h : op.Deliveries P n s s' d) (h' : op.Deliveries P n s s' d')
    (hlen : d.length ≤ 1) : d' = d := by
  have hperm : d'.Perm d := (List.perm_ext_iff_of_nodup h'.nodup h.nodup).mpr fun x =>
    (h'.mem_iff x.1 x.2).trans (h.mem_iff x.1 x.2).symm
  match d, hlen with
  | [], _ => exact List.perm_nil.mp hperm
  | [x], _ => exact List.perm_singleton.mp hperm

/-- The history of a notification: what was sent to it, what threads got of it, what is pending. -/
abbrev History (sent got : List Word) (kept : Option Word) : Prop :=
  Merged (· ||| ·) (0 : Word) sent got kept

/-- What an operation means for the history of a notification. -/
def Advances (P : Population a) (n : Word) (s : KernelState) (op : IpcOp) (s' : KernelState) : Prop :=
  ∃ d : List (Word × Word), d.length ≤ 1 ∧ op.Deliveries P n s s' d ∧
    ∀ {sent got : List Word}, History sent got (pending s n) →
      History (sent ++ op.signals n) (got ++ d.map Prod.snd) (pending s' n)

/-- An operation that is not about the notification. -/
theorem Advances.same (hsignals : op.signals n = []) (hhands : ∀ t, ¬op.Hands P n s s' t)
    (hsame : pending s' n = pending s n) : Advances P n s op s' := by
  refine ⟨[], Nat.zero_le 1, .none hhands, fun h => ?_⟩
  rw [hsignals, hsame, List.append_nil, List.map_nil, List.append_nil]
  exact h

/-- A thread gets a badge, and nothing is sent. -/
theorem Advances.take (hsignals : op.signals n = []) (hhands : ∀ x, op.Hands P n s s' x ↔ x = t)
    (hw : s'.getRegister a t .badge = w)
    (hist : ∀ {sent got : List Word}, History sent got (pending s n) →
      History sent (got ++ [w]) (pending s' n)) : Advances P n s op s' := by
  refine ⟨[(t, w)], Nat.le_refl 1, .one hhands hw, fun h => ?_⟩
  rw [hsignals, List.append_nil]
  exact hist h

theorem QueueInv.advances_sendSignal (h : QueueInv P s) (hm : P.object (.notification m))
    (hrun : Ipc.sendSignal a s m badge = .ok s') : Advances P n s (.sendSignal m badge) s' := by
  by_cases hne : m = n
  · subst hne
    have hhands : ∀ x, (IpcOp.sendSignal m badge).Hands P m s s' x ↔ Woken P s s' x := fun x =>
      and_iff_right rfl
    obtain ⟨s₁, hs₁, hsig⟩ := h.signalled hm badge
    obtain rfl := Except.ok.inj (hs₁.symm.trans hrun)
    have hsent : (IpcOp.sendSignal m badge).signals m = [badge] := if_pos rfl
    have hzero : (0 : Word) ||| badge = badge := BitVec.zero_or
    cases hsig with
    | handed t hwoken hbadge hbefore hafter =>
      refine ⟨[(t, badge)], Nat.le_refl 1, .one (fun x => (hhands x).trans (hwoken x)) hbadge,
        fun hist => ?_⟩
      rw [hbefore] at hist
      rw [hsent, hafter]
      exact hist.send_through hzero
    | kept hwoken hafter =>
      refine ⟨[], Nat.zero_le 1, .none fun x hx => hwoken x ((hhands x).mp hx), fun hist => ?_⟩
      rw [hsent, hafter, List.map_nil, List.append_nil]
      cases hp : pending s m with
      | none =>
        rw [hp] at hist
        exact hist.send_first hzero
      | some w =>
        rw [hp] at hist
        exact hist.send_more
  · refine .same (if_neg hne) (fun t ht => hne ht.1) (h.pending_sendSignal hm (Ne.symm hne) hrun)

theorem QueueInv.advances_receiveSignal (h : QueueInv P s) (ht : Ready P s t)
    (hm : P.object (.notification m)) (hrun : Ipc.receiveSignal a s m t isBlocking = .ok s') :
    Advances P n s (.receiveSignal m t isBlocking) s' := by
  by_cases hne : m = n
  · subst hne
    have hhands : ∀ x, (IpcOp.receiveSignal m t isBlocking).Hands P m s s' x ↔
        x = t ∧ (blockView a s').place t = none := fun x => and_iff_right rfl
    cases h.received ht hm hrun with
    | waits hplace hsame => exact .same rfl (fun x hx => hplace ((hhands x).mp hx).2) hsame
    | nothing hplace hbadge hbefore hafter =>
      refine .take rfl (fun x => (hhands x).trans (and_iff_left hplace)) hbadge fun hist => ?_
      rw [hbefore] at hist
      rw [hafter]
      exact hist.take_nothing
    | taken w hplace hbadge hbefore hafter =>
      refine .take rfl (fun x => (hhands x).trans (and_iff_left hplace)) hbadge fun hist => ?_
      rw [hbefore] at hist
      rw [hafter]
      exact hist.take
  · exact .same rfl (fun x hx => hne hx.1) (h.pending_receiveSignal hm (Ne.symm hne) hrun)

theorem advances_receiveIpc (hrun : receiveIpc a s ep t isBlocking grant = .ok s') :
    Advances P n s (.receiveIpc ep t isBlocking grant) s' := by
  have hhands : ∀ x, (IpcOp.receiveIpc ep t isBlocking grant).Hands P n s s' x ↔
      x = t ∧ BoundActive s t n := fun x => Iff.rfl
  by_cases hb : BoundActive s t n
  · have hs' : s' = setNtfnState (s.setRegister a t .badge (getMsgIdentifier s n)) n .idle := by
      obtain ⟨rfl, hne, hst⟩ := hb
      have hcomplete : completeSignal a s t = _ := if_pos ⟨hne, hst⟩
      unfold receiveIpc at hrun
      rw [hcomplete] at hrun
      exact (Except.ok.inj hrun).symm
    refine .take (w := getMsgIdentifier s n) rfl (fun x => (hhands x).trans (and_iff_left hb)) ?_
      fun hist => ?_
    · rw [hs']
      exact getRegister_setRegister _ _
    · have hafter : pending s' n = none := by
        rw [hs', pending_setNtfnState, if_pos rfl]
        rfl
      rw [pending_of_active hb.2.2] at hist
      rw [hafter]
      exact hist.take
  · exact .same rfl (fun x hx => hb ((hhands x).mp hx).2)
      ((pending_receiveIpc hrun n).trans (pending_completeSignal hb))

/-- Every operation carries the history on. -/
theorem QueueInv.advances (h : QueueInv P s) (hl : op.Legal P s) (hrun : op.run a s = .ok s')
    (n : Word) : Advances P n s op s' := by
  cases op with
  | sendIpc => exact .same rfl (fun _ => id) (pending_sendIpc hrun n)
  | receiveIpc => exact advances_receiveIpc hrun
  | cancelIpc => exact .same rfl (fun _ => id) (h.pending_cancelIpc hl hrun n)
  | cancelAllIpc => exact .same rfl (fun _ => id) ((pending_restarts n).cancelAllIpc hrun)
  | cancelBadgedSends => exact .same rfl (fun _ => id) ((pending_restarts n).cancelBadgedSends hrun)
  | sendSignal => exact h.advances_sendSignal hl hrun
  | receiveSignal => exact h.advances_receiveSignal hl.1 hl.2 hrun
  | cancelAllSignal => exact .same rfl (fun _ => id) ((pending_restarts n).cancelAllSignal hrun)

/-! ## Runs -/

/-- Runs with the history of a notification: the badges that were sent to it, and the
threads that were given badges. The rest of the kernel does not touch the signal. -/
inductive SignalRun (P : Population a) (n : Word) (s₀ : KernelState) :
    List Word → List (Word × Word) → KernelState → Prop
  | start : SignalRun P n s₀ [] [] s₀
  | op {sent : List Word} {got d : List (Word × Word)} {s s' : KernelState} (op : IpcOp)
    (h : SignalRun P n s₀ sent got s) (hl : op.Legal P s) (hrun : op.run a s = .ok s')
    (hs : SlotsApart P s'.ctes) (hd : op.Deliveries P n s s' d) : SignalRun P n s₀ (sent ++ op.signals n) (got ++ d) s'
  | other {sent : List Word} {got : List (Word × Word)} {s s' : KernelState}
    (h : SignalRun P n s₀ sent got s) (he : Elsewhere P s s') (hs : SlotsApart P s'.ctes)
    (hn : pending s' n = pending s n) : SignalRun P n s₀ sent got s'

variable {sent : List Word} {got : List (Word × Word)}

theorem SignalRun.ipcRun (h : SignalRun P n s₀ sent got s) : IpcRun P s₀ s := by
  induction h with
  | start => exact .start
  | op op _ hl hrun hs _ ih => exact .op op ih hl hrun hs
  | other _ he hs _ ih => exact .other ih he hs

theorem SignalRun.history (h : SignalRun P n s₀ sent got s) (h₀ : IdleStart P s₀)
    (hn : getNtfnState s₀ n = .idle) : History sent (got.map Prod.snd) (pending s n) := by
  induction h with
  | start =>
    rw [pending_of_ne (by rw [hn]; decide)]
    exact .nil
  | op op h hl hrun _ hd ih =>
    obtain ⟨d', hlen, hd', hist⟩ := (h.ipcRun.queueInv h₀).advances hl hrun n
    rw [hd'.eq hd hlen, List.map_append]
    exact hist ih
  | other _ _ _ hp ih =>
    rw [hp]
    exact ih

/-- The queue of the notification, as it is linked in memory, is `l`, and it holds the
threads that are blocked on the notification. -/
structure NtfnQueue (P : Population a) (s : KernelState) (n : Word) (l : List Word) : Prop where
  links : IsQueue 0 ⟨fun t => (s.tcbs t).tcbEPNext, fun t => (s.tcbs t).tcbEPPrev⟩ l
  ends : getNtfnQueue a s n = ⟨l.headD 0, l.getLastD 0⟩
  waiting : getNtfnState s n = .waiting ↔ l ≠ []
  mem_iff : ∀ t, P.thread t → (t ∈ l ↔ s.getState t = .blockedOnNotification ∧
    s.tsGet a t (Field.tsBlockingObject a) = n)
  thread : ∀ t ∈ l, P.thread t

theorem ntfnQueue_of_blockInv (h : BlockInv P (blockView a s) q) (hi : P.object (.notification n)) :
    NtfnQueue P s n (q (.notification n)) := by
  refine ⟨h.waiting.links.queue _, h.ends hi, ?_, fun t ht => ?_, fun t ht => h.thread_of_mem ht⟩
  · have hidle : (getNtfnState s n).mode = none ↔ q (.notification n) = [] := h.idle hi
    rw [Ne, ← hidle]
    have hdef := h.ntfnState_ne_undefined hi
    cases hst : getNtfnState s n
    case undefined => exact absurd hst hdef
    all_goals simp [NtfnState.mode]
  · rw [h.mem_iff ht]
    show waitingIn (s.getState t) (s.tsGet a t _) = _ ↔ _
    cases s.getState t <;> simp [waitingIn]

/-- In every state of a run the notification is waiting exactly if threads wait for it, what was
sent to it is what threads got and what is pending, in consecutive groups, and the next
signal goes to exactly one thread or to those that are pending. -/
theorem signalRun_conserved (h₀ : IdleStart P s₀) (hn : P.object (.notification n))
    (hidle : getNtfnState s₀ n = .idle) (h : SignalRun P n s₀ sent got s) :
    (∃ l, NtfnQueue P s n l) ∧ History sent (got.map Prod.snd) (pending s n) ∧
      join (· ||| ·) 0 sent = join (· ||| ·) 0 (got.map Prod.snd) ||| (pending s n).getD 0 ∧
      (∀ badge, ∃ s', sendSignal a s n badge = .ok s' ∧ Signalled P n badge s s') ∧
      ∀ (op : IpcOp) (s' : KernelState), op.Legal P s → op.run a s = .ok s' →
        ∃ d, op.Deliveries P n s s' d := by
  have hinv := h.ipcRun.queueInv h₀
  have hist := h.history h₀ hidle
  obtain ⟨q, hq⟩ := hinv.queues
  refine ⟨⟨_, ntfnQueue_of_blockInv hq hn⟩, hist, hist.join_eq, hinv.signalled hn, ?_⟩
  intro op s' hl hrun
  obtain ⟨d, -, hd, -⟩ := hinv.advances hl hrun n
  exact ⟨d, hd⟩

/-! A notification and a thread. -/

def oneThread : Population .riscv64 where
  thread t := t = pptrBase .riscv64 + 0x1200
  object i := i = .notification (pptrBase .riscv64 + 0x2000)
  thread_window h := by
    subst h
    decide
  thread_aligned h := by
    subst h
    decide
  object_window h := by
    subst h
    decide
  object_aligned h := by
    subst h
    decide
  objects_apart h h' hne := absurd (h.trans h'.symm) hne
  threads_apart h ht := by
    subst h
    subst ht
    decide

theorem idleStart_oneThread : IdleStart oneThread zero := idleStart_of_zero _ rfl rfl rfl rfl

/-- Two signals to an idle notification are merged. -/
theorem signalRun_conserved_merged : ∃ (got : List (Word × Word)) (s : KernelState),
    SignalRun oneThread (pptrBase .riscv64 + 0x2000) zero [5, 2] got s ∧
      pending s (pptrBase .riscv64 + 0x2000) = some 7 ∧
      History [5, 2] (got.map Prod.snd) (some 7) := by
  have hn : oneThread.object (.notification (pptrBase .riscv64 + 0x2000)) := rfl
  have h₀ : SignalRun oneThread (pptrBase .riscv64 + 0x2000) zero [] [] zero := .start
  have hrun₁ : (IpcOp.sendSignal (pptrBase .riscv64 + 0x2000) 5).run .riscv64 zero =
      .ok (active zero (pptrBase .riscv64 + 0x2000) 5) := rfl
  obtain ⟨d₁, hd₁⟩ := (signalRun_conserved idleStart_oneThread hn (by decide) h₀).2.2.2.2
    (.sendSignal (pptrBase .riscv64 + 0x2000) 5) _ hn hrun₁
  have h₁ := h₀.op (.sendSignal (pptrBase .riscv64 + 0x2000) 5) hn hrun₁ (slotsApart_empty rfl) hd₁
  have hrun₂ : (IpcOp.sendSignal (pptrBase .riscv64 + 0x2000) 2).run .riscv64
      (active zero (pptrBase .riscv64 + 0x2000) 5) =
      .ok (setMsgIdentifier (active zero (pptrBase .riscv64 + 0x2000) 5)
        (pptrBase .riscv64 + 0x2000) 7) := rfl
  obtain ⟨d₂, hd₂⟩ := (signalRun_conserved idleStart_oneThread hn (by decide) h₁).2.2.2.2
    (.sendSignal (pptrBase .riscv64 + 0x2000) 2) _ hn hrun₂
  have h₂ := h₁.op (.sendSignal (pptrBase .riscv64 + 0x2000) 2) hn hrun₂ (slotsApart_empty rfl) hd₂
  have hpending : pending (setMsgIdentifier (active zero (pptrBase .riscv64 + 0x2000) 5)
      (pptrBase .riscv64 + 0x2000) 7) (pptrBase .riscv64 + 0x2000) = some 7 := by decide
  refine ⟨_, _, h₂, hpending, ?_⟩
  rw [← hpending]
  exact (signalRun_conserved idleStart_oneThread hn (by decide) h₂).2.1

end Rel4.Kernel
