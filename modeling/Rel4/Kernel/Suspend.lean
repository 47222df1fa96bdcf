import Rel4.Kernel.QueueRun
import Rel4.Kernel.UserMode

/-!
Suspending a running thread and resuming it.

A thread goes on at `NextIP`. When it is activated after a restart, `NextIP` is
loaded from `FaultIP`, and so whoever stops a running thread has to leave the
address to go on at in `FaultIP`. `suspend` writes `FaultIP` back to itself.
-/

namespace Rel4.Kernel
open Lib.Bitfield Lib.Loop Common CSpace Rel4.Task Ipc VSpace Function
open Task.KernelState

variable {flag thread x : Word} {call : Bool} {a : Arch} {s s' : KernelState}
  {t : Word}

/-! ## Threads that wait to be restarted -/

def Parked (state : ThreadState) : Prop := state = .inactive ∨ state = .restart

/-- Threads only change their state to one of the parked ones. -/
def Parks (s s' : KernelState) : Prop :=
  ∀ x, s'.getState x = s.getState x ∨ Parked (s'.getState x)

namespace Parks

theorem refl (s : KernelState) : Parks s s := fun _ => .inl rfl

theorem trans (h : Parks s s') (h' : Parks s' s'') : Parks s s'' := by
  intro x
  rcases h' x with hx | hx
  · rw [hx]
    exact h x
  · exact .inr hx

theorem of_tcbs (h : s'.tcbs = s.tcbs) : Parks s s' := fun x => .inl (by rw [getState, getState, h])

theorem of_schedEq (h : SchedEq s' s) : Parks s s' := fun x => .inl (h.getState x)

theorem of_ite (hstate : Parked state)
    (h : ∀ x, s'.getState x = if x = t then state else s.getState x) : Parks s s' := by
  intro x
  by_cases hx : x = t
  · rw [h, if_pos hx]
    exact .inr hstate
  · rw [h, if_neg hx]
    exact .inl rfl

theorem of_restart (h : ∀ x, s'.getState x = s.getState x ∨ s'.getState x = .restart) :
    Parks s s' := fun x => (h x).imp id .inr

theorem parked (h : Parks s s') (ht : Parked (s.getState t)) : Parked (s'.getState t) := by
  rcases h t with hx | hx
  · rw [hx]
    exact ht
  · exact hx

end Parks

theorem parks_modifyTcb (hf : ∀ tcb, (f tcb).tcbState = tcb.tcbState) :
    Parks s (s.modifyTcb t f) := fun x => .inl (getState_modifyTcb hf x)

theorem parks_rule : DeletionRule a (fun _ _ => True) Parks where
  refl := .refl
  trans := .trans
  archFinaliseCap h := .of_tcbs (VSpaceEq.archFinaliseCap h).tcbs
  cancelAllIpc _ h := .of_restart fun x => (getState_rule x).cancelAllIpc h
  cancelAllSignal _ h := .of_restart fun x => (getState_rule x).cancelAllSignal h
  safeUnbindTcb s n := by
    unfold safeUnbindTcb
    simp only
    split
    · exact parks_modifyTcb fun _ => rfl
    · exact .of_tcbs rfl
  thread _ := trivial
  safeUnbindNotification s t := by
    unfold safeUnbindNotification
    simp only
    split
    · exact parks_modifyTcb (s := setBoundTcb a s (s.tcbs t).tcbBoundNotification 0) fun _ => rfl
    · exact .refl s
  epCancelIpc _ _ := .of_ite (.inl rfl) (getState_epCancelIpc _)
  cancelSignal _ _ := .of_ite (.inl rfl) (getState_cancelSignal _)
  clearFault _ := parks_modifyTcb fun _ => rfl
  suspend _ _ := .of_ite (.inl rfl) getState_suspend
  setEmptySlot _ _ _ := .of_tcbs rfl
  setZombie _ := .of_tcbs rfl
  swapSlots _ _ _ := .of_tcbs rfl
  preemptionPoint _ _ _ := .of_tcbs rfl

theorem getState_restart (x : Word) :
    (s.restart a t).getState x = if x = t ∧ s.isStopped t then .restart else s.getState x := by
  have hmaster : (s.setupReplyMaster a t).getState x = s.getState x := by
    unfold setupReplyMaster
    simp only
    split <;> rfl
  unfold restart
  by_cases hs : s.isStopped t
  · rw [if_pos hs, schedEq_possibleSwitchTo.getState, schedEq_schedEnqueue.getState,
      getState_setThreadState, hmaster]
    simp only [hs, and_true]
  · rw [if_neg hs, if_neg fun h => hs h.2]

theorem parks_restart : Parks s (s.restart a t) :=
  .of_restart fun x => by
    rw [getState_restart]
    split
    · exact .inr rfl
    · exact .inl rfl

theorem parks_resumeIf (h : resumeIf a s flag t = .ok s') : Parks s s' := by
  unfold resumeIf at h
  split at h
  · obtain ⟨s₁, hs, h⟩ := bind_eq_ok.mp h
    cases h
    exact (parks_rule.cancelIpc trivial hs).trans parks_restart
  · cases h
    exact .refl s

theorem parks_rescheduleIfCurrent : Parks s (rescheduleIfCurrent a s t) := by
  unfold rescheduleIfCurrent
  split
  · exact .of_schedEq schedEq_rescheduleRequired
  · exact .refl s

theorem parks_restartCurrent : Parks s (restartCurrent a s) :=
  .of_ite (.inr rfl) fun x => getState_setThreadState x .restart

theorem invokeTcbSuspend_state (h : invokeTcbSuspend a s t = .ok s') :
    s'.getState t = .inactive := by
  obtain ⟨s₁, -, h⟩ := bind_eq_ok.mp h
  cases h
  rw [getState_suspend, if_pos rfl]

/-- A parked thread is in no queue, and so a resume has nothing to cancel. -/
theorem invokeTcbResume_state (hs : Parked (s.getState t)) (h : invokeTcbResume a s t = .ok s') :
    s'.getState t = .restart := by
  obtain ⟨s₁, hc, h⟩ := bind_eq_ok.mp h
  cases h
  have hsame : s₁ = s := by
    unfold cancelIpc at hc
    rcases hs with hs | hs <;> (simp only [hs] at hc; cases hc; rfl)
  subst hsame
  rw [getState_restart]
  unfold isStopped
  rcases hs with hs | hs <;> simp [hs]

/-! ## Cancelling what a thread waits for -/

/-- Cancelling what a thread waits for returns and concerns no other thread. -/
def CancelsAlone (a : Arch) (s : KernelState) (t : Word) : Prop :=
  ∃ s', cancelIpc a s t = .ok s' ∧ ∀ x ≠ t, s'.getState x = s.getState x

/-- There is nothing to cancel for a thread that is not stopped. -/
theorem cancelIpc_of_not_stopped (hs : ¬s.isStopped t) : cancelIpc a s t = .ok s := by
  unfold isStopped at hs
  unfold cancelIpc
  cases hst : s.getState t <;> simp only [hst] at hs ⊢ <;> exact absurd trivial hs

/-- In the mapping database nothing follows the reply slot of the thread but a reply cap. -/
def ReplyLast (a : Arch) (s : KernelState) (t : Word) : Prop :=
  let slot := s.ctes.next a (getCspace a t tcbReply)
  slot = 0 ∨ (s.ctes.capType slot = .replyCap ∨ s.ctes.capType slot = .nullCap) ∧
    s.ctes.next a slot = 0

theorem deleteOne_null (h : s.ctes.capType slot = .nullCap) : deleteOne a s slot = .ok s :=
  if_neg (not_not.mpr h)

/-- A cancellation keeps the slots, or takes out a reply cap that is the last of its list. -/
structure Cancels (a : Arch) (s s' : KernelState) (t : Word) : Prop where
  others : ∀ x ≠ t, s'.getState x = s.getState x
  buffers : ∀ x, (s'.tcbs x).tcbIPCBuffer = (s.tcbs x).tcbIPCBuffer
  slots : s'.ctes = s.ctes ∨ ∃ slot, s.ctes.capType slot = .replyCap ∧ s.ctes.next a slot = 0 ∧
    s'.ctes = setEmpty a s.ctes slot

/-- What is cancelled for a thread that waits for a reply: the reply cap, if there is one. -/
theorem cancelReply_cancels (h : ReplyLast a s t) : ∃ s', cancelReply a s t = .ok s' ∧
    s'.getState t = s.getState t ∧ Cancels a s s' t := by
  have hstate : ∀ x, (s.modifyTcb t fun tcb => { tcb with tcbFault := fun _ => 0 }).getState x =
      s.getState x := getState_modifyTcb fun _ => rfl
  have hbuffer : ∀ x, ((s.modifyTcb t fun tcb => { tcb with tcbFault := fun _ => 0 }).tcbs
      x).tcbIPCBuffer = (s.tcbs x).tcbIPCBuffer := proj_modifyTcb (·.tcbIPCBuffer) rfl
  unfold cancelReply
  simp only
  split
  next hne =>
    obtain ⟨hr | hn, hlast⟩ := h.resolve_left hne
    · exact ⟨_, deleteOne_reply hr, hstate t, fun x _ => hstate x, hbuffer,
        .inr ⟨_, hr, hlast, rfl⟩⟩
    · exact ⟨_, deleteOne_null hn, hstate t, fun x _ => hstate x, hbuffer, .inl rfl⟩
  next => exact ⟨_, rfl, hstate t, fun x _ => hstate x, hbuffer, .inl rfl⟩

/-- A thread that waits in a queue only leaves it. -/
theorem cancels_of_waiting {i : Wait} (hplace : (blockView a s).place t = some i)
    (h : cancelIpc a s t = .ok s') : Cancels a s s' t := by
  have hipc : ∀ {s' : KernelState}, IpcEq s' s →
      (∀ x, s'.getState x = if x = t then .inactive else s.getState x) → Cancels a s s' t :=
    fun heq hstate => ⟨fun x hx => (hstate x).trans (if_neg hx),
      fun x => heq.proj fun s => (s.tcbs x).tcbIPCBuffer, .inl heq.ctes⟩
  unfold cancelIpc at h
  cases hst : s.getState t <;> simp only [BlockView.place, waitingIn, blockView, hst] at hplace h
  case blockedOnReceive | blockedOnSend =>
    obtain ⟨-, -, h⟩ := bind_eq_ok.mp h
    obtain ⟨-, -, h⟩ := bind_eq_ok.mp h
    cases h
    exact hipc ((ipcEq_setThreadState _).trans ipcEq_epRemove) (getState_epCancelIpc _)
  case blockedOnNotification =>
    obtain ⟨-, -, h⟩ := bind_eq_ok.mp h
    cases h
    exact hipc ((ipcEq_setThreadState _).trans ipcEq_ntfnRemove) (getState_cancelSignal _)
  all_goals cases hplace

section

variable {P : Population a} (hq : QueueInv P s) (ht : P.thread t) (hr : ReplyLast a s t)
include hq ht hr

/-- Where the queues are in order, a cancellation returns and leaves them in order. -/
theorem QueueInv.cancels : ∃ s', Kernel.cancelIpc a s t = .ok s' ∧ QueueInv P s' ∧
    (blockView a s').place t = none ∧ Cancels a s s' t := by
  rcases hplace : (blockView a s).place t with - | i
  · rw [cancelIpc_free hplace]
    split
    next hst =>
      obtain ⟨s', hs', hstate, hcancels⟩ := cancelReply_cancels hr
      refine ⟨s', hs', hq.cancelReply hs', ?_, hcancels⟩
      simp only [BlockView.place, blockView, hstate.trans hst, waitingIn]
    next => exact ⟨s, rfl, hq, hplace, fun _ _ => rfl, fun _ => rfl, .inl rfl⟩
  · obtain ⟨s', hs', hinv, hstate⟩ := hq.cancelIpc_waiting ht hplace
    refine ⟨s', hs', hinv, ?_, cancels_of_waiting hplace hs'⟩
    simp only [BlockView.place, blockView, hstate, waitingIn]

theorem QueueInv.cancelsAlone : CancelsAlone a s t := by
  obtain ⟨s', hs', -, -, hcancels⟩ := hq.cancels ht hr
  exact ⟨s', hs', hcancels.others⟩

end

theorem ipcEq_suspend : IpcEq (s.suspend a t) s := by
  have hdeq : IpcEq (s.suspend a t) _ := ipcEq_of_schedEq schedEq_schedDequeue
  refine hdeq.trans ((ipcEq_setThreadState _).trans ?_)
  split
  · refine ipcEq_modifyTcb ?_
    rw [getRegister, update_eq_self]
  · exact .refl s

/-- A thread in no queue gets a state in which it is in none. -/
theorem QueueInv.setFree {P : Population a} (h : QueueInv P s)
    (hplace : (blockView a s).place t = none) (hfree : Free st) (heq : IpcEq s' s)
    (hview : blockView a s' = (blockView a s).setState t st) : QueueInv P s' := by
  refine h.elsewhere ⟨by rw [hview]; rfl, by rw [hview]; rfl, by rw [hview]; rfl,
    by rw [hview]; rfl, fun {x} hx => ?_, heq.ctes ▸ h.caps, fun {n} hn hb => ?_⟩
  · have hstate : s'.getState x = update s.getState t st x :=
      congrFun (congrArg BlockView.state hview) x
    by_cases hxt : x = t
    · subst hxt
      rw [hstate, update_self]
      exact .inr ⟨hplace, hfree⟩
    · rw [hstate, update_of_ne hxt]
      exact .inl rfl
  · have hbound : getBoundTcb a s' n = getBoundTcb a s n := heq.boundTcb n
    rw [hbound] at hb ⊢
    exact h.bound hn hb

theorem QueueInv.suspend {P : Population a} (h : QueueInv P s)
    (hplace : (blockView a s).place t = none) : QueueInv P (s.suspend a t) := by
  refine h.setFree hplace (fun _ => rfl : Free .inactive) ipcEq_suspend ?_
  unfold KernelState.suspend
  rw [blockView_of_schedEq schedEq_schedDequeue, blockView_setThreadState]
  split
  · rw [blockView_setRegister]
  · rfl

/-- The reply caps of other threads are not affected. -/
theorem ReplyLast.of_slots (h : ReplyLast a s t)
    (hslots : s'.ctes = s.ctes ∨ ∃ slot, s.ctes.capType slot = .replyCap ∧
      s.ctes.next a slot = 0 ∧ s'.ctes = setEmpty a s.ctes slot) : ReplyLast a s' t := by
  rcases hslots with he | ⟨slot, hreply, hlast, he⟩
  · unfold ReplyLast
    rw [he]
    exact h
  have heff := setEmpty_effect (a := a) (σ := s.ctes) (s := slot) (by rw [hreply]; decide)
  unfold ReplyLast at h ⊢
  simp only [he] at h ⊢
  generalize getCspace a t tcbReply = r at h ⊢
  by_cases hr : r = slot
  · exact .inl ((heff.next r).trans (if_pos hr))
  by_cases hprev : s.ctes.prev a slot ≠ 0 ∧ r = s.ctes.prev a slot
  · exact .inl ((heff.next r).trans ((if_neg hr).trans ((if_pos hprev).trans hlast)))
  have hnext : (setEmpty a s.ctes slot).next a r = s.ctes.next a r :=
    (heff.next r).trans ((if_neg hr).trans (if_neg hprev))
  rw [hnext]
  refine h.imp_right fun ⟨htype, hzero⟩ => ⟨?_, ?_⟩
  · rw [capType_setEmpty]
    split
    · exact .inr rfl
    · exact htype
  · rw [heff.next]
    split
    · rfl
    split
    · exact hlast
    · exact hzero

/-! ## The calls -/

/-- The invocations that suspend a thread. -/
inductive SuspendCall where
  | suspend (cap : CapT)
  | readRegisters (cap : CapT) (length : Word) (call : Bool) (buffer : Word)
  | copyRegisters (cap : CapT) (buffer : Word)

namespace SuspendCall

def run (a : Arch) (s : KernelState) : SuspendCall → Exec (KernelState × ExceptionT)
  | suspend cap => decodeTcbSuspend a s cap
  | readRegisters cap length call buffer => decodeReadRegisters a s cap length call buffer
  | copyRegisters cap buffer => decodeCopyRegisters a s cap buffer

/-- The call names the thread as the one to suspend, and has its suspend flag set. -/
def Names (a : Arch) (s : KernelState) (t : Word) : SuspendCall → Prop
  | suspend cap => getTcbPtr a cap = t
  | readRegisters cap _ _ buffer => getTcbPtr a cap = t ∧ getSyscallArg a s 0 buffer &&& bit 0 ≠ 0
  | copyRegisters _ buffer =>
    (∃ slot, getExtraCapByIndex s 0 = some slot ∧ getTcbPtr a (s.ctes slot).cap = t) ∧
      getSyscallArg a s 0 buffer &&& bit 0 ≠ 0

end SuspendCall

/-- The thread is parked with the registers that it had. -/
structure ParkedAs (t : Word) (s s' : KernelState) : Prop where
  registers : (s'.tcbs t).registers = (s.tcbs t).registers
  state : Parked (s'.getState t)

/-- Writing registers of another thread. -/
theorem ParkedAs.setRegister (h : ParkedAs t s s') (hx : t ≠ x) (r : ArchReg) (v : Word) :
    ParkedAs t s (s'.setRegister a x r v) :=
  ⟨by rw [KernelState.setRegister, tcbs_modifyTcb, if_neg hx, h.registers], by
    rw [getState_setRegister]
    exact h.state⟩

theorem ParkedAs.readRegisters (h : ParkedAs t s s') (ht : t ≠ thread) :
    ParkedAs t s (readRegisters a s' thread src n buffer).1 := by
  -- each turn of a loop writes a register of `thread` or a word of its buffer
  have hregs : ∀ (f : Nat → KernelState → Word) (n : Nat), ParkedAs t s
      (forLoop (fun i s => s.setRegister a thread (.msg i) (f i s)) 0 n s') := fun f n =>
    forLoop_preserves h fun _ _ _ _ h' => h'.setRegister ht _ _
  have hmem : ∀ (p : Nat → Word) (f : Nat → KernelState → Word) (i n : Nat) (s₁ : KernelState),
      ParkedAs t s s₁ → ParkedAs t s (forLoop (fun i s => s.setUserWord (p i) (f i s)) i n s₁) :=
    fun p f i n s₁ h₁ =>
      forLoop_preserves h₁ fun _ _ _ _ h' => ⟨h'.registers, h'.state⟩
  cases buffer with
  | none => exact hregs _ _
  | some buffer => exact hmem _ _ _ _ _ (hmem _ _ _ _ _ (hregs _ _))

/-- Copying a thread's registers to itself changes nothing. -/
theorem ParkedAs.copyGpRegisters (h : ParkedAs t s s') :
    ParkedAs t s (copyGpRegisters a s' dest t) := by
  refine forLoop_preserves h fun i s₁ _ _ h₁ => ?_
  by_cases hd : t = dest
  · subst hd
    refine ⟨?_, ?_⟩
    · unfold KernelState.setRegister modifyTcb getRegister
      simp only [update_self, update_eq_self, h₁.registers]
    · rw [getState_setRegister]
      exact h₁.state
  · exact h₁.setRegister hd _ _

theorem parkedAs_invokeTcbSuspend (h : invokeTcbSuspend a s t = .ok s') : ParkedAs t s s' := by
  refine ⟨?_, .inl (invokeTcbSuspend_state h)⟩
  have hflag : suspendIf a s 1 t = .ok s' := by
    rw [suspendIf, if_pos (by decide)]
    exact h
  exact sameRegisters_suspendIf hflag t

theorem ParkedAs.answerRegisters (h : ParkedAs t s s') (ht : t ≠ thread)
    (hanswer : answerRegisters a s' thread src n call = .ok s'') : ParkedAs t s s'' := by
  unfold Kernel.answerRegisters at hanswer
  split at hanswer
  · obtain ⟨buffer, -, hanswer⟩ := bind_eq_ok.mp hanswer
    cases hanswer
    exact ((h.setRegister ht _ _).readRegisters ht).setRegister ht _ _
  · cases hanswer
    exact h

theorem parkedAs_invokeTcbReadRegisters (hflag : flag ≠ 0) (ht : t ≠ s.ksCurThread)
    (h : invokeTcbReadRegisters a s t flag n call = .ok s') : ParkedAs t s s' := by
  obtain ⟨s₁, hs, h⟩ := bind_eq_ok.mp h
  obtain ⟨s₂, hs₂, h⟩ := bind_eq_ok.mp h
  cases h
  rw [suspendIf, if_pos hflag] at hs
  have h₁ : ParkedAs t s s₁ := parkedAs_invokeTcbSuspend hs
  have h₂ : ParkedAs t s s₂ := h₁.answerRegisters ht hs₂
  refine ⟨((ipcEq_setThreadState _).registers t).trans h₂.registers, ?_⟩
  rw [getState_setThreadState, if_neg ht]
  exact h₂.state

theorem parkedAs_invokeTcbCopyRegisters (hflag : flag ≠ 0)
    (h : invokeTcbCopyRegisters a s dest t flag resume transfer = .ok s') : ParkedAs t s s' := by
  obtain ⟨s₁, hs₁, h⟩ := bind_eq_ok.mp h
  obtain ⟨s₂, hs₂, h⟩ := bind_eq_ok.mp h
  cases h
  rw [suspendIf, if_pos hflag] at hs₁
  have h₁ : ParkedAs t s s₁ := parkedAs_invokeTcbSuspend hs₁
  have h₂ : ParkedAs t s s₂ :=
    ⟨(sameRegisters_resumeIf hs₂ t).trans h₁.registers, (parks_resumeIf hs₂).parked h₁.state⟩
  have h₃ : ParkedAs t s (if transfer ≠ 0 then copyGpRegisters a s₂ dest t else s₂) := by
    split
    · exact h₂.copyGpRegisters
    · exact h₂
  exact ⟨(sameRegisters_rescheduleIfCurrent t).trans h₃.registers,
    parks_rescheduleIfCurrent.parked h₃.state⟩

theorem ksCurThread_restartCurrent : (restartCurrent a s).ksCurThread = s.ksCurThread :=
  (ipcEq_setThreadState _).proj (·.ksCurThread)

/-- Whichever call suspends the thread, its registers stay as they are. -/
theorem SuspendCall.parkedAs {call : SuspendCall} (hnames : call.Names a s t)
    (h : call.run a s = .ok (s', .none)) : ParkedAs t s s' := by
  have hcur : ∀ {s₁ : KernelState}, ParkedAs t (restartCurrent a s) s₁ → ParkedAs t s s₁ := fun h₁ =>
    ⟨h₁.registers.trans (sameRegisters_restartCurrent t), h₁.state⟩
  cases call with
  | suspend cap =>
    obtain ⟨s₁, hs, h⟩ := bind_eq_ok.mp h
    cases h
    rw [hnames] at hs
    exact hcur (parkedAs_invokeTcbSuspend hs)
  | readRegisters cap length call buffer =>
    obtain ⟨hcap, hflag⟩ := hnames
    simp only [run, decodeReadRegisters, hcap] at h
    split at h
    · cases h
    split at h
    · cases h
    split at h
    · cases h
    rename_i ht
    obtain ⟨s₁, hs, h⟩ := bind_eq_ok.mp h
    cases h
    refine hcur (parkedAs_invokeTcbReadRegisters hflag ?_ hs)
    rw [ksCurThread_restartCurrent]
    exact ht
  | copyRegisters cap buffer =>
    obtain ⟨⟨slot, hslot, hcap⟩, hflag⟩ := hnames
    simp only [run, decodeCopyRegisters, hslot, hcap] at h
    split at h
    · cases h
    obtain ⟨-, -, h⟩ := bind_eq_ok.mp h
    obtain ⟨-, -, h⟩ := bind_eq_ok.mp h
    obtain ⟨s₁, hs, h⟩ := bind_eq_ok.mp h
    cases h
    exact parkedAs_invokeTcbCopyRegisters hflag hs

/-! ## From the suspension to the next activation -/

/-- What happens in between does not write registers of the thread and does not
change its state. -/
structure Undisturbed (t : Word) (s s' : KernelState) : Prop where
  registers : (s'.tcbs t).registers = (s.tcbs t).registers
  state : s'.getState t = s.getState t

namespace Undisturbed

theorem refl (t : Word) (s : KernelState) : Undisturbed t s s := ⟨rfl, rfl⟩

theorem trans (h : Undisturbed t s s') (h' : Undisturbed t s' s'') : Undisturbed t s s'' :=
  ⟨h'.registers.trans h.registers, h'.state.trans h.state⟩

theorem of_tcbs (h : s'.tcbs = s.tcbs) : Undisturbed t s s' :=
  ⟨by rw [h], by rw [getState, getState, h]⟩

theorem of_schedEq (h : SchedEq s' s) : Undisturbed t s s' := ⟨h.registers t, h.getState t⟩

theorem switchToThis (x : Word) : Undisturbed t s (s.switchToThis a x) := by
  obtain ⟨w, hroot⟩ := tcbSetVmRoot_eq a s x
  have hdeq : Undisturbed t (setUserRoot s w) ((setUserRoot s w).schedDequeue a x) :=
    of_schedEq schedEq_schedDequeue
  unfold KernelState.switchToThis
  rw [hroot]
  exact ⟨hdeq.registers, hdeq.state⟩

theorem scheduleChooseNewThread (h : s.scheduleChooseNewThread a = .ok s') :
    Undisturbed t s s' := by
  unfold KernelState.scheduleChooseNewThread at h
  have hdomain : Undisturbed t s (if s.ksDomainTime = 0 then s.nextDomain else s) := by
    split <;> exact .of_tcbs rfl
  refine hdomain.trans ?_
  generalize (if s.ksDomainTime = 0 then s.nextDomain else s) = s₁ at h
  unfold chooseThread at h
  split at h
  · obtain ⟨-, -, h⟩ := bind_eq_ok.mp h
    cases h
    exact switchToThis _
  cases a with
  | riscv64 =>
    cases h
    exact switchToThis _
  | aarch64 =>
    cases h
    exact .of_tcbs rfl

theorem reschedule (h : s.reschedule a = .ok s') : Undisturbed t s s' := by
  unfold KernelState.reschedule at h
  simp only at h
  have hcur : Undisturbed t s
      (if s.isRunnable s.ksCurThread then s.schedEnqueue a s.ksCurThread else s) := by
    split
    · exact of_schedEq schedEq_schedEnqueue
    · exact refl t s
  refine hcur.trans ?_
  generalize (if s.isRunnable s.ksCurThread then s.schedEnqueue a s.ksCurThread else s) = s₁ at h
  split at h
  · exact scheduleChooseNewThread h
  split at h
  · exact (of_schedEq ((schedEq_setAction _).trans schedEq_schedEnqueue)).trans
      (scheduleChooseNewThread h)
  split at h
  · exact (of_schedEq ((schedEq_setAction _).trans schedEq_schedAppend)).trans
      (scheduleChooseNewThread h)
  · cases h
    exact switchToThis _

/-- Scheduling does not touch the registers or the state of any thread. -/
theorem schedule (h : s.schedule a = .ok s') : Undisturbed t s s' := by
  obtain ⟨s₁, hs, h⟩ := bind_eq_ok.mp h
  cases h
  have h₁ : Undisturbed t s s₁ := by
    split at hs
    · exact reschedule hs
    · cases hs
      exact refl t s
  exact h₁.trans (.of_tcbs rfl)

end Undisturbed

theorem decodeTcbResume_spec (hcap : getTcbPtr a cap = t) (hs : Parked (s.getState t))
    (h : decodeTcbResume a s cap = .ok (s', e)) :
    (s'.tcbs t).registers = (s.tcbs t).registers ∧ s'.getState t = .restart := by
  obtain ⟨s₁, hr, h⟩ := bind_eq_ok.mp h
  cases h
  rw [hcap] at hr
  have hflag : resumeIf a (restartCurrent a s) 1 t = .ok s' := by
    rw [resumeIf, if_pos (by decide)]
    exact hr
  exact ⟨(sameRegisters_resumeIf hflag t).trans (sameRegisters_restartCurrent t),
    invokeTcbResume_state (parks_restartCurrent.parked hs) hr⟩

theorem activateThread_restart (ht : s.getState s.ksCurThread = .restart) :
    ∃ s', s.activateThread a = .ok s' ∧ s'.getState s.ksCurThread = .running ∧
      (s'.tcbs s.ksCurThread).registers =
        update (s.tcbs s.ksCurThread).registers (ArchReg.nextIP.toIndex a)
          (s.getRegister a s.ksCurThread .faultIP) := by
  unfold activateThread
  simp only [ht]
  refine ⟨_, rfl, ?_, ?_⟩
  · rw [getState_setThreadState, if_pos rfl]
  · rw [(ipcEq_setThreadState _).registers]
    unfold setRegister modifyTcb
    simp only [update_self]

/-- The thread runs on as if it had not been stopped: at the address it was to
go on at, with all its registers but `FaultIP`. -/
def RunsOn (a : Arch) (t : Word) (s s' : KernelState) : Prop :=
  s'.getState t = .running ∧ s'.getRegister a t .nextIP = s.getRegister a t .nextIP ∧
    ∀ i, i ≠ ArchReg.faultIP.toIndex a → (s'.tcbs t).registers i = (s.tcbs t).registers i

/-- A thread that is suspended and then resumed, running or not, is activated
again. It runs on at its `NextIP` exactly when its last entry into the kernel
left the same address in `FaultIP`. -/
theorem suspend_resume_transparent_iff {call : SuspendCall} {cap : CapT} {e : ExceptionT}
    {s₁ s₂ s₃ s₄ : KernelState} (hnames : call.Names a s t)
    (hcall : call.run a s = .ok (s₁, .none)) (hwait : Undisturbed t s₁ s₂)
    (hcap : getTcbPtr a cap = t) (hresume : decodeTcbResume a s₂ cap = .ok (s₃, e))
    (hwait' : Undisturbed t s₃ s₄) (hcur : s₄.ksCurThread = t) :
    ∃ s₅, s₄.activateThread a = .ok s₅ ∧
      (RunsOn a t s s₅ ↔ s.getRegister a t .faultIP = s.getRegister a t .nextIP) := by
  have hparked := SuspendCall.parkedAs hnames hcall
  have hparked₂ : Parked (s₂.getState t) := by
    rw [hwait.state]
    exact hparked.state
  obtain ⟨hregs₃, hstate₃⟩ := decodeTcbResume_spec hcap hparked₂ hresume
  have hregs : (s₄.tcbs t).registers = (s.tcbs t).registers := by
    rw [hwait'.registers, hregs₃, hwait.registers, hparked.registers]
  have hrestart : s₄.getState s₄.ksCurThread = .restart := by
    rw [hcur, hwait'.state, hstate₃]
  obtain ⟨s₅, hact, hstate₅, hregs₅⟩ := activateThread_restart (a := a) hrestart
  rw [hcur] at hstate₅ hregs₅
  simp only [getRegister, hregs] at hregs₅
  refine ⟨s₅, hact, ?_, ?_⟩
  · rintro ⟨-, hnext, -⟩
    simpa only [getRegister, hregs₅, update_self] using hnext
  · intro hsame
    simp only [getRegister] at hsame
    rw [hsame, update_eq_self] at hregs₅
    exact ⟨hstate₅, by rw [getRegister, getRegister, hregs₅], fun i _ => by rw [hregs₅]⟩

/-! ## A thread that is preempted between two system calls -/

def callerTcb : Word := pptrBase .riscv64 + 0x400000
def targetTcb : Word := pptrBase .riscv64 + 0x401000

/-- The caller is current. The other thread is in the ready queue; it was
preempted after a system call at `0x1000` and goes on at `0x1004`. -/
def preemptedState (fault : Word) : KernelState :=
  let ready : Tcb := { Tcb.zero with
    tcbState := Field.tsType.set (fun _ => 0) ThreadState.running.toWord
    tcbPriority := 100 }
  let target : Tcb := { ready with
    registers := update (update (fun _ => 0)
      (ArchReg.faultIP.toIndex .riscv64) fault) (ArchReg.nextIP.toIndex .riscv64) 0x1004 }
  let s := { KernelState.zero with
    tcbs := update (update (fun _ => Tcb.zero) callerTcb ready) targetTcb target
    ksCurThread := callerTcb }
  s.schedEnqueue .riscv64 targetTcb

def targetCap : CapT := newThreadCap .riscv64 targetTcb

/-- Suspend, resume, and the scheduler's choice. -/
def stopAndGo (s : KernelState) : Exec KernelState := do
  let (s, _) ← decodeTcbSuspend .riscv64 s targetCap
  let (s, _) ← decodeTcbResume .riscv64 s targetCap
  s.schedule .riscv64

theorem stopAndGo_steps (h : stopAndGo s = .ok s') :
    ∃ s₁ s₂ e, (SuspendCall.suspend targetCap).run .riscv64 s = .ok (s₁, .none) ∧
      decodeTcbResume .riscv64 s₁ targetCap = .ok (s₂, e) ∧ Undisturbed targetTcb s₂ s' := by
  obtain ⟨⟨s₁, e₁⟩, hsuspend, h⟩ := bind_eq_ok.mp h
  have he : e₁ = .none := by
    obtain ⟨s₀, -, hsuspend⟩ := bind_eq_ok.mp hsuspend
    cases hsuspend
    rfl
  subst he
  obtain ⟨⟨s₂, e⟩, hresume, h⟩ := bind_eq_ok.mp h
  exact ⟨s₁, s₂, e, hsuspend, hresume, .schedule h⟩

theorem targetCap_ptr : getTcbPtr .riscv64 targetCap = targetTcb := by decide

/-- A thread that was stopped by an interrupt has the same address in both
registers, and runs on. -/
theorem suspend_resume_transparent_iff_interrupt :
    ∃ s₄ s₅, stopAndGo (preemptedState 0x1004) = .ok s₄ ∧ s₄.activateThread .riscv64 = .ok s₅ ∧
      RunsOn .riscv64 targetTcb (preemptedState 0x1004) s₅ := by
  obtain ⟨s₄, hrun, hcur⟩ := Exec.satisfies_iff.mp (by decide +kernel :
    (stopAndGo (preemptedState 0x1004)).satisfies (fun s => s.ksCurThread = targetTcb) = true)
  have hsame : (preemptedState 0x1004).getRegister .riscv64 targetTcb .faultIP =
      (preemptedState 0x1004).getRegister .riscv64 targetTcb .nextIP := by decide +kernel
  obtain ⟨s₁, s₂, e, hsuspend, hresume, hwait⟩ := stopAndGo_steps hrun
  have hnames : (SuspendCall.suspend targetCap).Names .riscv64 (preemptedState 0x1004) targetTcb :=
    targetCap_ptr
  obtain ⟨s₅, hact, hiff⟩ := suspend_resume_transparent_iff hnames hsuspend (.refl _ _)
    targetCap_ptr hresume hwait (of_decide_eq_true hcur)
  exact ⟨s₄, s₅, hrun, hact, hiff.mpr hsame⟩

/-- A thread that was preempted on its way out of a system call repeats the call. -/
theorem suspended_thread_repeats_call :
    (preemptedState 0x1000).getState targetTcb = .running ∧
      (preemptedState 0x1000).getRegister .riscv64 targetTcb .nextIP = 0x1004 ∧
      ∃ s₄ s₅, stopAndGo (preemptedState 0x1000) = .ok s₄ ∧ s₄.ksCurThread = targetTcb ∧
        s₄.activateThread .riscv64 = .ok s₅ ∧ s₅.getRegister .riscv64 targetTcb .nextIP = 0x1000 ∧
        ¬RunsOn .riscv64 targetTcb (preemptedState 0x1000) s₅ := by
  have hnext : (preemptedState 0x1000).getRegister .riscv64 targetTcb .nextIP = 0x1004 := by
    decide +kernel
  obtain ⟨s₄, hrun, hs₄⟩ := Exec.satisfies_iff.mp (by decide +kernel :
    (stopAndGo (preemptedState 0x1000)).satisfies (fun s => s.ksCurThread = targetTcb ∧
      (s.activateThread .riscv64).satisfies
        (fun s => s.getRegister .riscv64 targetTcb .nextIP = 0x1000)) = true)
  obtain ⟨hcur, hs₅⟩ := of_decide_eq_true hs₄
  obtain ⟨s₅, hact, hback⟩ := Exec.satisfies_iff.mp hs₅
  have hback := of_decide_eq_true hback
  refine ⟨by decide +kernel, hnext, s₄, s₅, hrun, hcur, hact, hback, fun h => ?_⟩
  have hmoved := hback.symm.trans (h.2.1.trans hnext)
  exact absurd hmoved (by decide)

end Rel4.Kernel
