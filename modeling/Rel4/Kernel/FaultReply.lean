import Rel4.Ipc.BlockedOps
import Rel4.Kernel.Entry

/-!
Faults and the replies to them.

Which of two protocols a message follows depends on the fault in the TCB of its
sender, and for a reply on that of its receiver. A reply to a fault is meant to
end it; `do_reply` leaves the fault in the TCB.
Until then the thread that faulted does not run.
-/

namespace Rel4.Kernel
open Lib.Bitfield Lib.Loop Common CSpace Rel4.Task Ipc Function
open Task.KernelState

variable {a : Arch} {s s' : KernelState} {t receiver slot : Word} {grant : Bool}

/-- The thread has no fault that waits for its handler. -/
def FaultFree (s : KernelState) (t : Word) : Prop := getFaultType (s.tcbs t).tcbFault = .nullFault

instance (s : KernelState) (t : Word) : Decidable (FaultFree s t) :=
  inferInstanceAs (Decidable (_ = _))

/-! ## What keeps the faults -/

def SameFaults (s s' : KernelState) : Prop := ∀ t, (s'.tcbs t).tcbFault = (s.tcbs t).tcbFault

namespace SameFaults

theorem refl (s : KernelState) : SameFaults s s := fun _ => rfl

theorem trans (h : SameFaults s s') (h' : SameFaults s' s'') : SameFaults s s'' :=
  fun t => (h' t).trans (h t)

theorem faultFree_iff (h : SameFaults s s') : FaultFree s' t ↔ FaultFree s t := by
  rw [FaultFree, h t, FaultFree]

theorem of_schedEq (h : SchedEq s' s) : SameFaults s s' := h.proj (·.tcbFault)

theorem of_messageEq (h : MessageEq a s' s) : SameFaults s s' :=
  fun t => h.proj fun s => (s.tcbs t).tcbFault

theorem of_tcbs (h : s'.tcbs = s.tcbs) : SameFaults s s' := fun t => by rw [h]

end SameFaults

theorem sameFaults_modifyTcb (hf : ∀ tcb, (f tcb).tcbFault = tcb.tcbFault) :
    SameFaults s (s.modifyTcb t f) := proj_modifyTcb (·.tcbFault) (hf _)

theorem sameFaults_setThreadState (state : ThreadState) :
    SameFaults s (s.setThreadState a t state) :=
  have hset : SameFaults s (s.tsSet t Field.tsType state.toWord) :=
    sameFaults_modifyTcb fun _ => rfl
  hset.trans (.of_schedEq (schedEq_setThreadState state))

theorem sameFaults_setRegister (r : ArchReg) (v : Word) : SameFaults s (s.setRegister a t r v) :=
  sameFaults_modifyTcb fun _ => rfl

theorem sameFaults_resume (state : ThreadState) :
    SameFaults s ((s.setThreadState a t state).possibleSwitchTo a t) :=
  (sameFaults_setThreadState state).trans (.of_schedEq schedEq_possibleSwitchTo)

theorem sameFaults_restarts : RestartRule a SameFaults where
  refl := .refl
  trans := .trans
  restart _ _ := (sameFaults_setThreadState _).trans (.of_schedEq schedEq_schedEnqueue)
  relink := by
    rintro s _ ⟨_, _, rfl⟩
    exact fun _ => rfl
  setEndpoint _ _ _ := .of_tcbs rfl
  clear _ _ := .of_tcbs rfl
  reschedule _ := .of_schedEq schedEq_rescheduleRequired

/-- Nothing that `delete_one` does touches a fault. -/
theorem sameFaults_rule : ImmediateRule a SameFaults where
  refl := .refl
  trans := .trans
  archFinaliseCap h := .of_tcbs (VSpaceEq.archFinaliseCap h).tcbs
  cancelAllIpc _ h := sameFaults_restarts.cancelAllIpc h
  cancelAllSignal _ h := sameFaults_restarts.cancelAllSignal h
  safeUnbindTcb s ntfn := by
    unfold safeUnbindTcb
    simp only
    split
    · exact sameFaults_modifyTcb fun _ => rfl
    · exact .refl s
  setEmptySlot _ _ _ := .of_tcbs rfl

theorem sameFaults_forLoop (hf : ∀ j s, SameFaults s (f j s)) : SameFaults s (forLoop f i n s) :=
  forLoop_preserves (.refl s) fun j s' _ _ h => h.trans (hf j s')

theorem sameFaults_copyFaultMrsForReply {id length : Nat}
    (h : s.copyFaultMrsForReply a t receiver id length = .ok s') : SameFaults s s' := by
  obtain ⟨buffer, -, h⟩ := bind_eq_ok.mp h
  have hregs := fun (f : Nat → KernelState → Word) (i n : Nat) (s : KernelState) =>
    sameFaults_forLoop (f := fun i s => s.setRegister a receiver (.faultMessage id i) (f i s))
      (i := i) (n := n) (s := s) fun _ _ => sameFaults_setRegister _ _
  cases buffer with
  | none =>
    cases h
    exact hregs _ _ _ _
  | some buffer =>
    cases h
    exact (hregs _ _ _ _).trans (hregs _ _ _ _)

theorem sameFaults_doFaultReplyTransfer {restarts : Bool}
    (h : doFaultReplyTransfer a s t receiver = .ok (s', restarts)) : SameFaults s s' := by
  unfold doFaultReplyTransfer at h
  split at h
  · obtain ⟨s₁, hs, h⟩ := bind_eq_ok.mp h
    cases h
    exact sameFaults_copyFaultMrsForReply hs
  · obtain ⟨s₁, hs, h⟩ := bind_eq_ok.mp h
    cases h
    exact sameFaults_copyFaultMrsForReply hs
  · cases h
    exact .refl _

/-- A reply touches no fault, not even the one it answers. -/
theorem sameFaults_doReply (h : doReply a s t receiver slot grant = .ok s') : SameFaults s s' := by
  obtain ⟨-, -, h⟩ := bind_eq_ok.mp h
  split at h
  · obtain ⟨s₁, hs₁, h⟩ := bind_eq_ok.mp h
    obtain ⟨s₂, hs₂, h⟩ := bind_eq_ok.mp h
    cases h
    exact (SameFaults.of_messageEq (messageEq_doIpcTransfer hs₁)).trans
      ((sameFaults_rule.deleteOne hs₂).trans (sameFaults_resume _))
  · obtain ⟨s₁, hs₁, h⟩ := bind_eq_ok.mp h
    obtain ⟨⟨s₂, restarts⟩, hs₂, h⟩ := bind_eq_ok.mp h
    refine (sameFaults_rule.deleteOne hs₁).trans ((sameFaults_doFaultReplyTransfer hs₂).trans ?_)
    simp only at h
    split at h
    · cases h
      exact sameFaults_resume _
    · cases h
      exact sameFaults_setThreadState _

/-! ## After a reply -/

/-- What `do_reply` does where the receiver has made a call. -/
def doNormalReply (a : Arch) (s : KernelState) (t receiver slot : Word) (grant : Bool) :
    Exec KernelState := do
  ensure (s.getState receiver = .blockedOnReply)
  let s ← doNormalTransfer a s t receiver none 0 grant
  let s ← deleteOne a s slot
  return (s.setThreadState a receiver .running).possibleSwitchTo a receiver

/-- A step of the kernel in which `t` does not fault: messages, replies, and
whatever leaves its fault alone or clears it. -/
inductive QuietStep (a : Arch) (t : Word) (s : KernelState) : KernelState → Prop where
  | message (sender receiver : Word) (endpoint : Option Word) (badge : Word) (grant : Bool)
    (s' : KernelState) (h : doIpcTransfer a s sender receiver endpoint badge grant = .ok s') :
    QuietStep a t s s'
  | reply (replier receiver slot : Word) (grant : Bool) (s' : KernelState)
    (h : doReply a s replier receiver slot grant = .ok s') : QuietStep a t s s'
  | other (s' : KernelState)
    (h : (s'.tcbs t).tcbFault = (s.tcbs t).tcbFault ∨ FaultFree s' t) : QuietStep a t s s'

/-- The fault of `t` has come to its end: from here on, until it faults again, its
messages and the replies to its calls are normal ones. -/
structure Consumed (a : Arch) (s : KernelState) (t : Word) : Prop where
  cleared : FaultFree s t
  sends : ∀ s', Relation.ReflTransGen (QuietStep a t) s s' →
    ∀ receiver endpoint badge grant, doIpcTransfer a s' t receiver endpoint badge grant =
      doNormalTransfer a s' t receiver endpoint badge grant
  replies : ∀ s', Relation.ReflTransGen (QuietStep a t) s s' →
    ∀ replier slot grant, FaultFree s' replier →
      doReply a s' replier t slot grant = doNormalReply a s' replier t slot grant

theorem QuietStep.faultFree (h : QuietStep a t s s') (ht : FaultFree s t) : FaultFree s' t := by
  cases h with
  | message sender receiver endpoint badge grant s' h =>
    exact (SameFaults.of_messageEq (messageEq_doIpcTransfer h)).faultFree_iff.mpr ht
  | reply replier receiver slot grant s' h => exact (sameFaults_doReply h).faultFree_iff.mpr ht
  | other s' h =>
    rcases h with h | h
    · rw [FaultFree, h]
      exact ht
    · exact h

theorem faultFree_of_quiet (h : Relation.ReflTransGen (QuietStep a t) s s') (ht : FaultFree s t) :
    FaultFree s' t := by
  induction h with
  | refl => exact ht
  | tail _ hstep ih => exact hstep.faultFree ih

theorem consumed_iff : Consumed a s t ↔ FaultFree s t := by
  refine ⟨fun h => h.cleared, fun ht => ⟨ht, ?_, ?_⟩⟩
  · intro s' hrun receiver endpoint badge grant
    have hfree : getFaultType (s'.tcbs t).tcbFault = .nullFault := faultFree_of_quiet hrun ht
    rw [doIpcTransfer, if_pos hfree]
  · intro s' hrun replier slot grant hreplier
    have hfree : getFaultType (s'.tcbs t).tcbFault = .nullFault := faultFree_of_quiet hrun ht
    have hr : getFaultType (s'.tcbs replier).tcbFault = .nullFault := hreplier
    unfold doReply doNormalReply
    simp only [hfree, doIpcTransfer, hr, if_true]

/-- A reply ends the fault of its receiver only if there was none. -/
theorem doReply_consumes_iff (h : doReply a s t receiver slot grant = .ok s') :
    Consumed a s' receiver ↔ FaultFree s receiver :=
  consumed_iff.trans (sameFaults_doReply h).faultFree_iff

/-- A thread that waits for a reply, with a fault, the thread that replies, and the slot of
the reply cap. -/
def replyThread : Word := pptrBase .riscv64 + 0x2200
def replierThread : Word := pptrBase .riscv64 + 0x2600
def replySlot : Word := pptrBase .riscv64 + 0x1000

def waitingForReply (fault : Words 2) : KernelState :=
  { zero with
    ctes := update zero.ctes replySlot
      ⟨newReplyCap 1 0 replyThread, defaultMdbNode⟩
    tcbs := update zero.tcbs replyThread
      { Tcb.zero with
        tcbState := Field.tsType.set (fun _ => 0) ThreadState.blockedOnReply.toWord
        tcbFault := fault } }

/-- A reply to a call. -/
theorem doReply_consumes_iff_call : ∃ s',
    doReply .riscv64 (waitingForReply fun _ => 0) replierThread replyThread replySlot true =
      .ok s' ∧
      Consumed .riscv64 s' replyThread := by
  obtain ⟨s', h, -⟩ := Exec.satisfies_iff.mp (by decide +kernel :
    (doReply .riscv64 (waitingForReply fun _ => 0) replierThread replyThread replySlot
      true).satisfies (fun _ => true) = true)
  exact ⟨s', h, (doReply_consumes_iff h).mpr (by decide)⟩

/-- After the reply to a cap fault the fault is still there: the next message of
the thread is sent with the label of the fault, where its own label is zero. -/
theorem doReply_leaves_capFault : ∃ s' s'',
    doReply .riscv64 (waitingForReply (newCapFault 7 0)) replierThread replyThread replySlot true =
      .ok s' ∧
      getFaultType (s'.tcbs replyThread).tcbFault = .capFault ∧ ¬ Consumed .riscv64 s' replyThread ∧
      doIpcTransfer .riscv64 s' replyThread replierThread none 0 false = .ok s'' ∧
      (MessageInfo.fromWordSecurity (s'.getRegister .riscv64 replyThread .msgInfo)).getUsizeLabel =
        0 ∧
      (MessageInfo.fromWordSecurity
        (s''.getRegister .riscv64 replierThread .msgInfo)).getUsizeLabel = 1 := by
  obtain ⟨s', h, hs⟩ := Exec.satisfies_iff.mp (by decide +kernel :
    (doReply .riscv64 (waitingForReply (newCapFault 7 0)) replierThread replyThread replySlot
      true).satisfies
      (fun s' => decide (getFaultType (s'.tcbs replyThread).tcbFault = .capFault ∧
        (MessageInfo.fromWordSecurity
          (s'.getRegister .riscv64 replyThread .msgInfo)).getUsizeLabel = 0 ∧
        (doIpcTransfer .riscv64 s' replyThread replierThread none 0 false).satisfies (fun s'' =>
          (MessageInfo.fromWordSecurity
            (s''.getRegister .riscv64 replierThread .msgInfo)).getUsizeLabel = 1) = true)) = true)
  obtain ⟨hfault, hown, hsend⟩ := of_decide_eq_true hs
  obtain ⟨s'', hs'', hlabel⟩ := Exec.satisfies_iff.mp hsend
  refine ⟨s', s'', h, hfault, fun hc => ?_, hs'', hown, of_decide_eq_true hlabel⟩
  have hnull : getFaultType (s'.tcbs replyThread).tcbFault = .nullFault := hc.cleared
  rw [hfault] at hnull
  cases hnull

/-! ## The thread that faults -/

/-- The thread waits for its handler, or for good if there is none. -/
def Stopped (s : KernelState) (t : Word) : Prop :=
  s.getState t = .blockedOnSend ∨ s.getState t = .blockedOnReply ∨ s.getState t = .inactive

theorem getState_blockOnSend :
    (blockOnSend a s ep t doCall canGrant badge canGrantReply).getState t = .blockedOnSend := by
  have hobject : Field.tsType.Disjoint (Field.tsBlockingObject a) := by cases a <;> decide
  unfold blockOnSend
  rw [schedEq_scheduleTcb.getState]
  simp only [getState, tsSet, modifyTcb, update_self]
  iterate 4 rw [stored_set_of_disjoint (by decide)]
  rw [stored_set_of_disjoint hobject, stored_set_self (by decide)]
  decide

/-- A call through an endpoint stops the caller, whether a receiver waits there or not. -/
theorem stopped_of_call
    (h : sendIpc a s ep t true true canGrant badge canGrantReply = .ok s') : Stopped s' t := by
  unfold sendIpc at h
  cases hst : getEpState s ep <;> simp only [hst] at h
  case idle | send =>
    cases h
    exact .inl (((relinks_epAppend _).getState t).trans getState_blockOnSend)
  case recv =>
    obtain ⟨⟨s₁, dest⟩, -, h⟩ := bind_eq_ok.mp h
    obtain ⟨s₂, -, h⟩ := bind_eq_ok.mp h
    rcases awaitReply_cases h with ⟨_, _, h⟩ | rfl
    · have hstate : s'.getState t = (setThreadState a _ t .blockedOnReply).getState t :=
        (messageEq_insertCap h).proj (getState · t)
      exact .inr (.inl (hstate.trans (by rw [getState_setThreadState, if_pos rfl])))
    · exact .inr (.inr (by rw [getState_setThreadState, if_pos rfl]))
  case undefined => cases h

/-- A thread whose fault has been handled does not run on, whatever its handler is. -/
theorem handleFault_stops (h : handleFault a s t = .ok s') : Stopped s' t := by
  obtain ⟨⟨s₁, st⟩, hsend, h⟩ := bind_eq_ok.mp h
  simp only at h
  split at h
  · cases h
    exact .inr (.inr (by rw [getState_setThreadState, if_pos rfl]))
  next hst =>
    cases h
    obtain ⟨lu, -, hsend⟩ := bind_eq_ok.mp hsend
    split at hsend
    · cases hsend
      exact absurd (by decide) hst
    simp only at hsend
    split at hsend
    · obtain ⟨s₂, hcall, hsend⟩ := bind_eq_ok.mp hsend
      cases hsend
      exact stopped_of_call hcall
    · cases hsend
      exact absurd (by decide) hst

/-- A thread whose handler is behind an endpoint: its CNode, the endpoint, and the state in
which nobody receives there yet. -/
def faultCNode : Word := pptrBase .riscv64 + 0x4000
def faultEndpoint : Word := pptrBase .riscv64 + 0x5000

def faultSlots : Slots :=
  let σ := update zero.ctes (getCspace .riscv64 replyThread tcbCTable)
    ⟨newCNodeCap .riscv64 1 63 0 faultCNode, defaultMdbNode⟩
  update σ (faultCNode + 32) ⟨newEndpointCap .riscv64 9 1 1 1 1 faultEndpoint, defaultMdbNode⟩

def faultingThread : KernelState :=
  setupReplyMaster .riscv64 { zero with
    ctes := faultSlots
    tcbs := update zero.tcbs replyThread { Tcb.zero with tcbFaultHandler := 1 }
    currentFault := newCapFault 7 0 } replyThread

/-- The handler waits at the endpoint and gets a reply cap with the fault. -/
theorem handleFault_stops_received : ∃ s s',
    receiveIpc .riscv64 faultingThread faultEndpoint replierThread true true = .ok s ∧
      s.getState replierThread = .blockedOnReceive ∧ handleFault .riscv64 s replyThread = .ok s' ∧
      s'.ctes.capType (getCspace .riscv64 replierThread tcbCaller) = .replyCap ∧
      Stopped s' replyThread := by
  obtain ⟨s, h, hs⟩ := Exec.satisfies_iff.mp (by decide +kernel :
    (receiveIpc .riscv64 faultingThread faultEndpoint replierThread true true).satisfies
      (fun s => decide (s.getState replierThread = .blockedOnReceive ∧
        (handleFault .riscv64 s replyThread).satisfies (fun s' =>
          s'.ctes.capType (getCspace .riscv64 replierThread tcbCaller) = .replyCap) = true)) = true)
  obtain ⟨hwaits, hfault⟩ := of_decide_eq_true hs
  obtain ⟨s', h', hcaller⟩ := Exec.satisfies_iff.mp hfault
  exact ⟨s, s', h, hwaits, h', of_decide_eq_true hcaller, handleFault_stops h'⟩

end Rel4.Kernel
