import Rel4.Task.ReadyQueue

/-!
The ready queues over runs of the scheduler.

`SchedInv` adds to the representation of the ready queues that the scheduler's
globals name threads. Every operation of the scheduler keeps it.
-/

namespace Rel4.Task
open Lib.Bitfield Common VSpace
open KernelState

variable {a : Arch} {thread : Word → Prop} {s s' : KernelState} {t : Word}

/-! ## Writes outside of the ready queues -/

/-- A write to a TCB that leaves what the ready queues read. -/
structure KeepsReady (a : Arch) (f : Tcb → Tcb) : Prop where
  next : ∀ tcb, (f tcb).tcbSchedNext = tcb.tcbSchedNext
  prev : ∀ tcb, (f tcb).tcbSchedPrev = tcb.tcbSchedPrev
  queued : ∀ tcb, Field.tsTcbQueued.get (signExt a) (f tcb).tcbState =
    Field.tsTcbQueued.get (signExt a) tcb.tcbState
  priority : ∀ tcb, (f tcb).tcbPriority = tcb.tcbPriority
  domain : ∀ tcb, (f tcb).domain = tcb.domain
  mcp : ∀ tcb, (f tcb).tcbMCP = tcb.tcbMCP

theorem readyView_modifyTcb (hf : KeepsReady a f) :
    readyView a (s.modifyTcb t f) = readyView a s := by
  have hfield {γ : Type} (g : Tcb → γ) (hg : ∀ tcb, g (f tcb) = g tcb) :=
    proj_modifyTcb (s := s) (t := t) g (hg _)
  have hqueued := hfield (fun tcb => Field.tsTcbQueued.get (signExt a) tcb.tcbState) hf.queued
  unfold readyView tsGet
  simp only [hfield _ hf.next, hfield _ hf.prev, hqueued, hfield _ hf.priority,
    hfield _ hf.domain, hfield _ hf.mcp]
  rfl

theorem readyView_tsSet (hf : Field.tsTcbQueued.Disjoint f) (v : Word) :
    readyView a (s.tsSet t f v) = readyView a s :=
  readyView_modifyTcb
    { next := fun _ => rfl, prev := fun _ => rfl, priority := fun _ => rfl
      domain := fun _ => rfl, mcp := fun _ => rfl
      queued := fun _ => get_set_of_disjoint hf }

theorem readyView_setRegister (r : ArchReg) (v : Word) :
    readyView a (s.setRegister a t r v) = readyView a s :=
  readyView_modifyTcb
    { next := fun _ => rfl, prev := fun _ => rfl, priority := fun _ => rfl
      domain := fun _ => rfl, mcp := fun _ => rfl, queued := fun _ => rfl }

/-! ## The invariant -/

/-- The ready queues are represented, and the scheduler's globals name threads. -/
structure SchedInv (a : Arch) (thread : Word → Prop) (s : KernelState) : Prop where
  ready : ReadyInv thread (readyView a s)
  action : s.ksSchedulerAction = resumeCurrentThread ∨ s.ksSchedulerAction = chooseNewThread ∨
    thread s.ksSchedulerAction
  current : thread s.ksCurThread
  idle : thread s.ksIdleThread

/-! ## Joining and leaving leave the scheduler's decision alone -/

theorem action_linkBehindTail (empty : Bool) :
    (s.linkBehindTail t empty).ksSchedulerAction = s.ksSchedulerAction := by
  cases empty <;> rfl

theorem action_schedEnqueue : (s.schedEnqueue a t).ksSchedulerAction = s.ksSchedulerAction := by
  unfold schedEnqueue
  split
  · exact action_linkBehindTail _
  · rfl

theorem action_schedAppend : (s.schedAppend a t).ksSchedulerAction = s.ksSchedulerAction := by
  unfold schedAppend
  split
  · exact action_linkBehindTail _
  · rfl

theorem action_schedDequeue : (s.schedDequeue a t).ksSchedulerAction = s.ksSchedulerAction := by
  have hnext : (s.schedSkipNext t).ksSchedulerAction = s.ksSchedulerAction := by
    unfold schedSkipNext removeFromBitmap
    simp only
    split
    · rfl
    · split
      · split <;> rfl
      · rfl
  have hprev : ∀ s₁ : KernelState, (s₁.schedSkipPrev t).ksSchedulerAction = s₁.ksSchedulerAction := by
    intro s₁
    unfold schedSkipPrev
    split <;> rfl
  unfold schedDequeue
  split
  · exact (hprev _).trans hnext
  · rfl

theorem SchedEq.current (h : SchedEq s s') : s.ksCurThread = s'.ksCurThread := by
  have h := congrArg ksCurThread (show s.eraseSched = s'.eraseSched from h)
  exact h

theorem SchedEq.idle (h : SchedEq s s') : s.ksIdleThread = s'.ksIdleThread := by
  have h := congrArg ksIdleThread (show s.eraseSched = s'.eraseSched from h)
  exact h

namespace SchedInv

/-- A step of the scheduler that keeps its decision. -/
theorem of_schedEq (h : SchedInv a thread s) (hr : ReadyInv thread (readyView a s'))
    (heq : SchedEq s' s) (hact : s'.ksSchedulerAction = s.ksSchedulerAction) :
    SchedInv a thread s' :=
  ⟨hr, by rw [hact]; exact h.action, by rw [SchedEq.current heq]; exact h.current,
    by rw [SchedEq.idle heq]; exact h.idle⟩

/-- A step outside of the ready queues. -/
theorem of_view (h : SchedInv a thread s) (hv : readyView a s' = readyView a s)
    (hact : s'.ksSchedulerAction = s.ksSchedulerAction) (hcur : s'.ksCurThread = s.ksCurThread)
    (hidle : s'.ksIdleThread = s.ksIdleThread) : SchedInv a thread s' :=
  ⟨by rw [hv]; exact h.ready, by rw [hact]; exact h.action, by rw [hcur]; exact h.current,
    by rw [hidle]; exact h.idle⟩

theorem of_ite [Decidable c] (h : c → SchedInv a thread s) (h' : ¬c → SchedInv a thread s') :
    SchedInv a thread (if c then s else s') := by
  split
  · exact h ‹_›
  · exact h' ‹_›

section

variable (h : SchedInv a thread s)
include h

theorem schedEnqueue (ht : thread t) : SchedInv a thread (s.schedEnqueue a t) :=
  h.of_schedEq (h.ready.schedEnqueue ht) schedEq_schedEnqueue action_schedEnqueue

theorem schedAppend (ht : thread t) : SchedInv a thread (s.schedAppend a t) :=
  h.of_schedEq (h.ready.schedAppend ht) schedEq_schedAppend action_schedAppend

theorem schedDequeue (ht : thread t) : SchedInv a thread (s.schedDequeue a t) :=
  h.of_schedEq (h.ready.schedDequeue ht) schedEq_schedDequeue action_schedDequeue

theorem setAction (hv : v = resumeCurrentThread ∨ v = chooseNewThread ∨ thread v) :
    SchedInv a thread { s with ksSchedulerAction := v } := ⟨h.ready, hv, h.current, h.idle⟩

theorem rescheduleRequired : SchedInv a thread (s.rescheduleRequired a) := by
  unfold KernelState.rescheduleRequired
  split
  · rename_i hact
    have ht : thread s.ksSchedulerAction := (h.action.resolve_left hact.1).resolve_left hact.2
    exact (h.schedEnqueue ht).setAction (.inr (.inl rfl))
  · exact h.setAction (.inr (.inl rfl))

theorem scheduleTcb : SchedInv a thread (s.scheduleTcb a t) := by
  unfold KernelState.scheduleTcb
  split
  · exact h.rescheduleRequired
  · exact h

theorem setThreadState (state : ThreadState) : SchedInv a thread (s.setThreadState a t state) := by
  have hset : SchedInv a thread (s.tsSet t Field.tsType state.toWord) :=
    h.of_view (readyView_tsSet (by decide) _) rfl rfl rfl
  exact hset.scheduleTcb

/-- Threads in the ready queues stay there. -/
theorem queued_rescheduleRequired (hx : (readyView a s).queued x ≠ 0) :
    (readyView a (s.rescheduleRequired a)).queued x ≠ 0 := by
  unfold KernelState.rescheduleRequired
  split
  next hact =>
    have ht : thread s.ksSchedulerAction := (h.action.resolve_left hact.1).resolve_left hact.2
    exact (h.ready.queued_schedEnqueue ht x).mpr (.inr hx)
  · exact hx

theorem queued_setThreadState (state : ThreadState) (hx : (readyView a s).queued x ≠ 0) :
    (readyView a (s.setThreadState a t state)).queued x ≠ 0 := by
  have hview : readyView a (s.tsSet t Field.tsType state.toWord) = readyView a s :=
    readyView_tsSet (by decide) _
  have hset : SchedInv a thread (s.tsSet t Field.tsType state.toWord) := h.of_view hview rfl rfl rfl
  rw [← hview] at hx
  unfold KernelState.setThreadState KernelState.scheduleTcb
  split
  · exact hset.queued_rescheduleRequired hx
  · exact hx

theorem possibleSwitchTo (ht : thread t) : SchedInv a thread (s.possibleSwitchTo a t) := by
  unfold KernelState.possibleSwitchTo
  split
  · exact h.schedEnqueue ht
  · split
    · exact h.rescheduleRequired.schedEnqueue ht
    · exact h.setAction (.inr (.inr ht))

/-- A write to the parameters of a thread. It stays where it is in the queues,
or has left them. -/
theorem setParams (hnext : ∀ tcb, (f tcb).tcbSchedNext = tcb.tcbSchedNext)
    (hprev : ∀ tcb, (f tcb).tcbSchedPrev = tcb.tcbSchedPrev)
    (hstate : ∀ tcb, (f tcb).tcbState = tcb.tcbState)
    (hkeep : s.tsGet a t Field.tsTcbQueued = 0 ∨
      (f (s.tcbs t)).tcbPriority = (s.tcbs t).tcbPriority)
    (hprio : (f (s.tcbs t)).tcbPriority.toNat < 256) (hdom : (f (s.tcbs t)).domain = 0)
    (hmcp : (f (s.tcbs t)).tcbMCP.toNat < 256) : SchedInv a thread (s.modifyTcb t f) := by
  have hfield {γ : Type} (g : Tcb → γ) (hg : ∀ tcb, g (f tcb) = g tcb) :=
    proj_modifyTcb (s := s) (t := t) g (hg _)
  have hbound : ∀ {P : Tcb → Prop}, P (f (s.tcbs t)) → (∀ x, thread x → P (s.tcbs x)) →
      ∀ x, thread x → P ((s.modifyTcb t f).tcbs x) := by
    intro P ht hP x hx
    rw [tcbs_modifyTcb]
    split
    · exact ht
    · exact hP x hx
  have hview : readyView a (s.modifyTcb t f) =
      { readyView a s with
        priority := fun x => ((s.modifyTcb t f).tcbs x).tcbPriority
        domain := fun x => ((s.modifyTcb t f).tcbs x).domain
        mcp := fun x => ((s.modifyTcb t f).tcbs x).tcbMCP } := by
    unfold readyView tsGet
    have hq := hfield (fun tcb => Field.tsTcbQueued.get (signExt a) tcb.tcbState)
      fun tcb => by rw [hstate]
    simp only [hfield _ hnext, hfield _ hprev, hq]
    rfl
  refine ⟨?_, h.action, h.current, h.idle⟩
  rw [hview]
  refine h.ready.setParams ?_
    (hbound (P := fun tcb => tcb.tcbPriority.toNat < 256) hprio fun x hx => h.ready.priority hx)
    (hbound (P := fun tcb => tcb.domain = 0) hdom fun x hx => h.ready.domain hx)
    (hbound (P := fun tcb => tcb.tcbMCP.toNat < 256) hmcp fun x hx => h.ready.mcp hx)
  intro x hx
  rw [tcbs_modifyTcb]
  split
  · rename_i hxt
    subst hxt
    exact hkeep.resolve_left (h.ready.mem_order.mp hx).2
  · rfl

theorem queued_schedDequeue (ht : thread t) :
    (s.schedDequeue a t).tsGet a t Field.tsTcbQueued = 0 := by
  by_cases hq : s.tsGet a t Field.tsTcbQueued = 0
  · rw [KernelState.schedDequeue, if_neg (not_not.mpr hq)]
    exact hq
  · have hqueued := congrFun (leaves_schedDequeue h.ready ht hq).queued t
    rw [Function.update_self] at hqueued
    exact hqueued

theorem setPriority (ht : thread t) (hprio : prio.toNat < 256) :
    SchedInv a thread (s.setPriority a t prio) := by
  have hdeq := h.schedDequeue ht
  have hset : SchedInv a thread
      ((s.schedDequeue a t).modifyTcb t fun tcb => { tcb with tcbPriority := prio }) :=
    hdeq.setParams (fun _ => rfl) (fun _ => rfl) (fun _ => rfl) (.inl (h.queued_schedDequeue ht))
      hprio (hdeq.ready.domain ht) (hdeq.ready.mcp ht)
  unfold KernelState.setPriority
  simp only
  split
  · split
    · exact hset.rescheduleRequired
    · exact hset.possibleSwitchTo ht
  · exact hset

theorem setMcpPriority (ht : thread t) (hmcp : mcp.toNat < 256) :
    SchedInv a thread (s.setMcpPriority t mcp) :=
  h.setParams (fun _ => rfl) (fun _ => rfl) (fun _ => rfl) (.inr rfl) (h.ready.priority ht)
    (h.ready.domain ht) hmcp

theorem setDomain (ht : thread t) : SchedInv a thread (s.setDomain a t 0) := by
  have hdeq := h.schedDequeue ht
  have hset : SchedInv a thread
      ((s.schedDequeue a t).modifyTcb t fun tcb => { tcb with domain := 0 }) :=
    hdeq.setParams (fun _ => rfl) (fun _ => rfl) (fun _ => rfl) (.inr rfl) (hdeq.ready.priority ht)
      rfl (hdeq.ready.mcp ht)
  have henq := of_ite (c := ((s.schedDequeue a t).modifyTcb t fun tcb =>
    { tcb with domain := 0 }).isRunnable t = true) (fun _ => hset.schedEnqueue ht) fun _ => hset
  exact of_ite (fun _ => henq.rescheduleRequired) fun _ => henq

theorem timerTick : SchedInv a thread (s.timerTick a) := by
  have hslice : ∀ (f : Tcb → Word), SchedInv a thread
      (s.modifyTcb s.ksCurThread fun tcb => { tcb with tcbTimeSlice := f tcb }) := by
    intro f
    refine h.of_view (readyView_modifyTcb ?_) rfl rfl rfl
    exact { next := fun _ => rfl, prev := fun _ => rfl, priority := fun _ => rfl
            domain := fun _ => rfl, mcp := fun _ => rfl, queued := fun _ => rfl }
  unfold KernelState.timerTick
  simp only
  split
  · split
    · exact hslice _
    · exact ((hslice _).schedAppend h.current).rescheduleRequired
  · exact h

end

/-! ## The scheduler's switches -/

section

variable (h : SchedInv a thread s)
include h

theorem switchToThis (ht : thread t) : SchedInv a thread (s.switchToThis a t) := by
  obtain ⟨w, hroot⟩ := tcbSetVmRoot_eq a s t
  have hset : SchedInv a thread (setUserRoot s w) := h.of_view rfl rfl rfl rfl
  have hdeq := hset.schedDequeue ht
  unfold KernelState.switchToThis
  rw [hroot]
  exact ⟨hdeq.ready, hdeq.action, ht, hdeq.idle⟩

theorem chooseThread (hs : s.chooseThread a = .ok s') : SchedInv a thread s' := by
  unfold KernelState.chooseThread at hs
  split at hs
  · rename_i hl1
    obtain ⟨-, -, hs⟩ := bind_eq_ok.mp hs
    cases hs
    exact h.switchToThis (h.ready.highest_head hl1).1
  cases a with
  | riscv64 =>
    cases hs
    exact h.switchToThis h.idle
  | aarch64 =>
    cases hs
    exact ⟨h.ready, h.action, h.idle, h.idle⟩

theorem scheduleChooseNewThread (hs : s.scheduleChooseNewThread a = .ok s') :
    SchedInv a thread s' := by
  have hdomain : SchedInv a thread s.nextDomain := ⟨h.ready, h.action, h.current, h.idle⟩
  have hinv := of_ite (c := s.ksDomainTime = 0) (fun _ => hdomain) fun _ => h
  exact hinv.chooseThread hs

theorem reschedule (hact : s.ksSchedulerAction ≠ resumeCurrentThread) (hs : s.reschedule a = .ok s') : SchedInv a thread s' := by
  unfold KernelState.reschedule at hs
  simp only at hs
  have hcur := of_ite (c := s.isRunnable s.ksCurThread = true)
    (fun _ => h.schedEnqueue h.current) fun _ => h
  have hact' : (if s.isRunnable s.ksCurThread then s.schedEnqueue a s.ksCurThread
      else s).ksSchedulerAction = s.ksSchedulerAction := by
    split
    · exact action_schedEnqueue
    · rfl
  generalize (if s.isRunnable s.ksCurThread then s.schedEnqueue a s.ksCurThread else s) = s₁
    at hs hcur hact'
  split at hs
  · exact hcur.scheduleChooseNewThread hs
  rename_i hchoose
  -- the action is a thread now
  have ht : thread s₁.ksSchedulerAction := by
    refine (hcur.action.resolve_left ?_).resolve_left hchoose
    rw [hact']
    exact hact
  split at hs
  · exact ((hcur.schedEnqueue ht).setAction (.inr (.inl rfl))).scheduleChooseNewThread hs
  · split at hs
    · exact ((hcur.schedAppend ht).setAction (.inr (.inl rfl))).scheduleChooseNewThread hs
    · cases hs
      exact hcur.switchToThis ht

theorem schedule (hs : s.schedule a = .ok s') : SchedInv a thread s' := by
  obtain ⟨s₁, h₁, hs⟩ := bind_eq_ok.mp hs
  cases hs
  have hinv : SchedInv a thread s₁ := by
    split at h₁
    · exact h.reschedule ‹_› h₁
    · cases h₁
      exact h
  exact hinv.setAction (.inl rfl)

theorem activateThread (hs : s.activateThread a = .ok s') : SchedInv a thread s' := by
  unfold KernelState.activateThread at hs
  simp only at hs
  split at hs
  · cases hs
    exact h
  · cases hs
    exact (h.of_view (readyView_setRegister _ _) rfl rfl rfl).setThreadState .running
  · cases hs
    exact h
  · cases hs

end

end SchedInv

end Rel4.Task
