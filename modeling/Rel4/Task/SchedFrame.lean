import Rel4.Task.Scheduler

/-!
What scheduling leaves alone.

`eraseSched` blanks out the part of the state that the scheduler owns: ready
queues, bitmaps, the action, and in every TCB the links and the flag of the
ready queue. Scheduling operations only change that part, so two states that
they connect agree once it is erased; `SchedEq` says so.
-/

namespace Rel4.Task
open Lib.Bitfield Common Function

theorem tcbs_modifyTcb {s : KernelState} {t : Word} (f : Tcb → Tcb) (x : Word) :
    (s.modifyTcb t f).tcbs x = if x = t then f (s.tcbs t) else s.tcbs x := by
  unfold KernelState.modifyTcb
  simp only [update_apply]

/-- What the change keeps of the thread is kept of every thread. -/
theorem proj_modifyTcb {s : KernelState} {t : Word} {f : Tcb → Tcb} (g : Tcb → γ)
    (h : g (f (s.tcbs t)) = g (s.tcbs t)) (x : Word) :
    g ((s.modifyTcb t f).tcbs x) = g (s.tcbs x) := by
  rw [tcbs_modifyTcb]
  split
  next hx => rw [h, hx]
  next => rfl

def Tcb.eraseSched (t : Tcb) : Tcb :=
  { t with tcbState := Field.tsTcbQueued.set t.tcbState 0, tcbSchedNext := 0, tcbSchedPrev := 0 }

namespace KernelState

def eraseSched (s : KernelState) : KernelState :=
  { s with
    tcbs := fun t => (s.tcbs t).eraseSched
    ksReadyQueues := fun _ => ⟨0, 0⟩
    ksReadyQueuesL1Bitmap := fun _ => 0
    ksReadyQueuesL2Bitmap := fun _ _ => 0
    ksSchedulerAction := 0
    readyOrder := [] }

/-- The states differ in the scheduler's part only. -/
def SchedEq (s s' : KernelState) : Prop := s.eraseSched = s'.eraseSched

variable {a : Arch} {s s' : KernelState} {t : Word}

namespace SchedEq

theorem refl (s : KernelState) : SchedEq s s := rfl

theorem trans (h : SchedEq s s') (h' : SchedEq s' s'') : SchedEq s s'' := Eq.trans h h'

theorem tcb (h : SchedEq s s') (t : Word) : (s.tcbs t).eraseSched = (s'.tcbs t).eraseSched := by
  have hs : s.eraseSched = s'.eraseSched := h
  exact congrFun (congrArg KernelState.tcbs hs) t

/-- What can be read off the erased TCBs is the same in both. -/
theorem proj {γ : Type} (f : Tcb → γ) (h : SchedEq s s') (t : Word) :
    f (s.tcbs t).eraseSched = f (s'.tcbs t).eraseSched := congrArg f (h.tcb t)

theorem registers (h : SchedEq s s') (t : Word) :
    (s.tcbs t).registers = (s'.tcbs t).registers := h.proj Tcb.registers t

theorem stored (h : SchedEq s s') {f : Field 3} (hf : f.Disjoint Field.tsTcbQueued) (t : Word) :
    f.stored (s.tcbs t).tcbState = f.stored (s'.tcbs t).tcbState := by
  have hstate := congrArg Tcb.tcbState (h.tcb t)
  simp only [Tcb.eraseSched] at hstate
  have hts := congrArg f.stored hstate
  rwa [stored_set_of_disjoint hf, stored_set_of_disjoint hf] at hts

theorem getState (h : SchedEq s s') (t : Word) : s.getState t = s'.getState t := by
  have hdisj : Field.tsType.Disjoint Field.tsTcbQueued := by decide
  simp only [KernelState.getState, h.stored hdisj t]

theorem tsGet (h : SchedEq s s') {f : Field 3} (hf : f.Disjoint Field.tsTcbQueued) (t : Word) :
    s.tsGet a t f = s'.tsGet a t f := by
  simp only [KernelState.tsGet, Field.get, h.stored hf t]

end SchedEq

theorem schedEq_modifyTcb (h : (f (s.tcbs t)).eraseSched = (s.tcbs t).eraseSched) :
    SchedEq (s.modifyTcb t f) s := by
  unfold SchedEq eraseSched modifyTcb
  congr 1
  exact funext (proj_modifyTcb Tcb.eraseSched h)

theorem schedEq_setSchedNext (v : Word) : SchedEq (s.setSchedNext t v) s := schedEq_modifyTcb rfl

theorem schedEq_setSchedPrev (v : Word) : SchedEq (s.setSchedPrev t v) s := schedEq_modifyTcb rfl

theorem schedEq_setQueued (v : Word) : SchedEq (s.tsSet t Field.tsTcbQueued v) s := by
  apply schedEq_modifyTcb
  simp only [Tcb.eraseSched, set_set]

theorem schedEq_setReadyQueue (idx : Word) (q : TcbQueue) : SchedEq (s.setReadyQueue idx q) s := rfl

theorem schedEq_removeFromBitmap (dom prio : Word) : SchedEq (s.removeFromBitmap dom prio) s := by
  unfold removeFromBitmap
  simp only
  split <;> rfl

theorem schedEq_setReadyOrder (order : List Word) : SchedEq { s with readyOrder := order } s := rfl

theorem schedEq_setAction (v : Word) : SchedEq { s with ksSchedulerAction := v } s := rfl

theorem schedEq_linkBehindTail (empty : Bool) : SchedEq (s.linkBehindTail t empty) s := by
  refine (schedEq_setReadyOrder _).trans ((schedEq_setQueued _).trans ((schedEq_setReadyQueue _ _).trans
    ((schedEq_setSchedNext _).trans ((schedEq_setSchedPrev _).trans ?_))))
  cases empty with
  | true => rfl
  | false => exact schedEq_setSchedNext _

theorem schedEq_schedEnqueue : SchedEq (s.schedEnqueue a t) s := by
  unfold schedEnqueue
  split
  · exact schedEq_linkBehindTail _
  · rfl

theorem schedEq_schedAppend : SchedEq (s.schedAppend a t) s := by
  unfold schedAppend
  split
  · exact schedEq_linkBehindTail _
  · rfl

theorem schedEq_schedSkipNext : SchedEq (s.schedSkipNext t) s := by
  unfold schedSkipNext
  simp only
  split
  · exact schedEq_setSchedNext _
  · split
    · exact (schedEq_removeFromBitmap _ _).trans (schedEq_setReadyQueue _ _)
    · exact schedEq_setReadyQueue _ _

theorem schedEq_schedSkipPrev : SchedEq (s.schedSkipPrev t) s := by
  unfold schedSkipPrev
  split
  · exact schedEq_setSchedPrev _
  · exact schedEq_setReadyQueue _ _

theorem schedEq_schedDequeue : SchedEq (s.schedDequeue a t) s := by
  unfold schedDequeue
  split
  · exact (schedEq_setReadyOrder _).trans
      ((schedEq_setQueued _).trans (schedEq_schedSkipPrev.trans schedEq_schedSkipNext))
  · rfl

theorem schedEq_rescheduleRequired : SchedEq (s.rescheduleRequired a) s := by
  unfold rescheduleRequired
  split
  · exact (schedEq_setAction _).trans schedEq_schedEnqueue
  · exact schedEq_setAction _

theorem schedEq_scheduleTcb : SchedEq (s.scheduleTcb a t) s := by
  unfold scheduleTcb
  split
  · exact schedEq_rescheduleRequired
  · rfl

theorem schedEq_possibleSwitchTo : SchedEq (s.possibleSwitchTo a t) s := by
  unfold possibleSwitchTo
  split
  · exact schedEq_schedEnqueue
  · split
    · exact schedEq_schedEnqueue.trans schedEq_rescheduleRequired
    · exact schedEq_setAction _

/-- `set_thread_state` writes the state field, and otherwise schedules. -/
theorem schedEq_setThreadState (state : ThreadState) :
    SchedEq (s.setThreadState a t state) (s.tsSet t Field.tsType state.toWord) :=
  schedEq_scheduleTcb

/-- Switching address spaces writes the root register and nothing else. -/
theorem tcbSetVmRoot_eq (a : Arch) (s : KernelState) (t : Word) :
    ∃ w, (VSpace.tcbSetVmRoot a s t).1 = VSpace.setUserRoot s w := by
  unfold VSpace.tcbSetVmRoot VSpace.setVmRoot
  cases a with
  | riscv64 =>
    simp only
    split
    · exact ⟨_, rfl⟩
    · split <;> exact ⟨_, rfl⟩
  | aarch64 =>
    simp only
    split
    · exact ⟨_, rfl⟩
    · split
      · split <;> exact ⟨_, rfl⟩
      · exact ⟨_, rfl⟩

/-! ## States of threads -/

theorem ThreadState.ofWord_toWord (state : ThreadState) :
    ThreadState.ofWord (Field.tsType.raw state.toWord) = state := by
  cases state <;> decide

theorem getState_tsSet (x : Word) (state : ThreadState) :
    (s.tsSet t Field.tsType state.toWord).getState x = if x = t then state else s.getState x := by
  unfold getState tsSet modifyTcb
  by_cases hx : x = t
  · subst hx
    simp only [update_self, if_true]
    rw [stored_set_self (by decide), ThreadState.ofWord_toWord]
  · simp only [update_of_ne hx, if_neg hx]

theorem getState_setThreadState (x : Word) (state : ThreadState) :
    (s.setThreadState a t state).getState x = if x = t then state else s.getState x := by
  rw [(schedEq_setThreadState state).getState, getState_tsSet]

theorem getRegister_setRegister (r : ArchReg) (w : Word) :
    (s.setRegister a t r w).getRegister a t r = w := by
  simp [getRegister, setRegister, modifyTcb]

theorem getState_modifyTcb (hf : ∀ tcb, (f tcb).tcbState = tcb.tcbState) (x : Word) :
    (s.modifyTcb t f).getState x = s.getState x := by
  unfold getState
  rw [proj_modifyTcb (·.tcbState) (hf _)]

theorem getState_setRegister (r : ArchReg) (v x : Word) :
    (s.setRegister a t r v).getState x = s.getState x := by
  rw [setRegister, getState_modifyTcb]
  intro tcb
  rfl

theorem getState_suspend (x : Word) :
    (s.suspend a t).getState x = if x = t then .inactive else s.getState x := by
  unfold suspend
  rw [schedEq_schedDequeue.getState, getState_setThreadState]
  split
  · rfl
  · split
    · rw [getState_setRegister]
    · rfl

end KernelState

end Rel4.Task
