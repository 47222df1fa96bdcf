import Rel4.Task.SchedFrame
import Rel4.Ipc.Queue

/-!
What cancelling IPC leaves alone.

`eraseIpc` blanks out what scheduling and the queues of blocked threads use: the
state and the links of every TCB and its fault, the endpoints, and the state and
the queue of every notification. Two states that `IpcEq` connects agree on all
the rest: registers, bindings, messages of notifications, slots and memory.
-/

namespace Rel4.Ipc
open Lib.Bitfield Common Rel4.Task Task.KernelState

variable {f : Tcb → Tcb} {ep ntfn : Word}

def eraseTcbIpc (t : Tcb) : Tcb :=
  { t with
    tcbState := fun _ => 0
    tcbFault := fun _ => 0
    tcbSchedNext := 0
    tcbSchedPrev := 0
    tcbEPNext := 0
    tcbEPPrev := 0 }

/-- The words with the queue and the state go, those with the message and the
bound thread stay. -/
def eraseNtfnIpc (w : Words 4) : Words 4 := fun i => if i = 0 ∨ i = 1 then 0 else w i

def eraseIpc (s : KernelState) : KernelState :=
  { s with
    tcbs := fun t => eraseTcbIpc (s.tcbs t)
    endpoints := fun _ _ => 0
    notifications := fun n => eraseNtfnIpc (s.notifications n)
    ksReadyQueues := fun _ => ⟨0, 0⟩
    ksReadyQueuesL1Bitmap := fun _ => 0
    ksReadyQueuesL2Bitmap := fun _ _ => 0
    ksSchedulerAction := 0
    readyOrder := [] }

/-- The states differ only in what scheduling and the queues of blocked threads use. -/
def IpcEq (s s' : KernelState) : Prop := eraseIpc s = eraseIpc s'

variable {a : Arch} {s s' : KernelState} {t : Word}

namespace IpcEq

theorem refl (s : KernelState) : IpcEq s s := rfl

section

variable (h : IpcEq s s')
include h

theorem trans (h' : IpcEq s' s'') : IpcEq s s'' := Eq.trans h h'

omit h in
/-- What can be read off the erased state is the same in both. -/
theorem proj {γ : Type} (f : KernelState → γ) (h : IpcEq s s') : f (eraseIpc s) = f (eraseIpc s') :=
  congrArg f h

theorem registers (t : Word) : (s.tcbs t).registers = (s'.tcbs t).registers :=
  h.proj fun s => (s.tcbs t).registers

theorem boundNotification (t : Word) :
    (s.tcbs t).tcbBoundNotification = (s'.tcbs t).tcbBoundNotification :=
  h.proj fun s => (s.tcbs t).tcbBoundNotification

theorem ctes : s.ctes = s'.ctes := h.proj (·.ctes)

theorem userMemory : s.userMemory = s'.userMemory := h.proj (·.userMemory)

theorem ntfnWord (n : Word) (hi : ¬(i = 0 ∨ i = 1)) :
    s.notifications n i = s'.notifications n i := by
  have := h.proj fun s => s.notifications n i
  simpa only [eraseIpc, eraseNtfnIpc, if_neg hi] using this

theorem boundTcb (n : Word) : getBoundTcb a s n = getBoundTcb a s' n := by
  have hword : s.notifications n 3 = s'.notifications n 3 := h.ntfnWord n (by decide)
  unfold getBoundTcb Field.get Field.stored
  cases a <;> simp only [Field.ntfnBoundTcb, hword]

end

end IpcEq

/-! ## Scheduling -/

theorem ipcEq_of_schedEq (h : SchedEq s s') : IpcEq s s' := by
  have h := congrArg eraseIpc (show s.eraseSched = s'.eraseSched from h)
  exact h

theorem ipcEq_modifyTcb (h : eraseTcbIpc (f (s.tcbs t)) = eraseTcbIpc (s.tcbs t)) :
    IpcEq (s.modifyTcb t f) s := by
  unfold IpcEq eraseIpc modifyTcb
  congr 1
  exact funext (proj_modifyTcb eraseTcbIpc h)

theorem ipcEq_setThreadState (state : ThreadState) : IpcEq (s.setThreadState a t state) s :=
  (ipcEq_of_schedEq (schedEq_setThreadState state)).trans (ipcEq_modifyTcb rfl)

theorem ipcEq_schedEnqueue : IpcEq (s.schedEnqueue a t) s := ipcEq_of_schedEq schedEq_schedEnqueue

theorem ipcEq_suspend : IpcEq (s.suspend a t) s := by
  refine (ipcEq_of_schedEq schedEq_schedDequeue).trans ((ipcEq_setThreadState _).trans ?_)
  split
  · apply ipcEq_modifyTcb
    simp [getRegister]
  · rfl

/-! ## Queues -/

/-- Only the links of the queues of blocked threads change. -/
def Relinks (s s' : KernelState) : Prop :=
  ∃ next prev : Word → Word, s' = { s with
    tcbs := fun x => { s.tcbs x with tcbEPNext := next x, tcbEPPrev := prev x } }

namespace Relinks

theorem refl (s : KernelState) : Relinks s s :=
  ⟨fun x => (s.tcbs x).tcbEPNext, fun x => (s.tcbs x).tcbEPPrev, rfl⟩

theorem trans (h : Relinks s s') (h' : Relinks s' s'') : Relinks s s'' := by
  obtain ⟨_, _, rfl⟩ := h
  obtain ⟨next, prev, rfl⟩ := h'
  exact ⟨next, prev, rfl⟩

theorem ipcEq (h : Relinks s s') : IpcEq s' s := by
  obtain ⟨_, _, rfl⟩ := h
  rfl

theorem tcbState (h : Relinks s s') (x : Word) : (s'.tcbs x).tcbState = (s.tcbs x).tcbState := by
  obtain ⟨_, _, rfl⟩ := h
  rfl

theorem getState (h : Relinks s s') (x : Word) : s'.getState x = s.getState x := by
  rw [KernelState.getState, h.tcbState, KernelState.getState]

end Relinks

theorem relinks_modifyTcb (hf : ∀ tcb, f tcb =
    { tcb with tcbEPNext := (f tcb).tcbEPNext, tcbEPPrev := (f tcb).tcbEPPrev }) :
    Relinks s (s.modifyTcb t f) := by
  refine ⟨fun x => ((s.modifyTcb t f).tcbs x).tcbEPNext,
    fun x => ((s.modifyTcb t f).tcbs x).tcbEPPrev, ?_⟩
  unfold modifyTcb
  congr 1
  funext x
  by_cases hx : x = t
  · subst hx
    simpa using hf (s.tcbs x)
  · simp [hx]

theorem relinks_setEPNext (v : Word) : Relinks s (setEPNext s t v) := relinks_modifyTcb fun _ => rfl

theorem relinks_setEPPrev (v : Word) : Relinks s (setEPPrev s t v) := relinks_modifyTcb fun _ => rfl

theorem relinks_epAppend (queue : TcbQueue) : Relinks s (epAppend s queue t).1 := by
  unfold epAppend
  split
  · exact (relinks_setEPPrev _).trans (relinks_setEPNext _)
  · exact (relinks_setEPNext _).trans ((relinks_setEPPrev _).trans (relinks_setEPNext _))

theorem relinks_epDequeue (queue : TcbQueue) : Relinks s (epDequeue s queue t).1 := by
  have hnext : Relinks s (epSkipNext s queue t).1 := by
    unfold epSkipNext
    split
    · exact relinks_setEPNext _
    · exact .refl s
  refine hnext.trans ?_
  unfold epDequeue epSkipPrev
  simp only
  split
  · exact relinks_setEPPrev _
  · exact .refl _

theorem ipcEq_setEndpoint (ep : Word) (w : Words 2) : IpcEq (setEndpoint s ep w) s := rfl

theorem ipcEq_setNotification (h : eraseNtfnIpc w = eraseNtfnIpc (s.notifications ntfn)) :
    IpcEq (setNotification s ntfn w) s := by
  unfold IpcEq eraseIpc setNotification
  congr 1
  funext x
  by_cases hx : x = ntfn
  · subst hx
    simpa using h
  · simp [hx]

/-- A field of the first two words does not show in what is left of a notification. -/
theorem eraseNtfnIpc_set {f : Field 4} (hf : f.index = 0 ∨ f.index = 1) (w : Words 4) (v : Word) :
    eraseNtfnIpc (f.set w v) = eraseNtfnIpc w := by
  funext i
  unfold eraseNtfnIpc
  split
  · rfl
  rename_i hi
  apply Function.update_of_ne
  rintro rfl
  exact hi hf

theorem ipcEq_setNtfnState (ntfn : Word) (state : NtfnState) :
    IpcEq (setNtfnState s ntfn state) s :=
  ipcEq_setNotification (eraseNtfnIpc_set (.inl rfl) _ _)

theorem ipcEq_setNtfnQueue (ntfn : Word) (queue : TcbQueue) :
    IpcEq (setNtfnQueue a s ntfn queue) s := by
  apply ipcEq_setNotification
  cases a with
  | riscv64 => rw [eraseNtfnIpc_set (.inl rfl), eraseNtfnIpc_set (.inr rfl)]
  | aarch64 => rw [eraseNtfnIpc_set (.inl rfl), eraseNtfnIpc_set (.inr rfl)]

/-! ## Cancellation -/

theorem ipcEq_epCancelIpc (ep : Word) : IpcEq (epCancelIpc a s ep t) s := by
  have hdeq := (relinks_epDequeue (s := s) (t := t) (getEpQueue a s ep)).ipcEq
  unfold epCancelIpc
  generalize epDequeue s (getEpQueue a s ep) t = r at hdeq ⊢
  have hqueue : IpcEq (setEpQueue a r.1 ep r.2) s := (ipcEq_setEndpoint _ _).trans hdeq
  refine (ipcEq_setThreadState _).trans ?_
  split
  · exact (ipcEq_setEndpoint _ _).trans hqueue
  · exact hqueue

theorem ipcEq_cancelSignal (ntfn : Word) : IpcEq (cancelSignal a s ntfn t) s := by
  have hdeq := (relinks_epDequeue (s := s) (t := t) (getNtfnQueue a s ntfn)).ipcEq
  unfold cancelSignal
  generalize epDequeue s (getNtfnQueue a s ntfn) t = r at hdeq ⊢
  have hqueue : IpcEq (setNtfnQueue a r.1 ntfn r.2) s := (ipcEq_setNtfnQueue _ _).trans hdeq
  refine (ipcEq_setThreadState _).trans ?_
  split
  · exact (ipcEq_setNtfnState _ _).trans hqueue
  · exact hqueue

/-- A rule for the operations that restart the threads of a queue. -/
structure RestartRule (a : Arch) (R : KernelState → KernelState → Prop) : Prop where
  refl : ∀ s, R s s
  trans : ∀ {s s' s''}, R s s' → R s' s'' → R s s''
  restart : ∀ s t, R s ((s.setThreadState a t .restart).schedEnqueue a t)
  relink : ∀ {s s'}, Relinks s s' → R s s'
  setEndpoint : ∀ s ep w, R s (setEndpoint s ep w)
  clear : ∀ {s ntfn} queue, getNtfnState s ntfn = .waiting →
    R s (setNtfnQueue a (setNtfnState s ntfn .idle) ntfn queue)
  reschedule : ∀ s, R s (s.rescheduleRequired a)

namespace RestartRule

variable {R : KernelState → KernelState → Prop} (hR : RestartRule a R)
include hR

theorem restartThreads (h : restartThreads a fuel s t = .ok s') : R s s' := by
  induction fuel generalizing s t with
  | zero => cases h
  | succ fuel ih =>
    rw [Ipc.restartThreads] at h
    split at h
    · cases h
      exact hR.refl _
    · exact hR.trans (hR.restart s t) (ih h)

theorem restartBadged (h : restartBadged a badge fuel s queue t = .ok (s', queue')) : R s s' := by
  induction fuel generalizing s queue t with
  | zero => cases h
  | succ fuel ih =>
    rw [Ipc.restartBadged] at h
    split at h
    · cases h
      exact hR.refl _
    split at h
    · exact hR.trans (hR.trans (hR.restart s t) (hR.relink (relinks_epDequeue _))) (ih h)
    · exact ih h

theorem clearQueue (s : KernelState) (ep : Word) :
    R s (setEpQueue a (setEpState s ep .idle) ep ⟨0, 0⟩) :=
  hR.trans (hR.setEndpoint _ _ _) (hR.setEndpoint _ _ _)

theorem cancelAllIpc (h : cancelAllIpc a s ep = .ok s') : R s s' := by
  unfold Ipc.cancelAllIpc at h
  split at h
  · cases h
    exact hR.refl _
  · obtain ⟨s₁, hs, h⟩ := bind_eq_ok.mp h
    cases h
    exact hR.trans (hR.clearQueue s ep) (hR.trans (hR.restartThreads hs) (hR.reschedule _))

theorem cancelBadgedSends (h : cancelBadgedSends a s ep badge = .ok s') : R s s' := by
  unfold Ipc.cancelBadgedSends at h
  split at h
  · obtain ⟨⟨s₁, queue⟩, hs, h⟩ := bind_eq_ok.mp h
    cases h
    have hloop := hR.trans (hR.clearQueue s ep) (hR.restartBadged hs)
    have hqueue : R s (setEpQueue a s₁ ep queue) := hR.trans hloop (hR.setEndpoint _ _ _)
    refine hR.trans ?_ (hR.reschedule _)
    split
    · exact hR.trans hqueue (hR.setEndpoint _ _ _)
    · exact hqueue
  · cases h
    exact hR.refl _

theorem cancelAllSignal (h : cancelAllSignal a s ntfn = .ok s') : R s s' := by
  unfold Ipc.cancelAllSignal at h
  split at h
  next hwaiting =>
    obtain ⟨s₁, hs, h⟩ := bind_eq_ok.mp h
    cases h
    exact hR.trans (hR.clear _ hwaiting) (hR.trans (hR.restartThreads hs) (hR.reschedule _))
  next =>
    cases h
    exact hR.refl _

end RestartRule

theorem ipcEq_rule : RestartRule a fun s s' => IpcEq s' s where
  refl := .refl
  trans h h' := h'.trans h
  restart _ _ := ipcEq_schedEnqueue.trans (ipcEq_setThreadState _)
  relink h := h.ipcEq
  setEndpoint _ _ _ := rfl
  clear _ _ := (ipcEq_setNtfnQueue _ _).trans (ipcEq_setNtfnState _ _)
  reschedule _ := ipcEq_of_schedEq schedEq_rescheduleRequired

theorem ipcEq_cancelAllIpc (h : cancelAllIpc a s ep = .ok s') : IpcEq s' s :=
  ipcEq_rule.cancelAllIpc h

theorem ipcEq_cancelBadgedSends (h : cancelBadgedSends a s ep badge = .ok s') :
    IpcEq s' s := ipcEq_rule.cancelBadgedSends h

theorem ipcEq_cancelAllSignal (h : cancelAllSignal a s ntfn = .ok s') :
    IpcEq s' s := ipcEq_rule.cancelAllSignal h

/-! ## States of threads -/

theorem getState_epCancelIpc (ep x : Word) :
    (epCancelIpc a s ep t).getState x = if x = t then .inactive else s.getState x := by
  have hdeq := (relinks_epDequeue (s := s) (t := t) (getEpQueue a s ep)).getState x
  unfold epCancelIpc
  generalize epDequeue s (getEpQueue a s ep) t = r at hdeq ⊢
  rw [getState_setThreadState, ← hdeq]
  split
  · rfl
  · split <;> rfl

theorem getState_cancelSignal (ntfn x : Word) :
    (cancelSignal a s ntfn t).getState x = if x = t then .inactive else s.getState x := by
  have hdeq := (relinks_epDequeue (s := s) (t := t) (getNtfnQueue a s ntfn)).getState x
  unfold cancelSignal
  generalize epDequeue s (getNtfnQueue a s ntfn) t = r at hdeq ⊢
  rw [getState_setThreadState, ← hdeq]
  split
  · rfl
  · split <;> rfl

/-- Threads are left alone or restarted. -/
theorem getState_rule (x : Word) : RestartRule a fun s s' =>
    s'.getState x = s.getState x ∨ s'.getState x = .restart where
  refl _ := .inl rfl
  trans h h' := by
    rcases h' with hx | hx
    · rw [hx]
      exact h
    · exact .inr hx
  restart s t := by
    rw [schedEq_schedEnqueue.getState, getState_setThreadState]
    split
    · exact .inr rfl
    · exact .inl rfl
  relink h := .inl (h.getState x)
  setEndpoint _ _ _ := .inl rfl
  clear _ _ := .inl rfl
  reschedule _ := .inl (schedEq_rescheduleRequired.getState x)

end Rel4.Ipc
