import Rel4.Kernel.Entry
import Rel4.Kernel.Irq
import Rel4.Kernel.Priority
import Rel4.Lib.RoundRobin

/-!
Round robin among the threads of the highest priority
(`kernel/src/interrupt/handler.rs`, `timerTick`, `handle_yield`, `schedule`).

The current thread and the ready queue of its priority are a ring, and the time
slices are what is left of the quanta (`robin`). As long as the kernel is entered
for timer interrupts and yields only, the kernel refines the round robin of that
ring (`kernelEntry_robin`).
-/

namespace Rel4.Kernel
open Lib.Bitfield Lib.RoundRobin Common CSpace Rel4.Task Ipc Function
open Task.KernelState
open Rel4.Task.Field (tsTcbQueued tsType)
open ThreadState (running)

variable {s₁ : KernelState} {queue : List Word}

section Entries

variable (a : Arch)

/-- `handleInterrupt`. Masking, acknowledging and resetting the timer are left to
the hardware. -/
def handleInterrupt (s : KernelState) (irq : Word) : Exec KernelState :=
  if irq > maxIRQ a then .ok s
  else
    match getIrqState s irq with
    | .inactive => .ok s
    | .signal =>
      let handlerCap := (s.ctes (offsetSlot s.intStateIRQNode irq)).cap
      if getCapType handlerCap = .notificationCap ∧ getNfCanSend a handlerCap ≠ 0 then
        sendSignal a s (getNfPtr a handlerCap) (getNfBadge a handlerCap)
      else .ok s
    | .timer => .ok (s.timerTick a)
    | .reserved => .ok s
    | .undefined => .error .panicked

/-- `handleInterruptEntry`, for the interrupt that `getActiveIRQ` returns. -/
def handleInterruptEntry (s : KernelState) (irq : Word) : Exec KernelState := do
  let s ← (if irq ≠ irqInvalid then handleInterrupt a s irq else .ok s)
  let s ← s.schedule a
  s.activateThread a

/-- `handleSyscall` of `SysYield` -/
def handleSysYield (s : KernelState) : Exec KernelState := do
  let s ← (handleYield a s).schedule a
  s.activateThread a

/-- The kernel is entered for a timer interrupt or a yield. -/
def kernelEntry (s : KernelState) : Move → Exec KernelState
  | .tick => handleInterruptEntry a s (kernelTimerIrq a)
  | .yield => handleSysYield a s

def runEntries (s : KernelState) (ms : List Move) : Exec KernelState := ms.foldlM (kernelEntry a) s

/-- The entry ends the turn of the current thread: it yields, or its time slice
runs out. -/
def endsTurn (s : KernelState) : Move → Bool
  | .tick => s.getState s.ksCurThread = .running ∧ ¬(s.tcbs s.ksCurThread).tcbTimeSlice > 1
  | .yield => true

/-- The threads that are current when their turns end, in order. -/
def turnOwners : KernelState → List Move → Exec (List Word)
  | _, [] => .ok []
  | s, m :: ms => do
    let s' ← kernelEntry a s m
    let owners ← turnOwners s' ms
    return if endsTurn s m then s.ksCurThread :: owners else owners

end Entries

/-! ## Well-formed states -/

/-- The runnable threads are the current one and those in the ready queues, and
none has a higher priority than the current one. -/
structure Scheduled (a : Arch) (thread : Word → Prop) (s : KernelState) : Prop where
  sched : SchedInv a thread s
  action : s.ksSchedulerAction = resumeCurrentThread
  queued : ∀ {t}, thread t →
    (s.tsGet a t tsTcbQueued ≠ 0 ↔ s.isRunnable t = true ∧ t ≠ s.ksCurThread)
  highest : ∀ {t}, thread t → s.isRunnable t = true →
    (s.tcbs t).tcbPriority.toNat ≤ (s.tcbs s.ksCurThread).tcbPriority.toNat
  slices : ∀ {t}, thread t → s.isRunnable t = true → 0 < (s.tcbs t).tcbTimeSlice.toNat
  timer : getIrqState s (kernelTimerIrq a) = .timer

/-- The scheduler's part of the state between two kernel entries. The idle thread
is current if nothing is runnable. -/
structure WellFormed (a : Arch) (thread : Word → Prop) (s : KernelState) : Prop
    extends Scheduled a thread s where
  active : s.getState s.ksCurThread = .running ∨
    s.getState s.ksCurThread = .idleThreadState ∧ ∀ t, thread t → s.isRunnable t = false

/-- The ring of the current thread's priority, and the time slices. -/
def robin (s : KernelState) : Robin Word where
  front := s.ksCurThread
  rest := readyQueue s (s.tcbs s.ksCurThread).tcbPriority
  left t := (s.tcbs t).tcbTimeSlice.toNat

/-! ## What the scheduler keeps of the threads -/

/-- The threads are the same up to their places in the ready queues. -/
structure SameThreads (s s' : KernelState) : Prop where
  tcb : ∀ x, (s'.tcbs x).eraseSched = (s.tcbs x).eraseSched
  irqs : s'.intStateIRQTable = s.intStateIRQTable

namespace SameThreads

variable {s s' : KernelState}

theorem of_schedEq (h : KernelState.SchedEq s' s) : SameThreads s s' where
  tcb := h.tcb
  irqs := by
    have heq := congrArg intStateIRQTable (show s'.eraseSched = s.eraseSched from h)
    exact heq

theorem priority (h : SameThreads s s') (x : Word) :
    (s'.tcbs x).tcbPriority = (s.tcbs x).tcbPriority := by
  have heq := congrArg Tcb.tcbPriority (h.tcb x)
  exact heq

theorem slice (h : SameThreads s s') (x : Word) :
    (s'.tcbs x).tcbTimeSlice = (s.tcbs x).tcbTimeSlice := by
  have heq := congrArg Tcb.tcbTimeSlice (h.tcb x)
  exact heq

theorem isRunnable (h : SameThreads s s') (x : Word) : s'.isRunnable x = s.isRunnable x := by
  have hdisj : tsType.Disjoint tsTcbQueued := by decide
  have hstate := congrArg (tsType.stored ∘ Tcb.tcbState) (h.tcb x)
  simp only [Function.comp, Tcb.eraseSched, stored_set_of_disjoint hdisj] at hstate
  unfold KernelState.isRunnable KernelState.getState
  exact decide_eq_decide.mpr (by rw [hstate])

end SameThreads

section Turns

variable {a : Arch} {thread : Word → Prop} {s s' : KernelState} {t p : Word}

theorem isRunnable_of_running (h : s.getState t = .running) : s.isRunnable t = true := by
  simp [KernelState.isRunnable, h]

/-! ## Passing the turn -/

/-- `chooseThread` takes the head of a queue that no queued thread is above. -/
theorem chooseThread_head (h : ReadyInv thread (readyView a s)) (hp : p.toNat < 256)
    (hqueue : (readyView a s).readyQueue p = t :: queue)
    (hmax : ∀ x ∈ s.readyOrder, (s.tcbs x).tcbPriority.toNat ≤ p.toNat) :
    s.chooseThread a = .ok (s.switchToThis a t) := by
  have hne : (readyView a s).readyQueue p ≠ [] := by
    rw [hqueue]
    exact List.cons_ne_nil _ _
  have hmem : (readyView a s).bitmap.Mem p.toNat := by
    refine h.bitmap.mpr ⟨hp, ?_⟩
    rwa [BitVec.ofNat_toNat, BitVec.setWidth_eq]
  have hl1 : s.ksReadyQueuesL1Bitmap 0 ≠ 0 := hmem.hi_ne_zero h.consistent
  obtain ⟨hlt, hnonempty, hge⟩ := h.highest hl1
  have hprio : s.getHighestPrio 0 = p := by
    obtain ⟨x, hx⟩ := List.exists_mem_of_ne_nil _ hnonempty
    have hxprio : (s.tcbs x).tcbPriority = s.getHighestPrio 0 := (h.mem_readyQueue.mp hx).2
    have hxle := hmax x (h.mem_order.mpr (h.mem_readyQueue.mp hx).1)
    rw [hxprio] at hxle
    exact BitVec.eq_of_toNat_eq (le_antisymm hxle (hge p hp hne))
  have hhead : (s.ksReadyQueues (readyQueuesIndex 0 (s.getHighestPrio 0))).head = t := by
    rw [readyQueuesIndex_zero, hprio]
    have hends := congrArg TcbQueue.head (h.ends hp)
    rw [hqueue] at hends
    exact hends
  have ht0 : t ≠ 0 := by
    refine h.address (h.mem_readyQueue (p := p) |>.mp ?_).1.1
    rw [hqueue]
    exact List.mem_cons_self
  unfold KernelState.chooseThread
  rw [if_pos hl1]
  exact bind_eq_ok.mpr ⟨(), ensure_of (hhead ▸ ht0), by rw [hhead]; rfl⟩

theorem switchToThis_leaves (h : SchedInv a thread s) (ht : thread t)
    (hq : s.tsGet a t tsTcbQueued ≠ 0) :
    Leaves (readyView a s) (readyView a (s.switchToThis a t)) t ∧
      SameThreads s (s.switchToThis a t) := by
  obtain ⟨w, hroot⟩ := tcbSetVmRoot_eq a s t
  have hset : SchedInv a thread (VSpace.setUserRoot s w) := h.of_view rfl rfl rfl rfl
  have hleaves := leaves_schedDequeue hset.ready ht hq
  have hsame := SameThreads.of_schedEq (schedEq_schedDequeue (a := a)
    (s := VSpace.setUserRoot s w) (t := t))
  unfold KernelState.switchToThis
  rw [hroot]
  exact ⟨hleaves, ⟨hsame.tcb, hsame.irqs⟩⟩

/-- What `schedule` does when a new thread is to be chosen and the current one is
back in its queue: it switches to the head of the highest queue. -/
theorem schedule_head (h : SchedInv a thread s) (hact : s.ksSchedulerAction = chooseNewThread)
    (hcur : s.tsGet a s.ksCurThread tsTcbQueued ≠ 0) (hp : p.toNat < 256)
    (hqueue : (readyView a s).readyQueue p = t :: queue)
    (hmax : ∀ x ∈ s.readyOrder, (s.tcbs x).tcbPriority.toNat ≤ p.toNat) :
    ∃ s', s.schedule a = .ok s' ∧ s'.ksCurThread = t ∧
      s'.ksSchedulerAction = resumeCurrentThread ∧
      Leaves (readyView a s) (readyView a s') t ∧ SameThreads s s' := by
  have henqueue : (if s.isRunnable s.ksCurThread then s.schedEnqueue a s.ksCurThread else s) = s := by
    rw [KernelState.schedEnqueue, if_neg hcur, ite_self]
  -- the domain schedule is no part of the ready queues
  obtain ⟨s₂, hs₂, hview, horder, htcbs, hirqs, hinv⟩ : ∃ s₂,
      s₂ = (if s.ksDomainTime = 0 then s.nextDomain else s) ∧ readyView a s₂ = readyView a s ∧
        s₂.readyOrder = s.readyOrder ∧ s₂.tcbs = s.tcbs ∧
        s₂.intStateIRQTable = s.intStateIRQTable ∧ SchedInv a thread s₂ := by
    refine ⟨_, rfl, ?_⟩
    split
    · exact ⟨rfl, rfl, rfl, rfl, ⟨h.ready, h.action, h.current, h.idle⟩⟩
    · exact ⟨rfl, rfl, rfl, rfl, h⟩
  have hmem : t ∈ (readyView a s).readyQueue p := by
    rw [hqueue]
    exact List.mem_cons_self
  obtain ⟨⟨ht, hq⟩, -⟩ := h.ready.mem_readyQueue.mp hmem
  have hchoose : s₂.chooseThread a = .ok (s₂.switchToThis a t) := by
    refine chooseThread_head hinv.ready hp (hview ▸ hqueue) fun x hx => ?_
    rw [htcbs]
    exact hmax x (horder ▸ hx)
  have hq₂ : s₂.tsGet a t tsTcbQueued ≠ 0 := by
    rw [KernelState.tsGet, htcbs]
    exact hq
  obtain ⟨hleaves, hsame⟩ := switchToThis_leaves hinv ht hq₂
  refine ⟨{ s₂.switchToThis a t with ksSchedulerAction := resumeCurrentThread }, ?_, rfl, rfl,
    hview ▸ hleaves, ⟨fun x => (hsame.tcb x).trans (by rw [htcbs]), hsame.irqs.trans hirqs⟩⟩
  unfold KernelState.schedule
  rw [if_pos (by rw [hact]; decide)]
  refine bind_eq_ok.mpr ⟨s₂.switchToThis a t, ?_, rfl⟩
  unfold KernelState.reschedule
  simp only [henqueue]
  rw [if_pos hact, KernelState.scheduleChooseNewThread, ← hs₂]
  exact hchoose

/-- The current thread is back in its queue, and a new one is to be chosen. -/
structure Requeued (a : Arch) (thread : Word → Prop) (s s' : KernelState) : Prop where
  sched : SchedInv a thread s'
  action : s'.ksSchedulerAction = chooseNewThread
  current : s'.ksCurThread = s.ksCurThread
  joins : Joins (readyView a s) (readyView a s') s.ksCurThread
  same : SameThreads s s'

section

variable (h : Scheduled a thread s)
include h

theorem Scheduled.not_queued : s.tsGet a s.ksCurThread tsTcbQueued = 0 := by
  by_contra hq
  exact ((h.queued h.sched.current).mp hq).2 rfl

theorem Scheduled.requeue :
    Requeued a thread s ((s.schedAppend a s.ksCurThread).rescheduleRequired a) := by
  have hact : (s.schedAppend a s.ksCurThread).ksSchedulerAction = resumeCurrentThread := by
    rw [action_schedAppend, h.action]
  have heq : (s.schedAppend a s.ksCurThread).rescheduleRequired a =
      { s.schedAppend a s.ksCurThread with ksSchedulerAction := chooseNewThread } := by
    rw [KernelState.rescheduleRequired, if_neg (by rw [hact]; exact fun hne => hne.1 rfl)]
  have hsame := SameThreads.of_schedEq (schedEq_schedAppend (a := a) (s := s) (t := s.ksCurThread))
  rw [heq]
  exact
    { sched := (h.sched.schedAppend h.sched.current).setAction (.inr (.inl rfl))
      action := rfl
      current := SchedEq.current KernelState.schedEq_schedAppend
      joins := joins_schedAppend h.sched.ready h.sched.current h.not_queued
      same := ⟨hsame.tcb, hsame.irqs⟩ }

/-- The ring is made of the runnable threads of the current thread's priority. -/
theorem Scheduled.mem_ring (hrun : s.isRunnable s.ksCurThread = true) (x : Word) :
    x ∈ (robin s).ring ↔ thread x ∧ s.isRunnable x = true ∧
      (s.tcbs x).tcbPriority = (s.tcbs s.ksCurThread).tcbPriority := by
  have hmem : x ∈ readyQueue s (s.tcbs s.ksCurThread).tcbPriority ↔
      (thread x ∧ s.tsGet a x tsTcbQueued ≠ 0) ∧
        (s.tcbs x).tcbPriority = (s.tcbs s.ksCurThread).tcbPriority := h.sched.ready.mem_readyQueue
  rw [Robin.ring, List.mem_cons]
  show x = s.ksCurThread ∨ x ∈ readyQueue s (s.tcbs s.ksCurThread).tcbPriority ↔ _
  rw [hmem]
  constructor
  · rintro (rfl | ⟨⟨hx, hq⟩, hprio⟩)
    · exact ⟨h.sched.current, hrun, rfl⟩
    · exact ⟨hx, ((h.queued hx).mp hq).1, hprio⟩
  · rintro ⟨hx, hr, hprio⟩
    by_cases hc : x = s.ksCurThread
    · exact .inl hc
    · exact .inr ⟨⟨hx, (h.queued hx).mpr ⟨hr, hc⟩⟩, hprio⟩

theorem Scheduled.ring_nodup : (robin s).ring.Nodup := by
  refine List.nodup_cons.mpr ⟨fun hmem => ?_, h.sched.ready.nodup.filter _⟩
  exact (h.sched.ready.mem_order.mp (List.mem_of_mem_filter hmem)).2 h.not_queued

omit h in
/-- The member of the ring behind the current thread is next. -/
theorem robin_pass (s : KernelState) : ∃ next queue,
    readyQueue s (s.tcbs s.ksCurThread).tcbPriority ++ [s.ksCurThread] = next :: queue ∧
      (robin s).pass = ⟨next, queue, (robin s).left⟩ := by
  cases hqueue : readyQueue s (s.tcbs s.ksCurThread).tcbPriority with
  | nil => exact ⟨s.ksCurThread, [], rfl, by simp [Robin.pass, robin, hqueue]⟩
  | cons x xs => exact ⟨x, xs ++ [s.ksCurThread], rfl, by simp [Robin.pass, robin, hqueue]⟩

/-- The turn passes to the next member of the ring. -/
theorem Scheduled.schedule_pass (hrun : s.isRunnable s.ksCurThread = true)
    (hre : Requeued a thread s s₁) :
    ∃ s', s₁.schedule a = .ok s' ∧ Scheduled a thread s' ∧ s'.isRunnable s'.ksCurThread = true ∧
      robin s' = (robin s).pass := by
  have hp : (s.tcbs s.ksCurThread).tcbPriority.toNat < 256 := h.sched.ready.priority h.sched.current
  obtain ⟨next, queue, hring, hpass⟩ := robin_pass s
  have hqueue₁ : (readyView a s₁).readyQueue (s.tcbs s.ksCurThread).tcbPriority = next :: queue := by
    rw [hre.joins.readyQueue]
    exact (update_self ..).trans hring
  have hqueued₁ : ∀ x, s₁.tsGet a x tsTcbQueued =
      if x = s.ksCurThread then 1 else s.tsGet a x tsTcbQueued := by
    intro x
    have hq := congrFun hre.joins.queued x
    rw [update_apply] at hq
    exact hq
  have hmax : ∀ x ∈ s₁.readyOrder, (s₁.tcbs x).tcbPriority.toNat ≤
      (s.tcbs s.ksCurThread).tcbPriority.toNat := by
    intro x hx
    have horder : s₁.readyOrder = s.readyOrder ++ [s.ksCurThread] := hre.joins.order
    rw [hre.same.priority]
    rcases List.mem_append.mp (horder ▸ hx) with hx | hx
    · obtain ⟨hthread, hqueued⟩ := h.sched.ready.mem_order.mp hx
      exact h.highest hthread ((h.queued hthread).mp hqueued).1
    · rw [List.mem_singleton.mp hx]
  have hcurq : s₁.tsGet a s₁.ksCurThread tsTcbQueued ≠ 0 := by
    rw [hre.current, hqueued₁, if_pos rfl]
    decide
  obtain ⟨s', hs', hcurrent, haction, hleaves, hsame⟩ :=
    schedule_head hre.sched hre.action hcurq hp hqueue₁ hmax
  have hsame' : SameThreads s s' :=
    ⟨fun x => (hsame.tcb x).trans (hre.same.tcb x), hsame.irqs.trans hre.same.irqs⟩
  have hqueued' : ∀ x, s'.tsGet a x tsTcbQueued =
      if x = next then 0 else if x = s.ksCurThread then 1 else s.tsGet a x tsTcbQueued := by
    intro x
    have hq := congrFun hleaves.queued x
    rw [update_apply] at hq
    rw [← hqueued₁]
    exact hq
  have hmem : next ∈ (robin s).ring := by
    rw [← List.mem_rotate, ← Robin.ring_pass, hpass]
    exact List.mem_cons_self
  obtain ⟨-, hnext, hprio⟩ := (h.mem_ring hrun next).mp hmem
  refine ⟨s', hs', ?_, ?_, ?_⟩
  · refine
      { sched := hre.sched.schedule hs', action := haction, queued := fun {t} ht => ?_
        highest := fun {t} ht hr => ?_, slices := fun {t} ht hr => ?_, timer := ?_ }
    · rw [hqueued', hsame'.isRunnable, hcurrent]
      by_cases hn : t = next
      · simp [hn]
      · by_cases hc : t = s.ksCurThread
        · rw [if_neg hn, if_pos hc, hc]
          exact ⟨fun _ => ⟨hrun, fun he => hn (hc.trans he)⟩, fun _ => by decide⟩
        · rw [if_neg hn, if_neg hc, h.queued ht]
          exact ⟨fun hq => ⟨hq.1, hn⟩, fun hq => ⟨hq.1, hc⟩⟩
    · rw [hcurrent, hsame'.priority, hsame'.priority, hprio]
      exact h.highest ht (hsame'.isRunnable t ▸ hr)
    · rw [hsame'.slice]
      exact h.slices ht (hsame'.isRunnable t ▸ hr)
    · rw [getIrqState, hsame'.irqs]
      exact h.timer
  · rw [hcurrent, hsame'.isRunnable]
    exact hnext
  · have hqueue' : readyQueue s' (s.tcbs s.ksCurThread).tcbPriority = queue := by
      have hprio₁ : (readyView a s₁).priority next = (s.tcbs s.ksCurThread).tcbPriority :=
        (hre.same.priority next).trans hprio
      have hq := congrFun hleaves.readyQueue (s.tcbs s.ksCurThread).tcbPriority
      rw [hprio₁, update_self, hqueue₁, List.erase_cons_head] at hq
      exact hq
    have hleft : (fun x => (s'.tcbs x).tcbTimeSlice.toNat) = (robin s).left :=
      funext fun x => congrArg BitVec.toNat (hsame'.slice x)
    rw [hpass, robin, hleft, hcurrent, hsame'.priority, hprio, hqueue']

/-! ## Entries -/

/-- A write outside of the ready queues that stops and starts no thread. -/
theorem Scheduled.of_view (hview : readyView a s' = readyView a s)
    (hact : s'.ksSchedulerAction = s.ksSchedulerAction) (hcur : s'.ksCurThread = s.ksCurThread)
    (hidle : s'.ksIdleThread = s.ksIdleThread) (hrun : ∀ x, s'.isRunnable x = s.isRunnable x)
    (hslice : ∀ {x}, thread x → s.isRunnable x = true → 0 < (s'.tcbs x).tcbTimeSlice.toNat)
    (hirqs : s'.intStateIRQTable = s.intStateIRQTable) : Scheduled a thread s' := by
  have hprio : ∀ x, (s'.tcbs x).tcbPriority = (s.tcbs x).tcbPriority :=
    congrFun (congrArg ReadyView.priority hview)
  have hqueued : ∀ x, s'.tsGet a x tsTcbQueued = s.tsGet a x tsTcbQueued :=
    congrFun (congrArg ReadyView.queued hview)
  refine
    { sched := h.sched.of_view hview hact hcur hidle, action := hact.trans h.action
      queued := fun {t} ht => ?_, highest := fun {t} ht hr => ?_
      slices := fun ht hr => hslice ht (hrun _ ▸ hr), timer := ?_ }
  · rw [hqueued, hrun, hcur]
    exact h.queued ht
  · rw [hprio, hprio, hcur]
    exact h.highest ht (hrun t ▸ hr)
  · rw [getIrqState, hirqs]
    exact h.timer

omit h in
theorem robin_of_view (hview : readyView a s' = readyView a s)
    (hcur : s'.ksCurThread = s.ksCurThread) :
    robin s' = { robin s with left := (robin s').left } := by
  have hprio : ∀ x, (s'.tcbs x).tcbPriority = (s.tcbs x).tcbPriority :=
    congrFun (congrArg ReadyView.priority hview)
  have hqueue : ∀ p, readyQueue s' p = readyQueue s p :=
    congrFun (congrArg ReadyView.readyQueue hview)
  unfold robin
  simp only [hcur, hprio, hqueue]

/-- A chosen thread is running once it is activated. -/
theorem Scheduled.activate (hrun : s.isRunnable s.ksCurThread = true) :
    ∃ s', s.activateThread a = .ok s' ∧ Scheduled a thread s' ∧
      s'.getState s'.ksCurThread = .running ∧ robin s' = robin s := by
  by_cases hstate : s.getState s.ksCurThread = .running
  · refine ⟨s, ?_, h, hstate, rfl⟩
    simp only [KernelState.activateThread, hstate]
  have hrestart : s.getState s.ksCurThread = .restart :=
    (of_decide_eq_true hrun).resolve_left hstate
  obtain ⟨s₁, hs₁⟩ : ∃ s₁, s₁ = s.setRegister a s.ksCurThread .nextIP
      (s.getRegister a s.ksCurThread .faultIP) := ⟨_, rfl⟩
  have hstate₁ : ∀ x, (s₁.tsSet s.ksCurThread tsType running.toWord).getState x =
      if x = s.ksCurThread then .running else s.getState x := by
    intro x
    rw [KernelState.getState_tsSet, hs₁, KernelState.getState_setRegister]
  have hview : readyView a (s₁.tsSet s.ksCurThread tsType running.toWord) =
      readyView a s := by
    rw [readyView_tsSet (by decide), hs₁, readyView_setRegister]
  have hslice : ∀ x, ((s₁.tsSet s.ksCurThread tsType
      running.toWord).tcbs x).tcbTimeSlice = (s.tcbs x).tcbTimeSlice := by
    intro x
    rw [KernelState.tsSet, proj_modifyTcb (·.tcbTimeSlice) (by rfl), hs₁, KernelState.setRegister,
      proj_modifyTcb (·.tcbTimeSlice) (by rfl)]
  have hrun₁ : ∀ x, (s₁.tsSet s.ksCurThread tsType
      running.toWord).isRunnable x = s.isRunnable x := by
    intro x
    by_cases hx : x = s.ksCurThread
    · rw [hx, hrun]
      exact isRunnable_of_running (by rw [hstate₁, if_pos rfl])
    · exact decide_eq_decide.mpr (by rw [hstate₁, if_neg hx])
  have hcur : s₁.ksCurThread = s.ksCurThread := by rw [hs₁]; rfl
  refine ⟨s₁.tsSet s.ksCurThread tsType running.toWord, ?_,
    h.of_view hview (by rw [hs₁]; rfl) hcur (by rw [hs₁]; rfl) hrun₁ ?_ (by rw [hs₁]; rfl), ?_, ?_⟩
  · simp only [KernelState.activateThread, hrestart, ← hs₁, KernelState.setThreadState]
    rw [KernelState.scheduleTcb, if_neg]
    rintro ⟨-, -, hnot⟩
    rw [hrun₁, hrun] at hnot
    cases hnot
  · intro x hx hr
    rw [hslice]
    exact h.slices hx hr
  · show getState _ s₁.ksCurThread = _
    rw [hcur, hstate₁, if_pos rfl]
  · rw [robin_of_view hview hcur]
    have hleft : (robin (s₁.tsSet s.ksCurThread tsType
        running.toWord)).left = (robin s).left :=
      funext fun x => congrArg BitVec.toNat (hslice x)
    rw [hleft]

/-- The time slice of the current thread is written. -/
theorem Scheduled.setSlice {f : Tcb → Word} (hv : 0 < (f (s.tcbs s.ksCurThread)).toNat) :
    Scheduled a thread
        (s.modifyTcb s.ksCurThread fun tcb => { tcb with tcbTimeSlice := f tcb }) ∧
      robin (s.modifyTcb s.ksCurThread fun tcb => { tcb with tcbTimeSlice := f tcb }) =
        { robin s with
          left := update (robin s).left s.ksCurThread
            (f (s.tcbs s.ksCurThread)).toNat } := by
  have hview : readyView a
      (s.modifyTcb s.ksCurThread fun tcb => { tcb with tcbTimeSlice := f tcb }) = readyView a s :=
    readyView_modifyTcb
      { next := fun _ => rfl, prev := fun _ => rfl, priority := fun _ => rfl
        domain := fun _ => rfl, mcp := fun _ => rfl, queued := fun _ => rfl }
  have hleft : (robin (s.modifyTcb s.ksCurThread fun tcb =>
      { tcb with tcbTimeSlice := f tcb })).left =
        update (robin s).left s.ksCurThread (f (s.tcbs s.ksCurThread)).toNat := by
    funext x
    simp only [robin, tcbs_modifyTcb, update_apply]
    split <;> rfl
  refine ⟨h.of_view hview rfl rfl rfl (fun x => ?_) (fun {x} hx hr => ?_) rfl, ?_⟩
  · unfold KernelState.isRunnable
    rw [getState_modifyTcb (by intro tcb; rfl)]
  · rw [tcbs_modifyTcb]
    split
    · exact hv
    · exact h.slices hx hr
  · rw [robin_of_view hview rfl, hleft]

/-- The turn ends: the thread is put back, the next one is chosen and activated. -/
theorem Scheduled.turn (hrun : s.isRunnable s.ksCurThread = true) :
    ∃ s₁ s', schedule a ((s.schedAppend a s.ksCurThread).rescheduleRequired a) = .ok s₁ ∧
      s₁.activateThread a = .ok s' ∧ Scheduled a thread s' ∧
      s'.getState s'.ksCurThread = .running ∧ robin s' = (robin s).pass := by
  obtain ⟨s₁, hs₁, h₁, hrun₁, hrobin₁⟩ := h.schedule_pass hrun h.requeue
  obtain ⟨s', hs', h', hstate, hrobin⟩ := h₁.activate hrun₁
  exact ⟨s₁, s', hs₁, hs', h', hstate, hrobin.trans hrobin₁⟩

omit h in
theorem robin_endsTurn (hstate : s.getState s.ksCurThread = .running) (m : Move) :
    (robin s).endsTurn m = endsTurn s m := by
  cases m with
  | tick =>
    refine decide_eq_decide.mpr ⟨fun hle => ⟨hstate, not_lt.mpr hle⟩, fun hle => ?_⟩
    exact not_lt.mp (show ¬1 < (s.tcbs s.ksCurThread).tcbTimeSlice.toNat from hle.2)
  | yield => rfl

omit h in
theorem schedule_resume (hact : s.ksSchedulerAction = resumeCurrentThread) :
    s.schedule a = .ok s := by
  unfold KernelState.schedule
  rw [if_neg (not_not.mpr hact), ← hact]
  rfl

theorem kernelEntry_tick (hs₁ : (s.timerTick a).schedule a = .ok s₁)
    (hs' : s₁.activateThread a = .ok s') : kernelEntry a s .tick = .ok s' := by
  have htimer : handleInterrupt a s (kernelTimerIrq a) = .ok (s.timerTick a) := by
    rw [handleInterrupt, if_neg (by cases a <;> decide), h.timer]
  show handleInterruptEntry a s (kernelTimerIrq a) = .ok s'
  rw [handleInterruptEntry, if_pos (by cases a <;> decide)]
  exact bind_eq_ok.mpr ⟨_, htimer, bind_eq_ok.mpr ⟨_, hs₁, hs'⟩⟩

end

section

variable (h : Scheduled a thread s) (hstate : s.getState s.ksCurThread = .running)
include h hstate

/-- The current thread has used a unit of its time slice, and another is left. -/
theorem Scheduled.tick_keeps (hslice : (s.tcbs s.ksCurThread).tcbTimeSlice > 1) :
    ∃ s', kernelEntry a s .tick = .ok s' ∧ Scheduled a thread s' ∧
      s'.getState s'.ksCurThread = .running ∧
      robin s' = (robin s).step configTimeSlice.toNat .tick := by
  have hlt : 1 < (s.tcbs s.ksCurThread).tcbTimeSlice.toNat := hslice
  have hleft : ¬(robin s).left (robin s).front ≤ 1 := not_le.mpr hlt
  have hdec : ((s.tcbs s.ksCurThread).tcbTimeSlice - 1).toNat =
      (robin s).left (robin s).front - 1 := by
    show _ = (s.tcbs s.ksCurThread).tcbTimeSlice.toNat - 1
    bv_omega
  obtain ⟨h₁, hrobin₁⟩ := h.setSlice (f := fun tcb => tcb.tcbTimeSlice - 1) (by omega)
  have htick : s.timerTick a = s.modifyTcb s.ksCurThread fun tcb =>
      { tcb with tcbTimeSlice := tcb.tcbTimeSlice - 1 } := by
    simp only [KernelState.timerTick, hstate, if_true, if_pos hslice]
  have hstate₁ : (s.timerTick a).getState (s.timerTick a).ksCurThread = .running := by
    rw [htick, getState_modifyTcb (by intro tcb; rfl)]
    exact hstate
  rw [← htick] at h₁ hrobin₁
  obtain ⟨s', hs', h', hstate', hrobin⟩ := h₁.activate (isRunnable_of_running hstate₁)
  refine ⟨s', kernelEntry_tick h (schedule_resume h₁.action) hs', h', hstate', ?_⟩
  rw [hrobin, hrobin₁, hdec, Robin.step, if_neg hleft]
  rfl

/-- The time slice runs out. -/
theorem Scheduled.tick_passes (hslice : ¬(s.tcbs s.ksCurThread).tcbTimeSlice > 1) :
    ∃ s', kernelEntry a s .tick = .ok s' ∧ Scheduled a thread s' ∧
      s'.getState s'.ksCurThread = .running ∧
      robin s' = (robin s).step configTimeSlice.toNat .tick := by
  have hleft : (robin s).left (robin s).front ≤ 1 := not_lt.mp hslice
  obtain ⟨h₁, hrobin₁⟩ := h.setSlice (f := fun _ => configTimeSlice) (by decide)
  have hstate₁ := getState_modifyTcb (s := s) (t := s.ksCurThread)
    (f := fun tcb => { tcb with tcbTimeSlice := configTimeSlice }) (fun _ => rfl) s.ksCurThread
  obtain ⟨s₁, s', hs₁, hs', h', hstate', hrobin⟩ :=
    h₁.turn (isRunnable_of_running (hstate₁.trans hstate))
  have htick : s.timerTick a = rescheduleRequired a (schedAppend a
      (s.modifyTcb s.ksCurThread fun tcb => { tcb with tcbTimeSlice := configTimeSlice })
      s.ksCurThread) := by
    simp only [KernelState.timerTick, hstate, if_true, if_neg hslice]
  refine ⟨s', kernelEntry_tick h (htick ▸ hs₁) hs', h', hstate', ?_⟩
  rw [hrobin, hrobin₁, Robin.step, if_pos hleft]
  rfl

/-- One entry of the kernel is one move of the round robin. -/
theorem kernelEntry_robin (m : Move) : ∃ s', kernelEntry a s m = .ok s' ∧ Scheduled a thread s' ∧
      s'.getState s'.ksCurThread = .running ∧
      robin s' = (robin s).step configTimeSlice.toNat m := by
  cases m with
  | tick =>
    by_cases hslice : (s.tcbs s.ksCurThread).tcbTimeSlice > 1
    · exact h.tick_keeps hstate hslice
    · exact h.tick_passes hstate hslice
  | yield =>
    obtain ⟨s₁, s', hs₁, hs', h', hstate', hrobin⟩ := h.turn (isRunnable_of_running hstate)
    refine ⟨s', bind_eq_ok.mpr ⟨s₁, ?_, hs'⟩, h', hstate', hrobin⟩
    rw [handleYield, KernelState.schedDequeue, if_neg (not_not.mpr h.not_queued)]
    exact hs₁

/-- A run of entries is a run of the round robin. -/
theorem runEntries_robin (ms : List Move) :
    ∃ s', runEntries a s ms = .ok s' ∧ Scheduled a thread s' ∧
      s'.getState s'.ksCurThread = .running ∧
      robin s' = (robin s).run configTimeSlice.toNat ms ∧
      turnOwners a s ms = .ok ((robin s).turns configTimeSlice.toNat ms) := by
  induction ms generalizing s with
  | nil => exact ⟨s, rfl, h, hstate, rfl, rfl⟩
  | cons m ms ih =>
    obtain ⟨s₁, hs₁, h₁, hstate₁, hrobin₁⟩ := kernelEntry_robin h hstate m
    obtain ⟨s', hs', h', hstate', hrobin, howners⟩ := ih h₁ hstate₁
    rw [hrobin₁] at hrobin howners
    refine ⟨s', ?_, h', hstate', hrobin, ?_⟩
    · rw [runEntries, List.foldlM_cons]
      exact bind_eq_ok.mpr ⟨s₁, hs₁, hs'⟩
    · refine bind_eq_ok.mpr ⟨s₁, hs₁, bind_eq_ok.mpr ⟨_, howners, ?_⟩⟩
      rw [← robin_endsTurn hstate]
      rfl

end

/-! ## Fairness -/

/-- A runnable thread that no runnable thread is above. -/
def Top (thread : Word → Prop) (s : KernelState) (t : Word) : Prop :=
  thread t ∧ s.isRunnable t = true ∧ ∀ u, thread u → s.isRunnable u = true →
    (s.tcbs u).tcbPriority ≤ (s.tcbs t).tcbPriority

/-- The threads of a list take turns in a run of entries from `s` to `s'`. -/
structure TakesTurns (a : Arch) (order : List Word) (s : KernelState) (ms : List Move)
    (s' : KernelState) (owners : List Word) : Prop where
  run : runEntries a s ms = .ok s'
  turns : turnOwners a s ms = .ok owners
  /-- The turns go round the list. -/
  cyclic : ∀ i < owners.length, owners[i]? = order[i % order.length]?
  /-- In a window as long as the list every thread has one turn. -/
  once : ∀ i, i + order.length ≤ owners.length →
    ((owners.drop i).take order.length).Perm order
  /-- No other thread runs. -/
  current : s'.ksCurThread ∈ order
  /-- The current thread keeps its turn until its slice is used up. -/
  keeps : ∀ n < (s'.tcbs s'.ksCurThread).tcbTimeSlice.toNat, ∃ s'',
    runEntries a s' (List.replicate n .tick) = .ok s'' ∧ s''.ksCurThread = s'.ksCurThread ∧
      ∀ t, (s''.tcbs t).tcbTimeSlice.toNat =
        if t = s'.ksCurThread then (s'.tcbs s'.ksCurThread).tcbTimeSlice.toNat - n
        else (s'.tcbs t).tcbTimeSlice.toNat
  /-- Then its turn ends, and its slice is renewed. -/
  expires : ∃ s'',
    runEntries a s' (List.replicate (s'.tcbs s'.ksCurThread).tcbTimeSlice.toNat .tick) = .ok s'' ∧
      turnOwners a s' (List.replicate (s'.tcbs s'.ksCurThread).tcbTimeSlice.toNat .tick) =
        .ok [s'.ksCurThread] ∧
      ∀ t, (s''.tcbs t).tcbTimeSlice.toNat =
        if t = s'.ksCurThread then configTimeSlice.toNat else (s'.tcbs t).tcbTimeSlice.toNat
  /-- A yield keeps all slices. -/
  yields : ∃ s'', kernelEntry a s' .yield = .ok s'' ∧
    ∀ t, (s''.tcbs t).tcbTimeSlice.toNat = (s'.tcbs t).tcbTimeSlice.toNat

theorem WellFormed.running (h : WellFormed a thread s)
    (hsome : ∃ t, thread t ∧ s.isRunnable t = true) :
    s.getState s.ksCurThread = .running := by
  obtain ⟨t, ht, hrun⟩ := hsome
  refine h.active.resolve_right fun hidle => ?_
  rw [hidle.2 t ht] at hrun
  cases hrun

/-- The ring is made of the runnable threads of the highest priority. -/
theorem Scheduled.mem_ring_iff_top (h : Scheduled a thread s)
    (hrun : s.isRunnable s.ksCurThread = true) (t : Word) :
    t ∈ (robin s).ring ↔ Top thread s t := by
  rw [h.mem_ring hrun]
  refine and_congr_right fun ht => and_congr_right fun hr => ⟨fun hprio u hu hur => ?_, fun htop => ?_⟩
  · rw [hprio]
    exact h.highest hu hur
  · have hle : (s.tcbs s.ksCurThread).tcbPriority.toNat ≤ (s.tcbs t).tcbPriority.toNat :=
      htop s.ksCurThread h.sched.current hrun
    exact BitVec.eq_of_toNat_eq (le_antisymm (h.highest ht hr) hle)

theorem Scheduled.takesTurns (h : Scheduled a thread s)
    (hstate : s.getState s.ksCurThread = .running) (ms : List Move) :
    ∃ s' owners, TakesTurns a (robin s).ring s ms s' owners := by
  obtain ⟨s', hs', h', hstate', hrobin, howners⟩ := runEntries_robin h hstate ms
  have hslice := h'.slices h'.sched.current (isRunnable_of_running hstate')
  refine ⟨s', _,
    { run := hs', turns := howners
      cyclic := fun i hi => Robin.turns_getElem hi
      once := fun i hi => ?_, current := ?_, keeps := fun n hn => ?_
      expires := ?_, yields := ?_ }⟩
  · rw [Robin.turns_window hi]
    exact List.rotate_perm _ _
  · have hfront : s'.ksCurThread ∈ (robin s').ring := List.mem_cons_self
    rw [hrobin, Robin.mem_ring_run] at hfront
    exact hfront
  · obtain ⟨s'', hs'', -, -, hrobin'', -⟩ := runEntries_robin h' hstate' (List.replicate n .tick)
    rw [(Robin.run_ticks hn).1] at hrobin''
    refine ⟨s'', hs'', congrArg Robin.front hrobin'', fun t => ?_⟩
    have hleft := congrFun (congrArg Robin.left hrobin'') t
    exact hleft.trans (update_apply ..)
  · obtain ⟨s'', hs'', -, -, hrobin'', howners''⟩ := runEntries_robin h' hstate'
      (List.replicate (s'.tcbs s'.ksCurThread).tcbTimeSlice.toNat .tick)
    have hout := Robin.run_out (r := robin s') configTimeSlice.toNat hslice
    replace hrobin'' := hrobin''.trans hout.1
    refine ⟨s'', hs'', howners''.trans (congrArg _ hout.2), fun t => ?_⟩
    have hleft := congrFun (congrArg Robin.left hrobin'') t
    rw [Robin.left_pass] at hleft
    exact hleft.trans (update_apply ..)
  · obtain ⟨s'', hs'', -, -, hrobin''⟩ := kernelEntry_robin h' hstate' .yield
    refine ⟨s'', hs'', fun t => ?_⟩
    have hleft := congrArg Robin.left hrobin''
    rw [Robin.left_step_yield] at hleft
    exact congrFun hleft t

end Turns

/-- From every well-formed state in which a thread is runnable, the runnable
threads of the highest priority take turns as long as the kernel is entered for
timer interrupts and yields only. -/
theorem topThreads_takeTurns {a : Arch} {thread : Word → Prop} {s : KernelState}
    (h : WellFormed a thread s) (hsome : ∃ t, thread t ∧ s.isRunnable t = true) :
    ∃ order : List Word, 1 ≤ order.length ∧ order.Nodup ∧ (∀ t, t ∈ order ↔ Top thread s t) ∧
      ∀ ms, ∃ s' owners, TakesTurns a order s ms s' owners := by
  have hstate := h.running hsome
  exact ⟨(robin s).ring, Nat.succ_pos _, h.ring_nodup,
    h.mem_ring_iff_top (isRunnable_of_running hstate), h.takesTurns hstate⟩

/-- A thread that runs with a full time slice. -/
def runningTcb : Tcb :=
  { (zero.tcbs 0) with
    tcbState := tsType.set (fun _ => 0) running.toWord
    tcbTimeSlice := configTimeSlice }

def oneCurrent : KernelState :=
  { idleState with
    tcbs := fun t => if t = 0x2000 ∨ t = 0x3000 then runningTcb else idleState.tcbs t
    ksCurThread := 0x2000
    ksSchedulerAction := resumeCurrentThread
    intStateIRQTable := fun _ => IRQState.timer.toWord }

/-- One thread is current and another one is in the queue of the same priority. -/
def twoRunnable : KernelState := oneCurrent.schedEnqueue .riscv64 0x3000

theorem oneCurrent_noneReady : NoneReady .riscv64 oneOfThree oneCurrent where
  address := by
    rintro t (rfl | rfl | rfl) <;> decide
  params := by
    rintro t (rfl | rfl | rfl) <;> decide
  queued := by
    rintro t (rfl | rfl | rfl) <;> decide
  order := rfl
  queues := fun _ _ => rfl
  l1 := rfl
  l2 := fun _ _ => rfl
  action := .inl rfl
  current := .inr (.inl rfl)
  idle := .inl rfl

theorem twoRunnable_wellFormed : WellFormed .riscv64 oneOfThree twoRunnable where
  sched := oneCurrent_noneReady.schedInv.schedEnqueue (.inr (.inr rfl))
  action := rfl
  queued := by
    rintro t (rfl | rfl | rfl) <;> decide
  highest := by
    rintro t (rfl | rfl | rfl) <;> decide
  slices := by
    rintro t (rfl | rfl | rfl) <;> decide
  timer := by decide
  active := .inl (by decide)

theorem topThreads_takeTurns_two : ∃ order : List Word, 1 ≤ order.length ∧ order.Nodup ∧
      (∀ t, t ∈ order ↔ Top oneOfThree twoRunnable t) ∧
      ∀ ms, ∃ s' owners, TakesTurns .riscv64 order twoRunnable ms s' owners :=
  topThreads_takeTurns twoRunnable_wellFormed ⟨0x2000, .inr (.inl rfl), by decide⟩

end Rel4.Kernel
