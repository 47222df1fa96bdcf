import Rel4.Kernel.Tcb
import Rel4.Task.SchedInv

/-!
The ready queues under the invocations that set priorities.

A priority is checked against the maximum controlled priority of a thread, and
so is a new maximum. All of them stay below 256, the number of queues, from the
first thread on.
-/

namespace Rel4.Kernel
open Lib.Bitfield Lib.Queues Common CSpace Rel4.Task
open Task.KernelState

variable {buffer length : Word} {a : Arch} {thread : Word → Prop} {s : KernelState}

/-! ## Invocations -/

theorem schedInv_restartCurrent (h : SchedInv a thread s) : SchedInv a thread (restartCurrent a s) :=
  h.setThreadState .restart

theorem schedInv_fail (h : SchedInv a thread s) (f : SyscallErrorT → SyscallErrorT) :
    SchedInv a thread (s.fail f).1 := h.of_view rfl rfl rfl rfl

/-- The thread cap among the extra caps of the message, if there is one, names a thread. -/
def ExtraThread (a : Arch) (thread : Word → Prop) (s : KernelState) : Prop :=
  ∀ slot, getExtraCapByIndex s 0 = some slot → getCapType (s.ctes slot).cap = .threadCap →
    thread (getTcbPtr a (s.ctes slot).cap)

theorem checkPrio_none (h : checkPrio s prio auth = none) :
    prio.toNat ≤ (s.tcbs auth).tcbMCP.toNat := by
  unfold checkPrio at h
  simp only at h
  split at h
  · cases h
  · rename_i hle
    exact Nat.le_of_not_lt fun hlt => hle hlt

theorem schedInv_decodePrio {set : KernelState → Word → KernelState} (h : SchedInv a thread s)
    (hauth : ExtraThread a thread s)
    (hset : ∀ {s' prio}, SchedInv a thread s' → prio.toNat < 256 → SchedInv a thread (set s' prio)) :
    SchedInv a thread (decodePrio a s length buffer set).1 := by
  unfold decodePrio
  split
  · exact schedInv_fail h _
  split
  · exact schedInv_fail h _
  rename_i slot hslot
  simp only
  split
  · exact schedInv_fail h _
  rename_i hcap
  split
  · exact schedInv_fail h _
  rename_i hcheck
  have hmcp := h.ready.mcp (hauth slot hslot (not_not.mp hcap))
  have hle := checkPrio_none hcheck
  exact hset (schedInv_restartCurrent h) (Nat.lt_of_le_of_lt hle hmcp)

theorem schedInv_decodeSetSchedParams (h : SchedInv a thread s)
    (hr : decodeSetSchedParams a s cap length buffer = .ok r) : SchedInv a thread r.1 := by
  unfold decodeSetSchedParams at hr
  split at hr
  · cases hr
    exact schedInv_fail h _
  · rename_i hsome
    split at hr
    · cases hr
    · rename_i slot hslot
      exact absurd (.inr (by rw [hslot]; rfl)) hsome

theorem schedInv_decodeDomainInvocation (h : SchedInv a thread s) (htarget : ExtraThread a thread s) :
    SchedInv a thread (decodeDomainInvocation a s length buffer).1 := by
  unfold decodeDomainInvocation
  split
  · exact schedInv_fail h _
  simp only
  split
  · exact schedInv_fail h _
  rename_i hdom
  have hzero : getSyscallArg a s 0 buffer = 0 := by
    rw [← BitVec.toNat_inj]
    exact Nat.lt_one_iff.mp (Nat.lt_of_not_le hdom)
  split
  · exact schedInv_fail h _
  rename_i slot hslot
  split
  · exact schedInv_fail h _
  rename_i hcap
  rw [hzero]
  exact (schedInv_restartCurrent h).setDomain (htarget slot hslot (not_not.mp hcap))

/-! ## Runs -/

/-- The operations on the ready queues. -/
inductive SchedOp where
  | enqueue (t : Word)
  | append (t : Word)
  | dequeue (t : Word)
  | setPriority (cap : CapT) (length buffer : Word)
  | setMcPriority (cap : CapT) (length buffer : Word)
  | setSchedParams (cap : CapT) (length buffer : Word)
  | setDomain (length buffer : Word)
  | setThreadState (t : Word) (state : ThreadState)
  | rescheduleRequired
  | possibleSwitchTo (t : Word)
  | switchTo (t : Word)
  | timerTick
  | schedule
  | activateThread

namespace SchedOp

def run (a : Arch) (s : KernelState) : SchedOp → Exec KernelState
  | enqueue t => .ok (s.schedEnqueue a t)
  | append t => .ok (s.schedAppend a t)
  | dequeue t => .ok (s.schedDequeue a t)
  | setPriority cap length buffer => .ok (decodeSetPriority a s cap length buffer).1
  | setMcPriority cap length buffer => .ok (decodeSetMcPriority a s cap length buffer).1
  | setSchedParams cap length buffer => do
    let r ← decodeSetSchedParams a s cap length buffer
    return r.1
  | setDomain length buffer => .ok (decodeDomainInvocation a s length buffer).1
  | setThreadState t state => .ok (s.setThreadState a t state)
  | rescheduleRequired => .ok (s.rescheduleRequired a)
  | possibleSwitchTo t => .ok (s.possibleSwitchTo a t)
  | switchTo t => .ok (s.switchToThis a t)
  | timerTick => .ok (s.timerTick a)
  | schedule => s.schedule a
  | activateThread => s.activateThread a

/-- The operation is on these threads: all pointers and caps that it takes name
one of them. -/
def On (a : Arch) (thread : Word → Prop) (s : KernelState) : SchedOp → Prop
  | enqueue t | append t | dequeue t | possibleSwitchTo t | switchTo t => thread t
  | setPriority cap _ _ | setMcPriority cap _ _ | setSchedParams cap _ _ =>
    thread (getTcbPtr a cap) ∧ ExtraThread a thread s
  | setDomain _ _ => ExtraThread a thread s
  | setThreadState _ _ | rescheduleRequired | timerTick | schedule | activateThread => True

theorem schedInv {op : SchedOp} (h : SchedInv a thread s) (hon : op.On a thread s)
    (hrun : op.run a s = .ok s') : SchedInv a thread s' := by
  cases op with
  | enqueue t =>
    cases hrun
    exact h.schedEnqueue hon
  | append t =>
    cases hrun
    exact h.schedAppend hon
  | dequeue t =>
    cases hrun
    exact h.schedDequeue hon
  | setPriority cap length buffer =>
    cases hrun
    exact schedInv_decodePrio h hon.2 fun h' hprio => h'.setPriority hon.1 hprio
  | setMcPriority cap length buffer =>
    cases hrun
    exact schedInv_decodePrio h hon.2 fun h' hmcp => h'.setMcpPriority hon.1 hmcp
  | setSchedParams cap length buffer =>
    obtain ⟨r, hr, hrun⟩ := bind_eq_ok.mp hrun
    cases hrun
    exact schedInv_decodeSetSchedParams h hr
  | setDomain length buffer =>
    cases hrun
    exact schedInv_decodeDomainInvocation h hon
  | setThreadState t state =>
    cases hrun
    exact h.setThreadState state
  | rescheduleRequired =>
    cases hrun
    exact h.rescheduleRequired
  | possibleSwitchTo t =>
    cases hrun
    exact h.possibleSwitchTo hon
  | switchTo t =>
    cases hrun
    exact h.switchToThis hon
  | timerTick =>
    cases hrun
    exact h.timerTick
  | schedule => exact h.schedule hrun
  | activateThread => exact h.activateThread hrun

end SchedOp

/-- A run of operations on the threads. -/
inductive SchedRun (a : Arch) (thread : Word → Prop) (s : KernelState) : KernelState → Prop where
  | nil : SchedRun a thread s s
  | snoc {s₁ s₂ : KernelState} {op : SchedOp} : SchedRun a thread s s₁ → op.On a thread s₁ →
      op.run a s₁ = .ok s₂ → SchedRun a thread s s₂

theorem SchedRun.schedInv (h : SchedInv a thread s) (hrun : SchedRun a thread s s') :
    SchedInv a thread s' := by
  induction hrun with
  | nil => exact h
  | snoc _ hon hop ih => exact SchedOp.schedInv ih hon hop

/-! ## The representation -/

/-- The threads of one priority in the ready queues, in the order in which they joined. -/
def readyQueue (s : KernelState) (p : Word) : List Word :=
  s.readyOrder.filter fun t => (s.tcbs t).tcbPriority = p

/-- The links of the ready queues. -/
def schedLinks (s : KernelState) : Lib.DList.Links Word :=
  ⟨fun t => (s.tcbs t).tcbSchedNext, fun t => (s.tcbs t).tcbSchedPrev⟩

/-- Nothing is ready yet: no thread is queued, and the queues and the bitmaps
are empty. Priorities are below 256. -/
structure NoneReady (a : Arch) (thread : Word → Prop) (s : KernelState) : Prop where
  address : ∀ t, thread t → t ≠ 0
  params : ∀ t, thread t → (s.tcbs t).domain = 0 ∧ (s.tcbs t).tcbPriority.toNat < 256 ∧
    (s.tcbs t).tcbMCP.toNat < 256
  queued : ∀ t, thread t → s.tsGet a t Field.tsTcbQueued = 0
  order : s.readyOrder = []
  queues : ∀ p : Word, p.toNat < 256 → s.ksReadyQueues p = ⟨0, 0⟩
  l1 : s.ksReadyQueuesL1Bitmap 0 = 0
  l2 : ∀ i < 4, s.ksReadyQueuesL2Bitmap 0 (BitVec.ofNat 64 i) = 0
  action : s.ksSchedulerAction = resumeCurrentThread ∨ s.ksSchedulerAction = chooseNewThread
  current : thread s.ksCurThread
  idle : thread s.ksIdleThread

/-- What the ready queues are to look like. -/
structure ReadyQueues (a : Arch) (thread : Word → Prop) (s : KernelState) : Prop where
  /-- Each queue is a doubly linked list with a head and a tail. -/
  list : ∀ p : Word, p.toNat < 256 → IsQueue 0 (schedLinks s) (readyQueue s p) ∧
    s.ksReadyQueues p = ⟨(readyQueue s p).headD 0, (readyQueue s p).getLastD 0⟩
  members : ∀ p t, t ∈ readyQueue s p ↔
    thread t ∧ s.tsGet a t Field.tsTcbQueued = 1 ∧ (s.tcbs t).tcbPriority = p
  l2 : ∀ p < 256, (s.ksReadyQueuesL2Bitmap 0 (BitVec.ofNat 64 (3 - p / 64))).getLsbD (p % 64) ↔
    readyQueue s (BitVec.ofNat 64 p) ≠ []
  l1 : ∀ i < 4, (s.ksReadyQueuesL1Bitmap 0).getLsbD i ↔
    s.ksReadyQueuesL2Bitmap 0 (BitVec.ofNat 64 (3 - i)) ≠ 0
  /-- The indices that threads are queued with are those of the tables. -/
  range : ∀ t, thread t → (s.tcbs t).domain = 0 ∧ (s.tcbs t).tcbPriority.toNat < 256 ∧
    readyQueuesIndex (s.tcbs t).domain (s.tcbs t).tcbPriority =
      (s.tcbs t).tcbPriority ∧
    (prioToL1Index (s.tcbs t).tcbPriority).toNat < 4 ∧
    (invertL1Index (prioToL1Index (s.tcbs t).tcbPriority)).toNat < 4
  highest : s.ksReadyQueuesL1Bitmap 0 ≠ 0 → (s.getHighestPrio 0).toNat < 256 ∧
    readyQueue s (s.getHighestPrio 0) ≠ [] ∧
    ∀ p : Word, p.toNat < 256 → readyQueue s p ≠ [] → p.toNat ≤ (s.getHighestPrio 0).toNat

theorem NoneReady.schedInv (h : NoneReady a thread s) : SchedInv a thread s := by
  have hqueue : ∀ p, (readyView a s).readyQueue p = [] := by
    intro p
    have horder : (readyView a s).order = [] := h.order
    rw [ReadyView.readyQueue, horder, List.filter_nil]
  have hlo : ∀ i, (readyView a s).bitmap.lo i = 0 := by
    intro i
    by_cases hi : i < 4
    · exact (if_pos hi).trans (h.l2 (3 - i) (by omega))
    · exact if_neg hi
  refine ⟨?_, h.action.imp id .inl, h.current, h.idle⟩
  refine
    { address := h.address _, domain := fun ht => (h.params _ ht).1
      priority := fun ht => (h.params _ ht).2.1, mcp := fun ht => (h.params _ ht).2.2
      nodup := ?_, mem_order := ?_, links := ?_, ends := ?_, consistent := ?_, bitmap := ?_ }
  · have horder : (readyView a s).order = [] := h.order
    rw [horder]
    exact List.nodup_nil
  · intro t
    have horder : (readyView a s).order = [] := h.order
    rw [horder]
    exact ⟨fun hm => absurd hm List.not_mem_nil, fun ht => absurd (h.queued t ht.1) ht.2⟩
  · refine Family.of_eq ⟨fun _ => .nil, fun hm => ?_⟩ hqueue
    exact absurd hm List.not_mem_nil
  · intro p hp
    rw [hqueue]
    exact h.queues p hp
  · intro i
    have hhi : (readyView a s).bitmap.hi = 0 := h.l1
    rw [hlo, hhi]
    simp
  · intro n
    unfold Lib.Bitmap.TwoLevel.Mem
    rw [hlo, hqueue]
    simp

theorem readyQueues_of_schedInv (h : SchedInv a thread s) : ReadyQueues a thread s where
  list p hp := ⟨h.ready.links.queue p, h.ready.ends hp⟩
  members p t := by
    have hlt : (s.tsGet a t Field.tsTcbQueued).toNat < 2 := toNat_get_lt rfl rfl (by decide)
    have hone : s.tsGet a t Field.tsTcbQueued ≠ 0 ↔ s.tsGet a t Field.tsTcbQueued = 1 := by
      rw [← BitVec.toNat_inj, ne_eq, ← BitVec.toNat_inj]
      show ¬_ = 0 ↔ _ = 1
      omega
    have hmem := h.ready.mem_readyQueue (t := t) (p := p)
    rw [and_assoc] at hmem
    rw [← hone]
    exact hmem
  l2 p hp := by
    have hmem := h.ready.bitmap (n := p)
    have hi : p / 64 < 4 := by omega
    unfold Lib.Bitmap.TwoLevel.Mem ReadyView.bitmap at hmem
    simp only [if_pos hi, hp, true_and] at hmem
    exact hmem
  l1 i hi := by
    have hcons := h.ready.consistent i
    unfold ReadyView.bitmap at hcons
    simp only [if_pos hi] at hcons
    exact hcons
  range t ht := by
    have hprio : (s.tcbs t).tcbPriority.toNat < 256 := h.ready.priority ht
    have hl1 := ReadyView.toNat_l1index (s.tcbs t).tcbPriority
    have hinv := ReadyView.toNat_invertL1Index (i := prioToL1Index (s.tcbs t).tcbPriority)
      (by omega)
    exact ⟨h.ready.domain ht, hprio, h.ready.index ht, by omega, by omega⟩
  highest hl1 := h.ready.highest hl1

/-- In every run from a state in which nothing is ready, the links of the
threads, the ends of the queues and the two bitmaps represent the queues. -/
theorem readyQueues_represented (h : NoneReady a thread s) (hrun : SchedRun a thread s s') :
    ReadyQueues a thread s' := readyQueues_of_schedInv (hrun.schedInv h.schedInv)

/-! ## Two threads of one priority -/

def idleState : KernelState :=
  { zero with ksCurThread := 0x1000, ksIdleThread := 0x1000 }

def oneOfThree (t : Word) : Prop := t = 0x1000 ∨ t = 0x2000 ∨ t = 0x3000

theorem idleState_noneReady : NoneReady .riscv64 oneOfThree idleState where
  address := by
    rintro t (rfl | rfl | rfl) <;> decide
  params := fun _ _ =>
    have hlt : (0 : Word).toNat < 256 := by decide
    ⟨rfl, hlt, hlt⟩
  queued := fun _ _ => by
    show Field.tsTcbQueued.get (signExt .riscv64) (fun _ => 0) = 0
    decide
  order := rfl
  queues := fun _ _ => rfl
  l1 := rfl
  l2 := fun _ _ => rfl
  action := .inl rfl
  current := .inl rfl
  idle := .inl rfl

/-- Two threads join the queue of priority 0 one after the other. -/
theorem readyQueues_represented_two :
    ∃ s, SchedRun .riscv64 oneOfThree idleState s ∧ ReadyQueues .riscv64 oneOfThree s ∧
      readyQueue s 0 = [0x3000, 0x2000] := by
  have hfirst : SchedRun .riscv64 oneOfThree idleState (idleState.schedEnqueue .riscv64 0x3000) := by
    have hon : (SchedOp.enqueue 0x3000).On .riscv64 oneOfThree idleState := .inr (.inr rfl)
    exact .snoc .nil hon rfl
  have hrun : SchedRun .riscv64 oneOfThree idleState
      ((idleState.schedEnqueue .riscv64 0x3000).schedAppend .riscv64 0x2000) := by
    have hon : (SchedOp.append 0x2000).On .riscv64 oneOfThree
        (idleState.schedEnqueue .riscv64 0x3000) := .inr (.inl rfl)
    exact .snoc hfirst hon rfl
  exact ⟨_, hrun, readyQueues_represented idleState_noneReady hrun, by decide +kernel⟩

end Rel4.Kernel
