import Rel4.Kernel.Tcb
import Rel4.Task.SmpInv

/-!
Threads and cores (`decode_set_affinity` in `decode_tcb_invocation.rs`,
`invoke_tcb_set_affinity` in `invoke_tcb.rs`, the start of the cores in `boot`).

The core of a thread is checked once, when an invocation sets it, and then serves
as an index into `ksSMP` whenever the thread enters or leaves a queue. The check
lets through one number too many: `CONFIG_MAX_NUM_NODES` itself. `migrateTCB`,
which stores the core, is foreign code and a parameter here.
-/

namespace Rel4.Kernel
open Lib.Bitfield Lib.Guard Common CSpace Rel4.Task

variable (a : Arch)

/-! ## `SetAffinity` -/

/-- What the foreign `migrateTCB` is assumed to do: it sets the core of the thread and leaves what
else the kernel indexes with. -/
structure Migrates (migrateTCB : SmpState → Word → Word → SmpState) : Prop where
  stored : ∀ s t newCore, ((migrateTCB s t newCore).tcbs t).tcbAffinity = newCore
  others : ∀ s t newCore x, x ≠ t →
    ((migrateTCB s t newCore).tcbs x).tcbAffinity = (s.tcbs x).tcbAffinity
  domain : ∀ s t newCore x, ((migrateTCB s t newCore).tcbs x).domain = (s.tcbs x).domain
  priority : ∀ s t newCore x,
    ((migrateTCB s t newCore).tcbs x).tcbPriority = (s.tcbs x).tcbPriority
  curDomain : ∀ s t newCore, (migrateTCB s t newCore).ksCurDomain = s.ksCurDomain
  nodes : ∀ s t newCore, (migrateTCB s t newCore).ksSMP = s.ksSMP

section SetAffinity

variable (migrateTCB : SmpState → Word → Word → SmpState)

def smpFail (s : SmpState) (f : SyscallErrorT → SyscallErrorT) : SmpState × ExceptionT :=
  ({ s with currentSyscallError := f s.currentSyscallError }, .syscallError)

/-- `invoke_tcb_set_affinity` -/
def invokeTcbSetAffinity (s : SmpState) (cpu : Cpu) (t affinity : Word) :
    Exec (SmpState × ExceptionT) := do
  let s ← s.schedDequeue a t
  let s := migrateTCB s t affinity
  let s ← (if s.isRunnable t then s.schedAppend a cpu t else return s)
  let s ← s.rescheduleIfCurrent a cpu t
  return (s, .none)

/-- `decode_set_affinity`; `affinity` is the argument, `get_syscall_arg(0, buffer)`. -/
def decodeSetAffinity (s : SmpState) (cpu : Cpu) (cap : CapT) (length affinity : Word) :
    Exec (SmpState × ExceptionT) :=
  if length < 1 then .ok (smpFail s truncatedMessage)
  else if affinity > BitVec.ofNat 64 maxNumNodes then .ok (smpFail s illegalOperation)
  else do
    convertToTypeRef (s.current cpu)
    let s ← s.setThreadState a cpu (s.current cpu) .restart
    convertToTypeRef (getTcbPtr a cap)
    invokeTcbSetAffinity a migrateTCB s cpu (getTcbPtr a cap) affinity

end SetAffinity

/-! ## The start of the cores -/

/-- Zeroed memory and the initial values of `ksSMP`. -/
def smpZero : SmpState where
  tcbs := fun _ => ⟨Tcb.zero, 0⟩
  ksSMP := fun _ => ⟨0, fun _ => ⟨0, 0⟩, fun _ => 0, fun _ _ => 0, 0, 0, chooseNewThread⟩
  ksCurDomain := 0
  ksDomainTime := 0
  ksDomScheduleIdx := 0
  ksWorkUnitsCompleted := 0
  ksCurThread := 0
  ksIdleThread := 0
  currentSyscallError := ⟨0, 0, 0, 0, 0, 0, .noError⟩

/-- What `create_initial_thread` sets for the scheduler. -/
def createInitialThread (s : SmpState) (cpu : Cpu) (t : Word) : Exec SmpState := do
  convertToTypeRef t
  let s := s.modifyTcb t fun tcb =>
    { tcb with tcbTimeSlice := configTimeSlice, tcbMCP := 255, tcbPriority := 255 }
  let s ← s.setThreadState a cpu t .running
  let s := { s with ksCurDomain := 0, ksDomainTime := 60 }
  return s.modifyTcb t fun tcb => { tcb with domain := s.ksCurDomain, tcbAffinity := 0 }

/-- One round of `create_idle_thread`, but for the registers; `base` is the address of
`ksIdleThreadTCB`, from which the source counts words. -/
def createIdleThread (cpu : Cpu) (base : Word) (s : SmpState) (i : Cpu) : Exec SmpState := do
  let t := base + i.val * bit (tcbBits a) + 8 * tcbOffset a
  let s := s.modifyNode i fun n => { n with ksIdleThread := t }
  convertToTypeRef t
  let s ← s.setThreadState a cpu t .idleThreadState
  return s.modifyTcb t fun tcb => { tcb with tcbAffinity := i.val }

/-- `init_core_state` -/
def initCoreState (s : SmpState) (cpu : Cpu) (action : Word) : Exec SmpState := do
  let s := s.setAction cpu action
  convertToTypeRef (s.ksSMP cpu).ksIdleThread
  return s.setCurrentThread cpu (s.ksSMP cpu).ksIdleThread

def firstCore : Cpu := ⟨0, by decide⟩

/-- The cores by their numbers. -/
def cores : List Cpu := [firstCore, ⟨1, by decide⟩, ⟨2, by decide⟩, ⟨3, by decide⟩]

/-- The first core makes the threads, then every core starts: the first with the initial thread. -/
def startCores (base initial : Word) : Exec SmpState := do
  let s ← createInitialThread a smpZero firstCore initial
  let s ← cores.foldlM (createIdleThread a firstCore base) s
  let s ← initCoreState s firstCore initial
  (cores.drop 1).foldlM (fun s cpu => initCoreState s cpu resumeCurrentThread) s

/-! ## Runs -/

/-- The invocation and the operations of the scheduler. Priorities and domains arrive checked by the
decoders of the invocations that set them. -/
inductive SmpOp where
  | setAffinity (cap : CapT) (length affinity : Word)
  | schedEnqueue (t : Word)
  | schedAppend (t : Word)
  | schedDequeue (t : Word)
  | possibleSwitchTo (t : Word)
  | setPriority (t : Word) (prio : { p : Word // p.toNat < numPriorities.toNat })
  | setDomain (t : Word) (dom : { d : Word // d.toNat < numDomains })
  | setThreadState (t : Word) (state : ThreadState)
  | suspend (t : Word)
  | rescheduleRequired
  | schedule
  | timerTick
  | activateThread

/-- An operation without a result of its own. -/
def quiet (r : Exec SmpState) : Exec (SmpState × ExceptionT) := do
  let s ← r
  return (s, .none)

section Ops

variable (migrateTCB : SmpState → Word → Word → SmpState)

def SmpOp.run (cpu : Cpu) (s : SmpState) : SmpOp → Exec (SmpState × ExceptionT)
  | .setAffinity cap length affinity =>
    decodeSetAffinity a migrateTCB s cpu cap length affinity
  | .schedEnqueue t => quiet (s.schedEnqueue a cpu t)
  | .schedAppend t => quiet (s.schedAppend a cpu t)
  | .schedDequeue t => quiet (s.schedDequeue a t)
  | .possibleSwitchTo t => quiet (s.possibleSwitchTo a cpu t)
  | .setPriority t prio => quiet (s.setPriority a cpu t prio)
  | .setDomain t dom => quiet (s.setDomain a cpu t dom)
  | .setThreadState t state => quiet (s.setThreadState a cpu t state)
  | .suspend t => quiet (s.suspend a cpu t)
  | .rescheduleRequired => quiet (s.rescheduleRequired a cpu)
  | .schedule => quiet (s.schedule a cpu)
  | .timerTick => quiet (s.timerTick a cpu)
  | .activateThread => quiet (s.activateThread a cpu)

/-- Operations one after the other, each on some core. -/
def runOps (s : SmpState) (ops : List (Cpu × SmpOp)) : Exec SmpState :=
  ops.foldlM (fun s op => do
    let r ← op.2.run a migrateTCB op.1 s
    return r.1) s

/-- Not a `SetAffinity` with the number that the check lets through. -/
def SmpOp.Careful : SmpOp → Prop
  | .setAffinity _ length affinity => length < 1 ∨ affinity.toNat ≠ maxNumNodes
  | _ => True

/-- The next operation is stopped by no index and leaves every thread on a core that exists; if it is
to move a thread to a core that does not exist, it fails. -/
structure StepSound (s : SmpState) (cpu : Cpu) (op : SmpOp) : Prop where
  indices : Avoids .outOfRange (fun r => ∀ t, (r.1.tcbs t).tcbAffinity.toNat < maxNumNodes)
    (op.run a migrateTCB cpu s)
  missing : ∀ cap length affinity, op = .setAffinity cap length affinity →
    maxNumNodes ≤ affinity.toNat → ∃ s', op.run a migrateTCB cpu s = .ok (s', .syscallError)

end Ops

section Runs

variable {a} {migrateTCB : SmpState → Word → Word → SmpState} {s : SmpState} {cpu : Cpu}
  {t length affinity : Word} {cap : CapT} {op : SmpOp}

theorem Migrates.indexInv (hm : Migrates migrateTCB) (h : IndexInv a s)
    (hc : affinity.toNat < maxNumNodes) : IndexInv a (migrateTCB s t affinity) where
  affinity := by
    intro x
    by_cases hx : x = t
    · rw [hx, hm.stored]
      exact hc
    · rw [hm.others s t affinity x hx]
      exact h.affinity x
  domain := by
    intro x
    rw [hm.domain]
    exact h.domain x
  priority := by
    intro x
    rw [hm.priority]
    exact h.priority x
  curDomain := by
    rw [hm.curDomain]
    exact h.curDomain
  bitmap := by
    intro c
    have hsame : (readyView a ((migrateTCB s t affinity).core c)).bitmap =
        (readyView a (s.core c)).bitmap := by
      simp only [ReadyView.bitmap, readyView, SmpState.core, hm.nodes]
    rw [hsame]
    exact h.bitmap c

section

variable (h : IndexInv a s)
include h

theorem invokeTcbSetAffinity_indexed (hm : Migrates migrateTCB)
    (hc : affinity.toNat < maxNumNodes) :
    Avoids .outOfRange (fun r => IndexInv a r.1)
      (invokeTcbSetAffinity a migrateTCB s cpu t affinity) := by
  refine (schedDequeue_indexed h).bind fun s' h' => ?_
  have hmoved := hm.indexInv (t := t) h' hc
  refine Avoids.bind (P := IndexInv a) ?_ fun s'' h'' => ?_
  · exact Avoids.ite (fun _ => schedAppend_indexed hmoved) fun _ => hmoved
  · exact (rescheduleIfCurrent_indexed h'').bind fun _ hend => hend

theorem IndexInv.smpFail (f : SyscallErrorT → SyscallErrorT) :
    IndexInv a (smpFail s f).1 := ⟨h.affinity, h.domain, h.priority, h.curDomain, h.bitmap⟩

omit h in
/-- What the check refuses. -/
theorem refused_iff : affinity > BitVec.ofNat 64 maxNumNodes ↔ maxNumNodes < affinity.toNat :=
  Iff.rfl

theorem decodeSetAffinity_indexed (hm : Migrates migrateTCB)
    (hop : length < 1 ∨ affinity.toNat ≠ maxNumNodes) :
    Avoids .outOfRange (fun r => IndexInv a r.1)
      (decodeSetAffinity a migrateTCB s cpu cap length affinity) := by
  refine Avoids.ite (fun _ => IndexInv.smpFail h truncatedMessage) fun hlen => ?_
  refine Avoids.ite (fun _ => IndexInv.smpFail h illegalOperation) fun hle => ?_
  have hc : affinity.toNat < maxNumNodes :=
    Nat.lt_of_le_of_ne (Nat.le_of_not_lt (refused_iff.not.mp hle)) (hop.resolve_left hlen)
  refine avoids_ensure.bind fun _ _ => ?_
  refine (setThreadState_indexed h).bind fun s' h' => ?_
  exact avoids_ensure.bind fun _ _ => invokeTcbSetAffinity_indexed h' hm hc

omit h in
theorem quiet_indexed (h : Indexed a r) :
    Avoids .outOfRange (fun r => IndexInv a r.1) (quiet r) := h.bind fun _ h' => h'

omit h in
theorem smpZero_indexed : IndexInv a smpZero := by
  have hnode : (0 : Word).toNat < maxNumNodes := by decide
  have hprio : (0 : Word).toNat < numPriorities.toNat := by decide
  refine ⟨fun _ => hnode, fun _ => Nat.zero_lt_one, fun _ => hprio, Nat.zero_lt_one, fun c i => ?_⟩
  simp [readyView, ReadyView.bitmap, SmpState.core, smpZero]

theorem createInitialThread_indexed : Indexed a (createInitialThread a s cpu t) := by
  have hnode : (0 : Word).toNat < maxNumNodes := by decide
  have hprio : (255 : Word).toNat < numPriorities.toNat := by decide
  have hnew := h.modifyTcb
    (f := fun tcb => { tcb with tcbTimeSlice := configTimeSlice, tcbMCP := 255, tcbPriority := 255 })
    ⟨h.affinity t, h.domain t, hprio⟩
  refine avoids_ensure.bind fun _ _ => ?_
  refine (setThreadState_indexed hnew).bind fun s' h' => ?_
  have hdomain : IndexInv a { s' with ksCurDomain := 0, ksDomainTime := 60 } :=
    ⟨h'.affinity, h'.domain, h'.priority, Nat.zero_lt_one, h'.bitmap⟩
  exact hdomain.modifyTcb ⟨hnode, Nat.zero_lt_one, h'.priority t⟩

theorem createIdleThread_indexed : Indexed a (createIdleThread a cpu base s i) := by
  have hidle := h.keepNode (c := i.val)
    (f := fun n => { n with ksIdleThread := base + i.val * bit (tcbBits a) + 8 * tcbOffset a })
    fun _ => ⟨rfl, rfl⟩
  refine avoids_ensure.bind fun _ _ => ?_
  refine (setThreadState_indexed hidle).bind fun s' h' => ?_
  exact h'.modifyTcb ⟨i.2, h'.domain _, h'.priority _⟩

theorem initCoreState_indexed : Indexed a (initCoreState s cpu action) :=
  avoids_ensure.bind fun _ _ => (h.setAction cpu action).setCurrentThread cpu

omit h in
/-- The cores start in order. -/
theorem startCores_indexed (base initial : Word) : Indexed a (startCores a base initial) := by
  refine (createInitialThread_indexed smpZero_indexed).bind fun s₁ h₁ => ?_
  refine (Avoids.foldlM (fun i _ s h => createIdleThread_indexed h) h₁).bind fun s₂ h₂ => ?_
  refine (initCoreState_indexed h₂).bind fun s₃ h₃ => ?_
  exact Avoids.foldlM (fun i _ s h => initCoreState_indexed h) h₃

/-- One operation. -/
theorem SmpOp.run_indexed (hm : Migrates migrateTCB) (hop : op.Careful) :
    Avoids .outOfRange (fun r => IndexInv a r.1) (op.run a migrateTCB cpu s) := by
  cases op with
  | setAffinity cap length affinity => exact decodeSetAffinity_indexed h hm hop
  | schedEnqueue t => exact quiet_indexed (schedEnqueue_indexed h)
  | schedAppend t => exact quiet_indexed (schedAppend_indexed h)
  | schedDequeue t => exact quiet_indexed (schedDequeue_indexed h)
  | possibleSwitchTo t => exact quiet_indexed (possibleSwitchTo_indexed h)
  | setPriority t prio => exact quiet_indexed (setPriority_indexed h prio.2)
  | setDomain t dom => exact quiet_indexed (setDomain_indexed h dom.2)
  | setThreadState t state => exact quiet_indexed (setThreadState_indexed h)
  | suspend t => exact quiet_indexed (suspend_indexed h)
  | rescheduleRequired => exact quiet_indexed (rescheduleRequired_indexed h)
  | schedule => exact quiet_indexed (schedule_indexed h)
  | timerTick => exact quiet_indexed (timerTick_indexed h)
  | activateThread => exact quiet_indexed (activateThread_indexed h)

/-- Operations one after the other. -/
theorem runOps_indexed (hm : Migrates migrateTCB) (hops : ∀ op ∈ ops, op.2.Careful) :
    Indexed a (runOps a migrateTCB s ops) := by
  refine Avoids.foldlM (fun op hop s' h' => ?_) h
  exact (SmpOp.run_indexed h' hm (hops op hop)).bind fun _ hr => hr

end

/-- A core beyond the number that the check lets through is refused. -/
theorem decodeSetAffinity_refused (hmiss : maxNumNodes ≤ affinity.toNat)
    (hop : length < 1 ∨ affinity.toNat ≠ maxNumNodes) :
    ∃ s', decodeSetAffinity a migrateTCB s cpu cap length affinity = .ok (s', .syscallError) := by
  unfold decodeSetAffinity
  by_cases hlen : length < 1
  · exact ⟨_, if_pos hlen⟩
  · have hlt : maxNumNodes < affinity.toNat :=
      Nat.lt_of_le_of_ne hmiss (Ne.symm (hop.resolve_left hlen))
    rw [if_neg hlen, if_pos (refused_iff.mpr hlt)]
    exact ⟨_, rfl⟩

/-- What the check lets through does not fail. -/
theorem decodeSetAffinity_accepted (hlen : ¬ length < 1) (hc : affinity.toNat = maxNumNodes) :
    decodeSetAffinity a migrateTCB s cpu cap length affinity ≠ .ok (s', .syscallError) := by
  have hle : ¬ affinity > BitVec.ofNat 64 maxNumNodes := by
    rw [refused_iff, hc]
    exact Nat.lt_irrefl _
  unfold decodeSetAffinity
  rw [if_neg hlen, if_neg hle]
  intro hrun
  obtain ⟨-, -, hrun⟩ := bind_eq_ok.mp hrun
  obtain ⟨s₁, -, hrun⟩ := bind_eq_ok.mp hrun
  obtain ⟨-, -, hrun⟩ := bind_eq_ok.mp hrun
  obtain ⟨s₂, -, hrun⟩ := bind_eq_ok.mp hrun
  obtain ⟨s₃, -, hrun⟩ := bind_eq_ok.mp hrun
  obtain ⟨s₄, -, hrun⟩ := bind_eq_ok.mp hrun
  cases hrun

theorem stepSound_iff (hm : Migrates migrateTCB) (h : IndexInv a s) :
    StepSound a migrateTCB s cpu op ↔ op.Careful := by
  constructor
  · intro hsound
    cases op with
    | setAffinity cap length affinity =>
      by_contra hnot
      obtain ⟨hlen, hne⟩ := not_or.mp hnot
      have hc := not_not.mp hne
      obtain ⟨s', hs'⟩ := hsound.missing cap length affinity rfl hc.ge
      exact decodeSetAffinity_accepted hlen hc hs'
    | _ => trivial
  · intro hop
    refine ⟨(SmpOp.run_indexed h hm hop).mono fun _ hr => hr.affinity, ?_⟩
    rintro cap length affinity rfl hmiss
    exact decodeSetAffinity_refused hmiss hop

end Runs

/-- From a state in order, as the cores start in one, a run without a `SetAffinity` to
`CONFIG_MAX_NUM_NODES` is stopped by no index and leaves every thread on a core that exists. In each
state that such runs reach, the next operation is sound iff it is none either. -/
theorem affinity_in_range {a : Arch} {migrateTCB : SmpState → Word → Word → SmpState}
    (hm : Migrates migrateTCB) {s : SmpState} (hs : IndexInv a s)
    {ops : List (Cpu × SmpOp)} (hops : ∀ op ∈ ops, op.2.Careful) :
    Avoids .outOfRange
      (fun s' => (∀ t, (s'.tcbs t).tcbAffinity.toNat < maxNumNodes) ∧
        ∀ cpu op, StepSound a migrateTCB s' cpu op ↔ op.Careful)
      (runOps a migrateTCB s ops) :=
  (runOps_indexed hs hm hops).mono fun _ h => ⟨h.affinity, fun _ _ => stepSound_iff hm h⟩

/-- A `migrateTCB` that does nothing else. -/
def storeCore (s : SmpState) (t newCore : Word) : SmpState :=
  s.modifyTcb t fun tcb => { tcb with tcbAffinity := newCore }

theorem storeCore_migrates : Migrates storeCore where
  stored := by
    intro s t newCore
    simp [storeCore, SmpState.modifyTcb]
  others := by
    intro s t newCore x hx
    simp [storeCore, SmpState.modifyTcb, Function.update_of_ne hx]
  domain := by
    intro s t newCore x
    by_cases hx : x = t
    · simp [storeCore, SmpState.modifyTcb, hx]
    · simp [storeCore, SmpState.modifyTcb, Function.update_of_ne hx]
  priority := by
    intro s t newCore x
    by_cases hx : x = t
    · simp [storeCore, SmpState.modifyTcb, hx]
    · simp [storeCore, SmpState.modifyTcb, Function.update_of_ne hx]
  curDomain := fun _ _ _ => rfl
  nodes := fun _ _ _ => rfl

/-- The cores of a system that has just started. -/
def startedCores : Exec SmpState := startCores .riscv64 0xFFFFFFC084000000 0xFFFFFFC085000200

/-- The initial thread moves itself to another core. -/
def moveInitial (affinity : Word) : SmpOp :=
  .setAffinity (newThreadCap .riscv64 0xFFFFFFC085000200) 1 affinity

theorem affinity_in_range_started : ∃ s s', startedCores = .ok s ∧
    runOps .riscv64 storeCore s [(firstCore, .schedule), (firstCore, moveInitial 3)] = .ok s' ∧
    ((∀ t, (s'.tcbs t).tcbAffinity.toNat < maxNumNodes) ∧
      ∀ cpu op, StepSound .riscv64 storeCore s' cpu op ↔ op.Careful) := by
  have hrun : (startedCores >>= fun s => runOps .riscv64 storeCore s
      [(firstCore, .schedule), (firstCore, moveInitial 3)]).satisfies
        (fun s' => (s'.tcbs 0xFFFFFFC085000200).tcbAffinity = 3) = true := by decide +kernel
  obtain ⟨s', hs', -⟩ := Exec.satisfies_iff.mp hrun
  obtain ⟨s, hs, hs'⟩ := bind_eq_ok.mp hs'
  have hinv : IndexInv .riscv64 s := (startCores_indexed _ _).of_eq_ok hs
  refine ⟨s, s', hs, hs', (affinity_in_range storeCore_migrates hinv ?_).of_eq_ok hs'⟩
  intro op hop
  simp only [List.mem_cons, List.not_mem_nil, or_false] at hop
  rcases hop with rfl | rfl
  · trivial
  · exact .inr (by decide)

/-- The same thread moves itself to core 4: the kernel accepts it and indexes `ksSMP[4]`. -/
theorem setAffinity_out_of_range : ∃ s, (startedCores >>= fun s =>
      runOps .riscv64 storeCore s [(firstCore, .schedule)]) = .ok s ∧
    (moveInitial (BitVec.ofNat 64 maxNumNodes)).run .riscv64 storeCore firstCore s =
      .error .outOfRange := by
  have hstart : (startedCores >>= fun s =>
      runOps .riscv64 storeCore s [(firstCore, .schedule)]).satisfies
      (fun s => match (moveInitial (BitVec.ofNat 64 maxNumNodes)).run .riscv64 storeCore
          firstCore s with
        | .error .outOfRange => true
        | _ => false) = true := by decide +kernel
  obtain ⟨s, hs, hout⟩ := Exec.satisfies_iff.mp hstart
  refine ⟨s, hs, ?_⟩
  split at hout
  · assumption
  · cases hout

end Rel4.Kernel
