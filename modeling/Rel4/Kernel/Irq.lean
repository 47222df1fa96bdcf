import Rel4.Kernel.CNode
import Rel4.Kernel.MdbRun

/-!
Interrupt control (`kernel/src/interrupt/mod.rs`, `decode_irq_invocation.rs`,
`invoke_irq.rs`, the decoders of the two architectures, `init_irqs`).

The masks of the interrupt controller are left out. `is_irq_active` asks whether
the entry is `IRQInactive`, so an IRQControl invocation succeeds for the
interrupts that are in use and for no other (`IssueCall.succeeds_iff`).
-/

namespace Rel4.Kernel
open Lib.Bitfield Common CSpace Rel4.Task Ipc Function

variable {srcSlot : Word}

/-- `IRQState` -/
inductive IRQState where
  | inactive
  | signal
  | timer
  | reserved
  /-- A value that the enumeration of the source does not have. -/
  | undefined
  deriving DecidableEq, Repr

namespace IRQState

def toWord : IRQState → Word
  | .inactive => 0
  | .signal => 1
  | .timer => 2
  | .reserved => 3
  | .undefined => 4

def ofWord (w : Word) : IRQState :=
  match w.toNat with
  | 0 => .inactive
  | 1 => .signal
  | 2 => .timer
  | 3 => .reserved
  | _ => .undefined

end IRQState

/-- `KERNEL_TIMER_IRQ` -/
def kernelTimerIrq : Arch → Word
  | .riscv64 => 1
  | .aarch64 => 27

/-- `maxIRQ` -/
def maxIRQ : Arch → Word
  | .riscv64 => kernelTimerIrq .riscv64
  | .aarch64 => 159

/-- `irqInvalid` -/
def irqInvalid : Word := 0

/-- `get_irq_state`: the low byte of the entry, taken for an `IRQState`. -/
def getIrqState (s : KernelState) (irq : Word) : IRQState :=
  .ofWord (s.intStateIRQTable irq &&& mask 8)

/-- `set_irq_state` -/
def setIrqState (s : KernelState) (state : IRQState) (irq : Word) : KernelState :=
  { s with intStateIRQTable := update s.intStateIRQTable irq state.toWord }

/-- `is_irq_active` -/
def isIrqActive (s : KernelState) (irq : Word) : Bool := getIrqState s irq = .inactive

variable (a : Arch)

/-- The interrupts that `check_irq` lets pass. -/
def InRange (irq : Word) : Prop :=
  match a with
  | .riscv64 => ¬(irq > maxIRQ .riscv64 ∨ irq = irqInvalid)
  | .aarch64 => ¬irq > maxIRQ .aarch64

instance (irq : Word) : Decidable (InRange a irq) := by
  cases a <;> exact inferInstanceAs (Decidable (¬_))

/-- `check_irq`; the architectures report different lower bounds. -/
def checkIrq (s : KernelState) (irq : Word) : KernelState × ExceptionT :=
  if InRange a irq then (s, .none)
  else s.fail fun e =>
    { e with
      type := .rangeError
      rangeErrorMin := match a with
        | .riscv64 => 1
        | .aarch64 => 0
      rangeErrorMax := maxIRQ a }

/-- `invoke_irq_control` -/
def invokeIrqControl (s : KernelState) (irq handlerSlot controlSlot : Word) :
    Exec (KernelState × ExceptionT) := do
  let s ← (setIrqState s .signal irq).insertCap a (newIrqHandlerCap irq) controlSlot handlerSlot
  return (s, .none)

/-- What both decoders do first: check the interrupt and look up the slot for
the handler cap. -/
def irqTargetSlot (s : KernelState) (irq rootSlot index depth : Word) :
    Exec (KernelState × ExceptionT × Word) := do
  let (s, status) := checkIrq a s irq
  if status ≠ .none then return (s, status, 0)
  if isIrqActive s irq then
    let (s, status) := s.fail fun e => { e with type := .revokeFirst }
    return (s, status, 0)
  lookupSlotForCNodeOp a s false (s.ctes rootSlot).cap index depth

/-- `RISCVIRQIssueIRQHandlerTrigger`, `ARMIRQIssueIRQHandlerTrigger` -/
def issueTriggerLabel : Arch → MessageLabel
  | .riscv64 => .riscvIRQIssueIRQHandlerTrigger
  | .aarch64 => .armIRQIssueIRQHandlerTrigger

/-- `arch_decode_irq_control_invocation`. The second argument, the trigger, is
not used. There is no check that the slot is empty. -/
def archDecodeIrqControlInvocation (s : KernelState) (label : MessageLabel)
    (length srcSlot buffer : Word) : Exec (KernelState × ExceptionT) :=
  if label = issueTriggerLabel a then
    match getExtraCapByIndex s 0 with
    | some rootSlot =>
      if length < 4 then .ok (s.fail fun e => { e with type := .truncatedMessage })
      else do
        let irq := getSyscallArg a s 0 buffer
        let index := getSyscallArg a s 2 buffer
        let depth := getSyscallArg a s 3 buffer
        let (s, status, slot) ← irqTargetSlot a s irq rootSlot index depth
        if status ≠ .none then return (s, status)
        invokeIrqControl a (setRestart a s) irq slot srcSlot
    | none => .ok (s.fail fun e => { e with type := .truncatedMessage })
  else .ok (s.fail fun e => { e with type := .illegalOperation })

/-- `decode_irq_control_invocation` -/
def decodeIrqControlInvocation (s : KernelState) (label : MessageLabel)
    (length srcSlot buffer : Word) : Exec (KernelState × ExceptionT) :=
  if label = .irqIssueIRQHandler then
    match getExtraCapByIndex s 0 with
    | some rootSlot =>
      if length < 3 then .ok (s.fail fun e => { e with type := .truncatedMessage })
      else do
        let irq := getSyscallArg a s 0 buffer
        let index := getSyscallArg a s 1 buffer
        let depth := getSyscallArg a s 2 buffer
        let (s, status, slot) ← irqTargetSlot a s irq rootSlot index depth
        if status ≠ .none then return (s, status)
        if s.ctes.capType slot ≠ .nullCap then
          return s.fail fun e => { e with type := .deleteFirst }
        invokeIrqControl a (setRestart a s) irq slot srcSlot
    | none => .ok (s.fail fun e => { e with type := .truncatedMessage })
  else archDecodeIrqControlInvocation a s label length srcSlot buffer

/-- `seL4_CapIRQControl` -/
def seL4CapIRQControl : Word := 4

/-- The loop of `init_irqs`. -/
def deactivateIrqs (s : KernelState) (irqs : List Nat) : KernelState :=
  irqs.foldl (fun s i =>
    if BitVec.ofNat 64 i ≠ irqInvalid then setIrqState s .inactive (BitVec.ofNat 64 i) else s) s

/-- `init_irqs` -/
def initIrqs (s : KernelState) (rootCNodeCap : CapT) : KernelState :=
  let s := deactivateIrqs s (List.range ((maxIRQ a).toNat + 1))
  let s := setIrqState s .timer (kernelTimerIrq a)
  s.setCtes (writeSlot s.ctes (offsetSlot (getCapPtr a rootCNodeCap) seL4CapIRQControl)
    newIrqControlCap)

/-! ## When an Issue succeeds -/

/-- An invocation of an IRQControl cap. -/
structure IrqControlCall where
  label : MessageLabel
  length : Word
  srcSlot : Word
  buffer : Word

namespace IrqControlCall

def run (s : KernelState) (c : IrqControlCall) : Exec (KernelState × ExceptionT) :=
  decodeIrqControlInvocation a s c.label c.length c.srcSlot c.buffer

def Succeeds (s : KernelState) (c : IrqControlCall) : Prop := ∃ s', c.run a s = .ok (s', .none)

/-- Where the index of the slot stands in the message. -/
def indexArg (c : IrqControlCall) : Nat := if c.label = .irqIssueIRQHandler then 1 else 2

def irq (s : KernelState) (c : IrqControlCall) : Word := getSyscallArg a s 0 c.buffer

/-- An Issue with all its arguments. -/
structure IsIssue (s : KernelState) (c : IrqControlCall) : Prop where
  label : c.label = .irqIssueIRQHandler ∨ c.label = issueTriggerLabel a
  length : ¬c.length < BitVec.ofNat 64 (c.indexArg + 2)
  extraCap : s.currentExtraCaps 0 ≠ 0

/-- The lookup of the slot for the handler cap. -/
def target (s : KernelState) (c : IrqControlCall) : Exec (KernelState × ExceptionT × Word) :=
  lookupSlotForCNodeOp a s false (s.ctes (s.currentExtraCaps 0)).cap
    (getSyscallArg a s c.indexArg c.buffer) (getSyscallArg a s (c.indexArg + 1) c.buffer)

/-- The message names an empty slot. -/
def FreeSlot (s : KernelState) (c : IrqControlCall) : Prop :=
  ∃ slot, c.target a s = .ok (s, .none, slot) ∧ s.ctes.capType slot = .nullCap

end IrqControlCall

/-- What the interrupts of the kernel are. -/
structure IrqView where
  ctes : Slots
  intStateIRQTable : Word → Word
  intStateIRQNode : Word

def irqView (s : KernelState) : IrqView := ⟨s.ctes, s.intStateIRQTable, s.intStateIRQNode⟩

variable {a} {s s' : KernelState} {c : IrqControlCall} {irq slot : Word} {e : ExceptionT}

theorem irqView_of_ipcEq (h : IpcEq s' s) : irqView s' = irqView s := h.proj irqView

theorem irqView_setRestart : irqView (setRestart a s) = irqView s :=
  irqView_of_ipcEq (ipcEq_setThreadState _)

theorem lookupSlotForCNodeOp_irqView
    (h : lookupSlotForCNodeOp a s isSource root capPtr depth = .ok (s', e, slot)) :
    irqView s' = irqView s ∧ (e = .none → s' = s) := by
  rcases lookupSlotForCNodeOp_cases h with ⟨hst, hrep, -⟩ | ⟨-, rfl, -⟩
  · exact ⟨hrep.proj irqView, fun e => absurd e hst⟩
  · exact ⟨rfl, fun _ => rfl⟩

theorem irqTargetSlot_view (h : irqTargetSlot a s irq rootSlot index depth = .ok (s', e, slot)) :
    irqView s' = irqView s := by
  unfold irqTargetSlot checkIrq at h
  by_cases hr : InRange a irq
  · simp only [if_pos hr, ne_eq, not_true_eq_false, if_false] at h
    split at h
    · cases h
      rfl
    · exact (lookupSlotForCNodeOp_irqView h).1
  · simp only [if_neg hr] at h
    cases h
    rfl

/-- The checks pass where the interrupt is in range and not inactive. -/
theorem irqTargetSlot_none_iff :
    irqTargetSlot a s irq rootSlot index depth = .ok (s', .none, slot) ↔
      InRange a irq ∧ getIrqState s irq ≠ .inactive ∧
        lookupSlotForCNodeOp a s false (s.ctes rootSlot).cap index depth = .ok (s', .none, slot) := by
  unfold irqTargetSlot checkIrq isIrqActive
  by_cases hr : InRange a irq
  · by_cases hi : getIrqState s irq = .inactive
    · simp [hr, hi, KernelState.fail]
      exact fun h => by cases h
    · simp [hr, hi]
  · simp [hr, KernelState.fail]
    exact fun h => by cases h

theorem getCapType_newIrqHandlerCap : getCapType (newIrqHandlerCap irq) = .irqHandlerCap := by
  have htag : CapTag.ofWord (CSpace.Field.capType.raw CapTag.irqHandlerCap.toWord) =
      .irqHandlerCap := by decide
  exact (congrArg CapTag.ofWord (stored_build (i := 1) rfl rfl)).trans htag

/-- What handing out the interrupt `irq` changes. -/
structure HandsOut (a : Arch) (s s' : KernelState) (irq srcSlot slot : Word) : Prop where
  insert : cteInsert a s.ctes (newIrqHandlerCap irq) srcSlot slot = .ok s'.ctes
  table : s'.intStateIRQTable = update s.intStateIRQTable irq IRQState.signal.toWord
  node : s'.intStateIRQNode = s.intStateIRQNode

theorem invokeIrqControl_handsOut
    (h : invokeIrqControl a (setRestart a s) irq slot srcSlot = .ok (s', e)) :
    e = .none ∧ HandsOut a s s' irq srcSlot slot := by
  have hview := irqView_setRestart (a := a) (s := s)
  have hctes : (setRestart a s).ctes = s.ctes := congrArg IrqView.ctes hview
  obtain ⟨s₁, hins, h⟩ := bind_eq_ok.mp h
  cases h
  obtain ⟨σ, hσ, hins⟩ := bind_eq_ok.mp hins
  cases hins
  refine ⟨rfl, ?_, ?_, congrArg IrqView.intStateIRQNode hview⟩
  · rw [← hctes]
    exact hσ
  · have htable : (setRestart a s).intStateIRQTable = s.intStateIRQTable :=
      congrArg IrqView.intStateIRQTable hview
    rw [← htable]
    rfl

/-- `cte_insert` asserts that the slot is empty. -/
theorem HandsOut.slot_empty (h : HandsOut a s s' irq srcSlot slot) :
    s.ctes.capType slot = .nullCap := by
  obtain ⟨r, -, h⟩ := bind_eq_ok.mp h.insert
  obtain ⟨_, hnull, -⟩ := bind_eq_ok.mp h
  exact ensure_eq_ok.mp hnull

/-- `invoke_irq_control` passes the assertions of `cte_insert` if the slot is
empty. -/
theorem invokeIrqControl_ok (hinv : MdbInv a s.ctes ls) (hnull : s.ctes.capType slot = .nullCap)
    (irq srcSlot : Word) :
    ∃ s', invokeIrqControl a (setRestart a s) irq slot srcSlot = .ok (s', .none) := by
  have hctes : (setRestart a s).ctes = s.ctes := congrArg IrqView.ctes (irqView_setRestart)
  have htype : getCapType (newIrqHandlerCap irq) = .irqHandlerCap := getCapType_newIrqHandlerCap
  have hrev : isCapRevocable a (newIrqHandlerCap irq) (s.ctes srcSlot).cap =
      .ok (decide (getCapType (s.ctes srcSlot).cap = .irqControlCap)) := by
    simp [isCapRevocable, isArchCap, htype, CapTag.isArch]
  obtain ⟨σ, hσ⟩ := hinv.cteInsert_ok hnull hrev
  have hins : (setIrqState (setRestart a s) .signal irq).ctes = s.ctes := hctes
  unfold invokeIrqControl KernelState.insertCap
  rw [hins, hσ]
  exact ⟨_, rfl⟩

theorem irqTargetSlot_cases (h : irqTargetSlot a s irq rootSlot index depth = .ok (s', e, slot)) :
    (e ≠ .none ∧ irqView s' = irqView s) ∨
      (e = .none ∧ s' = s ∧ InRange a irq ∧ getIrqState s irq ≠ .inactive ∧
        lookupSlotForCNodeOp a s false (s.ctes rootSlot).cap index depth = .ok (s, .none, slot)) := by
  by_cases he : e = .none
  · subst he
    obtain ⟨hrange, hactive, hlook⟩ := irqTargetSlot_none_iff.mp h
    obtain rfl := (lookupSlotForCNodeOp_irqView hlook).2 rfl
    exact .inr ⟨rfl, rfl, hrange, hactive, hlook⟩
  · exact .inl ⟨he, irqTargetSlot_view h⟩

namespace IrqControlCall

/-- An IRQControl invocation hands out the interrupt or leaves the interrupts as
they are. -/
theorem run_cases (h : c.run a s = .ok (s', e)) : (e ≠ .none ∧ irqView s' = irqView s) ∨
      (e = .none ∧ c.IsIssue a s ∧ InRange a (c.irq a s) ∧ getIrqState s (c.irq a s) ≠ .inactive ∧
        ∃ slot, c.target a s = .ok (s, .none, slot) ∧
          HandsOut a s s' (c.irq a s) c.srcSlot slot) := by
  have hfail : ∀ {f}, (.ok (s.fail f) : Exec (KernelState × ExceptionT)) = .ok (s', e) →
      e ≠ .none ∧ irqView s' = irqView s := by
    intro f h
    cases h
    exact ⟨by decide, rfl⟩
  unfold run decodeIrqControlInvocation archDecodeIrqControlInvocation getExtraCapByIndex at h
  by_cases hextra : s.currentExtraCaps 0 = 0
  · split at h
    · exact .inl (hfail h)
    · split at h
      · exact .inl (hfail h)
      · exact .inl (hfail h)
  simp only [hextra, if_false] at h
  by_cases hlabel : c.label = .irqIssueIRQHandler
  · rw [if_pos hlabel] at h
    split at h
    · exact .inl (hfail h)
    rename_i hlen
    obtain ⟨⟨s₁, status, slot⟩, hr, h⟩ := bind_eq_ok.mp h
    rcases irqTargetSlot_cases hr with ⟨hne, hview⟩ | ⟨rfl, rfl, hrange, hactive, hlook⟩
    · simp only [if_pos hne] at h
      cases h
      exact .inl ⟨hne, hview⟩
    simp only [ne_eq, not_true_eq_false, if_false] at h
    split at h
    · exact .inl (hfail h)
    obtain ⟨rfl, hout⟩ := invokeIrqControl_handsOut h
    have harg : c.indexArg = 1 := if_pos hlabel
    refine .inr ⟨rfl, ⟨.inl hlabel, ?_, hextra⟩, hrange, hactive, slot, ?_, hout⟩
    · rw [harg]
      exact hlen
    · rw [target, harg]
      exact hlook
  · rw [if_neg hlabel] at h
    split at h
    next htrigger =>
      split at h
      · exact .inl (hfail h)
      rename_i hlen
      obtain ⟨⟨s₁, status, slot⟩, hr, h⟩ := bind_eq_ok.mp h
      rcases irqTargetSlot_cases hr with ⟨hne, hview⟩ | ⟨rfl, rfl, hrange, hactive, hlook⟩
      · simp only [if_pos hne] at h
        cases h
        exact .inl ⟨hne, hview⟩
      obtain ⟨rfl, hout⟩ := invokeIrqControl_handsOut h
      have harg : c.indexArg = 2 := if_neg hlabel
      refine .inr ⟨rfl, ⟨.inr htrigger, ?_, hextra⟩, hrange, hactive, slot, ?_, hout⟩
      · rw [harg]
        exact hlen
      · rw [target, harg]
        exact hlook
    · exact .inl (hfail h)

/-- A complete Issue succeeds exactly for the interrupts in range that are not
inactive, if it names an empty slot. -/
theorem succeeds_iff (hinv : MdbInv a s.ctes ls) (hissue : c.IsIssue a s) : c.Succeeds a s ↔
      InRange a (c.irq a s) ∧ getIrqState s (c.irq a s) ≠ .inactive ∧ c.FreeSlot a s := by
  constructor
  · rintro ⟨s', h⟩
    rcases run_cases h with ⟨hne, -⟩ | ⟨-, -, hrange, hactive, slot, htarget, hout⟩
    · exact absurd rfl hne
    · exact ⟨hrange, hactive, slot, htarget, hout.slot_empty⟩
  · rintro ⟨hrange, hactive, slot, htarget, hnull⟩
    obtain ⟨s', hinvoke⟩ := invokeIrqControl_ok hinv hnull (c.irq a s) c.srcSlot
    have hextra := hissue.extraCap
    have hlen := hissue.length
    refine ⟨s', ?_⟩
    unfold run decodeIrqControlInvocation archDecodeIrqControlInvocation getExtraCapByIndex
    by_cases hlabel : c.label = .irqIssueIRQHandler
    · have harg : c.indexArg = 1 := if_pos hlabel
      rw [target, harg] at htarget
      rw [harg] at hlen
      have hslot := irqTargetSlot_none_iff.mpr ⟨hrange, hactive, htarget⟩
      have hlen : ¬c.length < 3 := hlen
      simp only [hlabel, if_true, hextra, if_false, if_neg hlen]
      rw [irq] at hslot
      rw [hslot]
      exact (if_neg (not_not.mpr hnull)).trans hinvoke
    · have harg : c.indexArg = 2 := if_neg hlabel
      have htrigger := hissue.label.resolve_left hlabel
      rw [target, harg] at htarget
      rw [harg] at hlen
      have hslot := irqTargetSlot_none_iff.mpr ⟨hrange, hactive, htarget⟩
      have hlen : ¬c.length < 4 := hlen
      simp only [if_neg hlabel, if_pos htrigger, hextra, if_false, if_neg hlen]
      rw [irq] at hslot
      rw [hslot]
      exact hinvoke

end IrqControlCall

end Rel4.Kernel
