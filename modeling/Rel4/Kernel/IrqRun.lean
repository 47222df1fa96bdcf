import Rel4.Kernel.IrqHandlers
import Rel4.Kernel.CapRun

/-!
Interrupt handlers over whole runs.

From the state that `init_irqs` builds, only the timer interrupt can be handed
out, since only its entry is not inactive. Handler caps exist exactly while its
entry is `IRQSignal` (`IrqInv.signal_iff`); what fails is the test that decides
an Issue (`IrqControlCall.correct_iff`).
-/

namespace Rel4.Kernel
open Lib.Bitfield Common CSpace Rel4.Task Function
open IRQState (signal inactive timer)

variable {fuel : Nat} {dest src : Word} {c : IrqControlCall} {a : Arch}
  {ls : List (List Word)} {ctrl irq slot x y : Word} {s s' : KernelState}
  {e : ExceptionT}

/-! ## The invariant -/

/-- The invariant of the runs from `init_irqs`, with the IRQControl cap in the
slot `ctrl`. Only the timer interrupt has handler caps, and it has some exactly
while its entry is `IRQSignal`. -/
structure IrqInv (a : Arch) (ctrl : Word) (s : KernelState) : Prop where
  handlers : ∃ ls m, HandlersBehind a s.ctes ls ctrl m (kernelTimerIrq a) ∧
    (m ≠ [] ↔ s.intStateIRQTable (kernelTimerIrq a) = signal.toWord)
  timer : ∃ state, s.intStateIRQTable (kernelTimerIrq a) = IRQState.toWord state ∧
    (state = .inactive ∨ state = .signal ∨ state = .timer)
  others : ∀ irq, irq ≠ kernelTimerIrq a → s.intStateIRQTable irq = inactive.toWord
  nodes : ∀ x, NodeSlot a s.ctes x → SlotAddr a x ∧ pptrBase a ≤ x

/-- The entry of the timer interrupt is `IRQTimer` only if it was. -/
def KeepsTimer (a : Arch) (s s' : KernelState) : Prop :=
  s'.intStateIRQTable (kernelTimerIrq a) = timer.toWord →
    s.intStateIRQTable (kernelTimerIrq a) = timer.toWord

theorem KeepsTimer.trans (h : KeepsTimer a s s') (h' : KeepsTimer a s' s'') :
    KeepsTimer a s s'' := fun ht => h (h' ht)

theorem keepsTimer_of_view (hview : irqView s' = irqView s) : KeepsTimer a s s' := by
  have htable : s'.intStateIRQTable = s.intStateIRQTable := congrArg IrqView.intStateIRQTable hview
  unfold KeepsTimer
  rw [htable]
  exact id

theorem getIrqState_of_toWord (h : s.intStateIRQTable irq = state.toWord) :
    getIrqState s irq = state := by
  rw [getIrqState, h]
  cases state <;> decide

namespace IrqInv

section

variable (h : IrqInv a ctrl s)
include h

theorem of_view (hview : irqView s' = irqView s) : IrqInv a ctrl s' := by
  have hctes : s'.ctes = s.ctes := congrArg IrqView.ctes hview
  have htable : s'.intStateIRQTable = s.intStateIRQTable := congrArg IrqView.intStateIRQTable hview
  obtain ⟨h₁, h₂, h₃, h₄⟩ := h
  rw [← hctes] at h₁ h₄
  rw [← htable] at h₁ h₂ h₃
  exact ⟨h₁, h₂, h₃, h₄⟩

theorem mdb : ∃ ls, MdbInv a s.ctes ls := by
  obtain ⟨ls, m, hm, -⟩ := h.handlers
  exact ⟨ls, hm.mdb⟩

/-- Only the timer interrupt is not inactive. -/
theorem eq_timer (hirq : getIrqState s irq ≠ .inactive) : irq = kernelTimerIrq a := by
  by_contra hne
  exact hirq (getIrqState_of_toWord (h.others irq hne))

theorem handler_irq (hx : s.ctes.capType x = .irqHandlerCap) :
    getIrqHandler a (s.ctes x).cap = kernelTimerIrq a := by
  obtain ⟨ls, m, hm, -⟩ := h.handlers
  exact hm.irq_eq x ((hm.handlers x).mpr hx)

/-- Handler caps exist exactly while the entry is `IRQSignal`. -/
theorem signal_iff :
    getIrqState s (kernelTimerIrq a) = .signal ↔ ∃ x, s.ctes.capType x = .irqHandlerCap := by
  obtain ⟨ls, m, hm, hiff⟩ := h.handlers
  have hsignal : getIrqState s (kernelTimerIrq a) = .signal ↔
      s.intStateIRQTable (kernelTimerIrq a) = signal.toWord := by
    obtain ⟨state, hs, -⟩ := h.timer
    rw [getIrqState_of_toWord hs, hs]
    cases state <;> decide
  rw [hsignal, ← hiff]
  constructor
  · intro hne
    obtain ⟨x, hx⟩ := List.exists_mem_of_ne_nil m hne
    exact ⟨x, (hm.handlers x).mp hx⟩
  · rintro ⟨x, hx⟩
    exact List.ne_nil_of_mem ((hm.handlers x).mpr hx)

/-- A handler cap for the timer interrupt is put behind the IRQControl cap or
behind another handler cap, and the entry is `IRQSignal`. -/
theorem insertHandler {c : CapT} (hins : cteInsert a s.ctes c src dest = .ok s'.ctes)
    (hsrc : s.ctes.capType src = .irqControlCap ∨ s.ctes.capType src = .irqHandlerCap)
    (hdest : NodeSlot a s.ctes dest) (hc : getCapType c = .irqHandlerCap)
    (hirq : getIrqHandler a c = kernelTimerIrq a) (htable : s'.intStateIRQTable =
      update s.intStateIRQTable (kernelTimerIrq a) signal.toWord) : IrqInv a ctrl s' := by
  obtain ⟨ls, m, hm, -⟩ := h.handlers
  obtain ⟨haddr, hwin⟩ := h.nodes dest hdest
  obtain ⟨r, -, hnull, e⟩ := cteInsert_effect hins haddr.2
  have hsrcCap : sourceCapAfter a (s.ctes src).cap c = (s.ctes src).cap := by
    refine if_neg fun h => ?_
    rw [hc] at h
    exact absurd h.2.1 (by decide)
  rw [hsrcCap] at e
  have hsrc' : src = ctrl ∨ src ∈ m := hsrc.imp (hm.control src).mp (hm.handlers src).mpr
  obtain ⟨ls', m', hm', hne⟩ := hm.insert e hsrc' hnull haddr hwin hc hirq
  refine ⟨⟨ls', m', hm', ?_⟩, ⟨.signal, ?_, .inr (.inl rfl)⟩, fun irq' hirq' => ?_, fun x hx => ?_⟩
  · rw [htable, update_self]
    exact iff_of_true hne rfl
  · rw [htable, update_self]
  · rw [htable, update_of_ne hirq']
    exact h.others irq' hirq'
  · refine h.nodes x (nodeSlot_of_caps (fun y hy => ?_) hx)
    rw [e.cap_eq, if_neg]
    intro hyd
    have hy : getCapType (s'.ctes y).cap = .cnodeCap := hy
    rw [e.cap_eq, if_pos hyd, hc] at hy
    cases hy

end

/-- The slots of CNodes stay good when a slot is emptied. -/
theorem nodes_setEmpty (h : ∀ x, NodeSlot a σ x → SlotAddr a x ∧ pptrBase a ≤ x) (y x : Word)
    (hx : NodeSlot a (setEmpty a σ y) x) : SlotAddr a x ∧ pptrBase a ≤ x := by
  refine h x (nodeSlot_of_caps (fun z hz => ?_) hx)
  by_cases hnull : σ.capType y = .nullCap
  · rw [setEmpty_of_null hnull]
  rw [(setEmpty_effect hnull).cap, if_neg]
  rintro rfl
  rw [capType_setEmpty, if_pos rfl] at hz
  cases hz

/-- Deleting a handler cap; the last one deactivates the interrupt. -/
theorem deleteAll (h : IrqInv a ctrl s) (ht : s.ctes.capType slot = .irqHandlerCap)
    (hdel : deleteAll a strict fuel s slot true = .ok (s', e)) :
    IrqInv a ctrl s' ∧ KeepsTimer a s s' := by
  obtain ⟨ls, m, hm, hiff⟩ := h.handlers
  have hslot := (hm.handlers slot).mpr ht
  have hctrl : slot ≠ ctrl := fun e => hm.control_not_mem (e ▸ hslot)
  have hsignal := hiff.mp (List.ne_nil_of_mem hslot)
  rcases deleteAll_handler ht hdel with
    ⟨hfinal, hctes, htable⟩ | ⟨hfinal, ⟨x, hkind, hctes⟩, htable⟩
  · -- another handler cap stays
    have hlen : m.erase slot ≠ [] := by
      intro hnil
      have hone : m = [slot] := by
        have hlen := congrArg List.length hnil
        rw [List.length_erase_of_mem hslot, List.length_nil] at hlen
        have hpos := List.length_pos_of_mem hslot
        obtain ⟨y, rfl⟩ := List.length_eq_one_iff.mp (show m.length = 1 by omega)
        rw [List.mem_singleton.mp hslot]
      rw [(hm.isFinalCap_iff hslot).mpr hone] at hfinal
      cases hfinal
    obtain ⟨ls', hm'⟩ := hm.setEmpty hctrl
    refine ⟨⟨⟨ls', m.erase slot, ?_, ?_⟩, ?_, ?_, ?_⟩, fun ht' => ?_⟩
    · rw [hctes]
      exact hm'
    · rw [htable]
      exact iff_of_true hlen hsignal
    · rw [htable]
      exact h.timer
    · rw [htable]
      exact h.others
    · rw [hctes]
      exact nodes_setEmpty h.nodes slot
    · rwa [htable] at ht'
  · have hone := (hm.isFinalCap_iff hslot).mp hfinal
    have hxctrl : x ≠ ctrl := by
      rintro rfl
      rw [(hm.control x).mpr rfl] at hkind
      cases hkind
    have hxm : x ∉ m := by
      intro hx
      rw [(hm.handlers x).mp hx] at hkind
      cases hkind
    obtain ⟨ls₁, hm₁⟩ := hm.setEmpty hxctrl
    obtain ⟨ls', hm'⟩ := hm₁.setEmpty hctrl
    rw [List.erase_of_not_mem hxm] at hm'
    have hnil : m.erase slot = [] := by
      simp [hone]
    rw [h.handler_irq ht] at htable
    have hzero : s'.intStateIRQTable (kernelTimerIrq a) = inactive.toWord := by
      rw [htable, update_self]
      rfl
    refine ⟨⟨⟨ls', m.erase slot, ?_, ?_⟩, ⟨.inactive, hzero, .inl rfl⟩, ?_, ?_⟩, fun ht' => ?_⟩
    · rw [hctes]
      exact hm'
    · rw [hzero, hnil]
      exact iff_of_false (not_not.mpr rfl) (by decide)
    · intro irq' hirq'
      rw [htable, update_of_ne hirq']
      exact h.others irq' hirq'
    · rw [hctes]
      exact nodes_setEmpty (nodes_setEmpty h.nodes x) slot
    · rw [hzero] at ht'
      exact absurd ht' (by decide)

/-- `revoke` does not come back to its own slot. -/
theorem getVolatileValue_ne (h : IrqInv a ctrl s) (hlive : s.ctes.capType slot ≠ .nullCap) :
    getVolatileValue a s.ctes slot ≠ slot := by
  obtain ⟨ls, m, hm, -⟩ := h.handlers
  rw [getVolatileValue_eq ?_]
  · exact hm.mdb.mdbWF.next_ne_self (hm.mdb.slotAddr hlive)
  · by_cases h0 : s.ctes.next a slot = 0
    · exact .inl h0
    · exact .inr (hm.window _ (hm.mdb.next_live h0).2)

/-- The caps that `revoke` deletes from a slot with an IRQControl or a handler cap
are handler caps. -/
theorem handler_of_child (h : IrqInv a ctrl s)
    (ht : s.ctes.capType slot = .irqControlCap ∨ s.ctes.capType slot = .irqHandlerCap)
    (hchild : isMdbParentOf a (s.ctes slot) (s.ctes (getVolatileValue a s.ctes slot)) = true) :
    s.ctes.capType (getVolatileValue a s.ctes slot) = .irqHandlerCap := by
  obtain ⟨ls, m, hm, -⟩ := h.handlers
  have hregion : sameRegionAs a (s.ctes slot).cap
      (s.ctes (getVolatileValue a s.ctes slot)).cap = true := by
    by_contra hr
    rw [isMdbParentOf, if_pos (Bool.eq_false_iff.mpr hr)] at hchild
    split at hchild <;> cases hchild
  rcases ht with ht | ht
  · have hc : getCapType (s.ctes slot).cap = .irqControlCap := ht
    simp only [sameRegionAs, hc, decide_eq_true_eq] at hregion
    rcases hregion with hr | hr
    · -- the slot would be its own successor
      have hself : getVolatileValue a s.ctes slot = slot :=
        ((hm.control _).mp hr).trans ((hm.control _).mp ht).symm
      exact absurd hself (h.getVolatileValue_ne (by rw [ht]; decide))
    · exact hr
  · have hc : getCapType (s.ctes slot).cap = .irqHandlerCap := ht
    simp only [sameRegionAs, hc, decide_eq_true_eq] at hregion
    exact hregion.1

/-- Deleting a handler cap leaves the other handler caps and the IRQControl cap. -/
theorem capType_deleteAll (ht : s.ctes.capType slot = .irqHandlerCap)
    (hdel : Kernel.deleteAll a strict fuel s slot true = .ok (s', e)) (hx : x ≠ slot)
    (hkind : finalisedAtOnce (s.ctes.capType x) = false) :
    s'.ctes.capType x = s.ctes.capType x := by
  rcases deleteAll_handler ht hdel with ⟨-, hctes, -⟩ | ⟨-, ⟨y, hy, hctes⟩, -⟩
  · rw [hctes, capType_setEmpty, if_neg hx]
  have hxy : x ≠ y := by
    rintro rfl
    rw [hkind] at hy
    cases hy
  rw [hctes, capType_setEmpty, if_neg hx, capType_setEmpty, if_neg hxy]

theorem revoke (fuel : Nat) : ∀ {s}, IrqInv a ctrl s →
      s.ctes.capType slot = .irqControlCap ∨ s.ctes.capType slot = .irqHandlerCap →
      revoke a strict fuel s slot = .ok (s', e) → IrqInv a ctrl s' ∧ KeepsTimer a s s' := by
  induction fuel with
  | zero =>
    intro s _ _ h
    cases h
  | succ fuel ih =>
    intro s hinv ht h
    rw [Kernel.revoke] at h
    split at h
    · cases h
      exact ⟨hinv, id⟩
    split at h
    · cases h
      exact ⟨hinv, id⟩
    rename_i hchild
    obtain ⟨⟨s₁, st⟩, hdel, h⟩ := bind_eq_ok.mp h
    have hhandler := hinv.handler_of_child ht (Bool.eq_true_of_not_eq_false hchild)
    obtain ⟨hinv₁, hkeep₁⟩ := hinv.deleteAll hhandler hdel
    have hkind : finalisedAtOnce (s.ctes.capType slot) = false := by
      rcases ht with ht | ht <;> rw [ht] <;> rfl
    have hne : slot ≠ getVolatileValue a s.ctes slot := by
      refine (hinv.getVolatileValue_ne ?_).symm
      rcases ht with ht | ht <;> rw [ht] <;> decide
    have hview : irqView (preemptionPoint s₁).1 = irqView s₁ := by
      unfold preemptionPoint
      simp only
      split <;> rfl
    have hinv₂ := hinv₁.of_view hview
    have hkeep₂ := hkeep₁.trans (keepsTimer_of_view hview)
    simp only at h
    split at h
    · cases h
      exact ⟨hinv₁, hkeep₁⟩
    split at h
    · cases h
      exact ⟨hinv₂, hkeep₂⟩
    -- the slot is as before, so the loop goes on from the invariant
    have hctes : (preemptionPoint s₁).1.ctes = s₁.ctes := congrArg IrqView.ctes hview
    have ht' : (preemptionPoint s₁).1.ctes.capType slot = s.ctes.capType slot := by
      rw [hctes, capType_deleteAll hhandler hdel hne hkind]
    rw [← ht'] at ht
    obtain ⟨hinv', hkeep'⟩ := ih hinv₂ ht h
    exact ⟨hinv', hkeep₂.trans hkeep'⟩

/-- An IRQControl invocation. Only the timer interrupt can be handed out. -/
theorem control_run (h : IrqInv a ctrl s) (hsrc : s.ctes.capType c.srcSlot = .irqControlCap)
    (hrun : c.run a s = .ok (s', e)) : IrqInv a ctrl s' ∧ KeepsTimer a s s' := by
  rcases c.run_cases hrun with ⟨-, hview⟩ | ⟨-, -, -, hactive, slot, htarget, hout⟩
  · exact ⟨h.of_view hview, keepsTimer_of_view hview⟩
  have hirq := h.eq_timer hactive
  have htable := hout.table
  have hins := hout.insert
  rw [hirq] at htable hins
  have hread : getIrqHandler a (newIrqHandlerCap (kernelTimerIrq a)) = kernelTimerIrq a := by
    cases a <;> decide
  have hnode := (lookupSlotForCNodeOp_effect htarget).2 rfl
  refine ⟨h.insertHandler hins (.inl hsrc) hnode getCapType_newIrqHandlerCap hread htable, ?_⟩
  intro ht
  rw [htable, update_self] at ht
  exact absurd ht (by decide)

theorem deriveAndInsert_handler (hsrc : s.ctes.capType src = .irqHandlerCap)
    (h : deriveAndInsert a s (s.ctes src).cap src dest = .ok (s', e)) :
    cteInsert a s.ctes (s.ctes src).cap src dest = .ok s'.ctes ∧
      s'.intStateIRQTable = s.intStateIRQTable := by
  have hcap : getCapType (s.ctes src).cap = .irqHandlerCap := hsrc
  have hview := irqView_setRestart (a := a) (s := s)
  have hctes : (setRestart a s).ctes = s.ctes := congrArg IrqView.ctes hview
  have htable : (setRestart a s).intStateIRQTable = s.intStateIRQTable :=
    congrArg IrqView.intStateIRQTable hview
  have hderive : deriveCap a s.ctes src (s.ctes src).cap = .ok (.none, (s.ctes src).cap) := by
    simp only [deriveCap, hcap]
  unfold deriveAndInsert at h
  rw [hderive] at h
  obtain ⟨r, hr, h⟩ := bind_eq_ok.mp h
  cases hr
  simp only [hcap] at h
  obtain ⟨s₁, hins, h⟩ := bind_eq_ok.mp h
  cases h
  obtain ⟨σ, hσ, hins⟩ := bind_eq_ok.mp hins
  cases hins
  rw [hctes] at hσ
  exact ⟨hσ, htable⟩

/-- A copy of a handler cap. -/
theorem copy (h : IrqInv a ctrl s) (hsrc : s.ctes.capType src = .irqHandlerCap)
    (hdest : NodeSlot a s.ctes dest)
    (hcopy : deriveAndInsert a s (s.ctes src).cap src dest = .ok (s', e)) :
    IrqInv a ctrl s' ∧ KeepsTimer a s s' := by
  obtain ⟨hins, htable⟩ := deriveAndInsert_handler hsrc hcopy
  have hsignal : s.intStateIRQTable (kernelTimerIrq a) = signal.toWord := by
    obtain ⟨ls, m, hm, hiff⟩ := h.handlers
    exact hiff.mp (List.ne_nil_of_mem ((hm.handlers src).mpr hsrc))
  refine ⟨h.insertHandler hins (.inr hsrc) hdest hsrc (h.handler_irq hsrc) ?_, ?_⟩
  · rw [htable, ← hsignal, update_eq_self]
  · intro ht
    rwa [htable] at ht

end IrqInv

/-! ## Runs -/

inductive IrqOp where
  | control (call : IrqControlCall)
  | copy (src dest : Word) (rights : CapRights)
  | mint (src dest : Word) (rights : CapRights) (capData : Word)
  | delete (fuel : Nat) (slot : Word)
  | revoke (fuel : Nat) (slot : Word)
  /-- Anything that leaves the slots and the interrupt table alone. -/
  | other

/-- The operation takes `s` to `s'`. IRQControl invocations come through an
IRQControl cap, and handler caps are copied to slots of CNodes. -/
def IrqOp.Runs (a : Arch) (s s' : KernelState) : IrqOp → Prop
  | .control call =>
    s.ctes.capType call.srcSlot = .irqControlCap ∧ ∃ e, call.run a s = .ok (s', e)
  | .copy src dest rights =>
    s.ctes.capType src = .irqHandlerCap ∧ NodeSlot a s.ctes dest ∧
      ∃ e, invokeCNodeCopy a s src dest rights = .ok (s', e)
  | .mint src dest rights capData =>
    s.ctes.capType src = .irqHandlerCap ∧ NodeSlot a s.ctes dest ∧
      ∃ e, invokeCNodeMint a s src dest rights capData = .ok (s', e)
  | .delete fuel slot =>
    s.ctes.capType slot = .irqHandlerCap ∧ ∃ e, invokeCNodeDelete a false fuel s slot = .ok (s', e)
  | .revoke fuel slot =>
    (s.ctes.capType slot = .irqControlCap ∨ s.ctes.capType slot = .irqHandlerCap) ∧
      ∃ e, invokeCNodeRevoke a false fuel s slot = .ok (s', e)
  | .other => irqView s' = irqView s

theorem IrqInv.runs (h : IrqInv a ctrl s) {op : IrqOp} (hop : op.Runs a s s') :
    IrqInv a ctrl s' ∧ KeepsTimer a s s' := by
  have hview := irqView_setRestart (a := a) (s := s)
  have hctes : (setRestart a s).ctes = s.ctes := congrArg IrqView.ctes hview
  have hrestart := h.of_view hview
  cases op with
  | control call =>
    obtain ⟨hsrc, e, hrun⟩ := hop
    exact h.control_run hsrc hrun
  | copy src dest rights =>
    obtain ⟨hsrc, hdest, e, hcopy⟩ := hop
    have hcap : getCapType (s.ctes src).cap = .irqHandlerCap := hsrc
    have hmask : maskCapRights a rights (s.ctes src).cap = (s.ctes src).cap := by
      simp only [maskCapRights, hcap]
    rw [invokeCNodeCopy, hmask] at hcopy
    exact h.copy hsrc hdest hcopy
  | mint src dest rights capData =>
    obtain ⟨hsrc, hdest, e, hmint⟩ := hop
    have hcap : getCapType (s.ctes src).cap = .irqHandlerCap := hsrc
    have hmask : maskCapRights a rights (s.ctes src).cap = (s.ctes src).cap := by
      simp only [maskCapRights, hcap]
    have hdata : updateData a (s.ctes src).cap false capData = (s.ctes src).cap := by
      simp [updateData, isArchCap, hcap, CapTag.isArch]
    rw [invokeCNodeMint, hmask, hdata] at hmint
    exact h.copy hsrc hdest hmint
  | delete fuel slot =>
    obtain ⟨ht, e, hdel⟩ := hop
    rw [← hctes] at ht
    obtain ⟨hinv, hkeep⟩ := hrestart.deleteAll ht hdel
    exact ⟨hinv, (keepsTimer_of_view hview).trans hkeep⟩
  | revoke fuel slot =>
    obtain ⟨ht, e, hrev⟩ := hop
    rw [← hctes] at ht
    obtain ⟨hinv, hkeep⟩ := IrqInv.revoke fuel hrestart ht hrev
    exact ⟨hinv, (keepsTimer_of_view hview).trans hkeep⟩
  | other => exact ⟨h.of_view hop, keepsTimer_of_view hop⟩

structure IrqStep where
  before : KernelState
  op : IrqOp
  after : KernelState

/-- `s` is reached from `s₀` by the steps. -/
inductive IrqRun (a : Arch) (s₀ : KernelState) : List IrqStep → KernelState → Prop
  | nil : IrqRun a s₀ [] s₀
  | snoc {steps : List IrqStep} {s s' : KernelState} {op : IrqOp} :
    IrqRun a s₀ steps s → op.Runs a s s' → IrqRun a s₀ (steps ++ [⟨s, op, s'⟩]) s'

/-- What `init_irqs` finds: a well-formed mapping database without caps for
interrupts, an empty slot for the IRQControl cap, and a zeroed interrupt table. -/
structure IrqBoot (a : Arch) (s : KernelState) (rootCNodeCap : CapT) : Prop where
  mdb : ∃ ls, MdbInv a s.ctes ls
  window : ∀ x, s.ctes.capType x ≠ .nullCap → pptrBase a ≤ x
  noControl : ∀ x, s.ctes.capType x ≠ .irqControlCap
  noHandler : ∀ x, s.ctes.capType x ≠ .irqHandlerCap
  slot : SlotAddr a (offsetSlot (getCapPtr a rootCNodeCap) seL4CapIRQControl) ∧
    pptrBase a ≤ offsetSlot (getCapPtr a rootCNodeCap) seL4CapIRQControl
  slot_empty :
    s.ctes.capType (offsetSlot (getCapPtr a rootCNodeCap) seL4CapIRQControl) = .nullCap
  table : ∀ irq, s.intStateIRQTable irq = inactive.toWord
  nodes : ∀ x, NodeSlot a s.ctes x → SlotAddr a x ∧ pptrBase a ≤ x

/-- The loop of `init_irqs` writes what the zeroed table holds. -/
theorem deactivateIrqs_eq (irqs : List Nat) :
    ∀ {s : KernelState}, (∀ irq, s.intStateIRQTable irq = inactive.toWord) →
      deactivateIrqs s irqs = s := by
  induction irqs with
  | nil => exact fun _ => rfl
  | cons i irqs ih =>
    intro s h
    have hstep : setIrqState s .inactive (BitVec.ofNat 64 i) = s := by
      rw [setIrqState, ← h (BitVec.ofNat 64 i), update_eq_self]
    rw [deactivateIrqs, List.foldl_cons, hstep, ite_self]
    exact ih h

theorem IrqBoot.irqInv {rootCNodeCap : CapT} (h : IrqBoot a s rootCNodeCap) :
    IrqInv a (offsetSlot (getCapPtr a rootCNodeCap) seL4CapIRQControl)
      (initIrqs a s rootCNodeCap) := by
  obtain ⟨ls, hls⟩ := h.mdb
  have hcontrol : getCapType newIrqControlCap = .irqControlCap := by decide
  rw [initIrqs, deactivateIrqs_eq _ h.table]
  generalize hctrl : offsetSlot (getCapPtr a rootCNodeCap) seL4CapIRQControl = ctrl
  have hslot := h.slot
  have hempty := h.slot_empty
  rw [hctrl] at hslot hempty
  have hcap : ∀ x, (writeSlot s.ctes ctrl newIrqControlCap x).cap =
      if x = ctrl then newIrqControlCap else (s.ctes x).cap := by
    intro x
    rw [writeSlot, Slots.cap_setMdb, Slots.cap_setCap]
  have htype : ∀ x, (writeSlot s.ctes ctrl newIrqControlCap).capType x =
      if x = ctrl then .irqControlCap else s.ctes.capType x := by
    intro x
    show getCapType (writeSlot s.ctes ctrl newIrqControlCap x).cap = _
    rw [hcap]
    split
    · exact hcontrol
    · rfl
  have htimer : ∀ σ, ((setIrqState s .timer (kernelTimerIrq a)).setCtes σ).intStateIRQTable =
      update s.intStateIRQTable (kernelTimerIrq a) timer.toWord := fun _ => rfl
  refine ⟨⟨[ctrl] :: ls, [], ⟨?_, fun x hx => ?_, fun x => ?_, ⟨[], [], by simp⟩, fun x => ?_,
    by simp⟩, ?_⟩, ⟨.timer, ?_, .inr (.inr rfl)⟩, fun irq hirq => ?_, fun x hx => ?_⟩
  · exact mdbInv_writeSlot hls hslot.1 hempty (by decide)
  · have hx : (writeSlot s.ctes ctrl newIrqControlCap).capType x ≠ .nullCap := hx
    rw [htype] at hx
    split at hx
    next hxc =>
      rw [hxc]
      exact hslot.2
    next => exact h.window x hx
  · show (writeSlot s.ctes ctrl newIrqControlCap).capType x = _ ↔ _
    rw [htype]
    split
    next hxc => exact iff_of_true rfl hxc
    next hxc => exact iff_of_false (h.noControl x) hxc
  · show _ ↔ (writeSlot s.ctes ctrl newIrqControlCap).capType x = _
    rw [htype]
    refine iff_of_false (by simp) ?_
    split
    · decide
    · exact h.noHandler x
  · rw [htimer, update_self]
    exact iff_of_false (not_not.mpr rfl) (by decide)
  · rw [htimer, update_self]
  · rw [htimer, update_of_ne hirq]
    exact h.table irq
  · refine h.nodes x (nodeSlot_of_caps (fun y hy => ?_) hx)
    have hy : (writeSlot s.ctes ctrl newIrqControlCap).capType y = .cnodeCap := hy
    show (writeSlot s.ctes ctrl newIrqControlCap y).cap = _
    rw [htype] at hy
    split at hy
    · cases hy
    next hyc => rw [hcap, if_neg hyc]

theorem IrqRun.irqInv {s₀ : KernelState} {steps : List IrqStep} (h : IrqRun a s₀ steps s)
    (h₀ : IrqInv a ctrl s₀) :
    IrqInv a ctrl s ∧ ∀ st ∈ steps,
      IrqInv a ctrl st.before ∧ IrqInv a ctrl st.after ∧ KeepsTimer a st.before st.after := by
  induction h with
  | nil => exact ⟨h₀, fun st hst => by cases hst⟩
  | snoc _ hop ih =>
    obtain ⟨hinv, hsteps⟩ := ih
    obtain ⟨hinv', hkeep⟩ := hinv.runs hop
    refine ⟨hinv', fun st hst => ?_⟩
    rcases List.mem_append.mp hst with hst | hst
    · exact hsteps st hst
    · rw [List.mem_singleton.mp hst]
      exact ⟨hinv, hinv', hkeep⟩

/-! ## Exclusivity -/

/-- A slot holds a handler cap for the interrupt. -/
def HandlerFor (a : Arch) (s : KernelState) (irq x : Word) : Prop :=
  s.ctes.capType x = .irqHandlerCap ∧ getIrqHandler a (s.ctes x).cap = irq

/-- Handler caps exist for interrupts with `IRQSignal` only, and the interrupt
whose last handler cap has gone is inactive. -/
structure IrqStep.Tracked (a : Arch) (st : IrqStep) : Prop where
  signal : ∀ irq x, HandlerFor a st.after irq x → getIrqState st.after irq = .signal
  last : ∀ irq, (∃ x, HandlerFor a st.before irq x) → (¬∃ x, HandlerFor a st.after irq x) →
    getIrqState st.after irq = .inactive

namespace IrqControlCall

/-- What an Issue should do: succeed if the interrupt is in range and inactive and
the slot is empty, hence never for the timer or a reserved interrupt, nor for one
that has a family of handler caps already. -/
structure Correct (a : Arch) (s : KernelState) (c : IrqControlCall) : Prop where
  succeeds : c.Succeeds a s ↔
    InRange a (c.irq a s) ∧ getIrqState s (c.irq a s) = .inactive ∧ c.FreeSlot a s
  free : c.Succeeds a s → getIrqState s (c.irq a s) ≠ .timer ∧
    getIrqState s (c.irq a s) ≠ .reserved ∧ ¬∃ x, HandlerFor a s (c.irq a s) x

/-- Everything but the entry of the interrupt speaks for the Issue. -/
def Eligible (a : Arch) (s : KernelState) (c : IrqControlCall) : Prop :=
  InRange a (c.irq a s) ∧ c.FreeSlot a s

/-- The test of the entry is the wrong way round, so it decides every Issue wrongly
that depends on it. -/
theorem correct_iff (hinv : MdbInv a s.ctes ls) (hissue : c.IsIssue a s) :
    c.Correct a s ↔ ¬c.Eligible a s := by
  have hiff := succeeds_iff hinv hissue
  constructor
  · rintro ⟨hspec, -⟩ ⟨hrange, hslot⟩
    by_cases hactive : getIrqState s (c.irq a s) = .inactive
    · exact (hiff.mp (hspec.mpr ⟨hrange, hactive, hslot⟩)).2.1 hactive
    · exact hactive (hspec.mp (hiff.mpr ⟨hrange, hactive, hslot⟩)).2.1
  · intro hnot
    have hfails : ¬c.Succeeds a s := fun h =>
      hnot ⟨(hiff.mp h).1, (hiff.mp h).2.2⟩
    exact ⟨iff_of_false hfails fun h => hnot ⟨h.1, h.2.2⟩, fun h => absurd h hfails⟩

end IrqControlCall

theorem IrqInv.tracked {st : IrqStep} (hbefore : IrqInv a ctrl st.before)
    (hafter : IrqInv a ctrl st.after) (hkeep : KeepsTimer a st.before st.after) :
    st.Tracked a where
  signal irq x hx := by
    rw [← hx.2, hafter.handler_irq hx.1]
    exact hafter.signal_iff.mpr ⟨x, hx.1⟩
  last irq := by
    rintro ⟨x, hx, rfl⟩ hnone
    rw [hbefore.handler_irq hx] at hnone ⊢
    have hsignal := hbefore.signal_iff.mpr ⟨x, hx⟩
    obtain ⟨state, hstate, hcases⟩ := hafter.timer
    have hget := getIrqState_of_toWord hstate
    rcases hcases with rfl | rfl | rfl
    · exact hget
    · obtain ⟨y, hy⟩ := hafter.signal_iff.mp hget
      exact absurd ⟨y, hy, hafter.handler_irq hy⟩ hnone
    · rw [getIrqState_of_toWord (hkeep hstate)] at hsignal
      cases hsignal

theorem IrqInv.correct_iff (h : IrqInv a ctrl s) (hissue : c.IsIssue a s) :
    c.Correct a s ↔ ¬c.Eligible a s := by
  obtain ⟨ls, hls⟩ := h.mdb
  exact IrqControlCall.correct_iff hls hissue

/-- In every run from `init_irqs` the handler caps agree with the interrupt table,
and the Issues are decided as they should be if and only if none of them names an
interrupt in range and an empty slot. -/
theorem irqRun_exclusive_iff {s₀ : KernelState} {rootCNodeCap : CapT} {steps : List IrqStep}
    (h₀ : IrqBoot a s₀ rootCNodeCap) (hrun : IrqRun a (initIrqs a s₀ rootCNodeCap) steps s) :
    (∀ st ∈ steps, st.Tracked a) ∧
      (∀ c : IrqControlCall, c.IsIssue a s → (c.Correct a s ↔ ¬c.Eligible a s)) ∧
      ((∀ st ∈ steps, ∀ c, st.op = .control c → c.IsIssue a st.before → c.Correct a st.before) ↔
        ∀ st ∈ steps, ∀ c, st.op = .control c → c.IsIssue a st.before →
          ¬c.Eligible a st.before) := by
  obtain ⟨hinv, hsteps⟩ := hrun.irqInv h₀.irqInv
  refine ⟨fun st hst => ?_, fun c => hinv.correct_iff, ?_⟩
  · obtain ⟨hbefore, hafter, hkeep⟩ := hsteps st hst
    exact hbefore.tracked hafter hkeep
  · refine forall₅_congr fun st hst c _ hissue => ?_
    exact (hsteps st hst).1.correct_iff hissue

/-- The boot state with the message of an Issue for the timer interrupt: slot 5
of the CNode. -/
def issueState (a : Arch) : KernelState :=
  { bootState a false with
    tcbs := fun _ =>
      { Tcb.zero with
        registers := fun r =>
          if r = (ArchReg.msg 0).toIndex a then kernelTimerIrq a
          else if r = (ArchReg.msg 1).toIndex a then 5
          else if r = (ArchReg.msg 2).toIndex a then 64
          else 0 }
    currentExtraCaps := fun i => if i = 0 then bootSlot a 0 else 0 }

theorem issueState_cases (h : (issueState a).ctes.capType x ≠ .nullCap) :
    x = bootSlot a 0 ∧ (issueState a).ctes.capType x = .cnodeCap ∨
      x = bootSlot a 1 ∧ (issueState a).ctes.capType x = .untypedCap := by
  have hlive : (bootState a false).ctes.capType x ≠ .nullCap := h
  rcases bootState_live hlive with rfl | rfl
  · exact .inl ⟨rfl, by cases a <;> decide⟩
  · exact .inr ⟨rfl, by cases a <;> decide⟩

theorem issueState_boot : IrqBoot a (issueState a) (bootCNodeCap a) where
  mdb := by
    have hboot : Boot a (fun _ => False) (bootState a false) := bootState_boot
    obtain ⟨ls, h⟩ := hboot.capInv
    exact ⟨ls, h.mdb⟩
  window x hx := by
    rcases issueState_cases hx with ⟨rfl, -⟩ | ⟨rfl, -⟩ <;> cases a <;> decide
  noControl x hx := by
    rcases issueState_cases (by rw [hx]; decide) with ⟨-, ht⟩ | ⟨-, ht⟩ <;> rw [hx] at ht <;> cases ht
  noHandler x hx := by
    rcases issueState_cases (by rw [hx]; decide) with ⟨-, ht⟩ | ⟨-, ht⟩ <;> rw [hx] at ht <;> cases ht
  slot := by cases a <;> decide
  slot_empty := by
    by_contra hlive
    rcases issueState_cases hlive with ⟨he, -⟩ | ⟨he, -⟩ <;> revert he <;> cases a <;> decide
  table _ := rfl
  nodes x := by
    rintro ⟨y, hy, i, hi, rfl⟩
    rcases issueState_cases (by rw [hy]; decide) with ⟨rfl, -⟩ | ⟨-, ht⟩
    · have hcount : slotCount a ((issueState a).ctes (bootSlot a 0)).cap = 16 := by
        cases a <;> decide
      have hbase : objBase a ((issueState a).ctes (bootSlot a 0)).cap = pptrBase a + 0x1000 := by
        cases a <;> decide
      rw [hcount] at hi
      rw [hbase]
      revert i
      cases a <;> decide
    · rw [hy] at ht
      cases ht

/-- The state after `init_irqs`. -/
def timerState (a : Arch) : KernelState := initIrqs a (issueState a) (bootCNodeCap a)

/-- The Issue in its message. -/
def issueCall (a : Arch) : IrqControlCall := ⟨.irqIssueIRQHandler, 3, bootSlot a 4, 0⟩

theorem issueCall_succeeds : (issueCall .riscv64).Succeeds .riscv64 (timerState .riscv64) := by
  obtain ⟨⟨s', e⟩, hrun, he⟩ := Exec.satisfies_iff.mp (by decide +kernel :
    ((issueCall .riscv64).run .riscv64 (timerState .riscv64)).satisfies
      (fun r => r.2 = .none) = true)
  obtain rfl := of_decide_eq_true he
  exact ⟨s', hrun⟩

/-- The timer interrupt is handed out, and its handler cap is accounted for. -/
theorem irqRun_exclusive_iff_timer : ∃ s', IrqRun .riscv64 (timerState .riscv64)
        [⟨timerState .riscv64, .control (issueCall .riscv64), s'⟩] s' ∧
      IrqStep.Tracked .riscv64 ⟨timerState .riscv64, .control (issueCall .riscv64), s'⟩ := by
  obtain ⟨s', hissue⟩ := issueCall_succeeds
  have hrun : IrqRun .riscv64 (timerState .riscv64)
      ([] ++ [⟨timerState .riscv64, .control (issueCall .riscv64), s'⟩]) s' :=
    .snoc .nil ⟨by decide +kernel, .none, hissue⟩
  exact ⟨s', hrun, (irqRun_exclusive_iff issueState_boot hrun).1 _ (by simp)⟩

/-- Right after `init_irqs` an Issue for the timer interrupt succeeds. -/
theorem issue_hands_out_timer : IrqBoot .riscv64 (issueState .riscv64) (bootCNodeCap .riscv64) ∧
      IrqRun .riscv64 (initIrqs .riscv64 (issueState .riscv64) (bootCNodeCap .riscv64)) []
        (timerState .riscv64) ∧
      (issueCall .riscv64).IsIssue .riscv64 (timerState .riscv64) ∧
      getIrqState (timerState .riscv64)
        ((issueCall .riscv64).irq .riscv64 (timerState .riscv64)) = .timer ∧
      (issueCall .riscv64).Succeeds .riscv64 (timerState .riscv64) ∧
      ¬(issueCall .riscv64).Correct .riscv64 (timerState .riscv64) := by
  have htimer : getIrqState (timerState .riscv64)
      ((issueCall .riscv64).irq .riscv64 (timerState .riscv64)) = .timer := by decide +kernel
  refine ⟨issueState_boot, .nil, ⟨.inl rfl, by decide, by decide +kernel⟩, htimer,
    issueCall_succeeds, fun hcorrect => ?_⟩
  exact (hcorrect.free issueCall_succeeds).1 htimer

end Rel4.Kernel
