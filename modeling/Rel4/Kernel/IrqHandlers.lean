import Rel4.Kernel.Irq

/-!
The handler caps of one interrupt in the mapping database.

They stand directly behind the IRQControl cap (`HandlersBehind`), so that the
last of them is recognised as final (`HandlersBehind.isFinalCap_iff`). Deleting
it deactivates the interrupt (`deleteAll_handler`).
-/

namespace Rel4.Kernel
open Lib.Bitfield Lib.DList Common CSpace Rel4.Task Ipc

variable {cap : CapT}

/-! ## Handler caps in the mapping database -/

/-- The handler caps are the slots `m` behind the one IRQControl cap, and all of
them are for the interrupt `irq`. -/
structure HandlersBehind (a : Arch) (σ : Slots) (ls : List (List Word)) (ctrl : Word)
    (m : List Word) (irq : Word) : Prop where
  mdb : MdbInv a σ ls
  window : ∀ x, σ.capType x ≠ .nullCap → pptrBase a ≤ x
  control : ∀ x, σ.capType x = .irqControlCap ↔ x = ctrl
  behind : ∃ u v, u ++ ctrl :: (m ++ v) ∈ ls
  handlers : ∀ x, x ∈ m ↔ σ.capType x = .irqHandlerCap
  irq_eq : ∀ x ∈ m, getIrqHandler a (σ x).cap = irq

variable {a : Arch} {σ : Slots} {ctrl x y : Word} {m : List Word}

namespace HandlersBehind

section

variable (h : HandlersBehind a σ ls ctrl m irq)
include h

theorem control_not_mem : ctrl ∉ m := by
  intro hm
  have hh := (h.handlers ctrl).mp hm
  rw [(h.control ctrl).mpr rfl] at hh
  cases hh

theorem control_live : σ.capType ctrl ≠ .nullCap := by
  rw [(h.control ctrl).mpr rfl]
  decide

theorem handler_live (hx : x ∈ m) : σ.capType x ≠ .nullCap := by
  rw [(h.handlers x).mp hx]
  decide

/-! ### Finality -/

omit h in
theorem sameObjectAs_handlers (h₁ : getCapType c₁ = .irqHandlerCap) : sameObjectAs a c₁ c₂ = true ↔
      getCapType c₂ = .irqHandlerCap ∧ getIrqHandler a c₁ = getIrqHandler a c₂ := by
  simp [sameObjectAs, sameRegionAs, h₁, isArchCap, CapTag.isArch]

theorem sameObjectAs_of_mem (hx : x ∈ m) (hy : y ∈ m) :
    sameObjectAs a (σ x).cap (σ y).cap = true := by
  refine (sameObjectAs_handlers ((h.handlers x).mp hx)).mpr ⟨(h.handlers y).mp hy, ?_⟩
  rw [h.irq_eq x hx, h.irq_eq y hy]

/-- A handler cap is final if it is the only one. -/
theorem isFinalCap_iff (hx : x ∈ m) : isFinalCap a σ x = true ↔ m = [x] := by
  obtain ⟨u, v, hl⟩ := h.behind
  have hnd := h.mdb.rep.chain_nodup hl
  have hnull := h.mdb.rep.null_not_mem_chain hl
  obtain ⟨m₁, m₂, rfl⟩ := List.append_of_mem hx
  have hsplit : u ++ ctrl :: (m₁ ++ x :: m₂ ++ v) = (u ++ ctrl :: m₁) ++ x :: (m₂ ++ v) := by simp
  rw [hsplit] at hl hnd hnull
  have hx₁ : x ∉ u ++ ctrl :: m₁ := fun hm =>
    (List.nodup_append.mp hnd).2.2 x hm x List.mem_cons_self rfl
  have hprev : σ.prev a x = (u ++ ctrl :: m₁).getLastD 0 := by
    rw [← predIn_append_cons hx₁]
    exact h.mdb.rep.prev_eq _ hl x (by simp)
  have hnext : σ.next a x = (m₂ ++ v).headD 0 := by
    rw [← succIn_append_cons hx₁]
    exact h.mdb.rep.next_eq _ hl x (by simp)
  have hsame : ∀ {y}, y ∈ m₁ ++ x :: m₂ → sameObjectAs a (σ y).cap (σ x).cap = true ∧
      sameObjectAs a (σ x).cap (σ y).cap = true :=
    fun hy => ⟨h.sameObjectAs_of_mem hy hx, h.sameObjectAs_of_mem hx hy⟩
  have hne : ∀ {y}, y ∈ m₁ ++ x :: m₂ → y ≠ 0 := fun hy => h.mdb.ne_zero (h.handler_live hy)
  rw [isFinalCap_eq_true_iff]
  constructor
  · rintro ⟨hp, hn⟩
    have h₁ : m₁ = [] := by
      rcases List.eq_nil_or_concat m₁ with h₁ | ⟨m', p, rfl⟩
      · exact h₁
      have hlast : u ++ ctrl :: m'.concat p = (u ++ ctrl :: m') ++ [p] := by simp
      have hpx : σ.prev a x = p := by
        rw [hprev, hlast, List.getLastD_concat]
      have hmem : p ∈ m'.concat p ++ x :: m₂ := by simp
      rw [hpx, (hsame hmem).1] at hp
      exact absurd (hp (hne hmem)) (by decide)
    have h₂ : m₂ = [] := by
      cases m₂ with
      | nil => rfl
      | cons n m₂ =>
        have hnx : σ.next a x = n := hnext
        have hmem : n ∈ m₁ ++ x :: n :: m₂ := by simp
        rw [hnx, (hsame hmem).2] at hn
        exact absurd (hn (hne hmem)) (by decide)
    rw [h₁, h₂]
    rfl
  · intro hone
    have hlen := congrArg List.length hone
    simp only [List.length_append, List.length_cons, List.length_nil] at hlen
    obtain rfl : m₁ = [] := List.eq_nil_of_length_eq_zero (by omega)
    obtain rfl : m₂ = [] := List.eq_nil_of_length_eq_zero (by omega)
    have hhandler := (h.handlers x).mp hx
    constructor
    · intro _
      rw [hprev, List.getLastD_concat]
      have hcontrol := (h.control ctrl).mpr rfl
      simp only [Slots.capType] at hcontrol hhandler
      simp [sameObjectAs, hcontrol, hhandler]
    · intro hn
      -- the slot behind the only handler cap holds something else
      rw [hnext] at hn ⊢
      have hv : v.headD 0 ∈ v := (headD_mem_or v 0).resolve_left hn
      refine Bool.eq_false_iff.mpr fun hs => ?_
      have hmem := (h.handlers _).mpr ((sameObjectAs_handlers hhandler).mp hs).1
      rw [List.nil_append, List.mem_singleton, List.nil_append] at hmem
      rw [hmem] at hv
      exact (List.nodup_cons.mp (List.nodup_append.mp hnd).2.1).1 hv

/-! ### Steps -/

/-- A new handler cap goes behind the IRQControl cap or behind a handler cap. -/
theorem insert (e : InsertEffect a σ σ' (σ src).cap c src dest newFlags)
    (hsrc : src = ctrl ∨ src ∈ m) (hdest : σ.capType dest = .nullCap) (haddr : SlotAddr a dest)
    (hwin : pptrBase a ≤ dest) (hc : getCapType c = .irqHandlerCap) (hirq : getIrqHandler a c = irq) :
    ∃ ls' m', HandlersBehind a σ' ls' ctrl m' irq ∧ m' ≠ [] := by
  have hlive : σ.capType src ≠ .nullCap := by
    rcases hsrc with rfl | hsrc
    · exact h.control_live
    · exact h.handler_live hsrc
  have hnew : getCapType c ≠ .nullCap := by
    rw [hc]
    decide
  have hds : dest ≠ src := by
    rintro rfl
    exact hlive hdest
  have htype : ∀ x, σ'.capType x = if x = dest then .irqHandlerCap else σ.capType x := by
    intro x
    show getCapType (σ' x).cap = _
    rw [e.cap_eq]
    split
    · exact hc
    · rfl
  obtain ⟨u, v, hl⟩ := h.behind
  have hnd := h.mdb.rep.chain_nodup hl
  have hsrcu : src ∉ u := fun hu => by
    refine (List.nodup_append.mp hnd).2.2 src hu src ?_ rfl
    rcases hsrc with rfl | hsrc
    · simp
    · simp [hsrc]
  obtain ⟨m', hm', hmem⟩ : ∃ m', insertAfter src dest (ctrl :: (m ++ v)) = ctrl :: (m' ++ v) ∧
      ∀ x, x ∈ m' ↔ x = dest ∨ x ∈ m := by
    rcases hsrc with rfl | hsrc
    · exact ⟨dest :: m, by simp [insertAfter], fun x => List.mem_cons⟩
    have hne : ctrl ≠ src := fun e => h.control_not_mem (e ▸ hsrc)
    refine ⟨insertAfter src dest m, ?_, fun x => ?_⟩
    · rw [insertAfter, if_neg hne, insertAfter_append_left hsrc]
    · rw [mem_insertAfter, or_comm]
      simp [hsrc]
  have hctrl : ctrl ≠ dest := by
    rintro rfl
    exact h.control_live hdest
  refine ⟨_, m', ⟨h.mdb.of_insertEffect e hlive hdest haddr rfl hnew, fun x hx => ?_, fun x => ?_,
    ⟨u, v, ?_⟩, fun x => ?_, fun x hx => ?_⟩, List.ne_nil_of_mem ((hmem dest).mpr (.inl rfl))⟩
  · by_cases hxd : x = dest
    · rw [hxd]
      exact hwin
    · rw [htype, if_neg hxd] at hx
      exact h.window x hx
  · rw [htype]
    by_cases hxd : x = dest
    · rw [if_pos hxd, hxd]
      exact iff_of_false (by decide) (Ne.symm hctrl)
    · rw [if_neg hxd]
      exact h.control x
  · rw [← hm', ← insertAfter_append_right hsrcu]
    exact List.mem_map_of_mem hl
  · rw [hmem, htype]
    by_cases hxd : x = dest
    · simp [hxd]
    · simp [hxd, h.handlers]
  · rw [e.cap_eq]
    by_cases hxd : x = dest
    · rw [if_pos hxd]
      exact hirq
    · rw [if_neg hxd]
      exact h.irq_eq x (((hmem x).mp hx).resolve_left hxd)

/-- Emptying a slot other than that of the IRQControl cap. -/
theorem setEmpty (hy : y ≠ ctrl) :
    ∃ ls', HandlersBehind a (CSpace.setEmpty a σ y) ls' ctrl (m.erase y) irq := by
  by_cases hnull : σ.capType y = .nullCap
  · have hm : y ∉ m := fun hm => h.handler_live hm hnull
    rw [setEmpty_of_null hnull, List.erase_of_not_mem hm]
    exact ⟨ls, h⟩
  have e := setEmpty_effect (a := a) hnull
  obtain ⟨u, v, hl⟩ := h.behind
  have hnd := h.mdb.rep.chain_nodup hl
  have hmnd : m.Nodup := by
    have hrest := (List.nodup_cons.mp (List.nodup_append.mp hnd).2.1).2
    exact (List.nodup_append.mp hrest).1
  obtain ⟨u', v', he⟩ : ∃ u' v', (u ++ ctrl :: (m ++ v)).erase y =
      u' ++ ctrl :: (m.erase y ++ v') := by
    rw [List.erase_append]
    split
    next hu =>
      have hm : y ∉ m := fun hm => (List.nodup_append.mp hnd).2.2 y hu y (by simp [hm]) rfl
      exact ⟨u.erase y, v, by rw [List.erase_of_not_mem hm]⟩
    rw [List.erase_cons_tail (by simpa using Ne.symm hy), List.erase_append]
    split
    · exact ⟨u, v, rfl⟩
    next hm => exact ⟨u, v.erase y, by rw [List.erase_of_not_mem hm]⟩
  refine ⟨_, h.mdb.setEmpty y, fun x hx => ?_, fun x => ?_, ⟨u', v', ?_⟩, fun x => ?_,
    fun x hx => ?_⟩
  · rw [capType_setEmpty] at hx
    split at hx
    · exact absurd rfl hx
    · exact h.window x hx
  · rw [capType_setEmpty]
    split
    next hx =>
      rw [hx]
      exact iff_of_false (by decide) hy
    next => exact h.control x
  · rw [← he]
    exact List.mem_map_of_mem hl
  · rw [hmnd.mem_erase_iff, capType_setEmpty, h.handlers]
    by_cases hx : x = y
    · simp [hx]
    · simp [hx]
  · obtain ⟨hne, hx⟩ := hmnd.mem_erase_iff.mp hx
    rw [e.cap, if_neg hne]
    exact h.irq_eq x hx

end

end HandlersBehind

/-! ## Deletion -/

variable {s : KernelState} {slot : Word}

theorem irqTable_finaliseImmediate (h : finaliseImmediate a s cap final = .ok (some s')) :
    s'.intStateIRQTable = s.intStateIRQTable := by
  obtain ⟨-, rfl | h | ⟨-, h⟩ | ⟨-, h⟩⟩ := finaliseImmediate_cases h
  · rfl
  · have harch : eraseVSpace s' = eraseVSpace s := VSpaceEq.archFinaliseCap h
    have htable := congrArg KernelState.intStateIRQTable harch
    exact htable
  · exact congrArg IrqView.intStateIRQTable (irqView_of_ipcEq (ipcEq_cancelAllIpc h))
  have hunbind : (safeUnbindTcb a s (getNfPtr a cap)).intStateIRQTable = s.intStateIRQTable := by
    unfold safeUnbindTcb
    simp only
    split <;> rfl
  rw [← hunbind]
  exact congrArg IrqView.intStateIRQTable (irqView_of_ipcEq (ipcEq_cancelAllSignal h))

theorem irqTable_setEmptySlot (hinfo : getCapType info ≠ .irqHandlerCap) :
    (setEmptySlot a s slot info).intStateIRQTable = s.intStateIRQTable := by
  unfold setEmptySlot postCapDeletion
  rw [if_neg hinfo]
  split <;> rfl

/-- `delete_one` leaves the interrupt table alone. -/
theorem irqTable_deleteOne (h : deleteOne a s slot = .ok s') :
    s'.intStateIRQTable = s.intStateIRQTable := by
  rcases deleteOne_cases h with ⟨-, rfl⟩ | ⟨s₁, final, hr, rfl⟩
  · rfl
  · rw [irqTable_setEmptySlot (by decide), irqTable_finaliseImmediate hr]

theorem finaliseCap_handler (ht : getCapType cap = .irqHandlerCap)
    (h : finaliseCap a s cap final = .ok (s', fc)) :
    (final = false ∧ s' = s ∧ fc = ⟨newNullCap, newNullCap⟩) ∨
      (final = true ∧ fc = ⟨newNullCap, cap⟩ ∧
        deleteOne a s (offsetSlot s.intStateIRQNode (getIrqHandler a cap)) = .ok s') := by
  unfold finaliseCap at h
  simp only [finaliseImmediate, ht] at h
  obtain ⟨r, hr, h⟩ := bind_eq_ok.mp h
  cases hr
  cases final with
  | false =>
    cases h
    exact .inl ⟨rfl, rfl, rfl⟩
  | true =>
    obtain ⟨s₁, hdel, h⟩ := bind_eq_ok.mp h
    cases h
    exact .inr ⟨rfl, rfl, hdel⟩

/-- What deleting a handler cap does: the last one takes the cap of the interrupt
slot with it and deactivates the interrupt. -/
theorem deleteAll_handler (ht : s.ctes.capType slot = .irqHandlerCap)
    (h : deleteAll a strict fuel s slot true = .ok (s', e)) :
    (isFinalCap a s.ctes slot = false ∧ s'.ctes = setEmpty a s.ctes slot ∧
        s'.intStateIRQTable = s.intStateIRQTable) ∨
      (isFinalCap a s.ctes slot = true ∧
        (∃ x, finalisedAtOnce (s.ctes.capType x) = true ∧
          s'.ctes = setEmpty a (setEmpty a s.ctes x) slot) ∧
        s'.intStateIRQTable =
          Function.update s.intStateIRQTable (getIrqHandler a (s.ctes slot).cap) 0) := by
  have hcap : getCapType (s.ctes slot).cap = .irqHandlerCap := ht
  have hlive : s.ctes.capType slot ≠ .nullCap := by
    rw [ht]
    decide
  have hrem : ∀ {s₁ fc}, finaliseCap a s (s.ctes slot).cap (isFinalCap a s.ctes slot) =
      .ok (s₁, fc) → fc.remainder = newNullCap := by
    intro s₁ fc hfc
    rcases finaliseCap_handler hcap hfc with ⟨-, -, rfl⟩ | ⟨-, rfl, -⟩ <;> rfl
  obtain ⟨s₁, fc, hfc, rfl, -⟩ := deleteAll_removable hlive hrem h
  rw [ctes_setEmptySlot]
  rcases finaliseCap_handler hcap hfc with ⟨hf, rfl, rfl⟩ | ⟨hf, rfl, hdel⟩
  · exact .inl ⟨hf, rfl, irqTable_setEmptySlot (by decide)⟩
  have hkind := (deleteOne_view hdel).1
  have htable := irqTable_deleteOne hdel
  have hctes := ctes_deleteOne hdel
  refine .inr ⟨hf, ⟨_, hkind, by rw [hctes]⟩, ?_⟩
  -- the slot still holds the cap when it is emptied
  have hslot : s₁.ctes.capType slot ≠ .nullCap := by
    have hne : slot ≠ offsetSlot s.intStateIRQNode (getIrqHandler a (s.ctes slot).cap) := by
      intro e
      rw [← e, ht] at hkind
      cases hkind
    rw [hctes, capType_setEmpty, if_neg hne]
    exact hlive
  unfold setEmptySlot postCapDeletion
  rw [if_pos hslot, if_pos hcap, ← htable]
  rfl

end Rel4.Kernel
