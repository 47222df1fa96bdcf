import Rel4.Ipc.Transfer
import Rel4.Kernel.Derive

/-!
A rule for the transfer of messages.

A transfer writes message registers of the receiver and words of memory, and it
derives caps of the sender into a slot of the receiver. Whatever relation between
states these keep holds between the states before and after the transfer.
`MessageRule` leaves out the caps: it is for messages without the right to grant.
-/

namespace Rel4.Ipc
open Lib.Bitfield Lib.Loop Common Rel4.Task
open Kernel

variable {r : KernelState × Nat} {f : Nat → KernelState → Word}
  {i : Nat}

/-- The badge, the message info and the message registers. -/
def messageRegisters (a : Arch) : List Nat :=
  [ArchReg.badge, .msgInfo, .msg 0, .msg 1, .msg 2, .msg 3].map (ArchReg.toIndex a)

variable {a : Arch} {s : KernelState} {receiver : Word}

theorem badge_mem : ArchReg.badge.toIndex a ∈ messageRegisters a := by
  cases a <;> decide

theorem msgInfo_mem : ArchReg.msgInfo.toIndex a ∈ messageRegisters a := by
  cases a <;> decide

theorem msg_mem (hi : i < msgRegisterNum) : (ArchReg.msg i).toIndex a ∈ messageRegisters a := by
  have h : ∀ j : Fin 4, (ArchReg.msg j).toIndex a ∈ messageRegisters a := by
    cases a <;> decide
  exact h ⟨i, hi⟩

structure MessageRule (a : Arch) (receiver : Word) (R : KernelState → KernelState → Prop) :
    Prop where
  refl : ∀ s, R s s
  trans : ∀ {s s' s''}, R s s' → R s' s'' → R s s''
  setRegister : ∀ {s r}, r.toIndex a ∈ messageRegisters a →
    ∀ v, R s (s.setRegister a receiver r v)
  setUserWord : ∀ s p v, R s (s.setUserWord p v)

structure TransferRule (a : Arch) (receiver : Word) (R : KernelState → KernelState → Prop) : Prop
    extends MessageRule a receiver R where
  transferCap : ∀ {s s' slot dest}, NodeSlot a s.ctes dest →
    transferCap a s slot dest = .ok (some s') → R s s'

/-! ## Words -/

namespace MessageRule

variable {R : KernelState → KernelState → Prop}

section

variable (hR : MessageRule a receiver R)
include hR

theorem setMr (h : s.setMr a receiver offset w = .ok r) : R s r.1 := by
  unfold KernelState.setMr at h
  split at h
  · obtain ⟨buffer, -, h⟩ := bind_eq_ok.mp h
    cases buffer with
    | none =>
      cases h
      exact hR.refl _
    | some buffer =>
      cases h
      exact hR.setUserWord _ _ _
  next hlt =>
    cases h
    exact hR.setRegister (msg_mem (Nat.lt_of_not_le hlt)) _

theorem setMrs (h : s.setMrs a receiver offset ws = .ok r) : R s r.1 := by
  induction ws generalizing s offset with
  | nil =>
    cases h
    exact hR.refl _
  | cons w ws ih =>
    cases ws with
    | nil => exact hR.setMr h
    | cons w' ws =>
      obtain ⟨⟨s₁, k⟩, hs, h⟩ := bind_eq_ok.mp h
      exact hR.trans (hR.setMr hs) (ih h)

theorem setLookupFaultMrs (h : s.setLookupFaultMrs a receiver offset fault = .ok r) : R s r.1 := by
  unfold KernelState.setLookupFaultMrs at h
  split at h <;> exact hR.setMrs h

/-- A loop that fills message registers of the receiver. -/
theorem forLoop_msg (hn : n ≤ msgRegisterNum) :
    R s (forLoop (fun i s => s.setRegister a receiver (.msg i) (f i s)) 0 n s) := by
  refine forLoop_preserves (hR.refl s) fun j s' _ hj h => ?_
  exact hR.trans h (hR.setRegister (msg_mem (by omega)) _)

theorem forLoop_memory {p : Nat → Word} :
    R s (forLoop (fun i s => s.setUserWord (p i) (f i s)) i n s) :=
  forLoop_preserves (hR.refl s) fun _ _ _ _ h =>
    hR.trans h (hR.setUserWord _ _ _)

theorem copyMrs (h : s.copyMrs a t receiver length = .ok r) : R s r.1 := by
  obtain ⟨send, -, h⟩ := bind_eq_ok.mp h
  obtain ⟨recv, -, h⟩ := bind_eq_ok.mp h
  have hloop := hR.forLoop_msg (s := s) (f := fun i s => s.getRegister a t (.msg i))
    (Nat.min_le_right length msgRegisterNum)
  split at h
  · cases h
    exact hR.trans hloop hR.forLoop_memory
  · cases h
    exact hloop

theorem copyFaultMrs {id : Nat} (h : s.copyFaultMrs a t receiver id length = .ok s') : R s s' := by
  obtain ⟨buffer, -, h⟩ := bind_eq_ok.mp h
  have hloop := hR.forLoop_msg (s := s) (f := fun i s => s.getRegister a t (.faultMessage id i))
    (Nat.min_le_right length msgRegisterNum)
  cases buffer with
  | none =>
    cases h
    exact hloop
  | some buffer =>
    cases h
    exact hR.trans hloop hR.forLoop_memory

theorem setFaultMrs (h : setFaultMrs a s t receiver = .ok r) : R s r.1 := by
  unfold Ipc.setFaultMrs at h
  simp only at h
  split at h
  · obtain ⟨⟨s₁, k⟩, hs, h⟩ := bind_eq_ok.mp h
    exact hR.trans (hR.setMrs hs) (hR.setLookupFaultMrs h)
  · obtain ⟨s₁, hs, h⟩ := bind_eq_ok.mp h
    exact hR.trans (hR.copyFaultMrs hs) (hR.setMrs h)
  · obtain ⟨s₁, hs, h⟩ := bind_eq_ok.mp h
    exact hR.trans (hR.copyFaultMrs hs) (hR.setMrs h)
  · exact hR.setMrs h
  · cases h

theorem doFaultTransfer (h : doFaultTransfer a s t receiver badge = .ok s') : R s s' := by
  obtain ⟨⟨s₁, sent⟩, hs, h⟩ := bind_eq_ok.mp h
  cases h
  exact hR.trans (hR.setFaultMrs hs)
    (hR.trans (hR.setRegister msgInfo_mem _) (hR.setRegister badge_mem _))

end

end MessageRule

/-! ## Caps -/

/-- The slot that a thread receives a cap into is a slot of a CNode. -/
theorem getReceiveSlot_nodeSlot (h : s.getReceiveSlot a t = .ok (some slot)) :
    NodeSlot a s.ctes slot := by
  obtain ⟨buffer, -, h⟩ := bind_eq_ok.mp h
  cases buffer with
  | none => cases h
  | some buffer =>
    obtain ⟨lu, -, h⟩ := bind_eq_ok.mp h
    split at h
    · cases h
    obtain ⟨lus, hlus, h⟩ := bind_eq_ok.mp h
    split at h
    · cases h
    next hok =>
      rw [not_or] at hok
      cases h
      exact resolveAddressBits_nodeSlot hlus (not_not.mp hok.1)

namespace TransferRule

variable {R : KernelState → KernelState → Prop}

theorem transferCapsFrom (hR : TransferRule a receiver R) {buffer : Word} {dest : Option Word}
    {r : KernelState × MessageInfo × Nat} (hdest : ∀ d, dest = some d → NodeSlot a s.ctes d)
    (h : transferCapsFrom a endpoint buffer extraCaps i n s info dest = .ok r) : R s r.1 := by
  induction n generalizing i s info dest with
  | zero =>
    cases h
    exact hR.refl _
  | succ n ih =>
    rw [Ipc.transferCapsFrom] at h
    split at h
    · cases h
      exact hR.refl _
    simp only at h
    split at h
    · exact hR.trans (hR.setUserWord _ _ _) (ih hdest h)
    cases dest with
    | none =>
      cases h
      exact hR.refl _
    | some dest =>
      obtain ⟨o, ho, h⟩ := bind_eq_ok.mp h
      cases o with
      | none =>
        cases h
        exact hR.refl _
      | some s₁ => exact hR.trans (hR.transferCap (hdest dest rfl) ho) (ih (by simp) h)

theorem setTransferCaps (hR : TransferRule a receiver R) {x : Word} {r : KernelState × MessageInfo}
    (h : setTransferCaps a s x endpoint info extraCaps = .ok r) : R s r.1 := by
  obtain ⟨buffer, -, h⟩ := bind_eq_ok.mp h
  cases buffer with
  | none =>
    cases h
    exact hR.refl _
  | some buffer =>
    simp only at h
    split at h
    · cases h
      exact hR.refl _
    obtain ⟨dest, hdest, h⟩ := bind_eq_ok.mp h
    obtain ⟨⟨s₁, info₁, i⟩, hs, h⟩ := bind_eq_ok.mp h
    cases h
    refine hR.transferCapsFrom (fun d hd => ?_) hs
    subst hd
    exact getReceiveSlot_nodeSlot hdest

theorem doIpcTransfer (hR : TransferRule a receiver R) {grant : Bool}
    (h : doIpcTransfer a s t receiver endpoint badge grant = .ok s') : R s s' := by
  unfold Ipc.doIpcTransfer at h
  split at h
  · obtain ⟨extraCaps, -, h⟩ := bind_eq_ok.mp h
    obtain ⟨⟨s₁, sent⟩, hcopy, h⟩ := bind_eq_ok.mp h
    obtain ⟨⟨s₂, tag⟩, hcaps, h⟩ := bind_eq_ok.mp h
    cases h
    exact hR.trans (hR.copyMrs hcopy) (hR.trans (hR.setTransferCaps hcaps)
      (hR.trans (hR.setRegister msgInfo_mem _) (hR.setRegister badge_mem _)))
  · exact hR.doFaultTransfer h

end TransferRule

end Rel4.Ipc
