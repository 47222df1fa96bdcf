import Rel4.Ipc.TransferRule

/-!
What the transfer of a message leaves alone.

`eraseMessage` blanks out what a message can consist of: the message registers
of every thread, memory, and the slots into which caps may be received. Nothing
else changes between two states that `MessageEq` connects.
-/

namespace Rel4.Ipc
open Lib.Bitfield Common CSpace Rel4.Task Task.KernelState

variable (a : Arch)

def eraseTcbMessage (t : Tcb) : Tcb :=
  { t with registers := fun i => if i ∈ messageRegisters a then 0 else t.registers i }

def eraseMessage (s : KernelState) : KernelState :=
  { s with
    tcbs := fun t => eraseTcbMessage a (s.tcbs t)
    ctes := fun _ => emptyCte
    origin := fun _ => ⟨0, [], 0⟩
    fresh := 0
    userMemory := fun _ => 0 }

/-- The states differ only in what messages consist of. -/
def MessageEq (s s' : KernelState) : Prop := eraseMessage a s = eraseMessage a s'

variable {a} {s s' : KernelState} {t : Word}

namespace MessageEq

theorem refl (s : KernelState) : MessageEq a s s := rfl

theorem trans (h : MessageEq a s s') (h' : MessageEq a s' s'') : MessageEq a s s'' := Eq.trans h h'

theorem proj {γ : Type} (f : KernelState → γ) (h : MessageEq a s s') :
    f (eraseMessage a s) = f (eraseMessage a s') :=
  congrArg f h

theorem register (h : MessageEq a s s') (t : Word) (hi : i ∉ messageRegisters a) :
    (s.tcbs t).registers i = (s'.tcbs t).registers i := by
  have := h.proj fun s => (s.tcbs t).registers i
  simpa only [eraseMessage, eraseTcbMessage, if_neg hi] using this

end MessageEq

theorem messageEq_setRegister (hr : r.toIndex a ∈ messageRegisters a) (v : Word) :
    MessageEq a (s.setRegister a t r v) s := by
  unfold MessageEq eraseMessage
  congr 1
  refine funext (proj_modifyTcb (eraseTcbMessage a) ?_)
  unfold eraseTcbMessage
  congr 1
  funext i
  by_cases hi : i ∈ messageRegisters a
  · rw [if_pos hi, if_pos hi]
  · rw [if_neg hi, if_neg hi]
    apply Function.update_of_ne
    rintro rfl
    exact hi hr

theorem messageEq_insertCap (h : s.insertCap a c src dest = .ok s') : MessageEq a s' s := by
  obtain ⟨σ, -, h⟩ := bind_eq_ok.mp h
  cases h
  rfl

theorem messageEq_transferCap (h : transferCap a s slot dest = .ok (some s')) :
    MessageEq a s' s := by
  obtain ⟨⟨status, newCap⟩, -, h⟩ := bind_eq_ok.mp h
  simp only at h
  split at h
  · cases h
  · obtain ⟨s₁, hs, h⟩ := bind_eq_ok.mp h
    cases h
    exact messageEq_insertCap hs

theorem messageEq_rule (receiver : Word) : TransferRule a receiver fun s s' => MessageEq a s' s where
  refl := .refl
  trans h h' := h'.trans h
  setRegister hr v := messageEq_setRegister hr v
  setUserWord _ _ _ := rfl
  transferCap _ h := messageEq_transferCap h

theorem messageEq_doIpcTransfer (h : doIpcTransfer a s t receiver endpoint badge grant = .ok s') :
    MessageEq a s' s :=
  (messageEq_rule receiver).doIpcTransfer h

end Rel4.Ipc
