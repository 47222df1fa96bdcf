import Rel4.Ipc.TransferFrame
import Rel4.Kernel.Tcb

/-!
The processor mode of user threads on aarch64.

`restore_user_context` loads SPSR_EL1 from the saved registers of the current
thread; its low four bits are the mode in which the thread goes on, 0 for EL0t.
The word is one of the frame registers and of the registers of fault messages,
and so it is open to WriteRegisters and to replies to faults. `SpsrCall.written`
says for each call to which thread it writes which word.
-/

namespace Rel4.Kernel
open Lib.Bitfield Lib.Loop Common CSpace Rel4.Task Ipc Function
open Task.KernelState
open ArchReg (faultMessage msg gp frame)

variable {buffer dest flag receiver slot t : Word} {cap : CapT} {r : Nat → ArchReg}
  {i j n : Nat} {f : Nat → KernelState → Word} {c : SpsrCall}

/-- `SPSR_EL1` -/
def spsrEL1 : Nat := 33

/-- The word that is loaded into SPSR_EL1 when the thread is resumed. -/
def spsr (s : KernelState) (t : Word) : Word := (s.tcbs t).registers spsrEL1

/-- The mode field says EL0t. -/
def IsEL0t (w : Word) : Prop := w &&& 0xf = 0

/-- The user threads are all resumed in user mode. -/
def Confined (user : Word → Prop) (s : KernelState) : Prop := ∀ t, user t → IsEL0t (spsr s t)

/-! ## Registers that deletion and scheduling leave alone -/

def SameRegisters (s s' : KernelState) : Prop :=
  ∀ t, (s'.tcbs t).registers = (s.tcbs t).registers

variable {a : Arch} {s s' : KernelState}

theorem SameRegisters.trans (h : SameRegisters s s') (h' : SameRegisters s' s'') :
    SameRegisters s s'' := fun t => (h' t).trans (h t)

theorem SameRegisters.spsr (h : SameRegisters s s') (t : Word) : spsr s' t = spsr s t :=
  congrFun (h t) _

theorem sameRegisters_of_ipcEq (h : IpcEq s' s) : SameRegisters s s' := h.registers

theorem sameRegisters_of_vspaceEq (h : VSpaceEq s' s) : SameRegisters s s' :=
  fun t => congrArg Tcb.registers (congrFun h.tcbs t)

theorem sameRegisters_modifyTcb {f : Tcb → Tcb} (h : ∀ tcb, (f tcb).registers = tcb.registers) :
    SameRegisters s (s.modifyTcb t f) := proj_modifyTcb (·.registers) (h _)

theorem sameRegisters_rule : DeletionRule a (fun _ _ => True) SameRegisters where
  refl _ _ := rfl
  trans := .trans
  archFinaliseCap h := sameRegisters_of_vspaceEq (.archFinaliseCap h)
  cancelAllIpc _ h := sameRegisters_of_ipcEq (ipcEq_cancelAllIpc h)
  cancelAllSignal _ h := sameRegisters_of_ipcEq (ipcEq_cancelAllSignal h)
  safeUnbindTcb s n := by
    unfold safeUnbindTcb
    simp only
    split
    · exact sameRegisters_modifyTcb fun _ => rfl
    · exact fun _ => rfl
  thread _ := trivial
  safeUnbindNotification s t := by
    unfold safeUnbindNotification
    simp only
    split
    · exact sameRegisters_modifyTcb (s := setBoundTcb a s (s.tcbs t).tcbBoundNotification 0)
        fun _ => rfl
    · exact fun _ => rfl
  epCancelIpc _ _ := sameRegisters_of_ipcEq (ipcEq_epCancelIpc _)
  cancelSignal _ _ := sameRegisters_of_ipcEq (ipcEq_cancelSignal _)
  clearFault _ := sameRegisters_of_ipcEq (ipcEq_modifyTcb rfl)
  suspend _ _ := sameRegisters_of_ipcEq ipcEq_suspend
  setEmptySlot _ _ _ _ := rfl
  setZombie _ _ := rfl
  swapSlots _ _ _ _ := rfl
  preemptionPoint _ _ _ _ := rfl

theorem sameRegisters_restart : SameRegisters s (s.restart a t) := by
  have hmaster : SameRegisters s (s.setupReplyMaster a t) := by
    unfold setupReplyMaster
    simp only
    split <;> exact fun _ => rfl
  unfold restart
  split
  · refine hmaster.trans (sameRegisters_of_ipcEq ?_)
    exact (ipcEq_of_schedEq schedEq_possibleSwitchTo).trans
      (ipcEq_schedEnqueue.trans (ipcEq_setThreadState _))
  · exact fun _ => rfl

theorem sameRegisters_suspendIf (h : suspendIf a s flag t = .ok s') : SameRegisters s s' := by
  unfold suspendIf at h
  split at h
  · obtain ⟨s₁, hs, h⟩ := bind_eq_ok.mp h
    cases h
    exact (sameRegisters_rule.cancelIpc trivial hs).trans (sameRegisters_rule.suspend trivial hs)
  · cases h
    exact fun _ => rfl

theorem sameRegisters_resumeIf (h : resumeIf a s flag t = .ok s') : SameRegisters s s' := by
  unfold resumeIf at h
  split at h
  · obtain ⟨s₁, hs, h⟩ := bind_eq_ok.mp h
    cases h
    exact (sameRegisters_rule.cancelIpc trivial hs).trans sameRegisters_restart
  · cases h
    exact fun _ => rfl

theorem sameRegisters_rescheduleIfCurrent : SameRegisters s (rescheduleIfCurrent a s t) := by
  unfold rescheduleIfCurrent
  split
  · exact sameRegisters_of_ipcEq (ipcEq_of_schedEq schedEq_rescheduleRequired)
  · exact fun _ => rfl

/-! ## Loops that write registers -/

theorem spsr_setRegister {r : ArchReg} (x : Word) : spsr (s.setRegister .aarch64 t r v) x =
      if x = t ∧ r.toIndex .aarch64 = spsrEL1 then v else spsr s x := by
  unfold spsr setRegister modifyTcb
  by_cases hx : x = t
  · subst hx
    by_cases hr : r.toIndex .aarch64 = spsrEL1
    · simp [hr]
    · simp [hr, update_of_ne (Ne.symm hr)]
  · simp [hx]

theorem spsr_setRegister_of_ne {r : ArchReg} (hr : r.toIndex .aarch64 ≠ spsrEL1) (x : Word) :
    spsr (s.setRegister .aarch64 t r v) x = spsr s x := by
  rw [spsr_setRegister, if_neg fun h => hr h.2]

/-- A loop over registers of one thread of which the `k`-th, and no other, is
SPSR_EL1. `J` is what the loop keeps and the value for that turn depends on. -/
theorem spsr_forLoop {J : KernelState → Prop} {k : Nat} (hJ : J s)
    (hstep : ∀ j s', i ≤ j → j < i + n → J s' → J (s'.setRegister .aarch64 dest (r j) (f j s')))
    (hidx : ∀ j, i ≤ j → j < i + n → ((r j).toIndex .aarch64 = spsrEL1 ↔ j = k))
    (hv : i ≤ k → k < i + n → ∀ s', J s' → f k s' = v) (t : Word) :
    spsr (forLoop (fun j s' => s'.setRegister .aarch64 dest (r j) (f j s')) i n s) t =
      if t = dest ∧ i ≤ k ∧ k < i + n then v else spsr s t := by
  refine (forLoop_induct
    (P := fun j s' => J s' ∧ spsr s' t = if t = dest ∧ i ≤ k ∧ k < j then v else spsr s t)
    ⟨hJ, ?_⟩ ?_).2
  · rw [if_neg]
    rintro ⟨-, h₁, h₂⟩
    omega
  · rintro j s' hij hjn ⟨hJ', hs'⟩
    refine ⟨hstep j s' hij hjn hJ', ?_⟩
    rw [spsr_setRegister, hs']
    simp only [hidx j hij hjn]
    by_cases ht : t = dest
    · by_cases hjk : j = k
      · subst hjk
        rw [if_pos ⟨ht, rfl⟩, if_pos ⟨ht, hij, by omega⟩, hv hij hjn s' hJ']
      · have hlt : k < j + 1 ↔ k < j := by omega
        simp only [hjk, hlt, and_false, if_false]
    · simp only [ht, false_and, if_false]

/-- A loop over registers without SPSR_EL1. -/
theorem spsr_forLoop_of_ne (hidx : ∀ j, i ≤ j → j < i + n → (r j).toIndex .aarch64 ≠ spsrEL1)
    (t : Word) :
    spsr (forLoop (fun j s' => s'.setRegister .aarch64 dest (r j) (f j s')) i n s) t = spsr s t := by
  refine forLoop_preserves (P := fun s' => spsr s' t = spsr s t) rfl fun j s' hij hjn h => ?_
  rw [spsr_setRegister_of_ne (hidx j hij hjn), h]

theorem frame_index_iff (hj : j < frameRegNum .aarch64) :
    (frame j).toIndex .aarch64 = spsrEL1 ↔ j = 2 := by
  have h : ∀ j : Fin 17, (frame j).toIndex .aarch64 = spsrEL1 ↔ j.val = 2 := by decide
  exact h ⟨j, hj⟩

theorem gp_index_ne (hj : j < gpRegNum .aarch64) : (gp j).toIndex .aarch64 ≠ spsrEL1 := by
  have h : ∀ j : Fin 19, (gp j).toIndex .aarch64 ≠ spsrEL1 := by decide
  exact h ⟨j, hj⟩

/-- WriteRegisters with three words or more writes the fifth message word. -/
theorem spsr_writeRegisters (dest : Word) (n : Nat) (buffer t : Word) :
    spsr (writeRegisters .aarch64 s dest n buffer) t =
      if t = dest ∧ 3 ≤ n then getSyscallArg .aarch64 s 4 buffer else spsr s t := by
  unfold writeRegisters
  rw [spsr_forLoop_of_ne fun j _ hj => gp_index_ne (by omega)]
  rw [spsr_forLoop (J := fun s' => s'.userMemory = s.userMemory)
    (v := getSyscallArg .aarch64 s 4 buffer) rfl (fun _ _ _ _ h => h)
    (fun j _ hj => frame_index_iff (by omega))]
  · have hn : (0 ≤ 2 ∧ 2 < 0 + min (min n (frameRegNum .aarch64 + gpRegNum .aarch64))
        (frameRegNum .aarch64)) ↔ 3 ≤ n := by
      have h17 : frameRegNum .aarch64 = 17 := rfl
      omega
    simp only [hn]
  · intro _ _ s' hs'
    exact congrFun hs' _

theorem spsr_invokeTcbWriteRegisters {n : Word}
    (h : invokeTcbWriteRegisters .aarch64 s dest resume n buffer = .ok s') (t : Word) :
    spsr s' t = if t = dest ∧ 3 ≤ n.toNat then getSyscallArg .aarch64 s 4 buffer else spsr s t := by
  obtain ⟨s₁, hs, h⟩ := bind_eq_ok.mp h
  cases h
  rw [sameRegisters_rescheduleIfCurrent.spsr, (sameRegisters_resumeIf hs).spsr,
    spsr_setRegister_of_ne (by decide), spsr_writeRegisters]

theorem spsr_copyGpRegisters (dest src t : Word) :
    spsr (copyGpRegisters .aarch64 s dest src) t = spsr s t :=
  spsr_forLoop_of_ne (fun _ _ hj => gp_index_ne (by omega)) t

theorem spsr_invokeTcbCopyRegisters {src suspend transfer : Word}
    (h : invokeTcbCopyRegisters .aarch64 s dest src suspend resume transfer = .ok s') (t : Word) :
    spsr s' t = spsr s t := by
  obtain ⟨s₁, hs₁, h⟩ := bind_eq_ok.mp h
  obtain ⟨s₂, hs₂, h⟩ := bind_eq_ok.mp h
  cases h
  have hkept := (sameRegisters_suspendIf hs₁).trans (sameRegisters_resumeIf hs₂)
  rw [sameRegisters_rescheduleIfCurrent.spsr, ← hkept.spsr]
  split
  · exact spsr_copyGpRegisters dest src t
  · rfl

theorem sameRegisters_restartCurrent : SameRegisters s (restartCurrent a s) :=
  sameRegisters_of_ipcEq (ipcEq_setThreadState _)

/-- Scheduling does not touch the words of a message. -/
theorem getSyscallArg_restartCurrent :
    getSyscallArg a (restartCurrent a s) i buffer = getSyscallArg a s i buffer := by
  have heq : IpcEq (restartCurrent a s) s := ipcEq_setThreadState _
  have hcur : (restartCurrent a s).ksCurThread = s.ksCurThread := heq.proj ksCurThread
  unfold getSyscallArg getRegister
  rw [hcur, heq.registers, heq.userMemory]

/-! ## Calls -/

/-- The calls with which user threads write registers of others. -/
inductive SpsrCall where
  | write (cap : CapT) (length buffer : Word)
  | copy (cap : CapT) (buffer : Word)
  | reply (t receiver slot : Word) (grant : Bool)

namespace SpsrCall

def run (s : KernelState) : SpsrCall → Exec KernelState
  | write cap length buffer => do
    let r ← decodeWriteRegisters .aarch64 s cap length buffer
    return r.1
  | copy cap buffer => do
    let r ← decodeCopyRegisters .aarch64 s cap buffer
    return r.1
  | reply t receiver slot grant => doReply .aarch64 s t receiver slot grant

/-- The length of the message that a thread sends. -/
def messageLength (s : KernelState) (t : Word) : Nat :=
  (MessageInfo.fromWordSecurity (s.getRegister .aarch64 t .msgInfo)).getLength.toNat

/-- The thread whose SPSR_EL1 the call writes, and the word. -/
def written (s : KernelState) : SpsrCall → Option (Word × Word)
  | write cap length buffer =>
    let w := getSyscallArg .aarch64 s 1 buffer
    if 2 ≤ length ∧ w ≤ length - 2 ∧ getTcbPtr .aarch64 cap ≠ s.ksCurThread ∧ 3 ≤ w.toNat then
      some (getTcbPtr .aarch64 cap, getSyscallArg .aarch64 s 4 buffer)
    else none
  | copy _ _ => none
  | reply t receiver _ _ =>
    match getFaultType (s.tcbs receiver).tcbFault with
    | .unknownSyscall =>
      match s.lookupIpcBuffer .aarch64 t false with
      | .ok (some buffer) =>
        if 12 ≤ messageLength s t then some (receiver, s.userMemory (bufferMsg buffer 11)) else none
      | _ => none
    | .userException =>
      if 3 ≤ messageLength s t then some (receiver, s.getRegister .aarch64 t (.msg 2)) else none
    | _ => none

/-- The cap from which registers are copied is a TCB cap, which the decoder does not check:
with another one it takes any memory for a thread. A reply goes through a slot with a
reply cap. -/
def Valid (s : KernelState) : SpsrCall → Prop
  | write _ _ _ => True
  | copy _ _ => ∀ slot, getExtraCapByIndex s 0 = some slot → s.ctes.capType slot = .threadCap
  | reply _ _ slot _ => s.ctes.capType slot = .replyCap

/-- What becomes of the words for SPSR_EL1 when `o` is written. -/
def update (s : KernelState) (o : Option (Word × Word)) (t : Word) : Word :=
  match o with
  | some (dest, w) => if t = dest then w else spsr s t
  | none => spsr s t

theorem spsr_write {length : Word} (h : (write cap length buffer).run s = .ok s') (t : Word) :
    spsr s' t = update s ((write cap length buffer).written s) t := by
  obtain ⟨⟨s₁, e⟩, hdec, h⟩ := bind_eq_ok.mp h
  cases h
  unfold decodeWriteRegisters at hdec
  simp only [written]
  split at hdec
  · rename_i hlen
    rw [if_neg fun h => absurd h.1 (BitVec.not_le.mpr hlen)]
    cases hdec
    rfl
  rename_i hlen
  simp only at hdec
  split at hdec
  · rename_i hw
    rw [if_neg fun h => absurd h.2.1 (BitVec.not_le.mpr hw)]
    cases hdec
    rfl
  rename_i hw
  split at hdec
  · rename_i hcur
    rw [if_neg fun h => h.2.2.1 hcur]
    cases hdec
    rfl
  rename_i hcur
  obtain ⟨s₂, hinv, hdec⟩ := bind_eq_ok.mp hdec
  cases hdec
  have hlen : 2 ≤ length := BitVec.not_lt.mp hlen
  have hw := BitVec.not_lt.mp hw
  rw [spsr_invokeTcbWriteRegisters hinv, getSyscallArg_restartCurrent,
    sameRegisters_restartCurrent.spsr]
  by_cases hn : 3 ≤ (getSyscallArg .aarch64 s 1 buffer).toNat
  · simp only [update, hlen, hw, hcur, hn, ne_eq, not_false_eq_true, and_true, if_true]
  · simp only [update, hn, and_false, if_false]

theorem spsr_copy (h : (copy cap buffer).run s = .ok s') (t : Word) :
    spsr s' t = update s ((copy cap buffer).written s) t := by
  obtain ⟨⟨s₁, e⟩, hdec, h⟩ := bind_eq_ok.mp h
  cases h
  unfold decodeCopyRegisters at hdec
  split at hdec
  · cases hdec
  split at hdec
  · cases hdec
    rfl
  · obtain ⟨-, -, hdec⟩ := bind_eq_ok.mp hdec
    obtain ⟨-, -, hdec⟩ := bind_eq_ok.mp hdec
    obtain ⟨s₂, hinv, hdec⟩ := bind_eq_ok.mp hdec
    cases hdec
    exact spsr_invokeTcbCopyRegisters hinv t

/-! ### Replies -/

/-- What a loop over registers leaves alone. -/
theorem forLoop_setRegister_keeps
    (h : s₁ = forLoop (fun j s' => s'.setRegister a dest (r j) (f j s')) i n s) :
    s₁.ctes = s.ctes ∧ s₁.userMemory = s.userMemory ∧
      ∀ x, (s₁.tcbs x).tcbIPCBuffer = (s.tcbs x).tcbIPCBuffer := by
  subst h
  refine forLoop_preserves (P := fun s' : KernelState => s'.ctes = s.ctes ∧
    s'.userMemory = s.userMemory ∧ ∀ x, (s'.tcbs x).tcbIPCBuffer = (s.tcbs x).tcbIPCBuffer)
    ⟨rfl, rfl, fun _ => rfl⟩ ?_
  rintro j s' - - ⟨hc, hm, hb⟩
  refine ⟨hc, hm, fun x => ?_⟩
  rw [← hb x]
  unfold setRegister modifyTcb
  by_cases hx : x = dest
  · subst hx
    simp
  · simp [hx]

theorem syscall_index_iff (hj : j < 12) :
    (faultMessage messageIDSyscall j).toIndex .aarch64 = spsrEL1 ↔ j = 11 := by
  have h : ∀ j : Fin 12, (faultMessage messageIDSyscall j).toIndex .aarch64 = spsrEL1 ↔
      j.val = 11 := by decide
  exact h ⟨j, hj⟩

theorem exception_index_iff (hj : j < 3) :
    (faultMessage messageIDException j).toIndex .aarch64 = spsrEL1 ↔ j = 2 := by
  have h : ∀ j : Fin 3, (faultMessage messageIDException j).toIndex .aarch64 = spsrEL1 ↔
      j.val = 2 := by decide
  exact h ⟨j, hj⟩

theorem spsr_copyFaultMrs_syscall
    (h : s.copyFaultMrsForReply .aarch64 t receiver messageIDSyscall (min n 12) = .ok s') (x : Word) :
    spsr s' x = update s (match s.lookupIpcBuffer .aarch64 t false with
      | .ok (some buffer) =>
        if 12 ≤ n then some (receiver, s.userMemory (bufferMsg buffer 11)) else none
      | _ => none) x := by
  obtain ⟨o, ho, h⟩ := bind_eq_ok.mp h
  generalize hs₁ : forLoop _ 0 _ s = s₁ at ho h
  obtain ⟨hc, hm, hb⟩ := forLoop_setRegister_keeps hs₁.symm
  have hspsr : spsr s₁ x = spsr s x := by
    rw [← hs₁]
    refine spsr_forLoop_of_ne (fun j _ hj => ?_) x
    have h4 : msgRegisterNum = 4 := rfl
    rw [ne_eq, syscall_index_iff (by omega)]
    omega
  rw [lookupIpcBuffer_congr (by rw [hc]) (hb t)] at ho
  rw [ho]
  cases o with
  | none =>
    cases h
    exact hspsr
  | some buffer =>
    cases h
    have h4 : msgRegisterNum = 4 := rfl
    rw [spsr_forLoop (v := s.userMemory (bufferMsg buffer 11)) hm (fun _ _ _ _ h => h)
      (fun j _ hj => syscall_index_iff (by omega)) (fun _ _ s' hs' => congrFun hs' _), hspsr]
    have hn : (min (min n 12) msgRegisterNum ≤ 11 ∧ 11 < min (min n 12) msgRegisterNum +
        (min n 12 - min (min n 12) msgRegisterNum)) ↔ 12 ≤ n := by omega
    simp only [hn]
    by_cases h12 : 12 ≤ n
    · simp only [update, h12, and_true, if_true]
    · simp only [update, h12, and_false, if_false]

theorem spsr_copyFaultMrs_exception
    (h : s.copyFaultMrsForReply .aarch64 t receiver messageIDException (min n 3) = .ok s')
    (x : Word) :
    spsr s' x = update s
      (if 3 ≤ n then some (receiver, s.getRegister .aarch64 t (.msg 2)) else none) x := by
  obtain ⟨o, ho, h⟩ := bind_eq_ok.mp h
  have hlen : min (min n 3) msgRegisterNum = min n 3 := by
    have h4 : msgRegisterNum = 4 := rfl
    omega
  rw [hlen] at ho h
  have hs' : s' = forLoop (fun i s => s.setRegister .aarch64 receiver
      (.faultMessage messageIDException i) (s.getRegister .aarch64 t (.msg i))) 0 (min n 3) s := by
    rw [Nat.sub_self] at h
    cases o <;> cases h <;> rfl
  have hidx : ∀ j, j < 3 → (faultMessage messageIDException j).toIndex .aarch64 ≠
      (msg 2).toIndex .aarch64 := by
    have h : ∀ j : Fin 3, (faultMessage messageIDException j).toIndex .aarch64 ≠
        (msg 2).toIndex .aarch64 := by decide
    exact fun j hj => h ⟨j, hj⟩
  rw [hs', spsr_forLoop (v := s.getRegister .aarch64 t (.msg 2))
    (J := fun s' => s'.getRegister .aarch64 t (.msg 2) = s.getRegister .aarch64 t (.msg 2))
    rfl ?_ (fun j _ hj => exception_index_iff (by omega)) (fun _ _ _ h => h)]
  · have hn : (0 ≤ 2 ∧ 2 < 0 + min n 3) ↔ 3 ≤ n := by omega
    simp only [hn]
    by_cases h3 : 3 ≤ n
    · simp only [update, h3, and_true, if_true]
    · simp only [update, h3, and_false, if_false]
  · intro j s' _ hj hJ
    rw [← hJ]
    unfold getRegister setRegister modifyTcb
    by_cases ht : t = receiver
    · subst ht
      simp [update_of_ne (hidx j (by omega)).symm]
    · simp [ht]

theorem lookupIpcBuffer_setEmpty (h : s.ctes.capType slot = .replyCap) :
    (s.setCtes (setEmpty a s.ctes slot)).lookupIpcBuffer a t b = s.lookupIpcBuffer a t b := by
  have hne : s.ctes.capType slot ≠ .nullCap := by
    rw [h]
    decide
  have hcap := (setEmpty_effect (a := a) hne).cap
  by_cases hslot : getCspace a t tcbBuffer = slot
  · -- a slot with a reply cap is no buffer, before and after
    have hbefore : getCapType (s.ctes slot).cap ≠ .frameCap := by
      rw [show getCapType (s.ctes slot).cap = .replyCap from h]
      decide
    have hafter : getCapType (setEmpty a s.ctes slot slot).cap ≠ .frameCap := by
      rw [hcap, if_pos rfl]
      decide
    unfold lookupIpcBuffer
    simp only [hslot, setCtes, if_pos hbefore, if_pos hafter]
  · refine lookupIpcBuffer_congr ?_ rfl
    exact (hcap _).trans (if_neg hslot)

theorem spsr_doFaultReplyTransfer (slot : Word) (grant : Bool)
    (h : doFaultReplyTransfer .aarch64 s t receiver = .ok (s', restarts)) (x : Word) :
    spsr s' x = update s ((reply t receiver slot grant).written s) x := by
  unfold doFaultReplyTransfer at h
  simp only [written]
  cases hfault : getFaultType (s.tcbs receiver).tcbFault <;> simp only [hfault] at h
  case unknownSyscall =>
    obtain ⟨s₁, hs, h⟩ := bind_eq_ok.mp h
    cases h
    exact spsr_copyFaultMrs_syscall hs x
  case userException =>
    obtain ⟨s₁, hs, h⟩ := bind_eq_ok.mp h
    cases h
    exact spsr_copyFaultMrs_exception hs x
  all_goals
    cases h
    rfl

theorem spsr_reply (hslot : s.ctes.capType slot = .replyCap)
    (h : doReply .aarch64 s t receiver slot grant = .ok s') (x : Word) :
    spsr s' x = update s ((reply t receiver slot grant).written s) x := by
  have hswitch : ∀ {s : KernelState} {state}, SameRegisters s
      ((s.setThreadState .aarch64 receiver state).possibleSwitchTo .aarch64 receiver) :=
    sameRegisters_of_ipcEq ((ipcEq_of_schedEq schedEq_possibleSwitchTo).trans
      (ipcEq_setThreadState _))
  obtain ⟨-, -, h⟩ := bind_eq_ok.mp h
  split at h
  · rename_i hnull
    obtain ⟨s₁, hs₁, h⟩ := bind_eq_ok.mp h
    obtain ⟨s₂, hs₂, h⟩ := bind_eq_ok.mp h
    cases h
    simp only [written, hnull]
    rw [hswitch.spsr, (sameRegisters_rule.deleteOne hs₂).spsr]
    exact (messageEq_doIpcTransfer hs₁).register x (by decide)
  · rw [deleteOne_reply hslot] at h
    obtain ⟨s₁, hs₁, h⟩ := bind_eq_ok.mp h
    obtain ⟨⟨s₂, restarts⟩, hs₂, h⟩ := bind_eq_ok.mp h
    have hlast : spsr s' x = spsr s₂ x := by
      simp only at h
      split at h
      · cases h
        exact hswitch.spsr x
      · cases h
        exact (sameRegisters_of_ipcEq (ipcEq_setThreadState _)).spsr x
    rw [hlast, spsr_doFaultReplyTransfer slot grant hs₂]
    cases hs₁
    -- the deleted reply cap makes no difference to what is written
    simp only [written, lookupIpcBuffer_setEmpty hslot]
    rfl

theorem spsr_run (hc : c.Valid s) (h : c.run s = .ok s') (t : Word) :
    spsr s' t = update s (c.written s) t := by
  cases c with
  | write cap length buffer => exact spsr_write h t
  | copy cap buffer => exact spsr_copy h t
  | reply t' receiver slot grant => exact spsr_reply hc h t

/-- A word that the call writes for a user thread says EL0t. -/
def Safe (user : Word → Prop) (s : KernelState) (c : SpsrCall) : Prop :=
  ∀ dest w, c.written s = some (dest, w) → user dest → IsEL0t w

variable {user : Word → Prop}

theorem confined_run_iff (h : Confined user s) (hc : c.Valid s) (hrun : c.run s = .ok s') :
    Confined user s' ↔ c.Safe user s := by
  have hspsr := spsr_run hc hrun
  constructor
  · intro h' dest w hw hdest
    have hd := hspsr dest
    rw [hw, update, if_pos rfl] at hd
    rw [← hd]
    exact h' dest hdest
  · intro hsafe t ht
    rw [hspsr t]
    cases hw : c.written s with
    | none => exact h t ht
    | some r =>
      obtain ⟨dest, w⟩ := r
      simp only [update]
      split
      · rename_i htd
        exact hsafe dest w hw (htd ▸ ht)
      · exact h t ht

end SpsrCall

/-! ## Runs -/

/-- The runs in which every call is safe. Between the calls anything may happen
that leaves the saved words for SPSR_EL1 alone: user threads compute and fill in
message words as they like, and the kernel does its other work. -/
inductive UserRun (user : Word → Prop) (s : KernelState) : KernelState → Prop where
  | refl : UserRun user s s
  | call {s₁ s₂ : KernelState} (run : UserRun user s s₁) (c : SpsrCall) (valid : c.Valid s₁)
      (safe : c.Safe user s₁) (returns : c.run s₁ = .ok s₂) : UserRun user s s₂
  | other {s₁ s₂ : KernelState} (run : UserRun user s s₁) (keeps : ∀ t, spsr s₂ t = spsr s₁ t) :
      UserRun user s s₂

variable {user : Word → Prop}

theorem UserRun.confined (hrun : UserRun user s s') (h : Confined user s) : Confined user s' := by
  induction hrun with
  | refl => exact h
  | call _ c valid safe returns ih => exact (c.confined_run_iff ih valid returns).mpr safe
  | other _ keeps ih =>
    intro t ht
    rw [keeps t]
    exact ih t ht

def writingThread : Word := 0xffffff8000004000

/-- The current thread writes three registers of a thread, the third being `w`. -/
def threeWords (w : Word) : KernelState :=
  { zero with
    ksCurThread := writingThread
    tcbs := update (fun _ => Tcb.zero) writingThread { Tcb.zero with
      registers := fun i => if i = (msg 1).toIndex .aarch64 then 3 else 0 }
    userMemory := update (fun _ => 0) (bufferMsg 0x1000 4) w }

def writtenThread : CapT := newThreadCap .aarch64 0xffffff8000004800

theorem threeWords_confined (w : Word) : Confined (fun _ => True) (threeWords w) := by
  intro t _
  have hzero : spsr (threeWords w) t = 0 := by
    by_cases ht : t = writingThread
    · subst ht
      rfl
    · simp only [spsr, threeWords, update_of_ne ht]
      rfl
  rw [hzero]
  rfl

/-- In every state of a run whose calls are safe the user threads are confined,
and the next call keeps them so just if it is safe too. -/
theorem userRun_confined (user : Word → Prop) (s s' : KernelState) (h : Confined user s)
    (hrun : UserRun user s s') :
    Confined user s' ∧ ∀ c s'', SpsrCall.Valid s' c → c.run s' = .ok s'' →
      (Confined user s'' ↔ c.Safe user s') := by
  have h' := hrun.confined h
  exact ⟨h', fun c s'' hc hrun' => c.confined_run_iff h' hc hrun'⟩

theorem userRun_confined_write :
    ∃ s, (SpsrCall.write writtenThread 5 0x1000).run (threeWords 0x140) = .ok s ∧
      Confined (fun _ => True) s := by
  obtain ⟨s, hs, -⟩ := Exec.satisfies_iff.mp (by decide +kernel :
    ((SpsrCall.write writtenThread 5 0x1000).run (threeWords 0x140)).satisfies
      (fun _ => true) = true)
  refine ⟨s, hs, ((userRun_confined (fun _ => True) _ _ (threeWords_confined 0x140) .refl).2
    (.write writtenThread 5 0x1000) s trivial hs).mpr fun dest w hw _ => ?_⟩
  have hwritten : (SpsrCall.write writtenThread 5 0x1000).written (threeWords 0x140) =
      some (0xffffff8000004800, 0x140) := by decide +kernel
  cases hwritten.symm.trans hw
  rfl

/-- With 5 for the third register the thread is resumed at EL1. -/
theorem writeRegisters_escapes :
    ∃ s, (SpsrCall.write writtenThread 5 0x1000).run (threeWords 5) = .ok s ∧
      Confined (fun _ => True) (threeWords 5) ∧ spsr s 0xffffff8000004800 = 5 ∧
      ¬IsEL0t (spsr s 0xffffff8000004800) := by
  obtain ⟨s, hs, hspsr⟩ := Exec.satisfies_iff.mp (by decide +kernel :
    ((SpsrCall.write writtenThread 5 0x1000).run (threeWords 5)).satisfies
      (fun s => spsr s 0xffffff8000004800 = 5) = true)
  have hspsr := of_decide_eq_true hspsr
  refine ⟨s, hs, threeWords_confined 5, hspsr, ?_⟩
  rw [hspsr, IsEL0t]
  decide

end Rel4.Kernel
