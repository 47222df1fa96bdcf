import Rel4.Ipc.Payload

/-!
Fault messages and the replies to them.

A fault message carries registers of the faulting thread, chosen by a table of the
kernel; the reply writes them back through the same table. The registers in a table
are distinct, so that a reply with the words of the message changes nothing.
-/

namespace Rel4.Ipc
open Lib.Bitfield Lib.Loop Common Rel4.Task Function
open Task.KernelState
open ArchReg (faultMessage msg toIndex)

variable {i j k : Nat} {a : Arch} {s s' : KernelState} {t handler b : Word}
  {id n : Nat}

/-! ## Tables -/

/-- The table of a fault message and the number of its registers. -/
def faultTable (a : Arch) : FaultType → Option (Nat × Nat)
  | .unknownSyscall => some (messageIDSyscall, syscallMessageNum a)
  | .userException => some (messageIDException, exceptionMessageNum a)
  | _ => none

theorem faultMessage_index_inj (h : faultTable a fault = some (id, n)) (hi : i < n) (hj : j < n)
    (he : (faultMessage id i).toIndex a = (faultMessage id j).toIndex a) :
    i = j := by
  have hsyscall : ∀ i j : Fin (syscallMessageNum a),
      (faultMessage messageIDSyscall i).toIndex a =
        (faultMessage messageIDSyscall j).toIndex a → i = j := by
    cases a <;> decide
  have hexception : ∀ i j : Fin (exceptionMessageNum a),
      (faultMessage messageIDException i).toIndex a =
        (faultMessage messageIDException j).toIndex a → i = j := by
    cases a <;> decide
  cases fault <;> cases h
  · exact congrArg Fin.val (hsyscall ⟨i, hi⟩ ⟨j, hj⟩ he)
  · exact congrArg Fin.val (hexception ⟨i, hi⟩ ⟨j, hj⟩ he)

theorem faultTable_le (h : faultTable a fault = some (id, n)) : n ≤ 12 := by
  cases fault <;> cases h
  · cases a <;> decide
  · cases a <;> decide

/-- The words of one buffer are apart. -/
theorem bufferMsg_inj_self (hi : i < 120) (hj : j < 120) (h : bufferMsg b i = bufferMsg b j) :
    i = j := by
  rw [bufferMsg_eq, bufferMsg_eq] at h
  have heq := congrArg BitVec.toNat h
  rw [BitVec.toNat_add, BitVec.toNat_add, toNat_wordOffset (by omega),
    toNat_wordOffset (by omega)] at heq
  omega

/-! ## The message -/

/-- The handler has the registers of the table as the first words of its message. -/
def CarriesRegisters (a : Arch) (s s' : KernelState) (t handler b : Word) (id n : Nat) : Prop :=
  ∀ i < n, messageWord a s' handler (some b) i =
    (s.tcbs t).registers ((faultMessage id i).toIndex a)

/-- A message of `n` words, written in one loop over the message registers and one
over the words of the buffer. -/
theorem messageWord_written {v : Nat → Word} (hn : n ≤ 120) (hi : i < n) :
    messageWord a ((s.withRegisters t (forLoop (fun i regs =>
        update regs ((msg i).toIndex a) (v i)) 0 (min n msgRegisterNum)
        (s.tcbs t).registers)).withMemory
      (forLoop (fun i mem => update mem (bufferMsg b i) (v i)) (min n msgRegisterNum)
        (n - min n msgRegisterNum) s.userMemory)) t (some b) i = v i := by
  obtain ⟨hregs, -⟩ := forLoop_update
    (p := fun i => (msg i).toIndex a) (v := fun i _ => v i) (m := (s.tcbs t).registers)
    (fun j k _ hjk _ he => absurd (msg_index_inj he) (by omega)) (fun _ _ _ _ _ => rfl)
  obtain ⟨hwords, -⟩ := forLoop_update (i := min n msgRegisterNum)
    (n := n - min n msgRegisterNum) (p := bufferMsg b) (v := fun i _ => v i)
    (fun j k _ hjk hk he => absurd (bufferMsg_inj_self (by omega) (by omega) he) (by omega))
    (fun _ _ _ _ _ => rfl)
  unfold messageWord
  split
  · show ((s.withRegisters t _).tcbs t).registers _ = _
    rw [registers_withRegisters, if_pos rfl]
    exact hregs i (Nat.zero_le i) (by omega)
  · exact hwords i (by omega) (by omega)

/-- `copy_fault_mrs` returns and copies the registers of the table. -/
theorem copyFaultMrs_carries (hne : t ≠ handler)
    (hb : s.lookupMutIpcBuffer a handler true = .ok (some b)) (hn : n ≤ 12) (id : Nat) :
    ∃ regs mem, s.copyFaultMrs a t handler id n =
        .ok ((s.withRegisters handler regs).withMemory mem) ∧
      CarriesRegisters a s ((s.withRegisters handler regs).withMemory mem) t handler b id n := by
  have hread : ∀ regs, ((s.withRegisters handler regs).tcbs t).registers = (s.tcbs t).registers :=
    fun regs => by rw [registers_withRegisters, if_neg hne]
  have hread' : ∀ regs mem, (((s.withRegisters handler regs).withMemory mem).tcbs t).registers =
      (s.tcbs t).registers := fun regs _ => hread regs
  unfold copyFaultMrs
  simp only [forLoop_setRegister, forLoop_setUserWord, lookupMutIpcBuffer_withRegisters, hb]
  refine ⟨_, _, rfl, fun i hi => ?_⟩
  simp only [getRegister, hread, hread']
  exact messageWord_written (v := fun i => (s.tcbs t).registers
    ((faultMessage id i).toIndex a)) (by omega) hi

/-- `s'` is `s` with other words of the handler's message, but for the first `n`. -/
structure KeepsWords (a : Arch) (s s' : KernelState) (t handler b : Word) (n : Nat) : Prop where
  thread : s'.tcbs t = s.tcbs t
  buffer : s'.lookupMutIpcBuffer a handler true = s.lookupMutIpcBuffer a handler true
  words : ∀ i < n, messageWord a s' handler (some b) i = messageWord a s handler (some b) i

theorem keepsWords_setRegister (hne : t ≠ handler)
    (hr : ∀ i < n, (msg i).toIndex a ≠ r.toIndex a) (v : Word) :
    KeepsWords a s (s.setRegister a handler r v) t handler b n := by
  have hother : (s.setRegister a handler r v).tcbs t = s.tcbs t := update_of_ne hne _ _
  have hset : s.setRegister a handler r v = s.withRegisters handler
      (update (s.tcbs handler).registers (r.toIndex a) v) := rfl
  refine ⟨hother, ?_, fun i hi => ?_⟩
  · rw [hset, lookupMutIpcBuffer_withRegisters]
  · unfold messageWord
    split
    · rw [getRegister, hset, registers_withRegisters, if_pos rfl, update_of_ne (hr i hi)]
      rfl
    · rfl

theorem KeepsWords.trans (h : KeepsWords a s s' t handler b n)
    (h' : KeepsWords a s' s'' t handler b m) (hm : n ≤ m) : KeepsWords a s s'' t handler b n :=
  ⟨h'.thread.trans h.thread, h'.buffer.trans h.buffer,
    fun i hi => (h'.words i (by omega)).trans (h.words i hi)⟩

/-- `set_mr` returns and writes one word. -/
theorem setMr_keeps (hne : t ≠ handler) (hb : s.lookupMutIpcBuffer a handler true = .ok (some b))
    (hn : n < 120) (w : Word) :
    ∃ s', s.setMr a handler n w = .ok (s', n + 1) ∧ KeepsWords a s s' t handler b n := by
  unfold setMr
  split
  · rw [hb]
    refine ⟨_, rfl, rfl, rfl, fun i hi => ?_⟩
    unfold messageWord
    split
    · rfl
    · exact update_of_ne (fun he => absurd (bufferMsg_inj_self (by omega) hn he) (by omega)) _ _
  · exact ⟨_, rfl, keepsWords_setRegister hne (fun i hi he => absurd (msg_index_inj he) (by omega)) w⟩

theorem setMrs_keeps (hne : t ≠ handler) (ws : List Word) (hn : n + ws.length ≤ 120)
    (hb : s.lookupMutIpcBuffer a handler true = .ok (some b)) :
    ∃ r, s.setMrs a handler n ws = .ok r ∧ KeepsWords a s r.1 t handler b n := by
  induction ws generalizing s n with
  | nil => exact ⟨_, rfl, rfl, rfl, fun _ _ => rfl⟩
  | cons w ws ih =>
    simp only [List.length_cons] at hn
    obtain ⟨s₁, hs₁, hkeeps⟩ := setMr_keeps hne hb (by omega : n < 120) w
    cases ws with
    | nil => exact ⟨_, hs₁, hkeeps⟩
    | cons w' ws =>
      simp only [List.length_cons] at hn
      have hlen : n + 1 + (w' :: ws).length ≤ 120 := by
        rw [List.length_cons]
        omega
      obtain ⟨r, hr, hkeeps'⟩ := ih hlen (hkeeps.buffer.trans hb)
      exact ⟨r, bind_eq_ok.mpr ⟨_, hs₁, hr⟩, hkeeps.trans hkeeps' (by omega)⟩

/-- Further words behind the registers of the table. -/
theorem copyFaultMrs_setMrs (hne : t ≠ handler)
    (hb : s.lookupMutIpcBuffer a handler true = .ok (some b)) (hn : n ≤ 12)
    (hws : ws.length ≤ 2) :
    ∃ r, (do
        let s ← s.copyFaultMrs a t handler id n
        s.setMrs a handler n ws) = .ok r ∧
      r.1.tcbs t = s.tcbs t ∧ CarriesRegisters a s r.1 t handler b id n := by
  obtain ⟨regs, mem, hcopy, hcarries⟩ := copyFaultMrs_carries hne hb hn id
  obtain ⟨r, hr, hkeeps⟩ := setMrs_keeps
    (n := n) (s := (s.withRegisters handler regs).withMemory mem) hne ws (by omega)
    (by rw [lookupMutIpcBuffer_withMemory, lookupMutIpcBuffer_withRegisters, hb])
  refine ⟨r, bind_eq_ok.mpr ⟨_, hcopy, hr⟩, hkeeps.thread.trans ?_,
    fun i hi => (hkeeps.words i hi).trans (hcarries i hi)⟩
  exact update_of_ne hne _ _

/-- A fault with a table reaches a handler that has a buffer. -/
theorem doFaultTransfer_carries (hne : t ≠ handler)
    (hfault : faultTable a (getFaultType (s.tcbs t).tcbFault) = some (id, n))
    (hb : s.lookupMutIpcBuffer a handler true = .ok (some b)) (badge : Word) :
    ∃ s', doFaultTransfer a s t handler badge = .ok s' ∧ s'.tcbs t = s.tcbs t ∧
      CarriesRegisters a s s' t handler b id n := by
  have hmrs : ∃ r, setFaultMrs a s t handler = .ok r ∧ r.1.tcbs t = s.tcbs t ∧
      CarriesRegisters a s r.1 t handler b id n := by
    have hn := faultTable_le hfault
    unfold setFaultMrs
    cases hf : getFaultType (s.tcbs t).tcbFault <;> rw [hf] at hfault <;> cases hfault <;>
      simp only [hf]
    · exact copyFaultMrs_setMrs hne hb hn (show [_].length ≤ 2 by simp)
    · exact copyFaultMrs_setMrs hne hb hn (show [_, _].length ≤ 2 by simp)
  obtain ⟨⟨s₁, sent⟩, hs₁, hthread, hcarries⟩ := hmrs
  have hn := faultTable_le hfault
  -- the message info and the badge are no message registers
  have hinfo : ∀ i, (msg i).toIndex a ≠ ArchReg.msgInfo.toIndex a := by
    intro i
    cases a <;> simp only [toIndex] <;> omega
  have hbadge : ∀ i, (msg i).toIndex a ≠ ArchReg.badge.toIndex a := by
    intro i
    cases a <;> simp only [toIndex] <;> omega
  have hkeeps := (keepsWords_setRegister (s := s₁) (b := b) hne (fun i _ => hinfo i)
    (MessageInfo.new (Task.Field.faultType.stored (s₁.tcbs t).tcbFault) 0 0
      (BitVec.ofNat 64 sent)).toWord).trans
    (keepsWords_setRegister hne (fun i _ => hbadge i) badge) (Nat.le_refl n)
  exact ⟨_, bind_eq_ok.mpr ⟨_, hs₁, rfl⟩, hkeeps.thread.trans hthread,
    fun i hi => (hkeeps.words i hi).trans (hcarries i hi)⟩

/-! ## The reply -/

/-- `new` is `old` with the first `k` registers of the table replaced by `w`. -/
structure ReplacesRegisters (a : Arch) (id k : Nat) (w : Nat → Word) (old new : Nat → Word) :
    Prop where
  replaced : ∀ i < k, new ((faultMessage id i).toIndex a) = w i
  rest : ∀ r, (∀ i < k, r ≠ (faultMessage id i).toIndex a) → new r = old r

theorem ReplacesRegisters.eq (h : ReplacesRegisters a id k w old new)
    (hw : ∀ i < k, w i = old ((faultMessage id i).toIndex a)) : new = old := by
  funext r
  by_cases hr : ∃ i < k, r = (faultMessage id i).toIndex a
  · obtain ⟨i, hi, rfl⟩ := hr
    rw [h.replaced i hi, hw i hi]
  · exact h.rest r fun i hi he => hr ⟨i, hi, he⟩

/-- `copy_fault_mrs_for_reply` returns and writes the words through the table. -/
theorem copyFaultMrsForReply_replaces (hne : t ≠ handler)
    (hfault : faultTable a fault = some (id, n)) (hk : k ≤ n)
    (hb : s.lookupIpcBuffer a handler false = .ok (some b)) :
    ∃ regs, s.copyFaultMrsForReply a handler t id k = .ok (s.withRegisters t regs) ∧
      ReplacesRegisters a id k (messageWord a s handler (some b)) (s.tcbs t).registers regs := by
  have hread : ∀ regs, ((s.withRegisters t regs).tcbs handler).registers =
      (s.tcbs handler).registers := fun regs => by rw [registers_withRegisters, if_neg hne.symm]
  have hinj : ∀ i j, i < j → j < k → (faultMessage id j).toIndex a ≠
      (faultMessage id i).toIndex a := by
    intro i j hij hj he
    have := faultMessage_index_inj hfault (by omega) (by omega) he
    omega
  unfold copyFaultMrsForReply
  simp only [forLoop_setRegister, lookupIpcBuffer_withRegisters, hb, getRegister, hread]
  -- the registers first, then the words of the buffer on top of them
  generalize hregs : forLoop _ 0 (min k msgRegisterNum) (s.tcbs t).registers = regs
  obtain ⟨hcopied, hrest⟩ := forLoop_update (i := 0) (n := min k msgRegisterNum)
    (p := fun i => (faultMessage id i).toIndex a)
    (v := fun i _ => (s.tcbs handler).registers ((msg i).toIndex a))
    (m := (s.tcbs t).registers) (fun i j _ hij _ => hinj i j hij (by omega)) (fun _ _ _ _ _ => rfl)
  rw [hregs] at hcopied hrest
  obtain ⟨hwords, hkept⟩ := forLoop_update (i := min k msgRegisterNum)
    (n := k - min k msgRegisterNum) (p := fun i => (faultMessage id i).toIndex a)
    (v := fun i _ => s.userMemory (bufferMsg b i))
    (fun i j _ hij _ => hinj i j hij (by omega)) (fun _ _ _ _ _ => rfl)
  refine ⟨_, congrArg Except.ok (withRegisters_withRegisters regs _), fun i hi => ?_,
    fun r hr => ?_⟩
  · rw [registers_withRegisters, if_pos rfl]
    unfold messageWord
    split
    · exact (hkept _ fun j hj hjk he => hinj i j (by omega) (by omega) he.symm).trans
        (hcopied i (Nat.zero_le i) (by omega))
    · exact hwords i (by omega) (by omega)
  · rw [registers_withRegisters, if_pos rfl]
    exact (hkept r fun i hi hik => hr i (by omega)).trans (hrest r fun i _ hi => hr i (by omega))

/-! ## The round trip -/

/-- `s₂` is a state in which the handler replies to the fault that it got in `s₁`. -/
structure Replies (a : Arch) (s₁ s₂ : KernelState) (t handler b : Word) : Prop where
  registers : (s₂.tcbs t).registers = (s₁.tcbs t).registers
  fault : (s₂.tcbs t).tcbFault = (s₁.tcbs t).tcbFault
  buffer : s₂.lookupIpcBuffer a handler false = .ok (some b)

theorem doFaultReplyTransfer_replaces (hne : t ≠ handler)
    (hfault : faultTable a (getFaultType (s.tcbs t).tcbFault) = some (id, n))
    (hb : s.lookupIpcBuffer a handler false = .ok (some b)) :
    ∃ s' restarts, doFaultReplyTransfer a s handler t = .ok (s', restarts) ∧
      ReplacesRegisters a id (min (sentTag a s handler).getLength.toNat n)
        (messageWord a s handler (some b)) (s.tcbs t).registers (s'.tcbs t).registers := by
  obtain ⟨regs, hregs, hreplaces⟩ := copyFaultMrsForReply_replaces hne hfault
    (Nat.min_le_right (sentTag a s handler).getLength.toNat n) hb
  have hnew : ((s.withRegisters t regs).tcbs t).registers = regs := by
    rw [registers_withRegisters, if_pos rfl]
  refine ⟨s.withRegisters t regs, MessageLabel.ofWord a (sentTag a s handler).getUsizeLabel =
    .invalidInvocation, ?_, hnew.symm ▸ hreplaces⟩
  unfold doFaultReplyTransfer
  cases hf : getFaultType (s.tcbs t).tcbFault <;> rw [hf] at hfault <;> cases hfault
  · exact bind_eq_ok.mpr ⟨_, hregs, rfl⟩
  · exact bind_eq_ok.mpr ⟨_, hregs, rfl⟩

/-- A fault message reaches the handler, and the reply replaces just the registers of
the table whose words it has. The words of the message put back what was there. -/
theorem faultMessage_roundTrip (hne : t ≠ handler)
    (hfault : faultTable a (getFaultType (s.tcbs t).tcbFault) = some (id, n))
    (hb : s.lookupMutIpcBuffer a handler true = .ok (some b)) (badge : Word) :
    ∃ s₁, doFaultTransfer a s t handler badge = .ok s₁ ∧
      ∀ s₂, Replies a s₁ s₂ t handler b → ∃ s₃ restarts,
        doFaultReplyTransfer a s₂ handler t = .ok (s₃, restarts) ∧
        ReplacesRegisters a id (min (sentTag a s₂ handler).getLength.toNat n)
          (messageWord a s₂ handler (some b)) (s.tcbs t).registers (s₃.tcbs t).registers ∧
        ((∀ i < min (sentTag a s₂ handler).getLength.toNat n,
            messageWord a s₂ handler (some b) i = messageWord a s₁ handler (some b) i) →
          (s₃.tcbs t).registers = (s.tcbs t).registers) := by
  obtain ⟨s₁, hs₁, hthread, hcarries⟩ := doFaultTransfer_carries hne hfault hb badge
  refine ⟨s₁, hs₁, fun s₂ hs₂ => ?_⟩
  have hold : (s₂.tcbs t).registers = (s.tcbs t).registers := by rw [hs₂.registers, hthread]
  have hfault₂ : faultTable a (getFaultType (s₂.tcbs t).tcbFault) = some (id, n) := by
    rw [hs₂.fault, hthread, hfault]
  obtain ⟨s₃, restarts, hs₃, hreplaces⟩ := doFaultReplyTransfer_replaces hne hfault₂ hs₂.buffer
  rw [hold] at hreplaces
  refine ⟨s₃, restarts, hs₃, hreplaces, fun hsame => hreplaces.eq fun i hi => ?_⟩
  exact (hsame i hi).trans (hcarries i (by omega))

/-- The sender has raised an exception; the other thread is to handle it. -/
def faulting : KernelState :=
  sharingFrame.modifyTcb senderTcb fun tcb => { tcb with tcbFault := Task.Field.faultType.set (fun _ => 0) 3 }

/-- The handler replies with what it was sent. -/
theorem faultMessage_roundTrip_unchanged : ∃ s₁ s₃ restarts,
    doFaultTransfer .riscv64 faulting senderTcb peerTcb 7 = .ok s₁ ∧
      doFaultReplyTransfer .riscv64 s₁ peerTcb senderTcb = .ok (s₃, restarts) ∧
      (s₃.tcbs senderTcb).registers = (faulting.tcbs senderTcb).registers := by
  have hb : faulting.lookupMutIpcBuffer .riscv64 peerTcb true =
      .ok (some (pptrBase .riscv64 + 0x8400)) := by rfl
  have hfault : faultTable .riscv64 (getFaultType (faulting.tcbs senderTcb).tcbFault) =
      some (messageIDException, exceptionMessageNum .riscv64) := by decide
  obtain ⟨s₁, hs₁, hreply⟩ := faultMessage_roundTrip senderTcb_ne_peerTcb hfault hb 7
  have hbuffer : (doFaultTransfer .riscv64 faulting senderTcb peerTcb 7).map
      (fun s => s.lookupIpcBuffer .riscv64 peerTcb false) =
        .ok (.ok (some (pptrBase .riscv64 + 0x8400))) := by rfl
  rw [hs₁] at hbuffer
  obtain ⟨s₃, restarts, hs₃, -, hsame⟩ := hreply s₁ ⟨rfl, rfl, Except.ok.inj hbuffer⟩
  exact ⟨s₁, s₃, restarts, hs₁, hs₃, hsame fun _ _ => rfl⟩

end Rel4.Ipc
