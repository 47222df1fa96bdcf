import Rel4.Ipc.FaultMessage
import Rel4.Kernel.Suspend

/-!
Reading and writing the registers of a thread.

WriteRegisters and ReadRegisters count the registers of a user context in one
sequence, the frame registers first and the general ones after them. Both run over
it in several loops, which break the sequence at the end of the frame registers and,
for an answer, at the end of the message registers. Each pair of loops is one loop
over the sequence.
-/

namespace Rel4.Kernel
open Lib.Bitfield Lib.Loop Common CSpace Rel4.Task Ipc Function
open Task.KernelState
open BitVec (ofNat)

variable {new w : Nat → Word} {length thread : Word} {i : Nat}
  {a : Arch} {s : KernelState} {t buffer : Word} {n : Nat}

/-! ## The sequence -/

/-- Register `i` of a user context. -/
def userRegister (a : Arch) (i : Nat) : ArchReg :=
  if i < frameRegNum a then .frame i else .gp (i - frameRegNum a)

def userRegNum (a : Arch) : Nat := frameRegNum a + gpRegNum a

theorem userRegister_frame (hi : i < frameRegNum a) : userRegister a i = .frame i := if_pos hi

theorem userRegister_gp (i : Nat) : userRegister a (i + frameRegNum a) = .gp i := by
  unfold userRegister
  rw [if_neg (by omega), Nat.add_sub_cancel]

theorem userRegNum_le : userRegNum a ≤ 36 := by
  cases a <;> decide

theorem toNat_count (hn : n ≤ userRegNum a) : (ofNat 64 n).toNat = n := by
  have hmax := userRegNum_le (a := a)
  rw [BitVec.toNat_ofNat]
  omega

theorem userRegister_index_inj (hi : i < userRegNum a) (hj : j < userRegNum a)
    (h : (userRegister a i).toIndex a = (userRegister a j).toIndex a) : i = j := by
  have hinj : ∀ i j : Fin (userRegNum a),
      (userRegister a i).toIndex a = (userRegister a j).toIndex a → i = j := by
    cases a <;> decide +kernel
  exact congrArg Fin.val (hinj ⟨i, hi⟩ ⟨j, hj⟩ h)

theorem userRegister_index_ne_nextIP (hi : i < userRegNum a) :
    (userRegister a i).toIndex a ≠ ArchReg.nextIP.toIndex a := by
  have hne : ∀ i : Fin (userRegNum a), (userRegister a i).toIndex a ≠ ArchReg.nextIP.toIndex a := by
    cases a <;> decide
  exact hne ⟨i, hi⟩

/-! ## Writing -/

theorem writeRegisters_eq (hn : n ≤ userRegNum a) :
    writeRegisters a s t n buffer = forLoop (fun i s =>
      s.setRegister a t (userRegister a i) (getSyscallArg a s (i + 2) buffer)) 0 n s := by
  unfold writeRegisters
  rw [show min n (frameRegNum a + gpRegNum a) = n from Nat.min_eq_left hn]
  refine forLoop_join (Nat.zero_le _) hn (fun j s hj => ?_) fun j s => ?_
  · rw [userRegister_frame hj]
  · rw [userRegister_gp]

/-- `new` has the words `w` in the first `n` registers of the sequence and is `old`
in all the others. -/
structure Overwrites (a : Arch) (n : Nat) (w : Nat → Word) (old new : Nat → Word) : Prop where
  written : ∀ i < n, new ((userRegister a i).toIndex a) = w i
  kept : ∀ k, (∀ i < n, k ≠ (userRegister a i).toIndex a) → new k = old k

theorem writeRegisters_overwrites (hn : n ≤ userRegNum a) (ht : t ≠ s.ksCurThread) (buffer : Word) :
    ∃ regs, writeRegisters a s t n buffer = s.withRegisters t regs ∧
      Overwrites a n (fun i => getSyscallArg a s (i + 2) buffer) (s.tcbs t).registers regs := by
  -- the words come from another thread's registers and from memory
  have harg : ∀ regs i, getSyscallArg a (s.withRegisters t regs) i buffer =
      getSyscallArg a s i buffer := by
    intro regs i
    have hcur : ((s.withRegisters t regs).tcbs s.ksCurThread).registers =
        (s.tcbs s.ksCurThread).registers := by
      rw [registers_withRegisters, if_neg ht.symm]
    show (if i < msgRegisterNum then ((s.withRegisters t regs).tcbs s.ksCurThread).registers _
      else _) = _
    rw [hcur]
    rfl
  rw [writeRegisters_eq hn, forLoop_setRegister]
  simp only [harg]
  obtain ⟨hwritten, hkept⟩ := forLoop_update (i := 0) (n := n)
    (p := fun i => (userRegister a i).toIndex a) (v := fun i _ => getSyscallArg a s (i + 2) buffer)
    (m := (s.tcbs t).registers)
    (fun j k _ hjk hk he => absurd (userRegister_index_inj (by omega) (by omega) he) (by omega))
    (fun _ _ _ _ _ => rfl)
  exact ⟨_, rfl, fun i hi => hwritten i (Nat.zero_le i) (by omega),
    fun k hk => hkept k fun i _ hi => hk i (by omega)⟩

/-- A call of WriteRegisters for the words `w` and the thread `t`, which is not resumed. -/
structure WriteCall (a : Arch) (s : KernelState) (cap : CapT) (length buffer t : Word) (n : Nat)
    (w : Nat → Word) : Prop where
  target : getTcbPtr a cap = t
  other : t ≠ s.ksCurThread
  count : getSyscallArg a s 1 buffer = ofNat 64 n
  noResume : getSyscallArg a s 0 buffer &&& bit 0 = 0
  long : n + 2 ≤ length.toNat
  words : ∀ i < n, getSyscallArg a s (i + 2) buffer = w i

/-- The registers of a thread after a WriteRegisters: NextIP has become FaultIP. -/
structure Written (a : Arch) (n : Nat) (w : Nat → Word) (old new : Nat → Word) : Prop where
  words : ∀ i < n, new ((userRegister a i).toIndex a) = w i
  nextIP : new (ArchReg.nextIP.toIndex a) = new (ArchReg.faultIP.toIndex a)
  kept : ∀ k, k ≠ ArchReg.nextIP.toIndex a → (∀ i < n, k ≠ (userRegister a i).toIndex a) →
    new k = old k

theorem Overwrites.written_nextIP (h : Overwrites a n w old new) (hn : n ≤ userRegNum a) :
    Written a n w old
      (update new (ArchReg.nextIP.toIndex a) (new (ArchReg.faultIP.toIndex a))) where
  words i hi := by
    rw [update_of_ne (userRegister_index_ne_nextIP (by omega))]
    exact h.written i hi
  nextIP := by
    have hne : ArchReg.faultIP.toIndex a ≠ ArchReg.nextIP.toIndex a := by cases a <;> decide
    rw [update_self, update_of_ne hne]
  kept k hk hrest := by
    rw [update_of_ne hk]
    exact h.kept k hrest

theorem Written.congr (h : Written a n w old new) (hw : ∀ i < n, w i = w' i) :
    Written a n w' old new :=
  ⟨fun i hi => (h.words i hi).trans (hw i hi), h.nextIP, h.kept⟩

theorem decodeWriteRegisters_written (hn : n ≤ userRegNum a)
    (h : WriteCall a s cap length buffer t n w) :
    ∃ s₁, decodeWriteRegisters a s cap length buffer = .ok (s₁, .none) ∧
      Written a n w (s.tcbs t).registers (s₁.tcbs t).registers := by
  have hcount := toNat_count hn
  have hlong := h.long
  have hlength : ¬length < 2 := by
    rw [BitVec.lt_def]
    show ¬length.toNat < 2
    omega
  have hfits : ¬length - 2 < ofNat 64 n := by
    rw [BitVec.lt_def, hcount, BitVec.toNat_sub_of_le (BitVec.not_lt.mp hlength)]
    show ¬length.toNat - 2 < n
    omega
  have hcur : (restartCurrent a s).ksCurThread = s.ksCurThread :=
    (ipcEq_setThreadState _).proj KernelState.ksCurThread
  have hother : t ≠ (restartCurrent a s).ksCurThread := hcur.symm ▸ h.other
  obtain ⟨regs, hregs, hover⟩ := writeRegisters_overwrites hn hother buffer
  unfold decodeWriteRegisters
  simp only [h.count, h.noResume, h.target]
  rw [if_neg hlength, if_neg hfits, if_neg h.other]
  unfold invokeTcbWriteRegisters resumeIf
  simp only [hcount, hregs]
  refine ⟨_, rfl, ?_⟩
  rw [sameRegisters_rescheduleIfCurrent t, setRegister_withRegisters, registers_withRegisters,
    if_pos rfl, getRegister, registers_withRegisters, if_pos rfl,
    ← sameRegisters_restartCurrent t]
  refine (hover.written_nextIP hn).congr fun i hi => ?_
  rw [getSyscallArg_restartCurrent, h.words i hi]

/-! ## Reading -/

/-- With a buffer the words of the answer beyond the message registers are written
in one loop. -/
theorem readRegisters_eq (hn : n ≤ userRegNum a) : readRegisters a s thread t n (some b) =
      (forLoop (fun i s => s.setUserWord (bufferMsg b i) (s.getRegister a t (userRegister a i)))
        (min n msgRegisterNum) (n - min n msgRegisterNum)
        (forLoop (fun i s => s.setRegister a thread (.msg i) (s.getRegister a t (userRegister a i)))
          0 (min n msgRegisterNum) s), n) := by
  have hmsg : msgRegisterNum ≤ frameRegNum a := by cases a <;> decide
  have hin : min (min n (frameRegNum a)) msgRegisterNum = min n msgRegisterNum := by omega
  have hlen : min (n - frameRegNum a) (gpRegNum a) + min n (frameRegNum a) = n := by
    have hle : n ≤ frameRegNum a + gpRegNum a := hn
    omega
  have hregs : forLoop (fun i s => s.setRegister a thread (.msg i) (s.getRegister a t (.frame i)))
      0 (min n msgRegisterNum) s =
        forLoop (fun i s => s.setRegister a thread (.msg i) (s.getRegister a t (userRegister a i)))
          0 (min n msgRegisterNum) s :=
    forLoop_congr fun j s _ hj => by rw [userRegister_frame (by omega)]
  unfold readRegisters
  simp only [hin, hlen, hregs]
  congr 1
  refine forLoop_join (by omega) hn (fun j s hj => ?_) fun j s => ?_
  · rw [userRegister_frame hj]
  · rw [userRegister_gp]

/-- The answer to a ReadRegisters: the words are the registers of the thread. -/
theorem readRegisters_words (hn : n ≤ userRegNum a) (ht : t ≠ thread) :
    ∃ regs mem, readRegisters a s thread t n (some b) =
        ((s.withRegisters thread regs).withMemory mem, n) ∧
      ∀ i < n, messageWord a ((s.withRegisters thread regs).withMemory mem) thread (some b) i =
        s.getRegister a t (userRegister a i) := by
  have hmax := userRegNum_le (a := a)
  have hread : ∀ regs r, (s.withRegisters thread regs).getRegister a t r = s.getRegister a t r := by
    intro regs r
    rw [getRegister, registers_withRegisters, if_neg ht]
    rfl
  have hread' : ∀ regs mem r, ((s.withRegisters thread regs).withMemory mem).getRegister a t r =
      s.getRegister a t r := fun regs _ => hread regs
  rw [readRegisters_eq hn]
  simp only [forLoop_setRegister, forLoop_setUserWord, hread, hread']
  refine ⟨_, _, rfl, fun i hi => ?_⟩
  exact messageWord_written (v := fun i => s.getRegister a t (userRegister a i)) (by omega) hi

/-- A call of ReadRegisters for the first `n` registers of `t`, made by the current thread.
The suspension that the first flag asks for returns, and leaves the caller with an
IPC buffer that it can write. -/
structure ReadCall (a : Arch) (s : KernelState) (cap : CapT) (length buffer t : Word) (n : Nat)
    (ipcBuffer : Word) : Prop where
  target : getTcbPtr a cap = t
  other : t ≠ s.ksCurThread
  count : getSyscallArg a s 1 buffer = ofNat 64 n
  long : 2 ≤ length.toNat
  suspends : ∃ s', suspendIf a (restartCurrent a s) (getSyscallArg a s 0 buffer &&& bit 0) t =
    .ok s' ∧ s'.lookupMutIpcBuffer a s.ksCurThread true = .ok (some ipcBuffer)

/-- The caller has the `n` words `w` as its answer. -/
structure Answered (a : Arch) (s : KernelState) (thread ipcBuffer : Word) (n : Nat)
    (w : Nat → Word) : Prop where
  words : ∀ i < n, messageWord a s thread (some ipcBuffer) i = w i
  length : (deliveredInfo a s thread).getLength.toNat = n
  -- no empty reply of the kernel follows
  running : s.getState thread = .running

theorem fromWord_toWord (info : MessageInfo) : MessageInfo.fromWord info.toWord = info := by
  funext i
  rw [Subsingleton.elim i 0]
  rfl

theorem getLength_new {w : Word} (hw : w.toNat < 128) :
    (MessageInfo.fromWord (MessageInfo.new 0 0 0 w).toWord).getLength = w := by
  rw [fromWord_toWord]
  exact (stored_build (i := 3) rfl rfl).trans (raw_of_lt rfl (by decide) hw)

theorem answerRegisters_answered (hn : n ≤ userRegNum a) (ht : t ≠ thread)
    (hb : s.lookupMutIpcBuffer a thread true = .ok (some b)) :
    ∃ s₁, answerRegisters a s thread t (ofNat 64 n) true = .ok s₁ ∧
      (∀ i < n, messageWord a s₁ thread (some b) i = s.getRegister a t (userRegister a i)) ∧
      (deliveredInfo a s₁ thread).getLength.toNat = n := by
  have hcount := toNat_count hn
  have hinfo : ∀ i < n, (ArchReg.msg i).toIndex a ≠ ArchReg.msgInfo.toIndex a := by
    intro i _
    cases a
    · show 11 + i ≠ 10
      omega
    · show 2 + i ≠ 1
      omega
  obtain ⟨regs, mem, hread, hwords⟩ := readRegisters_words (s := s.setRegister a thread .badge 0)
    (b := b) hn ht
  have heq : answerRegisters a s thread t (ofNat 64 n) true =
      .ok ((((s.setRegister a thread .badge 0).withRegisters thread regs).withMemory mem).setRegister
        a thread .msgInfo (MessageInfo.new 0 0 0 (ofNat 64 n)).toWord) := by
    unfold answerRegisters
    rw [if_pos rfl, hb]
    simp only [bind, Except.bind, hcount, hread]
    rfl
  refine ⟨_, heq, fun i hi => ?_, ?_⟩
  · rw [(keepsWords_setRegister ht hinfo _).words i hi, hwords i hi]
    exact congrFun (congrArg Tcb.registers (update_of_ne ht _ _)) _
  · have hmax := userRegNum_le (a := a)
    rw [deliveredInfo, getRegister_setRegister, getLength_new (by omega), hcount]

theorem decodeReadRegisters_answered (hpos : 1 ≤ n) (hn : n ≤ userRegNum a)
    (h : ReadCall a s cap length buffer t n ipcBuffer) :
    ∃ s₁, decodeReadRegisters a s cap length true buffer = .ok (s₁, .none) ∧
      Answered a s₁ s.ksCurThread ipcBuffer n
        fun i => (s.tcbs t).registers ((userRegister a i).toIndex a) := by
  have hcount := toNat_count hn
  have hlong := h.long
  have hlength : ¬length < 2 := by
    rw [BitVec.lt_def]
    show ¬length.toNat < 2
    omega
  have hrange : ¬((ofNat 64 n : Word) < 1 ∨
      (ofNat 64 n : Word) > ofNat 64 (frameRegNum a + gpRegNum a)) := by
    have hN : (ofNat 64 (frameRegNum a + gpRegNum a)).toNat = userRegNum a := by
      cases a <;> rfl
    rw [gt_iff_lt, BitVec.lt_def, BitVec.lt_def, hcount, hN]
    show ¬(n < 1 ∨ userRegNum a < n)
    omega
  obtain ⟨s', hs', hb⟩ := h.suspends
  have hcur : (restartCurrent a s).ksCurThread = s.ksCurThread :=
    (ipcEq_setThreadState _).proj KernelState.ksCurThread
  have hregs : (s'.tcbs t).registers = (s.tcbs t).registers :=
    (sameRegisters_restartCurrent.trans (sameRegisters_suspendIf hs')) t
  obtain ⟨s₁, hs₁, hwords, hinfo⟩ := answerRegisters_answered hn h.other hb
  have heq : decodeReadRegisters a s cap length true buffer =
      .ok (s₁.setThreadState a s.ksCurThread .running, .none) := by
    unfold decodeReadRegisters invokeTcbReadRegisters
    simp only [h.count, h.target]
    rw [if_neg hlength, if_neg hrange, if_neg h.other, hcur, hs']
    simp only [bind, Except.bind, hs₁]
    rfl
  have hend : IpcEq (s₁.setThreadState a s.ksCurThread .running) s₁ := ipcEq_setThreadState _
  refine ⟨_, heq, fun i hi => ?_, ?_, ?_⟩
  · rw [← hregs]
    refine Eq.trans ?_ (hwords i hi)
    unfold messageWord getRegister
    rw [hend.registers, hend.userMemory]
  · unfold deliveredInfo getRegister at hinfo ⊢
    rw [hend.registers, hinfo]
  · rw [getState_setThreadState, if_pos rfl]

theorem lookupMutIpcBuffer_restartCurrent (x : Word) (isReceiver : Bool) :
    (restartCurrent a s).lookupMutIpcBuffer a x isReceiver =
      s.lookupMutIpcBuffer a x isReceiver := by
  have heq : IpcEq (restartCurrent a s) s := ipcEq_setThreadState _
  have hbuffer : ((restartCurrent a s).tcbs x).tcbIPCBuffer = (s.tcbs x).tcbIPCBuffer :=
    heq.proj fun s => (s.tcbs x).tcbIPCBuffer
  exact lookupMutIpcBuffer_congr (by rw [heq.ctes]) hbuffer

/-- Where the queues are in order, the suspension returns, and the caller keeps its buffer. -/
theorem suspends_of_queueInv {P : Population a} (hq : QueueInv P s)
    (hcur : (blockView a s).place s.ksCurThread = none) (ht : P.thread t) (hr : ReplyLast a s t)
    (hb : s.lookupMutIpcBuffer a s.ksCurThread true = .ok (some ipcBuffer)) :
    ∃ s', suspendIf a (restartCurrent a s) flags t = .ok s' ∧
      s'.lookupMutIpcBuffer a s.ksCurThread true = .ok (some ipcBuffer) := by
  rw [← lookupMutIpcBuffer_restartCurrent] at hb
  have heq : IpcEq (restartCurrent a s) s := ipcEq_setThreadState _
  have hq' : QueueInv P (restartCurrent a s) :=
    hq.setFree hcur (fun _ => rfl : Free .restart) heq (blockView_setThreadState _)
  have hr' : ReplyLast a (restartCurrent a s) t := hr.of_slots (.inl heq.ctes)
  unfold suspendIf
  split
  · obtain ⟨s₁, hs₁, -, -, hcancels⟩ := hq'.cancels ht hr'
    have hsuspend : IpcEq (s₁.suspend a t) s₁ := ipcEq_suspend
    refine ⟨_, bind_eq_ok.mpr ⟨s₁, hs₁, rfl⟩, (lookupMutIpcBuffer_congr ?_ ?_).trans hb⟩
    · rw [hsuspend.ctes]
      rcases hcancels.slots with he | ⟨slot, hreply, -, he⟩
      · rw [he]
      · rw [he, (setEmpty_effect (by rw [hreply]; decide)).cap, if_neg]
        -- a slot with a reply cap holds no buffer
        rintro rfl
        have hne : getCapType ((restartCurrent a s).ctes
            (getCspace a s.ksCurThread tcbBuffer)).cap ≠ .frameCap := by
          rw [show getCapType _ = _ from hreply]
          decide
        rw [lookupMutIpcBuffer, if_pos hne] at hb
        cases hb
    · exact (hsuspend.proj fun s => (s.tcbs _).tcbIPCBuffer).trans (hcancels.buffers _)
  · exact ⟨_, rfl, hb⟩

/-! ## The round trip -/

/-- A WriteRegisters of any words, and a ReadRegisters at any later time when the
thread has the registers that it was given then. -/
theorem registers_roundTrip {cap : CapT} {length : Word} {w : Nat → Word} (hpos : 1 ≤ n)
    (hn : n ≤ frameRegNum a + gpRegNum a) (hw : WriteCall a s cap length buffer t n w) :
    ∃ s₁, decodeWriteRegisters a s cap length buffer = .ok (s₁, .none) ∧
      Written a n w (s.tcbs t).registers (s₁.tcbs t).registers ∧
      ∀ (s₂ : KernelState) (cap₂ : CapT) (length₂ buffer₂ ipcBuffer : Word),
        (s₂.tcbs t).registers = (s₁.tcbs t).registers →
        ReadCall a s₂ cap₂ length₂ buffer₂ t n ipcBuffer →
        ∃ s₃, decodeReadRegisters a s₂ cap₂ length₂ true buffer₂ = .ok (s₃, .none) ∧
          Answered a s₃ s₂.ksCurThread ipcBuffer n w := by
  obtain ⟨s₁, hs₁, hwritten⟩ := decodeWriteRegisters_written hn hw
  refine ⟨s₁, hs₁, hwritten, fun s₂ cap₂ length₂ buffer₂ ipcBuffer hregs hread => ?_⟩
  obtain ⟨s₃, hs₃, hanswer⟩ := decodeReadRegisters_answered hpos hn hread
  refine ⟨s₃, hs₃, fun i hi => ?_, hanswer.length, hanswer.running⟩
  rw [hanswer.words i hi, hregs, hwritten.words i hi]

/-- The peer is current; its message registers ask for eighteen words, two more than
there are frame registers. -/
def registerCall : KernelState :=
  { sharingFrame.withRegisters peerTcb
      (fun r => if r = 12 then 18 else 2 * ofNat 64 r) with ksCurThread := peerTcb }

/-- The peer writes eighteen registers of the sender and reads them back. -/
theorem registers_roundTrip_peer : ∃ s₁ s₃,
    decodeWriteRegisters .riscv64 registerCall (newThreadCap .riscv64 senderTcb) 20
        (pptrBase .riscv64 + 0x8400) = .ok (s₁, .none) ∧
      decodeReadRegisters .riscv64
        (registerCall.withRegisters senderTcb (s₁.tcbs senderTcb).registers)
        (newThreadCap .riscv64 senderTcb) 2 true (pptrBase .riscv64 + 0x8400) = .ok (s₃, .none) ∧
      messageWord .riscv64 s₃ peerTcb (some (pptrBase .riscv64 + 0x8400)) 17 =
        pptrBase .riscv64 + 0x84a0 := by
  have hbuffer : ∀ regs, (registerCall.withRegisters senderTcb regs).lookupMutIpcBuffer .riscv64
      peerTcb true = .ok (some (pptrBase .riscv64 + 0x8400)) := by
    intro regs
    rw [lookupMutIpcBuffer_withRegisters]
    rfl
  have hflag : ∀ regs, getSyscallArg .riscv64 (registerCall.withRegisters senderTcb regs) 0
      (pptrBase .riscv64 + 0x8400) = 22 := fun _ => rfl
  have hwrite : WriteCall .riscv64 registerCall (newThreadCap .riscv64 senderTcb) 20
      (pptrBase .riscv64 + 0x8400) senderTcb 18
      (fun i => getSyscallArg .riscv64 registerCall (i + 2) (pptrBase .riscv64 + 0x8400)) :=
    ⟨by decide, by decide, by decide, by decide, by decide, fun _ _ => rfl⟩
  obtain ⟨s₁, hs₁, -, hread⟩ := registers_roundTrip (by decide) (by decide) hwrite
  obtain ⟨s₃, hs₃, hanswer⟩ := hread
    (registerCall.withRegisters senderTcb (s₁.tcbs senderTcb).registers)
    (newThreadCap .riscv64 senderTcb) 2 (pptrBase .riscv64 + 0x8400) (pptrBase .riscv64 + 0x8400)
    (by rw [registers_withRegisters, if_pos rfl])
    ⟨by decide, senderTcb_ne_peerTcb, rfl, by decide, restartCurrent .riscv64 _,
      if_neg (not_not.mpr (by rw [hflag]; decide)),
      (lookupMutIpcBuffer_restartCurrent _ _).trans (hbuffer _)⟩
  exact ⟨s₁, s₃, hs₁, hs₃, hanswer.words 17 (by decide)⟩

end Rel4.Kernel
