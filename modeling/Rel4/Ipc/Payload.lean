import Rel4.Common.Words
import Rel4.Ipc.Transfer

/-!
The words of a message.

The first four are registers, the others stand in the IPC buffer. Copying is a loop
over registers and a loop over words of memory; a turn never overwrites what a later
one reads, because two buffers are the same or apart.
-/

namespace Rel4.Task.KernelState
open Lib.Bitfield Lib.Loop Common Function

variable {i n : Nat} {v : Nat → KernelState → Word}

/-- The state with other registers of `t`. -/
def withRegisters (s : KernelState) (t : Word) (regs : Nat → Word) : KernelState :=
  s.modifyTcb t fun tcb => { tcb with registers := regs }

def withMemory (s : KernelState) (mem : Word → Word) : KernelState := { s with userMemory := mem }

variable {a : Arch} {s : KernelState} {t : Word}

theorem withRegisters_self (s : KernelState) (t : Word) :
    s.withRegisters t (s.tcbs t).registers = s := by
  unfold withRegisters modifyTcb
  rw [update_eq_self]

theorem registers_withRegisters (regs : Nat → Word) (x : Word) :
    ((s.withRegisters t regs).tcbs x).registers = if x = t then regs else (s.tcbs x).registers := by
  unfold withRegisters modifyTcb
  split
  next hx =>
    subst hx
    simp
  next hx => simp [hx]

theorem withRegisters_withRegisters (regs regs' : Nat → Word) :
    (s.withRegisters t regs).withRegisters t regs' = s.withRegisters t regs' := by
  simp [withRegisters, modifyTcb]

theorem setRegister_withRegisters (regs : Nat → Word) (r : ArchReg) (v : Word) :
    (s.withRegisters t regs).setRegister a t r v =
      s.withRegisters t (update regs (r.toIndex a) v) := by
  simp [setRegister, withRegisters, modifyTcb]

/-- A loop that writes registers of one thread. -/
theorem forLoop_setRegister {r : Nat → ArchReg} :
    forLoop (fun j s => s.setRegister a t (r j) (v j s)) i n s =
      s.withRegisters t (forLoop (fun j regs =>
        update regs ((r j).toIndex a) (v j (s.withRegisters t regs)))
        i n (s.tcbs t).registers) := by
  have hloop : ∀ regs, forLoop (fun j s => s.setRegister a t (r j) (v j s)) i n
      (s.withRegisters t regs) = s.withRegisters t (forLoop (fun j regs =>
        update regs ((r j).toIndex a) (v j (s.withRegisters t regs))) i n regs) := by
    induction n generalizing i with
    | zero => exact fun _ => rfl
    | succ n ih =>
      intro regs
      rw [forLoop, forLoop, setRegister_withRegisters]
      exact ih _
  have := hloop (s.tcbs t).registers
  rwa [withRegisters_self] at this

/-- A loop that writes words of memory. -/
theorem forLoop_setUserWord {p : Nat → Word} :
    forLoop (fun j s => s.setUserWord (p j) (v j s)) i n s =
      s.withMemory (forLoop (fun j mem => update mem (p j) (v j (s.withMemory mem)))
        i n s.userMemory) := by
  have hloop : ∀ mem, forLoop (fun j s => s.setUserWord (p j) (v j s)) i n (s.withMemory mem) =
      s.withMemory (forLoop (fun j mem => update mem (p j) (v j (s.withMemory mem)))
        i n mem) := by
    induction n generalizing i with
    | zero => exact fun _ => rfl
    | succ n ih =>
      intro mem
      rw [forLoop, forLoop]
      exact ih _
  exact hloop s.userMemory

end Rel4.Task.KernelState

namespace Rel4.Ipc
open Lib.Bitfield Lib.Loop Common CSpace Rel4.Task Kernel Function
open Task.KernelState

variable {info : MessageInfo} {recvBuffer sendBuffer : Option Word}
  {i j k length n : Nat} {b dest : Word} {a : Arch} {s s' : KernelState}
  {t receiver : Word}

/-! ## Buffers -/

/-- IPC buffers are 1024 bytes at a multiple of 1024 in a frame, as
`check_ipc_buffer_vaild` demands when a buffer is set. -/
structure BufferOk (a : Arch) (s : KernelState) (t : Word) : Prop where
  aligned : (s.tcbs t).tcbIPCBuffer.toNat % 1024 = 0
  frame : s.ctes.capType (getCspace a t tcbBuffer) = .frameCap →
    (getFrameSize a (s.ctes (getCspace a t tcbBuffer)).cap).toNat < 3 ∧
      (getFrameBasePtr a (s.ctes (getCspace a t tcbBuffer)).cap).toNat % 1024 = 0

theorem pageBitsForSize_ok (h : size.toNat < 3) :
    ∃ bits, pageBitsForSize size = .ok bits ∧ 10 ≤ bits.toNat ∧ bits.toNat < 64 := by
  have hcases : size.toNat = 0 ∨ size.toNat = 1 ∨ size.toNat = 2 := by omega
  unfold pageBitsForSize
  rcases hcases with e | e | e
  · exact ⟨pageBits, by simp only [e], by decide, by decide⟩
  · exact ⟨largePageBits, by simp only [e], by decide, by decide⟩
  · exact ⟨hugePageBits, by simp only [e], by decide, by decide⟩

/-- A buffer in a frame is found, if the rights suffice, and is aligned. -/
theorem ipcBufferInFrame_ok (h : BufferOk a s t)
    (ht : s.ctes.capType (getCspace a t tcbBuffer) = .frameCap) (isReceiver : Bool) :
    ∃ buffer, s.ipcBufferInFrame a t (s.ctes (getCspace a t tcbBuffer)).cap isReceiver =
        .ok buffer ∧ ∀ b, buffer = some b → b.toNat % 1024 = 0 := by
  obtain ⟨hsize, hbase⟩ := h.frame ht
  obtain ⟨bits, hbits, hlow, hhigh⟩ := pageBitsForSize_ok hsize
  unfold ipcBufferInFrame
  simp only
  split
  · rw [hbits]
    refine ⟨_, rfl, ?_⟩
    rintro b hb
    cases hb
    have hdvd : 2 ^ 10 ∣ 2 ^ bits.toNat := Nat.pow_dvd_pow 2 hlow
    have hoffset : ((s.tcbs t).tcbIPCBuffer.toNat % 2 ^ bits.toNat) % 1024 = 0 := by
      rw [show 1024 = 2 ^ 10 from rfl, Nat.mod_mod_of_dvd _ hdvd]
      exact h.aligned
    rw [BitVec.toNat_add, toNat_and_mask hhigh]
    omega
  · exact ⟨none, rfl, fun b hb => by cases hb⟩

theorem lookupMutIpcBuffer_ok (h : BufferOk a s t) (isReceiver : Bool) :
    ∃ buffer, s.lookupMutIpcBuffer a t isReceiver = .ok buffer ∧
      ∀ b, buffer = some b → b.toNat % 1024 = 0 := by
  unfold lookupMutIpcBuffer
  simp only
  split
  · exact ⟨none, rfl, fun b hb => by cases hb⟩
  next ht => exact ipcBufferInFrame_ok h (not_not.mp ht) isReceiver

theorem lookupIpcBuffer_ok (h : BufferOk a s t) (isReceiver : Bool) :
    ∃ buffer, s.lookupIpcBuffer a t isReceiver = .ok buffer ∧
      ∀ b, buffer = some b → b.toNat % 1024 = 0 := by
  unfold lookupIpcBuffer
  simp only
  split
  · exact ⟨none, rfl, fun b hb => by cases hb⟩
  next ht =>
    split
    · exact ⟨none, rfl, fun b hb => by cases hb⟩
    · exact ipcBufferInFrame_ok h (not_not.mp ht) isReceiver

theorem toNat_wordOffset (hk : k < 128) : (8 * BitVec.ofNat 64 k : Word).toNat = 8 * k := by
  rw [BitVec.toNat_mul, BitVec.toNat_ofNat]
  show 8 * (k % 2 ^ 64) % 2 ^ 64 = 8 * k
  omega

/-- Words of aligned buffers coincide only at the same place of the same buffer. -/
theorem bufferWord_inj (hb : b.toNat % 1024 = 0) (hb' : b'.toNat % 1024 = 0) (hk : k < 128)
    (hk' : k' < 128) (h : b + 8 * BitVec.ofNat 64 k = b' + 8 * BitVec.ofNat 64 k') :
    b = b' ∧ k = k' := by
  have hword : ∀ {c : Word} {j : Nat}, c.toNat % 1024 = 0 → j < 128 →
      (c + 8 * BitVec.ofNat 64 j).toNat = c.toNat + 8 * j := by
    intro c j hc hj
    have hlt := c.isLt
    rw [BitVec.toNat_add, toNat_wordOffset hj]
    omega
  have heq := congrArg BitVec.toNat h
  rw [hword hb hk, hword hb' hk'] at heq
  exact ⟨BitVec.eq_of_toNat_eq (by omega), by omega⟩

theorem bufferMsg_eq (b : Word) (i : Nat) : bufferMsg b i = b + 8 * BitVec.ofNat 64 (1 + i) := by
  rw [bufferMsg, BitVec.ofNat_add]
  rfl

theorem bufferCapsOrBadges_eq (b : Word) (i : Nat) :
    bufferCapsOrBadges b i = b + 8 * BitVec.ofNat 64 (122 + i) := by
  rw [bufferCapsOrBadges, BitVec.ofNat_add]
  rfl

theorem bufferMsg_inj (hb : b.toNat % 1024 = 0) (hb' : b'.toNat % 1024 = 0) (hi : i < 120)
    (hj : j < 120) (h : bufferMsg b i = bufferMsg b' j) : b = b' ∧ i = j := by
  rw [bufferMsg_eq, bufferMsg_eq] at h
  obtain ⟨hbase, hk⟩ := bufferWord_inj hb hb' (by omega) (by omega) h
  exact ⟨hbase, by omega⟩

theorem bufferMsg_ne_capsOrBadges (hb : b.toNat % 1024 = 0) (hi : i < 120) (hj : j < 3) :
    bufferMsg b i ≠ bufferCapsOrBadges b j := by
  rw [bufferMsg_eq, bufferCapsOrBadges_eq]
  intro h
  have := (bufferWord_inj hb hb (by omega) (by omega) h).2
  omega

/-! ## Copying -/

theorem msg_index_inj (h : (ArchReg.msg i).toIndex a = (ArchReg.msg j).toIndex a) : i = j := by
  cases a <;> simpa [ArchReg.toIndex] using h

theorem ipcBuffer_withRegisters (regs : Nat → Word) (x : Word) :
    ((s.withRegisters t regs).tcbs x).tcbIPCBuffer = (s.tcbs x).tcbIPCBuffer := by
  unfold withRegisters modifyTcb
  by_cases hx : x = t
  · subst hx
    simp
  · simp [hx]

/-- The lookups of buffers do not depend on registers and memory. -/
theorem lookupIpcBuffer_withRegisters (regs : Nat → Word) (x : Word) (isReceiver : Bool) :
    (s.withRegisters t regs).lookupIpcBuffer a x isReceiver = s.lookupIpcBuffer a x isReceiver :=
  lookupIpcBuffer_congr rfl (ipcBuffer_withRegisters regs x)

theorem lookupMutIpcBuffer_withRegisters (regs : Nat → Word) (x : Word) (isReceiver : Bool) :
    (s.withRegisters t regs).lookupMutIpcBuffer a x isReceiver =
      s.lookupMutIpcBuffer a x isReceiver :=
  lookupMutIpcBuffer_congr rfl (ipcBuffer_withRegisters regs x)

theorem lookupMutIpcBuffer_withMemory (mem : Word → Word) (x : Word) (isReceiver : Bool) :
    (s.withMemory mem).lookupMutIpcBuffer a x isReceiver = s.lookupMutIpcBuffer a x isReceiver :=
  rfl

/-- The number of words that reach the receiver. -/
def copiedLength (sendBuffer recvBuffer : Option Word) (length : Nat) : Nat :=
  if sendBuffer.isSome ∧ recvBuffer.isSome then length else min length msgRegisterNum

/-- Registers with the first `n` message registers of `src`. -/
structure CopiesRegisters (a : Arch) (src old new : Nat → Word) (n : Nat) : Prop where
  copied : ∀ i < n, new ((ArchReg.msg i).toIndex a) = src ((ArchReg.msg i).toIndex a)
  rest : ∀ r, (∀ i < n, r ≠ (ArchReg.msg i).toIndex a) → new r = old r

/-- Memory with the words from `i` up to `n` of one buffer in the other. -/
structure CopiesWords (src dest : Word) (old new : Word → Word) (i n : Nat) : Prop where
  copied : ∀ k, i ≤ k → k < n → new (bufferMsg dest k) = old (bufferMsg src k)
  rest : ∀ p, (∀ k, i ≤ k → k < n → p ≠ bufferMsg dest k) → new p = old p

theorem forLoop_msg_copies (hne : t ≠ receiver) (n : Nat) : ∃ regs,
    forLoop (fun i s => s.setRegister a receiver (.msg i) (s.getRegister a t (.msg i))) 0 n s =
      s.withRegisters receiver regs ∧
    CopiesRegisters a (s.tcbs t).registers (s.tcbs receiver).registers regs n := by
  refine ⟨_, forLoop_setRegister, ?_⟩
  have hread : ∀ regs, ((s.withRegisters receiver regs).tcbs t).registers = (s.tcbs t).registers :=
    fun regs => by rw [registers_withRegisters, if_neg hne]
  simp only [getRegister, hread]
  obtain ⟨hcopied, hrest⟩ := forLoop_update (p := fun i => (ArchReg.msg i).toIndex a)
    (v := fun i _ => (s.tcbs t).registers ((ArchReg.msg i).toIndex a))
    (m := (s.tcbs receiver).registers)
    (fun j k _ hjk _ he => absurd (msg_index_inj he) (by omega)) (fun _ _ _ _ _ => rfl)
  exact ⟨fun i hi => hcopied i (Nat.zero_le i) (by omega),
    fun r hr => hrest r fun k _ hk => hr k (by omega)⟩

theorem forLoop_words_copies {src : Word} (hsrc : src.toNat % 1024 = 0)
    (hdest : dest.toNat % 1024 = 0) (hn : i + n ≤ 120) : ∃ mem,
    forLoop (fun k s => s.setUserWord (bufferMsg dest k) (s.userMemory (bufferMsg src k))) i n s =
      s.withMemory mem ∧ CopiesWords src dest s.userMemory mem i (i + n) := by
  refine ⟨_, forLoop_setUserWord, ?_⟩
  obtain ⟨hcopied, hrest⟩ := forLoop_update (i := i) (n := n) (p := bufferMsg dest)
    (v := fun k mem => mem (bufferMsg src k))
    (fun j k _ hjk hk he => by
      have := (bufferMsg_inj hdest hdest (by omega) (by omega) he).2
      omega)
    -- a word is read before it is overwritten: no earlier turn has written to it
    (fun k m' _ hk hm => hm _ fun j _ hjk he => by
      have := (bufferMsg_inj hsrc hdest (by omega) (by omega) he).2
      omega)
  exact ⟨hcopied, hrest⟩

/-- `copy_mrs` returns, and copies exactly the words that there is room for. -/
theorem copyMrs_eq (hne : t ≠ receiver) (hs : s.lookupIpcBuffer a t false = .ok sendBuffer)
    (hr : s.lookupMutIpcBuffer a receiver true = .ok recvBuffer)
    (hsa : ∀ b, sendBuffer = some b → b.toNat % 1024 = 0)
    (hra : ∀ b, recvBuffer = some b → b.toNat % 1024 = 0) (hlen : length ≤ 120) :
    ∃ regs mem, s.copyMrs a t receiver length =
        .ok ((s.withRegisters receiver regs).withMemory mem,
          copiedLength sendBuffer recvBuffer length) ∧
      CopiesRegisters a (s.tcbs t).registers (s.tcbs receiver).registers regs
        (min length msgRegisterNum) ∧
      (∀ src dest, sendBuffer = some src → recvBuffer = some dest →
        CopiesWords src dest s.userMemory mem msgRegisterNum length) ∧
      (sendBuffer = none ∨ recvBuffer = none → mem = s.userMemory) := by
  obtain ⟨regs, hregs, hcopies⟩ := forLoop_msg_copies (a := a) (s := s) hne
    (min length msgRegisterNum)
  unfold copyMrs
  simp only [hregs, lookupIpcBuffer_withRegisters, lookupMutIpcBuffer_withRegisters, hs, hr]
  have hsame : s.withRegisters receiver regs =
      (s.withRegisters receiver regs).withMemory s.userMemory := rfl
  cases sendBuffer with
  | none =>
    exact ⟨regs, s.userMemory, by rw [← hsame]; rfl, hcopies, (fun _ _ h => by cases h),
      fun _ => rfl⟩
  | some src =>
    cases recvBuffer with
    | none =>
      exact ⟨regs, s.userMemory, by rw [← hsame]; rfl, hcopies, (fun _ _ _ h => by cases h),
        fun _ => rfl⟩
    | some dest =>
      have hsum : min length msgRegisterNum + (length - min length msgRegisterNum) = length := by
        omega
      obtain ⟨mem, hmem, hwords⟩ := forLoop_words_copies (hsa src rfl) (hra dest rfl)
        (i := min length msgRegisterNum) (n := length - min length msgRegisterNum) (by omega)
      refine ⟨regs, mem, ?_, hcopies, ?_, ?_⟩
      · show Except.ok (forLoop _ _ _ _, _) = _
        rw [hmem, hsum]
        rfl
      · rintro src' dest' hsrc hdest
        cases hsrc
        cases hdest
        rw [hsum] at hwords
        refine ⟨fun k hk hkl => hwords.copied k (by omega) hkl, fun p hp => ?_⟩
        exact hwords.rest p fun k hk hkl => hp k (by omega) hkl
      · rintro (h | h) <;> cases h

/-! ## Beside the caps of a message -/

/-- The transfer of caps touches no thread, and of memory only the words for
badges in the buffer. -/
structure CapsOnly (buffer : Word) (s s' : KernelState) : Prop where
  tcbs : s'.tcbs = s.tcbs
  memory : ∀ p, (∀ j < msgMaxExtraCaps, p ≠ bufferCapsOrBadges buffer j) →
    s'.userMemory p = s.userMemory p

theorem transferCap_fields (h : transferCap a s slot dest = .ok (some s')) :
    s'.tcbs = s.tcbs ∧ s'.userMemory = s.userMemory := by
  obtain ⟨⟨status, newCap⟩, -, h⟩ := bind_eq_ok.mp h
  simp only at h
  split at h
  · cases h
  obtain ⟨s₁, hs, h⟩ := bind_eq_ok.mp h
  cases h
  obtain ⟨σ, -, hs⟩ := bind_eq_ok.mp hs
  cases hs
  exact ⟨rfl, rfl⟩

/-- Label and length of a message are not touched by the transfer of caps. -/
def SameEnvelope (info info' : MessageInfo) : Prop :=
  info'.getUsizeLabel = info.getUsizeLabel ∧ info'.getLength = info.getLength

theorem sameEnvelope_set (hlabel : Common.Field.miLabel.Disjoint f)
    (hlength : Common.Field.miLength.Disjoint f) (w : Word) : SameEnvelope info (f.set info w) :=
  ⟨stored_set_of_disjoint hlabel, stored_set_of_disjoint hlength⟩

theorem SameEnvelope.trans (h : SameEnvelope i₁ i₂) (h' : SameEnvelope i₂ i₃) :
    SameEnvelope i₁ i₃ := ⟨h'.1.trans h.1, h'.2.trans h.2⟩

theorem sameEnvelope_capsUnwrapped (info : MessageInfo) (w : Word) :
    SameEnvelope info (Common.Field.miCapsUnwrapped.set info w) :=
  sameEnvelope_set (by decide) (by decide) w

theorem transferCapsFrom_capsOnly (hin : i + n ≤ msgMaxExtraCaps)
    (h : transferCapsFrom a endpoint buffer extraCaps i n s info destSlot = .ok (s', info', k)) :
    CapsOnly buffer s s' ∧ SameEnvelope info info' := by
  induction n generalizing i s info destSlot with
  | zero =>
    cases h
    exact ⟨⟨rfl, fun _ _ => rfl⟩, rfl, rfl⟩
  | succ n ih =>
    rw [transferCapsFrom] at h
    simp only at h
    split at h
    · cases h
      exact ⟨⟨rfl, fun _ _ => rfl⟩, rfl, rfl⟩
    split at h
    · obtain ⟨hcaps, hinfo⟩ := ih (by omega) h
      refine ⟨⟨hcaps.tcbs, fun p hp => ?_⟩, (sameEnvelope_capsUnwrapped _ _).trans hinfo⟩
      exact (hcaps.memory p hp).trans (update_of_ne (hp i (by omega)) _ _)
    cases destSlot with
    | none =>
      cases h
      exact ⟨⟨rfl, fun _ _ => rfl⟩, rfl, rfl⟩
    | some dest =>
      obtain ⟨r, hr, h⟩ := bind_eq_ok.mp h
      cases r with
      | none =>
        cases h
        exact ⟨⟨rfl, fun _ _ => rfl⟩, rfl, rfl⟩
      | some s₁ =>
        obtain ⟨htcbs, hmem⟩ := transferCap_fields hr
        obtain ⟨hcaps, hinfo⟩ := ih (by omega) h
        refine ⟨⟨hcaps.tcbs.trans htcbs, fun p hp => ?_⟩, hinfo⟩
        rw [hcaps.memory p hp, hmem]

theorem setTransferCaps_capsOnly (hr : s.lookupMutIpcBuffer a t true = .ok recvBuffer)
    (h : setTransferCaps a s t endpoint info extraCaps = .ok (s', info')) :
    s'.tcbs = s.tcbs ∧ SameEnvelope info info' ∧
      ∀ p, (∀ b, recvBuffer = some b → ∀ j < msgMaxExtraCaps, p ≠ bufferCapsOrBadges b j) →
        s'.userMemory p = s.userMemory p := by
  have hextra : ∀ info w, SameEnvelope info (Common.Field.miExtraCaps.set info w) :=
    fun _ => sameEnvelope_set (by decide) (by decide)
  have hclear := (hextra info 0).trans
    (sameEnvelope_capsUnwrapped (Common.Field.miExtraCaps.set info 0) 0)
  unfold setTransferCaps at h
  simp only [hr] at h
  cases recvBuffer with
  | none =>
    cases h
    exact ⟨rfl, hclear, fun _ _ => rfl⟩
  | some buffer =>
    obtain ⟨r, hbuffer, h⟩ := bind_eq_ok.mp h
    cases hbuffer
    simp only at h
    split at h
    · cases h
      exact ⟨rfl, hclear, fun _ _ => rfl⟩
    obtain ⟨destSlot, -, h⟩ := bind_eq_ok.mp h
    obtain ⟨⟨s₁, info₁, k⟩, hloop, h⟩ := bind_eq_ok.mp h
    cases h
    obtain ⟨hcaps, hinfo⟩ := transferCapsFrom_capsOnly (by decide) hloop
    exact ⟨hcaps.tcbs, hclear.trans (hinfo.trans (hextra _ _)),
      fun p hp => hcaps.memory p (hp buffer rfl)⟩

/-! ## Messages -/

theorem getLength_set (hw : w.toNat < 128) :
    MessageInfo.getLength (Common.Field.miLength.set info w) = w := by
  rw [MessageInfo.getLength, stored_set_self (by decide)]
  exact raw_of_lt rfl (by decide) hw

theorem toNat_getLength_fromWordSecurity (w : Word) :
    (MessageInfo.fromWordSecurity w).getLength.toNat =
      min (MessageInfo.fromWord w).getLength.toNat 120 := by
  unfold MessageInfo.fromWordSecurity
  simp only
  split
  next h =>
    have hgt : 120 < (MessageInfo.fromWord w).getLength.toNat := h
    rw [getLength_set (by decide)]
    show 120 = min _ 120
    omega
  next h =>
    have hle : (MessageInfo.fromWord w).getLength.toNat ≤ 120 := Nat.le_of_not_lt h
    omega

theorem getUsizeLabel_fromWordSecurity (w : Word) :
    (MessageInfo.fromWordSecurity w).getUsizeLabel = (MessageInfo.fromWord w).getUsizeLabel := by
  unfold MessageInfo.fromWordSecurity
  simp only
  split
  · exact stored_set_of_disjoint (by decide)
  · rfl

/-- Word `i` of a message of `t`. -/
def messageWord (a : Arch) (s : KernelState) (t : Word) (buffer : Option Word) (i : Nat) : Word :=
  if i < msgRegisterNum then s.getRegister a t (.msg i)
  else s.userMemory (bufferMsg (buffer.getD 0) i)

/-- The message info that `t` was given. -/
def deliveredInfo (a : Arch) (s : KernelState) (t : Word) : MessageInfo :=
  MessageInfo.fromWord (s.getRegister a t .msgInfo)

/-- The receiver has the first `m` words that the sender had, and knows the label and
their number; its other message registers and the sender are as before. -/
structure PayloadExact (a : Arch) (s s' : KernelState) (t receiver : Word)
    (sendBuffer recvBuffer : Option Word) (m : Nat) : Prop where
  words : ∀ i < m, messageWord a s' receiver recvBuffer i = messageWord a s t sendBuffer i
  length : (deliveredInfo a s' receiver).getLength.toNat = m
  label : (deliveredInfo a s' receiver).getUsizeLabel = (deliveredInfo a s t).getUsizeLabel
  rest : ∀ i, m ≤ i → i < msgRegisterNum →
    s'.getRegister a receiver (.msg i) = s.getRegister a receiver (.msg i)
  sender : (s'.tcbs t).registers = (s.tcbs t).registers

theorem copiedLength_le : copiedLength sendBuffer recvBuffer length ≤ length := by
  unfold copiedLength
  split
  · exact Nat.le_refl _
  · exact Nat.min_le_left _ _

/-- Beyond the registers there are words only if there are both buffers. -/
theorem buffers_of_lt (hi : i < copiedLength sendBuffer recvBuffer length) (h4 : msgRegisterNum ≤ i) :
    i < length ∧ ∃ src dest, sendBuffer = some src ∧ recvBuffer = some dest := by
  unfold copiedLength at hi
  split at hi
  next h =>
    obtain ⟨src, hsrc⟩ := Option.isSome_iff_exists.mp h.1
    obtain ⟨dest, hdest⟩ := Option.isSome_iff_exists.mp h.2
    exact ⟨hi, src, dest, hsrc, hdest⟩
  · omega

/-- The end of `do_normal_transfer`. -/
def finishTransfer (a : Arch) (s : KernelState) (receiver badge : Word) (tag : MessageInfo)
    (m : Nat) : KernelState :=
  let tag := Common.Field.miLength.set tag (BitVec.ofNat 64 m)
  (s.setRegister a receiver .msgInfo (MessageInfo.toWord tag)).setRegister a receiver .badge badge

theorem registers_finishTransfer (badge : Word) (tag : MessageInfo) (m : Nat)
    (h : x ≠ receiver ∨ ∃ i, r = (ArchReg.msg i).toIndex a) :
    ((finishTransfer a s receiver badge tag m).tcbs x).registers r = (s.tcbs x).registers r := by
  unfold finishTransfer setRegister modifyTcb
  by_cases hx : x = receiver
  · subst hx
    obtain ⟨i, rfl⟩ := h.resolve_left (not_not.mpr rfl)
    have hbadge : (ArchReg.msg i).toIndex a ≠ ArchReg.badge.toIndex a := by
      cases a <;> simp only [ArchReg.toIndex] <;> omega
    have hinfo : (ArchReg.msg i).toIndex a ≠ ArchReg.msgInfo.toIndex a := by
      cases a <;> simp only [ArchReg.toIndex] <;> omega
    simp [hbadge, hinfo]
  · simp [hx]

theorem deliveredInfo_finishTransfer (badge : Word) (tag : MessageInfo) (m : Nat) :
    deliveredInfo a (finishTransfer a s receiver badge tag m) receiver =
      Common.Field.miLength.set tag (BitVec.ofNat 64 m) := by
  have hne : ArchReg.msgInfo.toIndex a ≠ ArchReg.badge.toIndex a := by cases a <;> decide
  funext i
  obtain rfl : i = 0 := Subsingleton.elim _ _
  simp [deliveredInfo, finishTransfer, setRegister, modifyTcb, getRegister, MessageInfo.fromWord,
    MessageInfo.toWord, hne]

/-- The message that `t` sends, with the length cut to what a buffer holds. -/
def sentTag (a : Arch) (s : KernelState) (t : Word) : MessageInfo :=
  MessageInfo.fromWordSecurity (s.getRegister a t .msgInfo)

/-- `do_normal_transfer` in its three parts: the words, the caps, the message info. -/
theorem doNormalTransfer_eq :
    doNormalTransfer a s t receiver endpoint badge canGrant = (do
      let extraCaps ← grantedCaps a s t canGrant
      let (s₁, m) ← s.copyMrs a t receiver (sentTag a s t).getLength.toNat
      let (s₂, tag) ← setTransferCaps a s₁ receiver endpoint (sentTag a s t) extraCaps
      return finishTransfer a s₂ receiver badge tag m) := rfl

section Transfer

variable {sendBuffer recvBuffer : Option Word} {regs : Nat → Word} {mem : Word → Word}
  {length : Nat}

theorem messageWord_copied
    (hregs : CopiesRegisters a (s.tcbs t).registers (s.tcbs receiver).registers regs
      (min length msgRegisterNum))
    (hwords : ∀ src dest, sendBuffer = some src → recvBuffer = some dest →
      CopiesWords src dest s.userMemory mem msgRegisterNum length)
    (hi : i < copiedLength sendBuffer recvBuffer length) :
    messageWord a ((s.withRegisters receiver regs).withMemory mem) receiver recvBuffer i =
      messageWord a s t sendBuffer i := by
  have hm : copiedLength sendBuffer recvBuffer length ≤ length := copiedLength_le
  unfold messageWord
  split
  next h4 =>
    show ((s.withRegisters receiver regs).tcbs receiver).registers _ = _
    rw [registers_withRegisters, if_pos rfl]
    exact hregs.copied i (by omega)
  next h4 =>
    obtain ⟨hil, src, dest, hsrc, hdest⟩ := buffers_of_lt hi (by omega)
    rw [hsrc, hdest]
    exact (hwords src dest hsrc hdest).copied i (by omega) hil

/-- What has been copied is still there when the caps and the info have been added. -/
theorem payloadExact_finish (hne : t ≠ receiver)
    (hra : ∀ b, recvBuffer = some b → b.toNat % 1024 = 0)
    (hlen : (sentTag a s t).getLength.toNat = length) (hle : length ≤ 120)
    (hregs : CopiesRegisters a (s.tcbs t).registers (s.tcbs receiver).registers regs (min length
      msgRegisterNum))
    (hwords : ∀ src dest, sendBuffer = some src → recvBuffer = some dest →
      CopiesWords src dest s.userMemory mem msgRegisterNum length)
    (htcbs : s₂.tcbs = ((s.withRegisters receiver regs).withMemory mem).tcbs)
    (htag : SameEnvelope (sentTag a s t) tag)
    (hmem : ∀ p, (∀ b, recvBuffer = some b → ∀ j < msgMaxExtraCaps, p ≠ bufferCapsOrBadges b j) →
      s₂.userMemory p = mem p)
    (badge : Word) :
    PayloadExact a s
      (finishTransfer a s₂ receiver badge tag (copiedLength sendBuffer recvBuffer length)) t receiver
      sendBuffer recvBuffer (copiedLength sendBuffer recvBuffer length) := by
  have hm : copiedLength sendBuffer recvBuffer length ≤ length := copiedLength_le
  have hmsg : ∀ i, (finishTransfer a s₂ receiver badge tag
      (copiedLength sendBuffer recvBuffer length)).getRegister a receiver (.msg i) =
      regs ((ArchReg.msg i).toIndex a) := by
    intro i
    rw [getRegister, registers_finishTransfer _ _ _ (.inr ⟨i, rfl⟩), htcbs]
    show ((s.withRegisters receiver regs).tcbs receiver).registers _ = _
    rw [registers_withRegisters, if_pos rfl]
  refine ⟨fun i hi => ?_, ?_, ?_, fun i hmi hi => ?_, ?_⟩
  · rw [← messageWord_copied hregs hwords hi]
    unfold messageWord
    split
    next h4 =>
      rw [hmsg]
      show _ = ((s.withRegisters receiver regs).tcbs receiver).registers _
      rw [registers_withRegisters, if_pos rfl]
    rename_i h4
    obtain ⟨-, -, dest, -, hdest⟩ := buffers_of_lt hi (by omega)
    rw [hdest]
    refine hmem _ fun b hb j hj => ?_
    cases hdest.symm.trans hb
    exact bufferMsg_ne_capsOrBadges (hra dest hdest) (by omega) hj
  · rw [deliveredInfo_finishTransfer, getLength_set, BitVec.toNat_ofNat]
    · omega
    · rw [BitVec.toNat_ofNat]
      omega
  · rw [deliveredInfo_finishTransfer]
    have hlabel : MessageInfo.getUsizeLabel (Common.Field.miLength.set tag
        (BitVec.ofNat 64 (copiedLength sendBuffer recvBuffer length))) = tag.getUsizeLabel :=
      stored_set_of_disjoint (by decide)
    rw [hlabel, htag.1]
    exact getUsizeLabel_fromWordSecurity _
  · rw [hmsg]
    refine hregs.rest _ fun j hj he => ?_
    have hij := msg_index_inj he
    -- a register beyond the copied words is also beyond the length
    unfold copiedLength at hmi
    split at hmi <;> omega
  · funext r
    rw [registers_finishTransfer _ _ _ (.inl hne), htcbs]
    show ((s.withRegisters receiver regs).tcbs t).registers r = _
    rw [registers_withRegisters, if_neg hne]

end Transfer

/-- A message arrives as it was sent, as far as both buffers allow. The transfer
returns if no caps are granted; otherwise only the lookup and the transfer of the
caps can abort, the latter with the words copied already. -/
theorem doNormalTransfer_payload (hne : t ≠ receiver) (ht : BufferOk a s t)
    (hr : BufferOk a s receiver) (endpoint : Option Word) (badge : Word) (canGrant : Bool) :
    ∃ sendBuffer recvBuffer m, s.lookupIpcBuffer a t false = .ok sendBuffer ∧
      s.lookupMutIpcBuffer a receiver true = .ok recvBuffer ∧
      m = (if sendBuffer.isSome ∧ recvBuffer.isSome
        then min (deliveredInfo a s t).getLength.toNat 120
        else min (deliveredInfo a s t).getLength.toNat 4) ∧
      (∀ s', doNormalTransfer a s t receiver endpoint badge canGrant = .ok s' →
        PayloadExact a s s' t receiver sendBuffer recvBuffer m) ∧
      (canGrant = false → ∃ s', doNormalTransfer a s t receiver endpoint badge canGrant = .ok s') ∧
      ∀ e, doNormalTransfer a s t receiver endpoint badge canGrant = .error e →
        grantedCaps a s t canGrant = .error e ∨ ∃ s₁ extraCaps,
          s.copyMrs a t receiver (sentTag a s t).getLength.toNat = .ok (s₁, m) ∧
          setTransferCaps a s₁ receiver endpoint (sentTag a s t) extraCaps = .error e ∧
          ∀ i < m, messageWord a s₁ receiver recvBuffer i = messageWord a s t sendBuffer i := by
  obtain ⟨sendBuffer, hs, hsa⟩ := lookupIpcBuffer_ok ht false
  obtain ⟨recvBuffer, hrb, hra⟩ := lookupMutIpcBuffer_ok hr true
  have hlen : (sentTag a s t).getLength.toNat = min (deliveredInfo a s t).getLength.toNat 120 :=
    toNat_getLength_fromWordSecurity (s.getRegister a t .msgInfo)
  have hle : (sentTag a s t).getLength.toNat ≤ 120 := by
    rw [hlen]
    exact Nat.min_le_right _ _
  obtain ⟨regs, mem, hcopy, hregs, hwords, -⟩ := copyMrs_eq hne hs hrb hsa hra hle
  have hlookup : ((s.withRegisters receiver regs).withMemory mem).lookupMutIpcBuffer a receiver
      true = .ok recvBuffer := by
    rw [lookupMutIpcBuffer_withMemory, lookupMutIpcBuffer_withRegisters, hrb]
  refine ⟨sendBuffer, recvBuffer,
    copiedLength sendBuffer recvBuffer (sentTag a s t).getLength.toNat, hs, hrb, ?_,
    fun s' h => ?_, fun hgrant => ?_, fun e h => ?_⟩
  · rw [copiedLength, hlen, msgRegisterNum, Nat.min_assoc]
    rfl
  · rw [doNormalTransfer_eq] at h
    obtain ⟨extraCaps, -, h⟩ := bind_eq_ok.mp h
    obtain ⟨⟨s₁, m⟩, hs₁, h⟩ := bind_eq_ok.mp h
    cases hcopy.symm.trans hs₁
    obtain ⟨⟨s₂, tag⟩, hcaps, h⟩ := bind_eq_ok.mp h
    cases h
    obtain ⟨htcbs, htag, hmem⟩ := setTransferCaps_capsOnly hlookup hcaps
    exact payloadExact_finish hne hra rfl hle hregs hwords htcbs htag hmem badge
  · have hcaps : ∃ r, setTransferCaps a ((s.withRegisters receiver regs).withMemory mem) receiver
        endpoint (sentTag a s t) (fun _ => 0) = .ok r := by
      unfold setTransferCaps
      simp only [hlookup]
      cases recvBuffer with
      | none => exact ⟨_, rfl⟩
      | some b => exact ⟨_, rfl⟩
    obtain ⟨⟨s₂, tag⟩, hcaps⟩ := hcaps
    rw [doNormalTransfer_eq, hgrant]
    exact ⟨_, bind_eq_ok.mpr ⟨_, rfl, bind_eq_ok.mpr ⟨_, hcopy, bind_eq_ok.mpr ⟨_, hcaps, rfl⟩⟩⟩⟩
  · rw [doNormalTransfer_eq] at h
    rcases bind_eq_error.mp h with h | ⟨extraCaps, -, h⟩
    · exact .inl h
    rcases bind_eq_error.mp h with h | ⟨⟨s₁, m⟩, hs₁, h⟩
    · rw [hcopy] at h
      cases h
    cases hcopy.symm.trans hs₁
    rcases bind_eq_error.mp h with h | ⟨⟨s₂, tag⟩, -, h⟩
    · exact .inr ⟨_, extraCaps, hcopy, h, fun i hi => messageWord_copied hregs hwords hi⟩
    · cases h

/-! Two threads whose buffers are in one frame. -/

def senderTcb : Word := pptrBase .riscv64 + 0x1200
def peerTcb : Word := pptrBase .riscv64 + 0x1600

def sharedFrame : CapT :=
  newFrameCap .riscv64 0 (pptrBase .riscv64 + 0x8000) 0 (vmReadWrite .riscv64) 0 0

/-- The sender has a message of six words; its buffer is the first of the frame, that
of the other thread the second. -/
def sharingFrame : KernelState :=
  { KernelState.zero with
    ctes := update (update (fun _ => emptyCte)
      (getCspace .riscv64 senderTcb tcbBuffer) ⟨sharedFrame, defaultMdbNode⟩)
      (getCspace .riscv64 peerTcb tcbBuffer) ⟨sharedFrame, defaultMdbNode⟩
    tcbs := update (update (fun _ => Tcb.zero)
      senderTcb { Tcb.zero with registers := fun r => if r = 10 then 6 else BitVec.ofNat 64 r })
      peerTcb { Tcb.zero with tcbIPCBuffer := 0x400 }
    userMemory := fun p => p }

theorem senderTcb_ne_peerTcb : senderTcb ≠ peerTcb := by decide

theorem bufferOk_sender : BufferOk .riscv64 sharingFrame senderTcb := ⟨by decide, by decide⟩

theorem bufferOk_peer : BufferOk .riscv64 sharingFrame peerTcb := ⟨by decide, by decide⟩

theorem doNormalTransfer_payload_shared : ∃ s',
    doNormalTransfer .riscv64 sharingFrame senderTcb peerTcb none 7 false = .ok s' ∧
      PayloadExact .riscv64 sharingFrame s' senderTcb peerTcb (some (pptrBase .riscv64 + 0x8000))
        (some (pptrBase .riscv64 + 0x8400)) 6 := by
  obtain ⟨sendBuffer, recvBuffer, m, hs, hr, hm, hexact, hreturns, -⟩ :=
    doNormalTransfer_payload senderTcb_ne_peerTcb bufferOk_sender bufferOk_peer none 7 false
  have hs' : sharingFrame.lookupIpcBuffer .riscv64 senderTcb false =
      .ok (some (pptrBase .riscv64 + 0x8000)) := by rfl
  have hr' : sharingFrame.lookupMutIpcBuffer .riscv64 peerTcb true =
      .ok (some (pptrBase .riscv64 + 0x8400)) := by rfl
  cases hs'.symm.trans hs
  cases hr'.symm.trans hr
  obtain rfl : m = 6 := hm.trans (by decide)
  obtain ⟨s', h⟩ := hreturns rfl
  exact ⟨s', h, hexact s' h⟩

end Rel4.Ipc
