import Rel4.Kernel.Registers
import Rel4.Kernel.Suspend

/-!
CopyRegisters.

The call is to transfer the frame registers and the general registers of one thread
to another, each group as its flag says, and to suspend the one and restart the
other. The code looks at one of the two transfer flags and copies the other group.
-/

namespace Rel4.Kernel
open Lib.Bitfield Lib.Loop Common CSpace Rel4.Task Ipc
open Task.KernelState
open ArchReg (gp)

variable {buffer flag : Word} {cap : CapT} {i j : Nat} {call : Bool} {a : Arch} {s s' : KernelState}
  {dest src t : Word}

/-! ## The copy -/

theorem gp_index_inj (hi : i < gpRegNum a) (hj : j < gpRegNum a)
    (h : (gp i).toIndex a = (gp j).toIndex a) : i = j := by
  rw [← userRegister_gp i, ← userRegister_gp j] at h
  have hlen : userRegNum a = frameRegNum a + gpRegNum a := rfl
  have := userRegister_index_inj (by omega) (by omega) h
  omega

theorem frame_index_ne_gp (hi : i < frameRegNum a) (hj : j < gpRegNum a) :
    (ArchReg.frame i).toIndex a ≠ (gp j).toIndex a := by
  intro h
  rw [← userRegister_frame hi, ← userRegister_gp j] at h
  have hlen : userRegNum a = frameRegNum a + gpRegNum a := rfl
  have := userRegister_index_inj (by omega) (by omega) h
  omega

theorem nextIP_index_ne_gp (hj : j < gpRegNum a) :
    ArchReg.nextIP.toIndex a ≠ (gp j).toIndex a := by
  have hlen : userRegNum a = frameRegNum a + gpRegNum a := rfl
  have hne := userRegister_index_ne_nextIP (a := a) (i := j + frameRegNum a) (by omega)
  rw [userRegister_gp] at hne
  exact hne.symm

/-- The destination has the general registers of the source, the two threads may be one. -/
theorem registers_copyGpRegisters (dest src : Word) :
    (∀ i < gpRegNum a, ((copyGpRegisters a s dest src).tcbs dest).registers
        ((gp i).toIndex a) = (s.tcbs src).registers ((gp i).toIndex a)) ∧
      ∀ k, (∀ i < gpRegNum a, k ≠ (gp i).toIndex a) →
        ((copyGpRegisters a s dest src).tcbs dest).registers k = (s.tcbs dest).registers k := by
  have hread : ∀ regs r, (s.withRegisters dest regs).getRegister a src r =
      (if src = dest then regs else (s.tcbs src).registers) (r.toIndex a) :=
    fun regs r => congrFun (registers_withRegisters regs src) _
  unfold copyGpRegisters
  simp only [forLoop_setRegister, hread, registers_withRegisters, if_true]
  obtain ⟨hcopied, hkept⟩ := forLoop_update (i := 0) (n := gpRegNum a)
    (p := fun i => (gp i).toIndex a)
    (v := fun i regs => (if src = dest then regs else (s.tcbs src).registers)
      ((gp i).toIndex a)) (m := (s.tcbs dest).registers)
    (fun j k _ hjk hk he => absurd (gp_index_inj (by omega) (by omega) he) (by omega))
    (fun k regs _ hk hsame => by
      -- with one thread, a turn reads what no earlier turn has written
      split
      · exact hsame _ fun j _ hj he => absurd (gp_index_inj (by omega) (by omega) he) (by omega)
      · rfl)
  refine ⟨fun i hi => ?_, fun k hk => hkept k fun i _ hi => hk i (by omega)⟩
  rw [hcopied i (Nat.zero_le i) (by omega)]
  split
  next h => rw [h]
  · rfl

theorem schedEq_rescheduleIfCurrent : SchedEq (rescheduleIfCurrent a s t) s := by
  unfold rescheduleIfCurrent
  split
  · exact schedEq_rescheduleRequired
  · exact .refl s

theorem getState_copyGpRegisters (x : Word) :
    (copyGpRegisters a s dest src).getState x = s.getState x :=
  forLoop_preserves (P := fun s' : KernelState => s'.getState x = s.getState x) rfl fun j s' _ _ h => by
    rw [getState_setRegister, h]

/-! ## Suspending and restarting -/

theorem suspendIf_state (h : flag ≠ 0 → CancelsAlone a s t) : ∃ s', suspendIf a s flag t = .ok s' ∧
      ∀ x, s'.getState x = if flag ≠ 0 ∧ x = t then .inactive else s.getState x := by
  unfold suspendIf
  split
  next hflag =>
    obtain ⟨s₁, hs₁, hothers⟩ := h hflag
    refine ⟨s₁.suspend a t, by rw [invokeTcbSuspend, hs₁]; rfl, fun x => ?_⟩
    rw [getState_suspend]
    by_cases hx : x = t
    · rw [if_pos hx, if_pos ⟨hflag, hx⟩]
    · rw [if_neg hx, if_neg fun h => hx h.2, hothers x hx]
  next hflag => exact ⟨s, rfl, fun x => by rw [if_neg fun h => hflag h.1]⟩

theorem state_restart (h : cancelIpc a s t = .ok s') (hs : s.isStopped t) :
    (s'.restart a t).getState t = .restart := by
  rw [getState_restart]
  -- the thread is as it was, or inactive, or has been restarted already
  rcases parks_rule.cancelIpc trivial h t with hsame | hin | hre
  · have hstop : s'.isStopped t := by
      unfold isStopped at hs ⊢
      rwa [hsame]
    rw [if_pos ⟨rfl, hstop⟩]
  · rw [if_pos ⟨rfl, by simp only [isStopped, hin]⟩]
  · rw [hre, ite_self]

theorem resumeIf_state (h : flag ≠ 0 → CancelsAlone a s t) : ∃ s', resumeIf a s flag t = .ok s' ∧
      ∀ x, s'.getState x = if flag ≠ 0 ∧ x = t ∧ s.isStopped t then .restart else s.getState x := by
  unfold resumeIf
  split
  next hflag =>
    obtain ⟨s₁, hs₁, hothers⟩ := h hflag
    refine ⟨s₁.restart a t, by rw [invokeTcbResume, hs₁]; rfl, fun x => ?_⟩
    by_cases hx : x = t
    · subst hx
      by_cases hstop : s.isStopped x
      · refine Eq.trans ?_ (if_pos ⟨hflag, rfl, hstop⟩).symm
        exact state_restart hs₁ hstop
      · cases (cancelIpc_of_not_stopped hstop).symm.trans hs₁
        rw [getState_restart, if_neg fun h => hstop h.2, if_neg fun h => hstop h.2.2]
    · rw [getState_restart, if_neg fun h => hx h.1, if_neg fun h => hx h.2.1, hothers x hx]
  next hflag => exact ⟨s, rfl, fun x => by rw [if_neg fun h => hflag h.1]⟩

/-! ## The call -/

/-- What a successful CopyRegisters is to do. -/
structure Copied (a : Arch) (s s' : KernelState) (dest src flags : Word) (call : Bool) : Prop where
  frame : flags &&& bit 2 ≠ 0 → (∀ i < frameRegNum a,
    s'.getRegister a dest (.frame i) = s.getRegister a src (.frame i)) ∧
      s'.getRegister a dest .nextIP = s.getRegister a src .faultIP
  noFrame : flags &&& bit 2 = 0 → ∀ i < frameRegNum a,
    s'.getRegister a dest (.frame i) = s.getRegister a dest (.frame i)
  integer : flags &&& bit 3 ≠ 0 → ∀ i < gpRegNum a,
    s'.getRegister a dest (.gp i) = s.getRegister a src (.gp i)
  noInteger : flags &&& bit 3 = 0 → ∀ i < gpRegNum a,
    s'.getRegister a dest (.gp i) = s.getRegister a dest (.gp i)
  -- the source is suspended first, then the destination is restarted
  suspended : flags &&& bit 0 ≠ 0 → (flags &&& bit 1 = 0 ∨ src ≠ dest) →
    s'.getState src = .inactive
  restarted : flags &&& bit 1 ≠ 0 → (s.isStopped dest ∨ flags &&& bit 0 ≠ 0 ∧ dest = src) →
    s'.getState dest = .restart
  kept : ∀ x, (flags &&& bit 0 = 0 ∨ x ≠ src) →
    (flags &&& bit 1 = 0 ∨ x ≠ dest ∨ ¬s.isStopped dest) → s'.getState x = s.getState x
  -- the state in which `handleInvocation` sends the reply
  reply : call → s'.getState s.ksCurThread = .restart

/-- CopyRegisters does what its flags say. -/
def CopyOk (a : Arch) (s : KernelState) (cap : CapT) (buffer : Word) (call : Bool) : Prop :=
  (∀ slot, getExtraCapByIndex s 0 = some slot → s.ctes.capType slot = .threadCap →
    ∃ s', decodeCopyRegisters a s cap buffer = .ok (s', .none) ∧
      Copied a s s' (getTcbPtr a cap) (getTcbPtr a (s.ctes slot).cap)
        (getSyscallArg a s 0 buffer) call) ∧
  ((∀ slot, getExtraCapByIndex s 0 = some slot → s.ctes.capType slot ≠ .threadCap) →
    ∃ s', decodeCopyRegisters a s cap buffer = .ok (s', .syscallError))

/-- The threads of the call can be taken out of their waits. -/
structure CopyWaits (a : Arch) (s : KernelState) (dest src flags : Word) : Prop where
  source : flags &&& bit 0 ≠ 0 → CancelsAlone a s src
  target : flags &&& bit 1 ≠ 0 → ∀ s₁, suspendIf a s (flags &&& bit 0) src = .ok s₁ →
    CancelsAlone a s₁ dest

/-- Where the queues are in order, they can. -/
theorem copyWaits_of_queueInv {P : Population a} {flags : Word} (hq : QueueInv P s)
    (hdest : P.thread dest) (hsrc : P.thread src) (hrd : ReplyLast a s dest)
    (hrs : ReplyLast a s src) : CopyWaits a s dest src flags where
  source _ := hq.cancelsAlone hsrc hrs
  target _ s₁ hs₁ := by
    unfold suspendIf at hs₁
    split at hs₁
    · obtain ⟨s₂, hs₂, hq₂, hplace, hcancels⟩ := hq.cancels hsrc hrs
      rw [invokeTcbSuspend, hs₂] at hs₁
      cases hs₁
      have hrd₂ : ReplyLast a (s₂.suspend a src) dest :=
        (hrd.of_slots hcancels.slots).of_slots (.inl ipcEq_suspend.ctes)
      exact (hq₂.suspend hplace).cancelsAlone hdest hrd₂
    · cases hs₁
      exact hq.cancelsAlone hdest hrd

/-- What the code does: it copies the general registers if the frame is to be
transferred. -/
structure CopyEffect (a : Arch) (s s' : KernelState) (dest src flags : Word) : Prop where
  state : ∀ x, s'.getState x =
    if flags &&& bit 1 ≠ 0 ∧ x = dest ∧ (s.isStopped dest ∨ flags &&& bit 0 ≠ 0 ∧ dest = src) then
      .restart
    else if flags &&& bit 0 ≠ 0 ∧ x = src then .inactive
    else s.getState x
  copied : flags &&& bit 2 ≠ 0 → ∀ i < gpRegNum a,
    s'.getRegister a dest (.gp i) = s.getRegister a src (.gp i)
  notCopied : flags &&& bit 2 = 0 → ∀ i < gpRegNum a,
    s'.getRegister a dest (.gp i) = s.getRegister a dest (.gp i)
  frame : ∀ i < frameRegNum a, s'.getRegister a dest (.frame i) = s.getRegister a dest (.frame i)
  nextIP : s'.getRegister a dest .nextIP = s.getRegister a dest .nextIP

theorem isStopped_suspended {s₁ : KernelState}
    (h : ∀ x, s₁.getState x = if flag ≠ 0 ∧ x = src then .inactive else s.getState x) :
    s₁.isStopped dest ↔ s.isStopped dest ∨ flag ≠ 0 ∧ dest = src := by
  by_cases hd : flag ≠ 0 ∧ dest = src
  · have hin : s₁.getState dest = .inactive := (h dest).trans (if_pos hd)
    exact iff_of_true (by simp only [isStopped, hin]) (.inr hd)
  · have hsame : s₁.getState dest = s.getState dest := (h dest).trans (if_neg hd)
    rw [or_iff_left hd, isStopped, isStopped, hsame]

theorem invokeTcbCopyRegisters_effect {flags : Word} (h : CopyWaits a s dest src flags) :
    ∃ s', invokeTcbCopyRegisters a s dest src (flags &&& bit 0) (flags &&& bit 1)
        (flags &&& bit 2) = .ok s' ∧ CopyEffect a s s' dest src flags := by
  obtain ⟨s₁, hs₁, hstate₁⟩ := suspendIf_state h.source
  obtain ⟨s₂, hs₂, hstate₂⟩ := resumeIf_state fun hflag => h.target hflag s₁ hs₁
  have hregs : SameRegisters s s₂ :=
    (sameRegisters_suspendIf hs₁).trans (sameRegisters_resumeIf hs₂)
  obtain ⟨hcopied, hkept⟩ := registers_copyGpRegisters dest src
  have hlast : ∀ s₃ : KernelState,
      SameRegisters s₃ (rescheduleIfCurrent a s₃ dest) := fun _ => sameRegisters_rescheduleIfCurrent
  refine ⟨_, bind_eq_ok.mpr ⟨s₁, hs₁, bind_eq_ok.mpr ⟨s₂, hs₂, rfl⟩⟩, ?_, ?_, ?_, ?_, ?_⟩
  · intro x
    rw [schedEq_rescheduleIfCurrent.getState]
    have hcopy : (if flags &&& bit 2 ≠ 0 then copyGpRegisters a s₂ dest src else s₂).getState x =
        s₂.getState x := by
      split
      · exact getState_copyGpRegisters x
      · rfl
    rw [hcopy, hstate₂, hstate₁]
    simp only [isStopped_suspended hstate₁]
  · intro hflag i hi
    rw [getRegister, hlast _ dest, if_pos hflag, hcopied i hi, hregs src]
    rfl
  · intro hflag i hi
    rw [getRegister, hlast _ dest, if_neg (not_not.mpr hflag), hregs dest]
    rfl
  · intro i hi
    rw [getRegister, hlast _ dest]
    split
    · rw [hkept _ fun j hj => frame_index_ne_gp hi hj, hregs dest]
      rfl
    · rw [hregs dest]
      rfl
  · rw [getRegister, hlast _ dest]
    split
    · rw [hkept _ fun j hj => nextIP_index_ne_gp hj, hregs dest]
      rfl
    · rw [hregs dest]
      rfl

/-- The cases in which that is what the flags say. -/
structure CopyFits (a : Arch) (s : KernelState) (dest src flags : Word) (call : Bool) : Prop where
  frame : flags &&& bit 2 ≠ 0 → (∀ i < frameRegNum a,
    s.getRegister a dest (.frame i) = s.getRegister a src (.frame i)) ∧
      s.getRegister a dest .nextIP = s.getRegister a src .faultIP
  integer : (flags &&& bit 2 ≠ 0 ↔ flags &&& bit 3 = 0) → ∀ i < gpRegNum a,
    s.getRegister a dest (.gp i) = s.getRegister a src (.gp i)
  reply : call → flags &&& bit 0 ≠ 0 ∧ flags &&& bit 1 ≠ 0 ∧
    s.ksCurThread = dest ∧ s.ksCurThread = src

section

variable {flags : Word} (h : CopyEffect a s s' dest src flags)
  (hcur : s.getState s.ksCurThread = .running)
include h hcur

/-- The caller runs, and is restarted only if it is both threads of the call. -/
theorem CopyEffect.restart_iff :
    s'.getState s.ksCurThread = .restart ↔ flags &&& bit 0 ≠ 0 ∧ flags &&& bit 1 ≠ 0 ∧
      s.ksCurThread = dest ∧ s.ksCurThread = src := by
  have hstop : s.ksCurThread = dest → ¬s.isStopped dest := by
    rintro rfl
    simp only [isStopped, hcur, Bool.false_eq_true, not_false_eq_true]
  rw [h.state]
  constructor
  · intro hreply
    split at hreply
    next hr =>
      obtain ⟨hone, hd, hs | ⟨hzero, he⟩⟩ := hr
      · exact absurd hs (hstop hd)
      · exact ⟨hzero, hone, hd, hd.trans he⟩
    split at hreply
    · cases hreply
    · rw [hcur] at hreply
      cases hreply
  · rintro ⟨hzero, hone, hd, he⟩
    exact if_pos ⟨hone, hd, .inr ⟨hzero, hd.symm.trans he⟩⟩

theorem CopyEffect.fits (hc : Copied a s s' dest src flags call) :
    CopyFits a s dest src flags call where
  frame hflag := by
    obtain ⟨hframe, hnext⟩ := hc.frame hflag
    exact ⟨fun i hi => (h.frame i hi).symm.trans (hframe i hi), h.nextIP.symm.trans hnext⟩
  integer hflags i hi := by
    by_cases hflag : flags &&& bit 2 = 0
    · have hthree : flags &&& bit 3 ≠ 0 := fun h3 => hflags.mpr h3 hflag
      exact (h.notCopied hflag i hi).symm.trans (hc.integer hthree i hi)
    · exact (hc.noInteger (hflags.mp hflag) i hi).symm.trans (h.copied hflag i hi)
  reply hcall := (h.restart_iff hcur).mp (hc.reply hcall)

theorem CopyEffect.copied_of_fits (hf : CopyFits a s dest src flags call) :
    Copied a s s' dest src flags call where
  frame hflag := by
    obtain ⟨hframe, hnext⟩ := hf.frame hflag
    exact ⟨fun i hi => (h.frame i hi).trans (hframe i hi), h.nextIP.trans hnext⟩
  noFrame _ i hi := h.frame i hi
  integer hthree i hi := by
    by_cases hflag : flags &&& bit 2 = 0
    · have hdiffer : flags &&& bit 2 ≠ 0 ↔ flags &&& bit 3 = 0 :=
        iff_of_false (not_not.mpr hflag) hthree
      exact (h.notCopied hflag i hi).trans (hf.integer hdiffer i hi)
    · exact h.copied hflag i hi
  noInteger hthree i hi := by
    by_cases hflag : flags &&& bit 2 = 0
    · exact h.notCopied hflag i hi
    · exact (h.copied hflag i hi).trans (hf.integer (iff_of_true hflag hthree) i hi).symm
  suspended hzero hdest := by
    rw [h.state, if_neg, if_pos ⟨hzero, rfl⟩]
    rintro ⟨hone, he, -⟩
    rcases hdest with hdest | hdest
    · exact hone hdest
    · exact hdest he
  restarted hone hstop := by
    rw [h.state, if_pos ⟨hone, rfl, hstop⟩]
  kept x hsrc hdest := by
    rw [h.state, if_neg, if_neg]
    · rintro ⟨hzero, rfl⟩
      rcases hsrc with hsrc | hsrc
      · exact hzero hsrc
      · exact hsrc rfl
    rintro ⟨hone, rfl, hstop⟩
    rcases hdest with hdest | hdest | hdest
    · exact hone hdest
    · exact hdest rfl
    rcases hstop with hstop | ⟨hzero, rfl⟩
    · exact hdest hstop
    · rcases hsrc with hsrc | hsrc
      · exact hzero hsrc
      · exact hsrc rfl
  reply hcall := (h.restart_iff hcur).mpr (hf.reply hcall)

end

theorem decodeCopyRegisters_of_slot (hcap : getCapType cap = .threadCap)
    (hslot : getExtraCapByIndex s 0 = some slot) :
    decodeCopyRegisters a s cap buffer = (do
      convertToTypeRef (getTcbPtr a (s.ctes slot).cap)
      convertToTypeRef (getTcbPtr a cap)
      let s' ← invokeTcbCopyRegisters a s (getTcbPtr a cap) (getTcbPtr a (s.ctes slot).cap)
        (getSyscallArg a s 0 buffer &&& bit 0) (getSyscallArg a s 0 buffer &&& bit 1)
        (getSyscallArg a s 0 buffer &&& bit 2)
      return (s', .none)) := by
  unfold decodeCopyRegisters
  simp only [hslot]
  rw [if_neg (not_not.mpr hcap)]

/-- Without a TCB cap as the extra cap there is no error: the kernel panics or
takes whatever the cap holds for a thread. -/
theorem decodeCopyRegisters_not_error (hcap : getCapType cap = .threadCap) :
    decodeCopyRegisters a s cap buffer ≠ .ok (s', .syscallError) := by
  intro h
  cases hslot : getExtraCapByIndex s 0 with
  | none =>
    unfold decodeCopyRegisters at h
    simp only [hslot] at h
    cases h
  | some slot =>
    rw [decodeCopyRegisters_of_slot hcap hslot] at h
    obtain ⟨-, -, h⟩ := bind_eq_ok.mp h
    obtain ⟨-, -, h⟩ := bind_eq_ok.mp h
    obtain ⟨s₁, -, h⟩ := bind_eq_ok.mp h
    cases h

/-- CopyRegisters on a TCB cap, invoked by a running thread, where the queues are in order. -/
theorem copyOk_iff {cap : CapT} {buffer : Word} {call : Bool} {P : Population a}
    (hq : QueueInv P s) (hreply : ∀ t, P.thread t → ReplyLast a s t)
    (hcap : getCapType cap = .threadCap) (hdest : P.thread (getTcbPtr a cap))
    (hcur : s.getState s.ksCurThread = .running) :
    CopyOk a s cap buffer call ↔ ∃ slot, getExtraCapByIndex s 0 = some slot ∧
      s.ctes.capType slot = .threadCap ∧
        CopyFits a s (getTcbPtr a cap) (getTcbPtr a (s.ctes slot).cap)
          (getSyscallArg a s 0 buffer) call := by
  have hrun : ∀ slot, getExtraCapByIndex s 0 = some slot → s.ctes.capType slot = .threadCap →
      ∃ s', decodeCopyRegisters a s cap buffer = .ok (s', .none) ∧
        CopyEffect a s s' (getTcbPtr a cap) (getTcbPtr a (s.ctes slot).cap)
          (getSyscallArg a s 0 buffer) := by
    intro slot hslot htype
    have hsrc : P.thread (getTcbPtr a (s.ctes slot).cap) := hq.caps.thread htype
    obtain ⟨s', hs', heffect⟩ := invokeTcbCopyRegisters_effect
      (copyWaits_of_queueInv hq hdest hsrc (hreply _ hdest) (hreply _ hsrc))
    refine ⟨s', ?_, heffect⟩
    rw [decodeCopyRegisters_of_slot hcap hslot, convertToTypeRef_of (Population.ne_zero hsrc),
      convertToTypeRef_of (Population.ne_zero hdest), hs']
    rfl
  constructor
  · rintro ⟨hthread, hother⟩
    by_cases hextra : ∃ slot, getExtraCapByIndex s 0 = some slot ∧ s.ctes.capType slot = .threadCap
    · obtain ⟨slot, hslot, htype⟩ := hextra
      obtain ⟨s', hs', hcopied⟩ := hthread slot hslot htype
      obtain ⟨s'', hs'', heffect⟩ := hrun slot hslot htype
      cases hs''.symm.trans hs'
      exact ⟨slot, hslot, htype, heffect.fits hcur hcopied⟩
    · obtain ⟨s', hs'⟩ := hother fun slot hslot htype => hextra ⟨slot, hslot, htype⟩
      exact absurd hs' (decodeCopyRegisters_not_error hcap)
  · rintro ⟨slot, hslot, htype, hfits⟩
    refine ⟨fun slot' hslot' htype' => ?_, fun hnone => absurd htype (hnone slot hslot)⟩
    cases hslot.symm.trans hslot'
    obtain ⟨s', hs', heffect⟩ := hrun slot hslot htype
    exact ⟨s', hs', heffect.copied_of_fits hcur hfits⟩

/-- The peer runs and has the flags in its first message register; the extra cap is
in slot `0x1000`. -/
def copyCall (flags : Word) (extra : CapT) : KernelState :=
  { (sharingFrame.withRegisters peerTcb fun r => if r = 11 then flags else 2 * BitVec.ofNat 64 r).modifyTcb
      peerTcb fun tcb => { tcb with tcbState := Task.Field.tsType.set (fun _ => 0) 1 } with
    ksCurThread := peerTcb
    currentExtraCaps := fun i => if i = 0 then 0x1000 else 0
    ctes := Function.update sharingFrame.ctes 0x1000 ⟨extra, defaultMdbNode⟩ }

def copyThreads : Population .riscv64 where
  thread t := t = peerTcb ∨ t = senderTcb
  object _ := False
  thread_window h := by rcases h with rfl | rfl <;> decide
  thread_aligned h := by rcases h with rfl | rfl <;> decide
  object_window h := h.elim
  object_aligned h := h.elim
  objects_apart h := h.elim
  threads_apart h := h.elim

theorem copyCall_queueInv :
    QueueInv copyThreads (copyCall 1 (newThreadCap .riscv64 senderTcb)) := by
  refine IdleStart.queueInv ⟨fun h => h.elim, fun h => h.elim, ?_, fun slot n hn => ?_,
    fun h => h.elim, fun _ h => h.elim⟩
  · rintro t (rfl | rfl) <;> decide
  · by_cases hslot : slot = 0x1000
    · subst hslot
      have hn : capName .riscv64 (newThreadCap .riscv64 senderTcb) = some n := hn
      rw [capName, show getCapType (newThreadCap .riscv64 senderTcb) = .threadCap by decide] at hn
      cases hn
      exact .inr (by decide)
    -- the other slots hold frame caps or nothing
    have hother : capName .riscv64 (sharingFrame.ctes slot).cap = some n := by
      rw [show (copyCall 1 (newThreadCap .riscv64 senderTcb)).ctes slot = _ from
        Function.update_of_ne hslot _ _] at hn
      exact hn
    have hframe : capName .riscv64 sharedFrame = none := by
      rw [capName, show getCapType sharedFrame = .frameCap by decide]
    unfold sharingFrame at hother
    simp only [Function.update_apply] at hother
    split at hother
    · cases hframe.symm.trans hother
    · split at hother
      · cases hframe.symm.trans hother
      · cases (capName_of_null capType_newNullCap).symm.trans hother

/-- With only the first flag, the sender is suspended and nothing is transferred. -/
theorem copyOk_suspend : CopyOk .riscv64 (copyCall 1 (newThreadCap .riscv64 senderTcb))
    (newThreadCap .riscv64 peerTcb) 0 false := by
  refine (copyOk_iff copyCall_queueInv ?_ (by decide) (.inl (by decide)) (by decide)).mpr
    ⟨0x1000, by decide, by decide, fun h => absurd rfl h, fun h => ?_, fun h => by cases h⟩
  · rintro t (rfl | rfl) <;> exact .inl (by decide)
  · exact absurd (h.mpr rfl) (not_not.mpr rfl)

/-- A frame cap that is mapped. -/
def mappedFrame : CapT :=
  newFrameCap .riscv64 1 (pptrBase .riscv64 + 0x8000) 0 (vmReadWrite .riscv64) 0 0x400000

/-- The frame registers are not transferred, an extra cap that is no TCB cap is
accepted, and a Call that asks for nothing gets no reply. -/
theorem copyRegisters_not_ok :
    ¬CopyOk .riscv64 (copyCall 4 (newThreadCap .riscv64 peerTcb)) (newThreadCap .riscv64 senderTcb)
        0 false ∧
      (∃ s', decodeCopyRegisters .riscv64 (copyCall 0 mappedFrame) (newThreadCap .riscv64 senderTcb)
        0 = .ok (s', .none)) ∧
      ¬CopyOk .riscv64 (copyCall 0 mappedFrame) (newThreadCap .riscv64 senderTcb) 0 false ∧
      ¬CopyOk .riscv64 (copyCall 0 (newThreadCap .riscv64 peerTcb))
        (newThreadCap .riscv64 senderTcb) 0 true := by
  refine ⟨fun h => ?_, ⟨_, rfl⟩, fun h => ?_, fun h => ?_⟩
  · obtain ⟨s', hs', hcopied⟩ := h.1 0x1000 rfl (by decide)
    have hregister : (decodeCopyRegisters .riscv64 (copyCall 4 (newThreadCap .riscv64 peerTcb))
        (newThreadCap .riscv64 senderTcb) 0).map
          (fun r => r.1.getRegister .riscv64 senderTcb (.frame 0)) = .ok 33 := by rfl
    rw [hs'] at hregister
    have hframe := (hcopied.frame (by decide)).1 0 (by decide)
    exact absurd ((Except.ok.inj hregister).symm.trans hframe) (by decide)
  · obtain ⟨s', hs'⟩ := h.2 fun slot hslot => by
      cases (show getExtraCapByIndex (copyCall 0 mappedFrame) 0 = some 0x1000 from rfl).symm.trans
        hslot
      decide
    exact decodeCopyRegisters_not_error (by decide) hs'
  · obtain ⟨s', hs', hcopied⟩ := h.1 0x1000 rfl (by decide)
    have hstate : (decodeCopyRegisters .riscv64 (copyCall 0 (newThreadCap .riscv64 peerTcb))
        (newThreadCap .riscv64 senderTcb) 0).map (fun r => r.1.getState peerTcb) =
          .ok .running := by rfl
    rw [hs'] at hstate
    exact absurd ((Except.ok.inj hstate).symm.trans (hcopied.reply rfl)) (by decide)

end Rel4.Kernel
