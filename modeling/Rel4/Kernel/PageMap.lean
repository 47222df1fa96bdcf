import Rel4.Kernel.CNode
import Rel4.VSpace.Unmap
import Rel4.Common.Words
import Rel4.Ipc.QueueFrame

/-!
Mapping frames and page tables on riscv64 (`decode/arch/riscv64.rs`,
`invoke_mmu_op.rs`, `make_user_pte`).

The user half of an Sv39 address space ends at `2 ^ 38`, and so does what the
address field of a cap holds without sign extension. `USER_TOP` is `2 ^ 47 - 1`,
so the addresses between the two pass the check and are mapped elsewhere. A frame
without rights that is not executable either gets an invalid entry
(`mapCall_userHalf_iff`).
-/

namespace Rel4.Kernel
open Lib.Bitfield Common CSpace Rel4.Task Ipc VSpace Function
open CSpace.Field (frameBasePtr frameVmRights frameMappedAddress ptMappedAddress frameMappedAsid)
open BitVec (eq_of_toNat_eq ofNat toNat_ushiftRight getLsbD toNat_and toNat_sub)

variable {s s' : KernelState} {asid bits buffer length slot : Word}

/-- `USER_TOP` -/
def userTop : Word := 0x00007fffffffffff

/-- `asidInvalid` -/
def asidInvalid : Word := 0

/-- `PTE::new` -/
def newPte (ppn flags : Word) : Word := flags ||| (ppn <<< 10)

/-- `make_user_pte`: valid, dirty, accessed and user, with the rights asked for. -/
def makeUserPte (paddr : Word) (executable : Bool) (vmRights : Word) : Word :=
  let write : Bool := vmRights = vmReadWrite .riscv64
  let read : Bool := vmRights ≠ vmKernelOnly .riscv64
  if executable = false ∧ read = false ∧ write = false then 0
  else
    let flags : Word := if executable then 0xd1 ||| 8 else 0xd1
    let flags := if write then flags ||| 4 else flags
    let flags := if read then flags ||| 2 else flags
    newPte (paddr >>> 12) flags

/-- `get_vspace`: the root table of the cap and its ASID. -/
def getVspace (s : KernelState) (cap : CapT) : Exec (KernelState × Option (Word × Word)) :=
  let invalidCapability : SyscallErrorT → SyscallErrorT := fun e =>
    { e with type := .invalidCapability, invalidCapNumber := 1 }
  if getCapType cap ≠ .pageTableCap ∨ getPtIsMapped .riscv64 cap = asidInvalid then
    .ok ((s.fail invalidCapability).1, none)
  else do
    let lvl1pt := getPtBasePtr .riscv64 cap
    convertToTypeRef lvl1pt
    let asid := getPtMappedAsid .riscv64 cap
    match findVspaceForAsid .riscv64 s asid with
    | none =>
      return (({ s with currentLookupFault := fun _ => 0 }.fail fun e =>
        { e with type := .failedLookup, failedLookupWasSource := 0 }).1, none)
    | some root =>
      return if root ≠ lvl1pt then ((s.fail invalidCapability).1, none)
        else (s, some (lvl1pt, asid))

/-! ## Frames -/

/-- `invoke_page_map` -/
def invokePageMap (s : KernelState) (wRightsMask vaddr asid attr slot frameSlot : Word) :
    KernelState × ExceptionT :=
  let cap := (s.ctes frameSlot).cap
  let frameVmRights := (frameVmRights .riscv64).get (signExt .riscv64) cap
  let vmRights := maskVMRights .riscv64 frameVmRights (CapRights.fromWord wRightsMask)
  let frameAddr := pptrToPaddr .riscv64 (getFrameBasePtr .riscv64 cap)
  let cap := (frameMappedAddress .riscv64).set cap vaddr
  let cap := frameMappedAsid.set cap asid
  let s := s.setCtes (s.ctes.setCap frameSlot cap)
  let executable : Bool := attr &&& 1 = 0
  let pte := makeUserPte frameAddr executable vmRights
  let s := setRestart .riscv64 s
  (setMemory s (update s.userMemory slot pte), .none)

/-- The checks of `decode_frame_map` on what the frame and the entry are used for
already. -/
def frameMapConflict (s : KernelState) (cap : CapT) (asid vaddr slot : Word) :
    Option (SyscallErrorT → SyscallErrorT) :=
  let frameAsid := getFrameMappedAsid .riscv64 cap
  if frameAsid ≠ asidInvalid then
    if frameAsid ≠ asid then
      some fun e => { e with type := .invalidCapability, invalidCapNumber := 1 }
    else if getFrameMappedAddress .riscv64 cap ≠ vaddr then
      some fun e => { e with type := .invalidArgument, invalidArgumentNumber := 0 }
    else if isPteTable .riscv64 (s.userMemory slot) then
      some fun e => { e with type := .deleteFirst }
    else none
  else if isPteValid .riscv64 (s.userMemory slot) then
    some fun e => { e with type := .deleteFirst }
  else none

/-- `decode_frame_map`. A bad address is reported as argument 0 in the field for
caps. -/
def decodeFrameMap (s : KernelState) (length frameSlot buffer : Word) :
    Exec (KernelState × ExceptionT) :=
  match getExtraCapByIndex s 0 with
  | none => .ok (s.fail fun e => { e with type := .truncatedMessage })
  | some rootSlot =>
    if length < 3 then .ok (s.fail fun e => { e with type := .truncatedMessage })
    else do
      let vaddr := getSyscallArg .riscv64 s 0 buffer
      let wRightsMask := getSyscallArg .riscv64 s 1 buffer
      let attr := getSyscallArg .riscv64 s 2 buffer
      let vspace ← getVspace s (s.ctes rootSlot).cap
      match vspace with
      | (s, none) => return (s, .syscallError)
      | (s, some (lvl1pt, asid)) =>
        let cap := (s.ctes frameSlot).cap
        let bits ← pageBitsForSize (getFrameSize .riscv64 cap)
        let vtop := vaddr + bit bits - 1
        if vtop ≥ userTop then
          return s.fail fun e => { e with type := .invalidArgument, invalidCapNumber := 0 }
        if vaddr &&& mask bits ≠ 0 then
          return s.fail fun e => { e with type := .alignmentError }
        let r ← lookupPtSlot .riscv64 s.userMemory lvl1pt vaddr
        if levelBits .riscv64 r.2 ≠ bits.toNat then
          let fault := lookupFaultMissingCap (ofNat 64 (levelBits .riscv64 r.2))
          return { s with currentLookupFault := fault }.fail fun e =>
            { e with type := .failedLookup, failedLookupWasSource := 0 }
        convertToTypeRef r.1
        match frameMapConflict s cap asid vaddr r.1 with
        | some error => return s.fail error
        | none => return invokePageMap s wRightsMask vaddr asid attr r.1 frameSlot

/-! ## Page tables -/

/-- `invoke_page_table_map` -/
def invokePageTableMap (s : KernelState) (ptCte slot asid vaddr : Word) :
    KernelState × ExceptionT :=
  let cap := (s.ctes ptCte).cap
  let paddr := pptrToPaddr .riscv64 (getPtBasePtr .riscv64 cap)
  let pte := newPte (paddr >>> 12) 1
  let cap := (CSpace.Field.ptIsMapped .riscv64).set cap 1
  let cap := CSpace.Field.ptMappedAsid.set cap asid
  let cap := (ptMappedAddress .riscv64).set cap vaddr
  (setMemory (s.setCtes (s.ctes.setCap ptCte cap)) (update s.userMemory slot pte), .none)

/-- `decode_page_table_map` -/
def decodePageTableMap (s : KernelState) (length ptCte buffer : Word) :
    Exec (KernelState × ExceptionT) :=
  match getExtraCapByIndex s 0 with
  | none => .ok (s.fail fun e => { e with type := .truncatedMessage })
  | some rootSlot =>
    if length < 2 then .ok (s.fail fun e => { e with type := .truncatedMessage })
    else if getPtIsMapped .riscv64 (s.ctes ptCte).cap ≠ 0 then
      .ok (s.fail fun e => { e with type := .invalidCapability, invalidCapNumber := 0 })
    else
      let vaddr := getSyscallArg .riscv64 s 0 buffer
      if vaddr ≥ userTop then
        .ok (s.fail fun e => { e with type := .invalidArgument, invalidCapNumber := 0 })
      else do
        let vspace ← getVspace s (s.ctes rootSlot).cap
        match vspace with
        | (s, none) => return (s, .syscallError)
        | (s, some (lvl1pt, asid)) =>
          let r ← lookupPtSlot .riscv64 s.userMemory lvl1pt vaddr
          convertToTypeRef r.1
          let bitsLeft := ofNat 64 (levelBits .riscv64 r.2)
          if bitsLeft = pageBits ∨ isPteValid .riscv64 (s.userMemory r.1) then
            return s.fail fun e => { e with type := .deleteFirst }
          else
            return invokePageTableMap (setRestart .riscv64 s) ptCte r.1 asid
              (vaddr &&& ~~~mask bitsLeft)

/-! ## Entries -/

section Entries

variable {ppn flags low paddr : Word}

theorem getPpn_newPte (hf : flags.toNat < 2 ^ 10) (hp : ppn.toNat < 2 ^ 44) :
    getPpn (newPte ppn flags) = ppn := by
  have hshift : flags >>> 10 = 0 := by
    apply eq_of_toNat_eq
    rw [toNat_ushiftRight, Nat.shiftRight_eq_div_pow]
    exact Nat.div_eq_of_lt hf
  have hback : ppn <<< 10 >>> 10 = ppn := by
    apply eq_of_toNat_eq
    rw [toNat_ushiftRight, BitVec.toNat_shiftLeft, Nat.shiftLeft_eq,
      Nat.shiftRight_eq_div_pow]
    omega
  have hor : newPte ppn flags >>> 10 = ppn := by
    rw [newPte, BitVec.ushiftRight_or_distrib, hshift, hback]
    exact BitVec.zero_or
  rw [getPpn, BitVec.ushiftRight_and_distrib, hor]
  apply eq_of_toNat_eq
  rw [toNat_and]
  show ppn.toNat &&& (2 ^ 44 - 1) = ppn.toNat
  rw [Nat.and_two_pow_sub_one_eq_mod]
  exact Nat.mod_eq_of_lt hp

/-- The flags are those in the low bits of the entry. -/
theorem newPte_and (hlow : low.toNat < 2 ^ 10) : newPte ppn flags &&& low = flags &&& low := by
  have hzero : ppn <<< 10 &&& low = 0 := by
    apply BitVec.eq_of_getLsbD_eq
    intro i hi
    rw [BitVec.getLsbD_and, BitVec.getLsbD_shiftLeft]
    by_cases h : i < 10
    · simp [h]
    · have hbit : low.getLsbD i = false := Nat.testBit_lt_two_pow
        (hlow.trans_le (Nat.pow_le_pow_right (by decide) (Nat.le_of_not_lt h)))
      simp [hbit]
  rw [newPte, BitVec.and_comm, BitVec.and_or_distrib_left, BitVec.and_comm _ (ppn <<< 10), hzero,
    BitVec.and_comm]
  exact BitVec.or_zero

theorem isPteValid_newPte : isPteValid .riscv64 (newPte ppn flags) = decide (flags &&& 1 ≠ 0) := by
  simp only [isPteValid, newPte_and (show (1 : Word).toNat < 2 ^ 10 by decide)]

theorem isPteTable_newPte : isPteTable .riscv64 (newPte ppn flags) =
    decide (flags &&& 1 ≠ 0 ∧ flags &&& 0xe = 0) := by
  simp only [isPteTable, newPte_and (show (1 : Word).toNat < 2 ^ 10 by decide),
    newPte_and (show (0xe : Word).toNat < 2 ^ 10 by decide)]

theorem isPteTable_of_not_valid (h : ¬isPteValid .riscv64 pte = true) :
    isPteTable .riscv64 pte = false := by
  simp only [isPteValid, decide_eq_true_eq] at h
  simp only [isPteTable, decide_eq_false_iff_not]
  exact fun ht => h ht.1

/-- The base of a frame or of a page table has a physical address of 39 bits at most. -/
theorem toNat_paddr_lt (cap : CapT) :
    (pptrToPaddr .riscv64 (getFrameBasePtr .riscv64 cap)).toNat < 2 ^ 39 := by
  have hlt : ((frameBasePtr .riscv64).stored cap).toNat < 2 ^ 39 :=
    toNat_stored_lt (by decide)
  have hget : getFrameBasePtr .riscv64 cap =
      if ((frameBasePtr .riscv64).stored cap).getLsbD 38 then
        (frameBasePtr .riscv64).stored cap ||| 0xffffff8000000000
      else (frameBasePtr .riscv64).stored cap := by
    rw [getFrameBasePtr, Field.get, Field.extend]
    simp only [show (frameBasePtr .riscv64).shift = 0 from rfl,
      show (frameBasePtr .riscv64).signExt = true from rfl,
      BitVec.shiftLeft_zero, Bool.true_and]
    rfl
  generalize (frameBasePtr .riscv64).stored cap = v at hlt hget
  have hbit : v.getLsbD 38 = decide (v.toNat / 2 ^ 38 % 2 = 1) := by
    rw [getLsbD, Nat.testBit_eq_decide_div_mod_eq]
  have hbase : (pptrBase .riscv64).toNat = 2 ^ 64 - 2 ^ 38 := rfl
  rw [hget, pptrToPaddr, toNat_sub, hbase, hbit]
  split
  next h =>
    rw [decide_eq_true_eq] at h
    have hor : (v ||| 0xffffff8000000000).toNat = 2 ^ 39 * (2 ^ 25 - 1) + v.toNat := by
      rw [BitVec.toNat_or, Nat.or_comm]
      exact (Nat.two_pow_add_eq_or_of_lt hlt (2 ^ 25 - 1)).symm
    rw [hor]
    omega
  next h =>
    rw [decide_eq_true_eq] at h
    omega

/-- The entry of a frame is invalid where it allows nothing. -/
theorem makeUserPte_maps (hp : paddr.toNat < 2 ^ 39) (executable : Bool) (vmRights : Word) :
    (isPteValid .riscv64 (makeUserPte paddr executable vmRights) = true ∧
      isPteTable .riscv64 (makeUserPte paddr executable vmRights) = false ∧
      getPpn (makeUserPte paddr executable vmRights) = paddr >>> 12) ↔
      executable = true ∨ vmRights ≠ vmKernelOnly .riscv64 := by
  have hppn : (paddr >>> 12).toNat < 2 ^ 44 := by
    rw [toNat_ushiftRight, Nat.shiftRight_eq_div_pow]
    omega
  unfold makeUserPte
  simp only [decide_eq_false_iff_not, not_not]
  split
  next h =>
    refine iff_of_false (fun hvalid => absurd hvalid.1 (by decide)) ?_
    rintro (he | hr)
    · rw [h.1] at he
      cases he
    · exact hr h.2.1
  next h =>
    have hflags : ∀ e w r : Bool, (e = true ∨ w = true ∨ r = true) →
        let flags : Word := if e then 0xd1 ||| 8 else 0xd1
        let flags := if w then flags ||| 4 else flags
        let flags := if r then flags ||| 2 else flags
        flags.toNat < 2 ^ 10 ∧ flags &&& 1 ≠ 0 ∧ flags &&& 0xe ≠ 0 := by decide
    have hsome : executable = true ∨ vmRights = vmReadWrite .riscv64 ∨
        vmRights ≠ vmKernelOnly .riscv64 := by
      by_contra hnone
      simp only [not_or, not_not, Bool.not_eq_true] at hnone
      exact h ⟨hnone.1, hnone.2.2, hnone.2.1⟩
    obtain ⟨hlt, hv, hx⟩ := hflags executable (decide (vmRights = vmReadWrite .riscv64))
      (decide (vmRights ≠ vmKernelOnly .riscv64)) (by simpa using hsome)
    rw [isPteValid_newPte, isPteTable_newPte, getPpn_newPte hlt hppn]
    refine iff_of_true ⟨decide_eq_true hv, decide_eq_false fun ht => hx ht.2, rfl⟩ ?_
    rcases hsome with he | hw | hr
    · exact .inl he
    · exact .inr (by rw [hw]; decide)
    · exact .inr hr

end Entries

/-! ## Addresses -/

/-- An address rounded down to the entries of a level. -/
def roundDown (vaddr : Word) (n : Nat) : Word :=
  vaddr &&& ~~~mask (ofNat 64 (levelBits .riscv64 n))

/-- The address fields of frame and page table caps. -/
def capAddress : Field 2 := frameMappedAddress .riscv64

section Addresses

variable {v : Word} {n : Nat}

theorem levelBits_riscv64 (hn : n < 3) : levelBits .riscv64 n = 30 - 9 * n := by
  simp only [levelBits, ptIndexBits, ptLevels]
  omega

theorem toNat_roundDown (hn : n < 3) :
    (roundDown v n).toNat = v.toNat - v.toNat % 2 ^ (30 - 9 * n) := by
  have hb : (ofNat 64 (levelBits .riscv64 n)).toNat = 30 - 9 * n := by
    rw [levelBits_riscv64 hn, BitVec.toNat_ofNat]
    exact Nat.mod_eq_of_lt (by omega)
  rw [roundDown, toNat_and_not_mask (by omega), hb]

theorem toNat_ptIndex (hn : n < 3) :
    (ptIndex .riscv64 v n).toNat = v.toNat / 2 ^ (30 - 9 * n) % 512 := by
  rw [ptIndex, levelBits_riscv64 hn, toNat_and, toNat_ushiftRight,
    Nat.shiftRight_eq_div_pow]
  exact Nat.and_two_pow_sub_one_eq_mod _ 9

/-- Rounding down to a level keeps the indices up to that level. -/
theorem ptIndex_roundDown (hn : n < 3) (hk : k ≤ n) :
    ptIndex .riscv64 (roundDown v n) k = ptIndex .riscv64 v k := by
  apply eq_of_toNat_eq
  rw [toNat_ptIndex (by omega), toNat_ptIndex (by omega), toNat_roundDown hn]
  have hcases : n = 0 ∧ k = 0 ∨ n = 1 ∧ k = 0 ∨ n = 1 ∧ k = 1 ∨ n = 2 ∧ k = 0 ∨ n = 2 ∧ k = 1 ∨
      n = 2 ∧ k = 2 := by omega
  rcases hcases with ⟨rfl, rfl⟩ | ⟨rfl, rfl⟩ | ⟨rfl, rfl⟩ | ⟨rfl, rfl⟩ | ⟨rfl, rfl⟩ | ⟨rfl, rfl⟩ <;>
    omega

/-- Of the addresses below `USER_TOP`, a cap holds those below `2 ^ 38`. -/
theorem capAddress_canonical_iff (hv : v.toNat < 2 ^ 47) :
    capAddress.extend (signExt .riscv64) (capAddress.raw v) = v ↔ v.toNat < 2 ^ 38 := by
  have hraw : (capAddress.raw v).toNat = v.toNat % 2 ^ 39 := by
    rw [Field.raw, toNat_and, toNat_lowMask _ (by decide), Nat.and_two_pow_sub_one_eq_mod]
    rfl
  have hext : capAddress.extend (signExt .riscv64) (capAddress.raw v) =
      if (capAddress.raw v).getLsbD 38 then capAddress.raw v ||| 0xffffff8000000000
      else capAddress.raw v := by
    rw [Field.extend]
    simp only [show capAddress.shift = 0 from rfl, show capAddress.signExt = true from rfl,
      BitVec.shiftLeft_zero, Bool.true_and]
    rfl
  have hbit : (capAddress.raw v).getLsbD 38 = decide (v.toNat % 2 ^ 39 / 2 ^ 38 % 2 = 1) := by
    rw [getLsbD, hraw, Nat.testBit_eq_decide_div_mod_eq]
  rw [hext, hbit]
  constructor
  · intro h
    split at h
    next hsign =>
      -- the extended address has bit 63 set
      have hmask : (0xffffff8000000000 : Word).getLsbD 63 = true := by decide
      have hlow : v.getLsbD 63 = false := by
        rw [getLsbD, Nat.testBit_eq_decide_div_mod_eq, decide_eq_false_iff_not]
        omega
      rw [← h, BitVec.getLsbD_or, hmask, Bool.or_true] at hlow
      cases hlow
    next hsign =>
      have hlow := congrArg BitVec.toNat h
      rw [hraw] at hlow
      simp only [decide_eq_true_eq] at hsign
      omega
  · intro hlt
    have hnot : ¬decide (v.toNat % 2 ^ 39 / 2 ^ 38 % 2 = 1) = true := by
      rw [decide_eq_true_eq]
      omega
    rw [if_neg hnot]
    apply eq_of_toNat_eq
    rw [hraw]
    omega

end Addresses

/-! ## Calls -/

/-- Page_Map of the frame cap, or PageTable_Map of the page table cap, in `slot`. -/
inductive MapCall where
  | page (length slot buffer : Word)
  | table (length slot buffer : Word)

namespace MapCall

def run (s : KernelState) : MapCall → Exec (KernelState × ExceptionT)
  | .page length slot buffer => decodeFrameMap s length slot buffer
  | .table length slot buffer => decodePageTableMap s length slot buffer

/-- The address that is asked for. -/
def vaddr (s : KernelState) : MapCall → Word
  | .page _ _ buffer | .table _ _ buffer => getSyscallArg .riscv64 s 0 buffer

/-- The root table of the address space. -/
def root (s : KernelState) : Word :=
  getPtBasePtr .riscv64 (s.ctes (s.currentExtraCaps 0)).cap

/-- The address in the cap. -/
def recorded (s : KernelState) : MapCall → Word
  | .page _ slot _ => getFrameMappedAddress .riscv64 (s.ctes slot).cap
  | .table _ slot _ => getPtMappedAddress .riscv64 (s.ctes slot).cap

/-- The entry maps the frame, or leads to the page table, of the cap. -/
def Maps (s : KernelState) (pte : Word) : MapCall → Prop
  | .page _ slot _ => isPteValid .riscv64 pte = true ∧ isPteTable .riscv64 pte = false ∧
    getPpn pte = pptrToPaddr .riscv64 (getFrameBasePtr .riscv64 (s.ctes slot).cap) >>> 12
  | .table _ slot _ => isPteTable .riscv64 pte = true ∧
    getPpn pte = pptrToPaddr .riscv64 (getPtBasePtr .riscv64 (s.ctes slot).cap) >>> 12

/-- The frame is mapped for execution, or with rights that the user has. -/
def Usable (s : KernelState) : MapCall → Prop
  | .page _ slot buffer => getSyscallArg .riscv64 s 2 buffer &&& 1 = 0 ∨
    maskVMRights .riscv64
      ((frameVmRights .riscv64).get (signExt .riscv64) (s.ctes slot).cap)
      (CapRights.fromWord (getSyscallArg .riscv64 s 1 buffer)) ≠ vmKernelOnly .riscv64
  | .table .. => True

end MapCall

/-- Where the entry for an address goes, and its level. -/
def mapTarget (s : KernelState) (root vaddr : Word) : Word × Nat :=
  walkEnd .riscv64 s.userMemory root vaddr

/-- The mapping stays in the user half: the one entry that changes lies in a table
that the walk of the address comes to, through one of the first 256 entries of
the root table, and maps what the cap is to; the address in the cap is the one asked
for, rounded down to the level of the entry, and its walk comes to the entry that was
stored. -/
structure UserHalf (s s' : KernelState) (call : MapCall) (root vaddr recorded : Word) : Prop where
  stored : ∃ q, WalksBy .riscv64 (isPteTable .riscv64) s.userMemory vaddr root
      (mapTarget s root vaddr).2 q ∧
    (mapTarget s root vaddr).1 = ptSlot .riscv64 q vaddr (mapTarget s root vaddr).2
  others : ∀ x, x ≠ (mapTarget s root vaddr).1 → s'.userMemory x = s.userMemory x
  entry : call.Maps s (s'.userMemory (mapTarget s root vaddr).1)
  index : (ptIndex .riscv64 vaddr 0).toNat < 256
  recorded_eq : recorded = roundDown vaddr (mapTarget s root vaddr).2
  translates : ∃ q, WalksBy .riscv64 (isPteTable .riscv64) s'.userMemory recorded root
      (mapTarget s root vaddr).2 q ∧
    (mapTarget s root vaddr).1 = ptSlot .riscv64 q recorded (mapTarget s root vaddr).2

/-- What a mapping that succeeds has done. -/
structure MapEffect (s s' : KernelState) (call : MapCall) (root vaddr recorded : Word) : Prop where
  bound : vaddr.toNat < 2 ^ 47
  free : isPteTable .riscv64 (s.userMemory (mapTarget s root vaddr).1) = false
  store : ∃ pte, s'.userMemory = update s.userMemory (mapTarget s root vaddr).1 pte ∧
    (call.Maps s pte ↔ call.Usable s)
  recorded_eq : recorded = capAddress.extend (signExt .riscv64)
    (capAddress.raw (roundDown vaddr (mapTarget s root vaddr).2))

theorem mapTarget_level_lt (s : KernelState) (root vaddr : Word) : (mapTarget s root vaddr).2 < 3 := by
  obtain ⟨q, hwalk, -⟩ := walkEnd_walks s.userMemory vaddr root
  exact hwalk.level_lt

/-- A walk does not notice a store to an entry that leads no further. -/
theorem walksBy_update {m : Word → Word} {root pte : Word} (hfree : isPteTable .riscv64 (m x) = false)
    (h : WalksBy .riscv64 (isPteTable .riscv64) m v root n q) :
    WalksBy .riscv64 (isPteTable .riscv64) (update m x pte) v root n q := by
  induction h with
  | root => exact .root
  | @step n pt _ level leads ih =>
    have hne : ptSlot .riscv64 pt v n ≠ x := by
      rintro rfl
      rw [leads] at hfree
      cases hfree
    have hsame : update m x pte (ptSlot .riscv64 pt v n) = m (ptSlot .riscv64 pt v n) :=
      update_of_ne hne _ _
    have hstep := ih.step level (by rw [hsame]; exact leads)
    rwa [hsame] at hstep

/-- The check against `USER_TOP` lets too much pass. -/
theorem MapEffect.userHalf_iff {call : MapCall} (h : MapEffect s s' call root vaddr recorded) :
    UserHalf s s' call root vaddr recorded ↔ vaddr.toNat < 2 ^ 38 ∧ call.Usable s := by
  have hbound := h.bound
  have hn := mapTarget_level_lt s root vaddr
  have hround := toNat_roundDown (v := vaddr) hn
  have hmod := Nat.mod_le vaddr.toNat (2 ^ (30 - 9 * (mapTarget s root vaddr).2))
  have hcanonical := capAddress_canonical_iff
    (v := roundDown vaddr (mapTarget s root vaddr).2) (by omega)
  rw [← h.recorded_eq] at hcanonical
  -- `2 ^ 38` is a multiple of the size of an entry of any level
  have hlt : (roundDown vaddr (mapTarget s root vaddr).2).toNat < 2 ^ 38 ↔ vaddr.toNat < 2 ^ 38 := by
    rw [hround]
    have hcases : (mapTarget s root vaddr).2 = 0 ∨ (mapTarget s root vaddr).2 = 1 ∨
        (mapTarget s root vaddr).2 = 2 := by omega
    rcases hcases with hl | hl | hl <;> rw [hl] <;> omega
  rw [hlt] at hcanonical
  obtain ⟨pte, hstore, hmaps⟩ := h.store
  have hentry : s'.userMemory (mapTarget s root vaddr).1 = pte := by
    rw [hstore, update_self]
  constructor
  · intro hhalf
    exact ⟨hcanonical.mp hhalf.recorded_eq, hmaps.mp (hentry ▸ hhalf.entry)⟩
  · rintro ⟨hv, huse⟩
    have hrec := hcanonical.mpr hv
    refine ⟨walkEnd_walks s.userMemory vaddr root, fun x hx => ?_, hentry ▸ hmaps.mpr huse, ?_, hrec,
      ?_⟩
    · rw [hstore, update_of_ne hx]
    · rw [toNat_ptIndex (by decide)]
      omega
    · have hsame : walkEnd .riscv64 s.userMemory root recorded = mapTarget s root vaddr := by
        rw [hrec]
        exact walkFrom_congr _ fun k hk => ptIndex_roundDown hn hk
      obtain ⟨q, hwalk, hslot⟩ := walkEnd_walks s.userMemory recorded root
      rw [hsame] at hwalk hslot
      rw [hstore]
      exact ⟨q, walksBy_update h.free hwalk, hslot⟩

/-! ### What the calls do -/

theorem getVspace_some (h : getVspace s cap = .ok (s', some (lvl1pt, asid))) :
    s' = s ∧ lvl1pt = getPtBasePtr .riscv64 cap := by
  unfold getVspace at h
  simp only at h
  split at h
  · cases h
  obtain ⟨_, -, h⟩ := bind_eq_ok.mp h
  split at h
  · cases h
  · have h := pure_eq_ok.mp h
    split at h
    · cases h
    · cases h
      exact ⟨rfl, rfl⟩

theorem setRestart_memory (s : KernelState) : (setRestart .riscv64 s).userMemory = s.userMemory :=
  (ipcEq_setThreadState _).userMemory

theorem setRestart_ctes (s : KernelState) : (setRestart .riscv64 s).ctes = s.ctes :=
  (ipcEq_setThreadState _).ctes

theorem pageBitsForSize_cases (h : pageBitsForSize size = .ok bits) :
    bits = 12 ∨ bits = 21 ∨ bits = 30 := by
  unfold pageBitsForSize at h
  split at h <;> cases h <;> decide

/-- An aligned page below `USER_TOP` does not wrap around. -/
theorem lt_of_vtop (hbits : pageBitsForSize size = .ok bits) (hal : vaddr &&& mask bits = 0)
    (htop : ¬vaddr + bit bits - 1 ≥ userTop) : vaddr.toNat < 2 ^ 47 := by
  have hlow : bits.toNat < 64 := by
    rcases pageBitsForSize_cases hbits with rfl | rfl | rfl <;> decide
  have hmod : vaddr.toNat % 2 ^ bits.toNat = 0 := by
    rw [← toNat_and_mask hlow, hal]
    rfl
  have hlt : (vaddr + bit bits - 1).toNat < 0x00007fffffffffff := BitVec.not_le.mp htop
  rw [toNat_sub, BitVec.toNat_add, toNat_bit hlow] at hlt
  have hone : (1 : Word).toNat = 1 := rfl
  have hv := vaddr.isLt
  rw [hone] at hlt
  rcases pageBitsForSize_cases hbits with rfl | rfl | rfl
  · have hb : (12 : Word).toNat = 12 := rfl
    rw [hb] at hmod hlt
    omega
  · have hb : (21 : Word).toNat = 21 := rfl
    rw [hb] at hmod hlt
    omega
  · have hb : (30 : Word).toNat = 30 := rfl
    rw [hb] at hmod hlt
    omega

/-- Rounding an aligned address down does nothing. -/
theorem roundDown_of_aligned (hbits : pageBitsForSize size = .ok bits) (hn : n < 3)
    (hlevel : levelBits .riscv64 n = bits.toNat) (hal : vaddr &&& mask bits = 0) :
    roundDown vaddr n = vaddr := by
  have hlow : bits.toNat < 64 := by
    rcases pageBitsForSize_cases hbits with rfl | rfl | rfl <;> decide
  have hmod : vaddr.toNat % 2 ^ bits.toNat = 0 := by
    rw [← toNat_and_mask hlow, hal]
    rfl
  apply eq_of_toNat_eq
  rw [toNat_roundDown hn, ← levelBits_riscv64 hn, hlevel, hmod, Nat.sub_zero]

/-- Writing an address into a cap and reading it back. -/
theorem get_set_capAddress (cap : CapT) (v : Word) :
    capAddress.get (signExt .riscv64) (capAddress.set cap v) =
      capAddress.extend (signExt .riscv64) (capAddress.raw v) := by
  rw [Field.get, stored_set_self (by decide)]

theorem invokePageMap_effect
    (h : (pure (invokePageMap s wRightsMask vaddr asid attr slot frameSlot) :
      Exec (KernelState × ExceptionT)) = .ok (s', e)) :
    s'.userMemory = update s.userMemory slot (makeUserPte
        (pptrToPaddr .riscv64 (getFrameBasePtr .riscv64 (s.ctes frameSlot).cap)) (attr &&& 1 = 0)
        (maskVMRights .riscv64 ((frameVmRights .riscv64).get (signExt .riscv64)
          (s.ctes frameSlot).cap) (CapRights.fromWord wRightsMask))) ∧
      getFrameMappedAddress .riscv64 (s'.ctes frameSlot).cap =
        capAddress.extend (signExt .riscv64) (capAddress.raw vaddr) := by
  have hs := congrArg Prod.fst (pure_eq_ok.mp h)
  subst hs
  constructor
  · exact congrArg (update · slot _) (setRestart_memory _)
  · have hctes : (invokePageMap s wRightsMask vaddr asid attr slot frameSlot).1.ctes =
        s.ctes.setCap frameSlot (frameMappedAsid.set
          ((frameMappedAddress .riscv64).set (s.ctes frameSlot).cap vaddr) asid) :=
      setRestart_ctes _
    rw [hctes, Slots.cap_setCap, if_pos rfl, getFrameMappedAddress, get_set_of_disjoint (by decide)]
    exact get_set_capAddress _ _

/-- An entry that is free to be mapped leads to no table. -/
theorem isPteTable_of_conflict (h : frameMapConflict s cap asid vaddr slot = none) :
    isPteTable .riscv64 (s.userMemory slot) = false := by
  unfold frameMapConflict at h
  simp only at h
  split at h
  · split at h
    · cases h
    split at h
    · cases h
    split at h
    · cases h
    next ht => exact Bool.eq_false_of_not_eq_true ht
  · split at h
    · cases h
    next hv => exact isPteTable_of_not_valid hv

/-- A frame that was mapped. -/
theorem decodeFrameMap_effect (h : decodeFrameMap s length slot buffer = .ok (s', .none)) :
    MapEffect s s' (.page length slot buffer) (MapCall.root s) (getSyscallArg .riscv64 s 0 buffer)
      (getFrameMappedAddress .riscv64 (s'.ctes slot).cap) := by
  unfold decodeFrameMap getExtraCapByIndex at h
  by_cases hextra : s.currentExtraCaps 0 = 0
  · simp only [hextra, if_true] at h
    cases h
  simp only [hextra, if_false] at h
  split at h
  · cases h
  obtain ⟨⟨s₁, vspace⟩, hv, h⟩ := bind_eq_ok.mp h
  rcases vspace with - | ⟨lvl1pt, asid⟩
  · cases h
  obtain ⟨rfl, rfl⟩ := getVspace_some hv
  obtain ⟨bits, hbits, h⟩ := bind_eq_ok.mp h
  split at h
  · cases h
  rename_i htop
  split at h
  · cases h
  rename_i hal
  obtain ⟨r, hr, h⟩ := bind_eq_ok.mp h
  obtain rfl := lookupPtSlot_eq_ok hr
  split at h
  · cases h
  rename_i hlevel
  obtain ⟨_, -, h⟩ := bind_eq_ok.mp h
  split at h
  · cases h
  rename_i hfree
  obtain ⟨hstore, haddr⟩ := invokePageMap_effect h
  have hround := roundDown_of_aligned hbits (mapTarget_level_lt _ _ _) (not_not.mp hlevel)
    (not_not.mp hal)
  refine ⟨lt_of_vtop hbits (not_not.mp hal) htop, isPteTable_of_conflict hfree, ⟨_, hstore, ?_⟩, ?_⟩
  · exact (makeUserPte_maps (toNat_paddr_lt _) _ _).trans (or_congr_left decide_eq_true_iff)
  · rw [haddr]
    exact congrArg (fun v => capAddress.extend _ (capAddress.raw v)) hround.symm

/-- A page table that was mapped. -/
theorem decodePageTableMap_effect (h : decodePageTableMap s length slot buffer = .ok (s', .none)) :
    MapEffect s s' (.table length slot buffer) (MapCall.root s) (getSyscallArg .riscv64 s 0 buffer)
      (getPtMappedAddress .riscv64 (s'.ctes slot).cap) := by
  unfold decodePageTableMap getExtraCapByIndex at h
  by_cases hextra : s.currentExtraCaps 0 = 0
  · simp only [hextra, if_true] at h
    cases h
  simp only [hextra, if_false] at h
  split at h
  · cases h
  split at h
  · cases h
  split at h
  · cases h
  rename_i htop
  obtain ⟨⟨s₁, vspace⟩, hv, h⟩ := bind_eq_ok.mp h
  rcases vspace with - | ⟨lvl1pt, asid⟩
  · cases h
  obtain ⟨rfl, rfl⟩ := getVspace_some hv
  obtain ⟨r, hr, h⟩ := bind_eq_ok.mp h
  obtain rfl := lookupPtSlot_eq_ok hr
  obtain ⟨_, -, h⟩ := bind_eq_ok.mp h
  split at h
  · cases h
  rename_i hfree
  have hs := congrArg Prod.fst (pure_eq_ok.mp h)
  subst hs
  refine ⟨?_, isPteTable_of_not_valid fun hvalid => hfree (.inr hvalid),
    ⟨_, congrArg (update · _ _) (setRestart_memory _), ?_⟩, ?_⟩
  · have hlt : (getSyscallArg .riscv64 s₁ 0 buffer).toNat < 0x00007fffffffffff :=
      BitVec.not_le.mp htop
    omega
  · have hpaddr : (pptrToPaddr .riscv64 (getPtBasePtr .riscv64 (s₁.ctes slot).cap)).toNat < 2 ^ 39 :=
      toNat_paddr_lt (s₁.ctes slot).cap
    have hppn : (pptrToPaddr .riscv64 (getPtBasePtr .riscv64 (s₁.ctes slot).cap) >>> 12).toNat <
        2 ^ 44 := by
      rw [toNat_ushiftRight, Nat.shiftRight_eq_div_pow]
      omega
    refine iff_of_true ?_ trivial
    rw [setRestart_ctes]
    exact ⟨by rw [isPteTable_newPte]; decide, getPpn_newPte (by decide) hppn⟩
  · show (ptMappedAddress .riscv64).get _ (((setRestart .riscv64 s₁).ctes.setCap
      slot _) slot).cap = _
    rw [Slots.cap_setCap, if_pos rfl]
    exact get_set_capAddress _ _

/-- A mapping that succeeds stays in the user half of the address space, with the right entry and
the right address in the cap, if and only if the address is below `2 ^ 38` and a frame is mapped
with some right. -/
theorem mapCall_userHalf_iff {s s' : KernelState} {call : MapCall}
    (h : call.run s = .ok (s', .none)) :
    UserHalf s s' call (MapCall.root s) (call.vaddr s) (call.recorded s') ↔
      (call.vaddr s).toNat < 2 ^ 38 ∧ call.Usable s := by
  refine MapEffect.userHalf_iff ?_
  cases call with
  | page length slot buffer => exact decodeFrameMap_effect h
  | table length slot buffer => exact decodePageTableMap_effect h

/-! ### A small address space

Pool 0 has the root table under ASID 1. Its entries from 256 to 510 are those of
the kernel. -/

def mapRoot : Word := 0xffffffc000002000
def mapPool : Word := 0xffffffc000003000
def mapSlot (i : Word) : Word := offsetSlot 0xffffffc000001000 i

/-- Slot 0 has the cap of the root table, slot 1 a cap for a huge page and slot 2
one for a page table; the message asks for `vaddr`. -/
def mapState (vaddr : Word) : KernelState :=
  { KernelState.zero with
    ctes := fun x =>
      if x = mapSlot 0 then ⟨newPageTableCap .riscv64 1 mapRoot 1 0, defaultMdbNode⟩
      else if x = mapSlot 1 then
        ⟨newFrameCap .riscv64 0 0xffffffc040000000 2 3 0 0, defaultMdbNode⟩
      else if x = mapSlot 2 then
        ⟨newPageTableCap .riscv64 0 0xffffffc000004000 0 0, defaultMdbNode⟩
      else emptyCte
    asidTable := fun i => if i = 0 then mapPool else 0
    userMemory := fun x =>
      if x = poolEntry mapPool 1 then mapRoot
      else if mapRoot + 8 * 256 ≤ x ∧ x < mapRoot + 8 * 511 then 0xef
      else 0
    tcbs := fun _ =>
      { Tcb.zero with
        registers := fun r =>
          if r = (ArchReg.msg 0).toIndex .riscv64 then vaddr
          else if r = (ArchReg.msg 1).toIndex .riscv64 then 3
          else 0 }
    currentExtraCaps := fun i => if i = 0 then mapSlot 0 else 0 }

theorem mapState_maps {vaddr : Word} {call : MapCall}
    (h : (call.run (mapState vaddr)).satisfies (fun r => r.2 = .none) = true) :
    ∃ s', call.run (mapState vaddr) = .ok (s', .none) := by
  obtain ⟨⟨s', e⟩, hrun, he⟩ := Exec.satisfies_iff.mp h
  obtain rfl := of_decide_eq_true he
  exact ⟨s', hrun⟩

/-- A huge page at 1 GiB. -/
theorem mapCall_userHalf_iff_gigabyte :
    ∃ s', (MapCall.page 3 (mapSlot 1) 0).run (mapState 0x40000000) = .ok (s', .none) ∧
      UserHalf (mapState 0x40000000) s' (.page 3 (mapSlot 1) 0) (MapCall.root (mapState 0x40000000))
        ((MapCall.page 3 (mapSlot 1) 0).vaddr (mapState 0x40000000))
        ((MapCall.page 3 (mapSlot 1) 0).recorded s') := by
  obtain ⟨s', hrun⟩ := mapState_maps (by decide +kernel :
    ((MapCall.page 3 (mapSlot 1) 0).run (mapState 0x40000000)).satisfies
      (fun r => r.2 = .none) = true)
  exact ⟨s', hrun, (mapCall_userHalf_iff hrun).mpr ⟨by decide +kernel, .inl (by decide +kernel)⟩⟩

/-- A huge page at `0x7fc0000000` goes into entry 511 of the root table, and a page
table at the same address as well; the cap has another address then. -/
theorem map_above_user_half :
    (∃ s', (MapCall.page 3 (mapSlot 1) 0).run (mapState 0x7fc0000000) = .ok (s', .none) ∧
      (mapTarget (mapState 0x7fc0000000) mapRoot 0x7fc0000000).1 = mapRoot + 8 * 511 ∧
      (MapCall.page 3 (mapSlot 1) 0).recorded s' = 0xffffffffc0000000 ∧
      ¬UserHalf (mapState 0x7fc0000000) s' (.page 3 (mapSlot 1) 0) (MapCall.root (mapState 0x7fc0000000))
        ((MapCall.page 3 (mapSlot 1) 0).vaddr (mapState 0x7fc0000000))
        ((MapCall.page 3 (mapSlot 1) 0).recorded s')) ∧
    ∃ s', (MapCall.table 2 (mapSlot 2) 0).run (mapState 0x7fc0000000) = .ok (s', .none) ∧
      ¬UserHalf (mapState 0x7fc0000000) s' (.table 2 (mapSlot 2) 0) (MapCall.root (mapState 0x7fc0000000))
        ((MapCall.table 2 (mapSlot 2) 0).vaddr (mapState 0x7fc0000000))
        ((MapCall.table 2 (mapSlot 2) 0).recorded s') := by
  have hindex : ¬(ptIndex .riscv64 0x7fc0000000 0).toNat < 256 := by decide +kernel
  constructor
  · obtain ⟨⟨s', e⟩, hrun, he⟩ := Exec.satisfies_iff.mp (by decide +kernel :
      ((MapCall.page 3 (mapSlot 1) 0).run (mapState 0x7fc0000000)).satisfies
        (fun r => r.2 = .none ∧ (MapCall.page 3 (mapSlot 1) 0).recorded r.1 = 0xffffffffc0000000) =
          true)
    obtain ⟨rfl, hrec⟩ := of_decide_eq_true he
    exact ⟨s', hrun, by decide +kernel, hrec, fun h => hindex h.index⟩
  · obtain ⟨s', hrun⟩ := mapState_maps (by decide +kernel :
      ((MapCall.table 2 (mapSlot 2) 0).run (mapState 0x7fc0000000)).satisfies
        (fun r => r.2 = .none) = true)
    exact ⟨s', hrun, fun h => hindex h.index⟩

end Rel4.Kernel
