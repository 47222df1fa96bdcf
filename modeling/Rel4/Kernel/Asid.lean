import Rel4.Kernel.Derive
import Rel4.VSpace.Unmap
import Rel4.Lib.Registry

/-!
Making ASID pools and assigning ASIDs (`decode_asid_control` and
`decode_asid_pool` in `decode/arch/*.rs`, `invoke_asid_control` and
`invoke_asid_pool` in `invoke_mmu_op.rs`).

An address space is reached through caps to its root table, which is a page
table on riscv64 and a VSpace on aarch64. The ASID of a root stands twice: as
the index of its word in a pool and in its caps.
-/

namespace Rel4.Kernel
open Lib.Bitfield Common CSpace Rel4.Task Ipc VSpace Function
open BitVec (ofNat)

variable (a : Arch)

/-- `seL4_ASIDPoolBits` -/
def asidPoolBits : Word := 12

/-- `RISCVASIDControlMakePool`, `ARMASIDControlMakePool` -/
def makePoolLabel : Arch → MessageLabel
  | .riscv64 => .riscvASIDControlMakePool
  | .aarch64 => .armASIDControlMakePool

/-- `RISCVASIDPoolAssign`, `ARMASIDPoolAssign` -/
def poolAssignLabel : Arch → MessageLabel
  | .riscv64 => .riscvASIDPoolAssign
  | .aarch64 => .armASIDPoolAssign

/-! ## Pools -/

/-- The loop of `decode_asid_control`: the first index without a pool. -/
def freePoolIndex (s : KernelState) : Option Nat :=
  (List.range asidPoolNum).find? fun i => s.asidTable (ofNat 64 i) = 0

/-- `invoke_asid_control`, which the aarch64 decoder has in place. -/
def invokeAsidControl (s : KernelState) (frame slot parentSlot asidBase : Word) :
    Exec (KernelState × ExceptionT) := do
  let s := setFreeIndex a s parentSlot
    (maxFreeIndex (getUntypedBlockSize a (s.ctes parentSlot).cap))
  let s := clearMemory s frame asidPoolBits
  let s ← s.insertMade a (newAsidPoolCap a asidBase frame) parentSlot slot
  ensure (asidBase &&& mask 9 = 0)
  return (setAsidPool s (asidBase >>> asidLowBits) frame, .none)

/-- The caps that `decode_asid_control` takes for the memory of a pool. -/
def isPoolMemory (cap : CapT) : Bool :=
  getCapType cap = .untypedCap ∧ getUntypedBlockSize a cap = asidPoolBits ∧
    getUntypedIsDevice a cap = 0

/-- `decode_asid_control`. The architectures number the untyped cap differently
in the error, and on aarch64 the error of `ensure_no_children` has no type. -/
def decodeAsidControl (s : KernelState) (label : MessageLabel) (length buffer : Word) :
    Exec (KernelState × ExceptionT) :=
  if label ≠ makePoolLabel a then .ok (s.fail fun e => { e with type := .illegalOperation })
  else
    match getExtraCapByIndex s 0, getExtraCapByIndex s 1 with
    | some parentSlot, some rootSlot =>
      if length < 2 then .ok (s.fail fun e => { e with type := .truncatedMessage })
      else
        let index := getSyscallArg a s 0 buffer
        let depth := getSyscallArg a s 1 buffer
        let untypedCap := (s.ctes parentSlot).cap
        match freePoolIndex s with
        | none => .ok (s.fail fun e => { e with type := .deleteFirst })
        | some i =>
          if isPoolMemory a untypedCap = false then
            .ok (s.fail fun e =>
              { e with
                type := .invalidCapability
                invalidCapNumber := match a with
                  | .riscv64 => 1
                  | .aarch64 => 0 })
          else if ensureNoChildren a s.ctes parentSlot ≠ .none then
            match a with
            | .riscv64 => .ok (s.fail fun e => { e with type := .revokeFirst })
            | .aarch64 => .ok (s, .syscallError)
          else do
            let frame := getUntypedPtr a untypedCap
            let (s, status, destSlot) ←
              lookupSlotForCNodeOp a s false (s.ctes rootSlot).cap index depth
            if status ≠ .none then return (s, status)
            if s.ctes.capType destSlot ≠ .nullCap then
              return s.fail fun e => { e with type := .deleteFirst }
            invokeAsidControl a (setRestart a s) frame destSlot parentSlot
              (ofNat 64 i <<< asidLowBits)
    | _, _ => .ok (s.fail fun e => { e with type := .truncatedMessage })

/-! ## Roots -/

/-- The caps for root tables. -/
def rootTag : Arch → CapTag
  | .riscv64 => .pageTableCap
  | .aarch64 => .vspaceCap

def getRootPtr (cap : CapT) : Word :=
  match a with
  | .riscv64 => getPtBasePtr a cap
  | .aarch64 => getVsBasePtr a cap

def getRootIsMapped (cap : CapT) : Word :=
  match a with
  | .riscv64 => getPtIsMapped a cap
  | .aarch64 => getVsIsMapped a cap

def getRootAsid (cap : CapT) : Word :=
  match a with
  | .riscv64 => getPtMappedAsid a cap
  | .aarch64 => getVsMappedAsid a cap

/-- A root cap after the assignment of an ASID. -/
def setRootMapped (cap : CapT) (asid : Word) : CapT :=
  match a with
  | .riscv64 =>
    let cap := (CSpace.Field.ptIsMapped a).set cap 1
    let cap := (CSpace.Field.ptMappedAddress a).set cap 0
    CSpace.Field.ptMappedAsid.set cap asid
  | .aarch64 => CSpace.Field.vsIsMapped.set (CSpace.Field.vsMappedAsid.set cap asid) 1

/-- The word of a pool for a root table. -/
def rootEntry (root : Word) : Word :=
  match a with
  | .riscv64 => root
  | .aarch64 => newAsidMapVspace root

/-- The entries of a root table that `copyGlobalMappings` writes. -/
def globalEntries : List Nat :=
  let first := (ptIndex .riscv64 0x80000000 0).toNat
  List.range' first (2 ^ ptIndexBits - first)

/-- The loop of `copyGlobalMappings`. -/
def copyEntries (src dest : Word) : List Nat → (Word → Word) → Word → Word
  | [], m => m
  | i :: is, m =>
    copyEntries src dest is (update m (dest + 8 * ofNat 64 i)
      (m (src + 8 * ofNat 64 i)))

/-- `copyGlobalMappings` -/
def copyGlobalMappings (s : KernelState) (lvl1pt : Word) : KernelState :=
  setMemory s (copyEntries s.globalVSpace lvl1pt globalEntries s.userMemory)

/-- `invoke_asid_pool`, which the aarch64 decoder has in place; there the
mappings of the kernel are in a table of their own. -/
def invokeAsidPool (s : KernelState) (asid pool vspaceSlot : Word) : KernelState × ExceptionT :=
  let regionBase := getRootPtr a (s.ctes vspaceSlot).cap
  let s := s.setCtes (s.ctes.setCap vspaceSlot (setRootMapped a (s.ctes vspaceSlot).cap asid))
  let s := match a with
    | .riscv64 => copyGlobalMappings s regionBase
    | .aarch64 => s
  (setMemory s (update s.userMemory (poolEntry pool asid) (rootEntry a regionBase)), .none)

/-- The loop of `decode_asid_pool`: the first free word of a pool, other than
that of ASID 0. -/
def freeAsidIndex (s : KernelState) (asid pool : Word) : Option Nat :=
  (List.range (2 ^ asidLowBits)).find? fun i =>
    asid + ofNat 64 i ≠ 0 ∧ s.userMemory (pool + 8 * ofNat 64 i) = 0

/-- `decode_asid_pool`; the aarch64 build reports a bad root as an argument. -/
def decodeAsidPool (s : KernelState) (label : MessageLabel) (cte : Word) :
    KernelState × ExceptionT :=
  if label ≠ poolAssignLabel a then s.fail fun e => { e with type := .illegalOperation }
  else
    match getExtraCapByIndex s 0 with
    | none => s.fail fun e => { e with type := .truncatedMessage }
    | some vspaceSlot =>
      let vspaceCap := (s.ctes vspaceSlot).cap
      if getCapType vspaceCap ≠ rootTag a ∨ getRootIsMapped a vspaceCap ≠ 0 then
        s.fail fun e => match a with
          | .riscv64 => { e with type := .invalidCapability, invalidCapNumber := 1 }
          | .aarch64 => { e with type := .invalidCapability, invalidArgumentNumber := 1 }
      else
        let asid := getAsidBase a (s.ctes cte).cap
        let pool := asidPoolOf s asid
        if pool = 0 then
          { s with currentLookupFault := fun _ => 0 }.fail fun e =>
            { e with type := .failedLookup, failedLookupWasSource := 0 }
        else if pool ≠ getAsidPool a (s.ctes cte).cap then
          s.fail fun e => { e with type := .invalidCapability, invalidCapNumber := 0 }
        else
          match freeAsidIndex s asid pool with
          | none => s.fail fun e => { e with type := .deleteFirst }
          | some i => invokeAsidPool a (setRestart a s) (asid + ofNat 64 i) pool vspaceSlot

/-! ## Effects -/

/-- The slots with their history, the ASID table and the memory. -/
structure AsidView where
  caps : CapSpace
  asidTable : Word → Word
  userMemory : Word → Word

def asidView (s : KernelState) : AsidView := ⟨capSpace s, s.asidTable, s.userMemory⟩

variable {a} {s s' : KernelState} {slot : Word}
  {e : ExceptionT}

theorem asidView_setRestart : asidView (setRestart a s) = asidView s :=
  (ipcEq_setThreadState _).proj asidView

/-- The slots after the free index of the untyped cap is set and its block is
cleared. -/
def blockSlots (a : Arch) (σ : Slots) (parent : Word) : Slots := fun x =>
  if x - getUntypedPtr a (σ parent).cap < bit asidPoolBits then emptyCte
  else σ.setCap parent (setUntypedFreeIndex a (σ parent).cap
    (maxFreeIndex (getUntypedBlockSize a (σ parent).cap))) x

/-- The cap of the pool at index `i` that is made from the untyped cap in `parent`. -/
def poolCapOf (a : Arch) (σ : Slots) (parent : Word) (i : Nat) : CapT :=
  newAsidPoolCap a (ofNat 64 i <<< asidLowBits) (getUntypedPtr a (σ parent).cap)

/-- A pool is made at index `i` from the untyped cap in `parent`, with the cap for
it in `dest`. -/
structure MakesPool (a : Arch) (s s' : KernelState) (parent dest : Word) (i : Nat) : Prop where
  extraCap : getExtraCapByIndex s 0 = some parent
  index : i < asidPoolNum
  free : s.asidTable (ofNat 64 i) = 0
  memoryCap : isPoolMemory a (s.ctes parent).cap = true
  noChildren : ensureNoChildren a s.ctes parent = .none
  dest_node : NodeSlot a s.ctes dest
  insert : cteInsert a (blockSlots a s.ctes parent) (poolCapOf a s.ctes parent i) parent dest =
    .ok s'.ctes
  caps : capSpace s' =
    CapSpace.inserted ⟨blockSlots a s.ctes parent, s.origin, s.fresh⟩ s'.ctes parent dest s.fresh
  table : s'.asidTable = update s.asidTable (ofNat 64 i)
    (getUntypedPtr a (s.ctes parent).cap)
  memory : s'.userMemory = fun x =>
    if x - getUntypedPtr a (s.ctes parent).cap < bit asidPoolBits then 0 else s.userMemory x

theorem shift_asidBase (hi : i < asidPoolNum) :
    ofNat 64 i <<< asidLowBits >>> asidLowBits = ofNat 64 i := by
  have hi : i < 128 := hi
  apply BitVec.eq_of_toNat_eq
  simp only [asidLowBits, BitVec.toNat_ushiftRight, BitVec.toNat_shiftLeft, BitVec.toNat_ofNat,
    Nat.shiftLeft_eq, Nat.shiftRight_eq_div_pow]
  omega

theorem invokeAsidControl_effect (hframe : frame = getUntypedPtr a (s.ctes parent).cap)
    (h : invokeAsidControl a s frame dest parent asidBase = .ok (s', e)) :
    e = .none ∧
      cteInsert a (blockSlots a s.ctes parent) (newAsidPoolCap a asidBase frame) parent dest =
        .ok s'.ctes ∧
      capSpace s' = CapSpace.inserted
        ⟨blockSlots a s.ctes parent, (capSpace s).origin, (capSpace s).fresh⟩ s'.ctes parent dest
        (capSpace s).fresh ∧
      s'.asidTable = update s.asidTable (asidBase >>> asidLowBits) frame ∧
      s'.userMemory = fun x => if x - frame < bit asidPoolBits then 0 else s.userMemory x := by
  subst hframe
  obtain ⟨s₁, hins, h⟩ := bind_eq_ok.mp h
  obtain ⟨_, -, h⟩ := bind_eq_ok.mp h
  cases h
  obtain ⟨σ, hσ, hins⟩ := bind_eq_ok.mp hins
  cases hins
  exact ⟨rfl, hσ, rfl, rfl, rfl⟩

/-- `decode_asid_control` reports an error or makes a pool. -/
theorem decodeAsidControl_cases (h : decodeAsidControl a s label length buffer = .ok (s', e)) :
    (e ≠ .none ∧ Reports s s') ∨ (e = .none ∧ ∃ parent dest i, MakesPool a s s' parent dest i) := by
  have herr : ExceptionT.syscallError ≠ .none := by decide
  unfold decodeAsidControl at h
  split at h
  · cases h
    exact .inl ⟨herr, ⟨_, _, rfl⟩⟩
  simp only at h
  split at h
  next parent root hparent hroot =>
    split at h
    · cases h
      exact .inl ⟨herr, ⟨_, _, rfl⟩⟩
    split at h
    · cases h
      exact .inl ⟨herr, ⟨_, _, rfl⟩⟩
    rename_i i hi
    split at h
    · cases h
      exact .inl ⟨herr, ⟨_, _, rfl⟩⟩
    rename_i hmem'
    split at h
    · cases a <;> cases h <;> exact .inl ⟨herr, ⟨_, _, rfl⟩⟩
    rename_i hchildren
    obtain ⟨⟨s₁, st, dest⟩, hlook, h⟩ := bind_eq_ok.mp h
    rcases lookupSlotForCNodeOp_cases hlook with ⟨hst, hrep, -⟩ | ⟨rfl, rfl, -⟩
    · simp only [if_pos hst] at h
      cases h
      exact .inl ⟨hst, hrep⟩
    have hnode := (lookupSlotForCNodeOp_effect hlook).2 rfl
    simp only [ne_eq, not_true_eq_false, if_false] at h
    split at h
    · cases h
      exact .inl ⟨herr, ⟨_, _, rfl⟩⟩
    have hcaps : capSpace (setRestart a s₁) = capSpace s₁ :=
      congrArg AsidView.caps asidView_setRestart
    have hctes : (setRestart a s₁).ctes = s₁.ctes := congrArg CapSpace.slots hcaps
    have htab : (setRestart a s₁).asidTable = s₁.asidTable :=
      congrArg AsidView.asidTable asidView_setRestart
    have huser : (setRestart a s₁).userMemory = s₁.userMemory :=
      congrArg AsidView.userMemory asidView_setRestart
    obtain ⟨rfl, hins, hspace, htable, hmem⟩ := invokeAsidControl_effect (by rw [hctes]) h
    have hlt := List.mem_range.mp (List.mem_of_find?_eq_some hi)
    have hfree : s₁.asidTable (ofNat 64 i) = 0 := by simpa using List.find?_some hi
    rw [hctes] at hins
    rw [hctes, hcaps] at hspace
    rw [htab, shift_asidBase hlt] at htable
    rw [huser] at hmem
    exact .inr ⟨rfl, parent, dest, i, hparent, hlt, hfree, by simpa using hmem',
      not_not.mp hchildren, hnode, hins, hspace, htable, hmem⟩
  · cases h
    exact .inl ⟨herr, ⟨_, _, rfl⟩⟩

/-- The word of ASID `asidBase + i` gets the root of the cap in `slot`, and the cap
gets the ASID. -/
structure Assigns (a : Arch) (s s' : KernelState) (slot base : Word) (i : Nat) : Prop where
  index : i < 2 ^ asidLowBits
  asid_ne : base + ofNat 64 i ≠ 0
  root : s.ctes.capType slot = rootTag a
  unmapped : getRootIsMapped a (s.ctes slot).cap = 0
  pool_ne : asidPoolOf s base ≠ 0
  free : s.userMemory (asidPoolOf s base + 8 * ofNat 64 i) = 0
  caps : capSpace s' =
    (capSpace s).setCap slot (setRootMapped a (s.ctes slot).cap (base + ofNat 64 i))
  table : s'.asidTable = s.asidTable
  entry : s'.userMemory (poolEntry (asidPoolOf s base) (base + ofNat 64 i)) =
    rootEntry a (getRootPtr a (s.ctes slot).cap)
  memory : ∀ w, w ≠ poolEntry (asidPoolOf s base) (base + ofNat 64 i) →
    (a = .riscv64 → ∀ k < 2 ^ ptIndexBits,
      w ≠ getRootPtr a (s.ctes slot).cap + 8 * ofNat 64 k) →
    s'.userMemory w = s.userMemory w

theorem copyEntries_of_ne (hw : ∀ k ∈ is, w ≠ dest + 8 * ofNat 64 k) :
    ∀ m, copyEntries src dest is m w = m w := by
  induction is with
  | nil => exact fun _ => rfl
  | cons i is ih =>
    intro m
    rw [copyEntries, ih fun k hk => hw k (List.mem_cons_of_mem _ hk),
      update_of_ne (hw i List.mem_cons_self)]

theorem globalEntries_lt (hk : k ∈ globalEntries) : k < 2 ^ ptIndexBits := by
  have hfirst : (ptIndex .riscv64 0x80000000 0).toNat ≤ 2 ^ ptIndexBits := by decide
  have := List.mem_range'_1.mp hk
  omega

/-- `copyGlobalMappings` writes to the root table only. -/
theorem copyGlobalMappings_memory (hw : ∀ k < 2 ^ ptIndexBits, w ≠ lvl1pt + 8 * ofNat 64 k) :
    (copyGlobalMappings s lvl1pt).userMemory w = s.userMemory w := by
  have hentries : ∀ k ∈ globalEntries, w ≠ lvl1pt + 8 * ofNat 64 k :=
    fun k hk => hw k (globalEntries_lt hk)
  unfold copyGlobalMappings setMemory
  generalize globalEntries = is at hentries
  exact copyEntries_of_ne hentries _

theorem invokeAsidPool_effect (h : invokeAsidPool a s asid pool slot = (s', e)) :
    e = .none ∧
      capSpace s' = (capSpace s).setCap slot (setRootMapped a ((capSpace s).slots slot).cap asid) ∧
      s'.asidTable = s.asidTable ∧
      s'.userMemory (poolEntry pool asid) =
        rootEntry a (getRootPtr a ((capSpace s).slots slot).cap) ∧
      ∀ w, w ≠ poolEntry pool asid →
        (a = .riscv64 → ∀ k < 2 ^ ptIndexBits,
          w ≠ getRootPtr a ((capSpace s).slots slot).cap + 8 * ofNat 64 k) →
        s'.userMemory w = s.userMemory w := by
  obtain ⟨rfl, rfl⟩ := h
  cases a with
  | riscv64 =>
    refine ⟨rfl, rfl, rfl, update_self .., fun w hw hroot => ?_⟩
    exact (update_of_ne hw ..).trans (copyGlobalMappings_memory (hroot rfl))
  | aarch64 =>
    exact ⟨rfl, rfl, rfl, update_self .., fun w hw _ => update_of_ne hw ..⟩

/-- `decode_asid_pool` reports an error or assigns an ASID. -/
theorem decodeAsidPool_cases (h : decodeAsidPool a s label cte = (s', e)) :
    (e ≠ .none ∧ Reports s s') ∨
      (e = .none ∧ ∃ slot i, Assigns a s s' slot (getAsidBase a (s.ctes cte).cap) i) := by
  have herr : ExceptionT.syscallError ≠ .none := by decide
  unfold decodeAsidPool at h
  split at h
  · cases h
    exact .inl ⟨herr, ⟨_, _, rfl⟩⟩
  split at h
  · cases h
    exact .inl ⟨herr, ⟨_, _, rfl⟩⟩
  rename_i slot _
  simp only at h
  split at h
  · cases a <;> cases h <;> exact .inl ⟨herr, ⟨_, _, rfl⟩⟩
  rename_i hroot
  rw [not_or, not_not, not_not] at hroot
  split at h
  · cases h
    exact .inl ⟨herr, ⟨_, _, rfl⟩⟩
  rename_i hpool
  split at h
  · cases h
    exact .inl ⟨herr, ⟨_, _, rfl⟩⟩
  split at h
  · cases h
    exact .inl ⟨herr, ⟨_, _, rfl⟩⟩
  rename_i i hi
  have hcaps : capSpace (setRestart a s) = capSpace s := congrArg AsidView.caps asidView_setRestart
  have htab : (setRestart a s).asidTable = s.asidTable :=
    congrArg AsidView.asidTable asidView_setRestart
  have huser : (setRestart a s).userMemory = s.userMemory :=
    congrArg AsidView.userMemory asidView_setRestart
  have hlt := List.mem_range.mp (List.mem_of_find?_eq_some hi)
  have hfound := List.find?_some hi
  rw [decide_eq_true_eq] at hfound
  have heffect := invokeAsidPool_effect h
  rw [hcaps, htab, huser] at heffect
  obtain ⟨rfl, hspace, htable, hentry, hmem⟩ := heffect
  exact .inr ⟨rfl, slot, i, hlt, hfound.1, hroot.1, hroot.2, hpool, hfound.2, hspace, htable, hentry, hmem⟩

end Rel4.Kernel
