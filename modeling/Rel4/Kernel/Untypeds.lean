import Rel4.Kernel.Freemem
import Rel4.Kernel.MdbRun
import Rel4.Lib.Tiling

/-!
The untypeds that the initial thread gets (`kernel/src/boot/untyped.rs`,
`boot/utils.rs`).

`create_untypeds` hands out the memory that is not reserved as device memory and
the free memory as normal memory. A region is cut into aligned blocks whose size
is the largest that the remaining length, the alignment of the start and
`seL4_MaxUntypedBits` allow. The lengths are taken modulo the word, since the
device regions go around its top. `offers` records every call of
`provide_untyped_cap`; the source has no such field.
-/

namespace Rel4.Kernel
open Lib.Bitfield Lib.Tiling Lib.Carve Common CSpace VSpace

variable {start stop : Word} {reg : Region} (a : Arch)

/-! ## Slots of the initial CNode -/

/-- `CONFIG_ROOT_CNODE_SIZE_BITS` -/
def rootCnodeSizeBits : Word := 13

/-- `ndks_boot.slot_pos_cur` and the slots. -/
structure BootSlots where
  slotPosCur : Word
  slots : Slots

/-- `provide_cap` -/
def provideCap (rootCnodeCap cap : CapT) (b : BootSlots) : BootSlots × Bool :=
  if bit rootCnodeSizeBits ≤ b.slotPosCur then (b, false)
  else
    let ptr := offsetSlot (getCapPtr a rootCnodeCap) b.slotPosCur
    (⟨b.slotPosCur + 1, writeSlot b.slots ptr cap⟩, true)

/-! ## Untypeds -/

/-- `CONFIG_PADDR_USER_DEVICE_TOP` -/
def paddrUserDeviceTop : Arch → Word
  | .riscv64 => 549755813888
  | .aarch64 => 17592186044416

/-- `CONFIG_MAX_NUM_BOOTINFO_UNTYPED_CAPS` -/
def maxNumBootinfoUntypedCaps : Word := 230

/-- `seL4_UntypedDesc` -/
structure UntypedDesc where
  paddr : Word
  sizeBits : BitVec 8
  isDevice : BitVec 8
  deriving DecidableEq, Repr

/-- An untyped that `provide_untyped_cap` is called for. -/
structure Offer where
  block : Tile 64
  isDevice : Bool
  deriving DecidableEq, Repr

/-- What `create_untypeds` works on: `ndks_boot`, `untypedList` and `untyped` of the boot info
frame, and the offers made so far. -/
structure UntypedBoot extends BootSlots where
  ndksBoot : NdksBoot
  untypedList : Word → UntypedDesc
  untyped : Region
  offers : List Offer

/-- `IS_ALIGNED!(n, b)` -/
def isAligned (n b : Word) : Bool := n &&& mask b == 0

/-- `pptr_in_kernel_window` -/
def pptrInKernelWindow (pptr : Word) : Bool := pptrBase a ≤ pptr && pptr < pptrTop a

/-- `provide_untyped_cap` -/
def provideUntypedCap (rootCnodeCap : CapT) (deviceMemory : Bool)
    (pptr sizeBits firstUntypedSlot : Word) (b : UntypedBoot) : UntypedBoot × Bool :=
  let b := { b with offers := b.offers ++ [⟨⟨pptr, sizeBits.toNat⟩, deviceMemory⟩] }
  if maxUntypedBits < sizeBits ∨ sizeBits < minUntypedBits then (b, false)
  else if !isAligned pptr sizeBits then (b, false)
  else if !deviceMemory && !pptrInKernelWindow a pptr then (b, false)
  else if !deviceMemory && !pptrInKernelWindow a (pptr + mask sizeBits) then (b, false)
  else
    let i := b.slotPosCur - firstUntypedSlot
    if i < maxNumBootinfoUntypedCaps then
      let desc : UntypedDesc :=
        ⟨pptrToPaddr a pptr, sizeBits.truncate 8, (flag deviceMemory).truncate 8⟩
      let utCap := newUntypedCap a (maxFreeIndex sizeBits) (flag deviceMemory) sizeBits pptr
      let r := provideCap a rootCnodeCap utCap b.toBootSlots
      ({ b with untypedList := Function.update b.untypedList i desc, toBootSlots := r.1 }, r.2)
    else (b, true)

/-- The size of the next untyped of a region. -/
def untypedSizeBits (reg : Region) : Word :=
  let sizeBits := wordBits - 1 - (reg.stop - reg.start).clz
  let sizeBits := if maxUntypedBits < sizeBits then maxUntypedBits else sizeBits
  if reg.start ≠ 0 then
    let alignBits := reg.start.ctz
    if alignBits < sizeBits then alignBits else sizeBits
  else sizeBits

/-- The region as a range of addresses modulo the word. -/
def Region.arc (reg : Region) : Arc 64 := ⟨reg.start, reg.stop⟩

/-- What is left of a region after its next untyped. -/
def untypedRest (reg : Region) : Region := ⟨reg.start + bit (untypedSizeBits reg), reg.stop⟩

section SizeBits

variable {reg : Region}

theorem isRegEmpty_iff : isRegEmpty reg = true ↔ reg.start = reg.stop := beq_iff_eq

section

variable (h : reg.start ≠ reg.stop)
include h

/-- The source has no alignment at 0. Counting zeros there gives 64, which is no bound either. -/
theorem toNat_untypedSizeBits : (untypedSizeBits reg).toNat =
      min (min (63 - (reg.stop - reg.start).clz.toNat) 38) reg.start.ctz.toNat := by
  have hne : reg.stop - reg.start ≠ 0 := by bv_omega
  have hcap : (if maxUntypedBits < wordBits - 1 - (reg.stop - reg.start).clz then maxUntypedBits
      else wordBits - 1 - (reg.stop - reg.start).clz).toNat =
      min (63 - (reg.stop - reg.start).clz.toNat) 38 := by
    rw [toNat_ite_lt, toNat_sub_clz hne]
    rfl
  unfold untypedSizeBits
  by_cases hzero : reg.start = 0
  · have hctz : 64 ≤ reg.start.ctz.toNat := by
      rw [← two_pow_dvd_iff_le_ctz le_rfl, hzero]
      exact Nat.dvd_zero _
    rw [if_neg (not_not.mpr hzero), hcap]
    omega
  · rw [if_pos hzero]
    exact toNat_ite_lt.trans (by rw [hcap])

theorem untypedSizeBits_le : (untypedSizeBits reg).toNat ≤ 38 := by
  rw [toNat_untypedSizeBits h]
  omega

theorem two_pow_untypedSizeBits_le : 2 ^ (untypedSizeBits reg).toNat ≤ reg.arc.length := by
  have hne : reg.stop - reg.start ≠ 0 := by bv_omega
  calc 2 ^ (untypedSizeBits reg).toNat
      ≤ 2 ^ (63 - (reg.stop - reg.start).clz.toNat) := by
        rw [toNat_untypedSizeBits h]
        exact Nat.pow_le_pow_right (by decide) (by omega)
    _ ≤ (reg.stop - reg.start).toNat := BitVec.two_pow_sub_clz_le_toNat_of_ne_zero (by decide) hne

theorem two_pow_untypedSizeBits_dvd : 2 ^ (untypedSizeBits reg).toNat ∣ reg.start.toNat := by
  have hle := untypedSizeBits_le h
  rw [two_pow_dvd_iff_le_ctz (by omega), toNat_untypedSizeBits h]
  omega

/-- A block under `seL4_MinUntypedBits` comes off where the start is no multiple of 16 or
fewer than 16 bytes are left. -/
theorem length_lt_of_untypedSizeBits_lt (hlt : (untypedSizeBits reg).toNat < 4)
    (hdvd : 2 ^ 4 ∣ reg.start.toNat) : reg.arc.length < 2 ^ 4 := by
  have hctz := (two_pow_dvd_iff_le_ctz (by decide)).mp hdvd
  have hclz : 64 - (reg.stop - reg.start).clz.toNat ≤ 4 := by
    rw [toNat_untypedSizeBits h] at hlt
    omega
  calc reg.arc.length < 2 ^ (64 - (reg.stop - reg.start).clz.toNat) :=
        BitVec.toNat_lt_two_pow_sub_clz
    _ ≤ 2 ^ 4 := Nat.pow_le_pow_right (by decide) hclz

theorem arc_untypedRest : (untypedRest reg).arc = reg.arc.drop (untypedSizeBits reg).toNat := by
  have hle := untypedSizeBits_le h
  unfold untypedRest Region.arc Arc.drop
  rw [bit_eq_ofNat (by omega)]

theorem length_untypedRest : (untypedRest reg).arc.length < reg.arc.length := by
  have hle := two_pow_untypedSizeBits_le h
  have hpos : 0 < 2 ^ (untypedSizeBits reg).toNat := Nat.two_pow_pos _
  rw [arc_untypedRest h, Arc.length_drop hle]
  omega

end

end SizeBits

/-- `if !f() { return false; }` -/
def orFail (r : UntypedBoot × Bool) (next : UntypedBoot → UntypedBoot × Bool) :
    UntypedBoot × Bool :=
  if r.2 then next r.1 else (r.1, false)

section Create

variable (rootCnodeCap : CapT) (deviceMemory : Bool) (firstUntypedSlot : Word)

/-- `create_untypeds_for_region` -/
def createUntypedsForRegion (reg : Region) (b : UntypedBoot) : UntypedBoot × Bool :=
  if isRegEmpty reg then (b, true)
  else
    let sizeBits := untypedSizeBits reg
    orFail
      (if minUntypedBits ≤ sizeBits then
        provideUntypedCap a rootCnodeCap deviceMemory reg.start sizeBits firstUntypedSlot b
      else (b, true))
      fun b => createUntypedsForRegion (untypedRest reg) b
termination_by reg.arc.length
decreasing_by exact length_untypedRest (isRegEmpty_iff.not.mp ‹_›)

/-- The part of `create_untypeds` for device memory, from the address `start` on: up to each
of the reserved regions, and from the last of them to the top. -/
def createDeviceUntypeds (start : Word) : List Region → UntypedBoot → UntypedBoot × Bool
  | [], b =>
    if start < paddrUserDeviceTop a then
      createUntypedsForRegion a rootCnodeCap true firstUntypedSlot
        (paddrToPptrReg a ⟨start, paddrUserDeviceTop a⟩) b
    else (b, true)
  | r :: rs, b =>
    orFail
      (createUntypedsForRegion a rootCnodeCap true firstUntypedSlot
        (paddrToPptrReg a ⟨start, r.start⟩) b)
      fun b => createDeviceUntypeds r.stop rs b

/-- The last loop of `create_untypeds`. A region that fails is only reported. -/
def createFreeUntypeds : List Region → UntypedBoot → UntypedBoot
  | [], b => b
  | reg :: regs, b =>
    createFreeUntypeds regs
      (createUntypedsForRegion a rootCnodeCap false firstUntypedSlot reg b).1

end Create

/-- `create_untypeds` -/
def createUntypeds (rootCnodeCap : CapT) (bootMemReuseReg : Region) (b : UntypedBoot) :
    UntypedBoot × Bool :=
  let firstUntypedSlot := b.slotPosCur
  orFail (createDeviceUntypeds a rootCnodeCap firstUntypedSlot 0 b.ndksBoot.reserved b) fun b =>
    orFail (createUntypedsForRegion a rootCnodeCap false firstUntypedSlot bootMemReuseReg b)
      fun b =>
        let freemem := b.ndksBoot.freemem
        let b := { b with ndksBoot.freemem := freemem.map fun _ => ⟨0, 0⟩ }
        let b := createFreeUntypeds a rootCnodeCap firstUntypedSlot freemem b
        ({ b with untyped := ⟨firstUntypedSlot, b.slotPosCur⟩ }, true)

/-! ## The blocks of a region -/

/-- The blocks that the loop goes through, with those that are too small for an untyped. -/
def untypedBlocks (reg : Region) : List (Tile 64) :=
  if reg.start = reg.stop then []
  else ⟨reg.start, (untypedSizeBits reg).toNat⟩ :: untypedBlocks (untypedRest reg)
termination_by reg.arc.length
decreasing_by exact length_untypedRest ‹_›

/-- The untypeds of a region. -/
def untypedTiles (reg : Region) : List (Tile 64) :=
  (untypedBlocks reg).filter fun t => minUntypedBits.toNat ≤ t.bits

theorem cut_untypedBlocks (reg : Region) : Cut 4 reg.arc (untypedBlocks reg) := by
  fun_induction untypedBlocks reg with
  | case1 reg hempty => exact .done hempty
  | case2 reg hne ih =>
    rw [arc_untypedRest hne] at ih
    exact .tile (two_pow_untypedSizeBits_le hne) (two_pow_untypedSizeBits_dvd hne)
      (length_lt_of_untypedSizeBits_lt hne) ih

theorem bits_untypedBlocks (reg : Region) : ∀ t ∈ untypedBlocks reg, t.bits ≤ 38 := by
  fun_induction untypedBlocks reg with
  | case1 reg hempty => exact nofun
  | case2 reg hne ih =>
    intro t ht
    rcases List.mem_cons.mp ht with rfl | ht
    · exact untypedSizeBits_le hne
    · exact ih t ht

section Provide

variable (rootCnodeCap : CapT) (deviceMemory : Bool) (firstUntypedSlot : Word)

/-- Offers one untyped after the other, up to the first that is refused. -/
def provideAll : List (Tile 64) → UntypedBoot → UntypedBoot × Bool
  | [], b => (b, true)
  | t :: ts, b =>
    orFail (provideUntypedCap a rootCnodeCap deviceMemory t.base (BitVec.ofNat 64 t.bits)
      firstUntypedSlot b) (provideAll ts)

theorem createUntypedsForRegion_eq (reg : Region) (b : UntypedBoot) :
    createUntypedsForRegion a rootCnodeCap deviceMemory firstUntypedSlot reg b =
      provideAll a rootCnodeCap deviceMemory firstUntypedSlot (untypedTiles reg) b := by
  fun_induction createUntypedsForRegion a rootCnodeCap deviceMemory firstUntypedSlot reg b with
  | case1 reg b hempty =>
    rw [untypedTiles, untypedBlocks, if_pos (isRegEmpty_iff.mp hempty)]
    rfl
  | case2 reg b hne sizeBits ih =>
    have hmin : minUntypedBits ≤ sizeBits ↔ minUntypedBits.toNat ≤ sizeBits.toNat := BitVec.le_def
    rw [untypedTiles, untypedBlocks, if_neg (isRegEmpty_iff.not.mp hne), List.filter_cons]
    by_cases hle : minUntypedBits ≤ sizeBits
    · rw [if_pos hle, if_pos (decide_eq_true (hmin.mp hle)), provideAll, BitVec.ofNat_toNat,
        BitVec.setWidth_eq]
      exact congrArg _ (funext ih)
    · rw [if_neg hle, if_neg (by rw [decide_eq_true_iff]; exact hmin.not.mp hle)]
      exact ih b

theorem offers_provideUntypedCap (pptr sizeBits : Word) (b : UntypedBoot) :
    (provideUntypedCap a rootCnodeCap deviceMemory pptr sizeBits firstUntypedSlot b).1.offers =
      b.offers ++ [⟨⟨pptr, sizeBits.toNat⟩, deviceMemory⟩] := by
  unfold provideUntypedCap
  dsimp only
  split_ifs <;> rfl

/-- The last of the untypeds is refused where the ones before it have led. -/
def RefusesLast (ts : List (Tile 64)) (b : UntypedBoot) : Prop :=
  ∃ before t, ts = before ++ [t] ∧
    (provideUntypedCap a rootCnodeCap deviceMemory t.base (BitVec.ofNat 64 t.bits)
      firstUntypedSlot (provideAll a rootCnodeCap deviceMemory firstUntypedSlot before b).1).2 =
        false

/-- All of the untypeds are offered, or those up to the first that is refused. -/
theorem provideAll_offers (ts : List (Tile 64)) (hts : ∀ t ∈ ts, t.bits ≤ 38) (b : UntypedBoot) :
    let r := provideAll a rootCnodeCap deviceMemory firstUntypedSlot ts b
    ∃ offered rest, ts = offered ++ rest ∧
      r.1.offers = b.offers ++ offered.map (⟨·, deviceMemory⟩) ∧
      (r.2 = true → rest = []) ∧
      (r.2 = false → RefusesLast a rootCnodeCap deviceMemory firstUntypedSlot offered b) := by
  induction ts generalizing b with
  | nil => exact ⟨[], [], rfl, (List.append_nil _).symm, fun _ => rfl, nofun⟩
  | cons t ts ih =>
    have hbits : (BitVec.ofNat 64 t.bits).toNat = t.bits := by
      rw [BitVec.toNat_ofNat]
      have := hts t List.mem_cons_self
      omega
    have hoffer := offers_provideUntypedCap a rootCnodeCap deviceMemory firstUntypedSlot t.base
      (BitVec.ofNat 64 t.bits) b
    rw [hbits] at hoffer
    simp only [provideAll, orFail]
    generalize hr : provideUntypedCap a rootCnodeCap deviceMemory t.base (BitVec.ofNat 64 t.bits)
      firstUntypedSlot b = r at hoffer ⊢
    cases hok : r.2 with
    | false =>
      refine ⟨[t], ts, rfl, hoffer, nofun, fun _ => ⟨[], t, rfl, ?_⟩⟩
      exact (congrArg Prod.snd hr).trans hok
    | true =>
      obtain ⟨offered, rest, hsplit, hoffers, hall, hrefused⟩ :=
        ih (fun t' ht' => hts t' (List.mem_cons_of_mem _ ht')) r.1
      refine ⟨t :: offered, rest, congrArg (t :: ·) hsplit, ?_, hall, fun hfalse => ?_⟩
      · rw [if_pos rfl, hoffers, hoffer, List.append_assoc]
        rfl
      · obtain ⟨before, last, hbefore, hlast⟩ := hrefused hfalse
        refine ⟨t :: before, last, congrArg (t :: ·) hbefore, ?_⟩
        rw [provideAll, hr, orFail, if_pos hok]
        exact hlast

end Provide

/-- The untypeds are aligned blocks of the region with a size that is allowed. -/
structure InRegion (reg : Region) (ts : List (Tile 64)) : Prop where
  apart : ts.Pairwise Tile.Apart
  inside : ∀ t ∈ ts, ∀ p, t.Has p → reg.arc.Has p
  aligned : ∀ t ∈ ts, t.Aligned
  sizes : ∀ t ∈ ts, 4 ≤ t.bits ∧ t.bits ≤ 38

/-- The untypeds make up the region but for fragments smaller than 16 bytes. No 16 bytes that
an untyped could hold are lost. -/
structure FillsRegion (reg : Region) (ts : List (Tile 64)) : Prop extends InRegion reg ts where
  fragments : ∃ fs : List (Tile 64), (∀ f ∈ fs, 2 ^ f.bits < 16) ∧
    (∀ t ∈ ts, ∀ f ∈ fs, t.Apart f) ∧
    ∀ p, reg.arc.Has p ↔ (∃ t ∈ ts, t.Has p) ∨ ∃ f ∈ fs, f.Has p
  granules : ∀ p, reg.arc.HasGranule 4 p → ∃ t ∈ ts, t.Has p

theorem mem_untypedTiles : t ∈ untypedTiles reg ↔ t ∈ untypedBlocks reg ∧ 4 ≤ t.bits := by
  rw [untypedTiles, List.mem_filter, decide_eq_true_iff]
  rfl

theorem fillsRegion_untypedTiles (reg : Region) : FillsRegion reg (untypedTiles reg) := by
  have hcut := cut_untypedBlocks reg
  refine ⟨⟨hcut.apart.filter _, ?_, ?_, ?_⟩, ?_, ?_⟩
  · exact fun t ht p hp => (hcut.has_iff p).mpr ⟨t, (mem_untypedTiles.mp ht).1, hp⟩
  · exact fun t ht => hcut.aligned t (mem_untypedTiles.mp ht).1
  · intro t ht
    obtain ⟨hblock, hmin⟩ := mem_untypedTiles.mp ht
    exact ⟨hmin, bits_untypedBlocks reg t hblock⟩
  · -- the fragments are the blocks that are left out
    refine ⟨(untypedBlocks reg).filter fun t => t.bits < 4, ?_, ?_, ?_⟩
    · intro f hf
      have hlt : f.bits < 4 := of_decide_eq_true (List.mem_filter.mp hf).2
      calc 2 ^ f.bits < 2 ^ 4 := Nat.pow_lt_pow_right (by decide) hlt
        _ = 16 := rfl
    · intro t ht f hf
      obtain ⟨hblock, hmin⟩ := mem_untypedTiles.mp ht
      obtain ⟨hfblock, hlt⟩ := List.mem_filter.mp hf
      refine hcut.apart.forall hblock hfblock fun heq => ?_
      have hlt : f.bits < 4 := of_decide_eq_true hlt
      rw [heq] at hmin
      omega
    · intro p
      rw [hcut.has_iff]
      constructor
      · rintro ⟨t, ht, hp⟩
        by_cases hmin : 4 ≤ t.bits
        · exact .inl ⟨t, mem_untypedTiles.mpr ⟨ht, hmin⟩, hp⟩
        · exact .inr ⟨t, List.mem_filter.mpr ⟨ht, decide_eq_true (by omega)⟩, hp⟩
      · rintro (⟨t, ht, hp⟩ | ⟨f, hf, hp⟩)
        · exact ⟨t, (mem_untypedTiles.mp ht).1, hp⟩
        · exact ⟨f, (List.mem_filter.mp hf).1, hp⟩
  · intro p hp
    obtain ⟨t, ht, hmin, htp⟩ := hcut.covers (by decide) p hp
    exact ⟨t, mem_untypedTiles.mpr ⟨ht, hmin⟩, htp⟩

/-! ## Device memory -/

/-- The state has only gained offers with the property. -/
def Adds (P : Offer → Prop) (b b' : UntypedBoot) : Prop :=
  ∃ l, b'.offers = b.offers ++ l ∧ ∀ o ∈ l, P o

section Adds

variable {b : UntypedBoot}

theorem Adds.refl (b : UntypedBoot) : Adds P b b := ⟨[], (List.append_nil _).symm, nofun⟩

theorem Adds.trans (h : Adds P b b') (h' : Adds P b' b'') : Adds P b b'' := by
  obtain ⟨l, hl, hP⟩ := h
  obtain ⟨l', hl', hP'⟩ := h'
  refine ⟨l ++ l', by rw [hl', hl, List.append_assoc], ?_⟩
  simp only [List.mem_append]
  rintro o (ho | ho)
  · exact hP o ho
  · exact hP' o ho

theorem Adds.orFail (h : Adds P b r.1) (hnext : ∀ b, Adds P b (next b).1) :
    Adds P b (orFail r next).1 := by
  unfold Kernel.orFail
  split
  · exact h.trans (hnext r.1)
  · exact h

end Adds

section Device

variable {a} {rootCnodeCap : CapT} {firstUntypedSlot : Word}

/-- An offer of device memory is apart from the reserved regions. -/
def SparesReserved (a : Arch) (reserved : List Region) (o : Offer) : Prop :=
  o.isDevice = true → ∀ r ∈ reserved, ∀ p, o.block.Has p → ¬r.Has (pptrToPaddr a p)

theorem adds_createUntypedsForRegion
    (hP : ∀ t : Tile 64, (∀ p, t.Has p → reg.arc.Has p) → P ⟨t, deviceMemory⟩) (b : UntypedBoot) :
    Adds P b (createUntypedsForRegion a rootCnodeCap deviceMemory firstUntypedSlot reg b).1 := by
  have hfills := fillsRegion_untypedTiles reg
  obtain ⟨offered, rest, hsplit, hoffers, -, -⟩ := provideAll_offers a rootCnodeCap deviceMemory
    firstUntypedSlot (untypedTiles reg) (fun t ht => (hfills.sizes t ht).2) b
  rw [createUntypedsForRegion_eq]
  refine ⟨_, hoffers, ?_⟩
  intro o ho
  obtain ⟨t, ht, rfl⟩ := List.mem_map.mp ho
  exact hP t (hfills.inside t (hsplit ▸ List.mem_append_left rest ht))

theorem adds_gap (h : start ≤ stop) (hgap : ∀ r ∈ all, r.stop ≤ start ∨ stop ≤ r.start)
    (b : UntypedBoot) :
    Adds (SparesReserved a all) b (createUntypedsForRegion a rootCnodeCap true firstUntypedSlot
      (paddrToPptrReg a ⟨start, stop⟩) b).1 := by
  refine adds_createUntypedsForRegion (fun t ht _ r hr p hp hhas => ?_) b
  have hin := ht p hp
  obtain ⟨hstart, hstop⟩ := hhas
  unfold paddrToPptrReg Region.arc Arc.Has Arc.length paddrToPptr at hin
  unfold pptrToPaddr at hstart hstop
  rcases hgap r hr with hle | hle <;> bv_omega

/-- The loop over the reserved regions, of which those before `rs` end at `start`. -/
theorem adds_createDeviceUntypeds (hord : Ordered ((⟨start, start⟩ :: rs).map Region.span))
    (hdone : ∀ r ∈ all, r ∈ rs ∨ r.stop ≤ start) (b : UntypedBoot) :
    Adds (SparesReserved a all) b
      (createDeviceUntypeds a rootCnodeCap firstUntypedSlot start rs b).1 := by
  induction rs generalizing start b with
  | nil =>
    unfold createDeviceUntypeds
    split
    · rename_i hlt
      refine adds_gap (by bv_omega) (fun r hr => .inl ?_) b
      exact (hdone r hr).resolve_left (by simp)
    · exact .refl b
  | cons r rs ih =>
    have hafter : ∀ x ∈ r :: rs, start ≤ x.start := fun x hx =>
      BitVec.le_def.mpr (hord.head_le (List.mem_map_of_mem hx))
    have hr : r.start ≤ r.stop := BitVec.le_def.mpr (hord.tail.le r.span List.mem_cons_self)
    have hrs : ∀ x ∈ rs, r.stop ≤ x.start := fun x hx =>
      BitVec.le_def.mpr (hord.tail.head_le (List.mem_map_of_mem hx))
    have hstart := hafter r List.mem_cons_self
    refine Adds.orFail (adds_gap hstart (fun x hx => ?_) b) fun b => ih ?_ (fun x hx => ?_) b
    · rcases hdone x hx with hin | hle
      · rcases List.mem_cons.mp hin with rfl | hin
        · exact .inr (by bv_omega)
        · have := hrs x hin
          exact .inr (by bv_omega)
      · exact .inl hle
    · refine ⟨fun x hx => ?_, List.pairwise_cons.mpr ⟨fun x hx => ?_, hord.tail.tail.pairwise⟩⟩
      · rcases List.mem_cons.mp hx with rfl | hx
        · exact Nat.le_refl r.stop.toNat
        · exact hord.tail.tail.le x hx
      · exact hord.tail.head_le hx
    · rcases hdone x hx with hin | hle
      · rcases List.mem_cons.mp hin with rfl | hin
        · exact .inr (by bv_omega)
        · exact .inl hin
      · exact .inr (by bv_omega)

/-- What is not device memory is no matter. -/
theorem adds_normal (reg : Region) (b : UntypedBoot) : Adds (SparesReserved a all) b
      (createUntypedsForRegion a rootCnodeCap false firstUntypedSlot reg b).1 :=
  adds_createUntypedsForRegion (fun _ _ hfalse => nomatch hfalse) b

theorem adds_createFreeUntypeds (regs : List Region) (b : UntypedBoot) :
    Adds (SparesReserved a all) b
      (createFreeUntypeds a rootCnodeCap firstUntypedSlot regs b) := by
  induction regs generalizing b with
  | nil => exact .refl b
  | cons reg regs ih => exact (adds_normal reg b).trans (ih _)

theorem adds_createUntypeds (hord : Ordered (b.ndksBoot.reserved.map Region.span)) :
    Adds (SparesReserved a b.ndksBoot.reserved) b
      (createUntypeds a rootCnodeCap bootMemReuseReg b).1 := by
  have hfrom : Ordered ((⟨0, 0⟩ :: b.ndksBoot.reserved).map Region.span) := by
    refine ⟨fun x hx => ?_, List.pairwise_cons.mpr ⟨fun x _ => Nat.zero_le x.lo, hord.pairwise⟩⟩
    rcases List.mem_cons.mp hx with rfl | hx
    · exact Nat.le_refl 0
    · exact hord.le x hx
  refine (adds_createDeviceUntypeds hfrom (fun r hr => .inl hr) b).orFail fun b' => ?_
  refine (adds_normal bootMemReuseReg b').orFail fun b'' => ?_
  exact adds_createFreeUntypeds b''.ndksBoot.freemem
    { b'' with ndksBoot.freemem := b''.ndksBoot.freemem.map fun _ => ⟨0, 0⟩ }

end Device

/-- The loop ends with the untypeds of the region offered, all of them or those up to one that
is refused. Device memory that is offered is apart from what is reserved. -/
theorem createUntypeds_tiles (rootCnodeCap : CapT) :
    (∀ (deviceMemory : Bool) (firstUntypedSlot : Word) (reg : Region) (b : UntypedBoot),
      let r := createUntypedsForRegion a rootCnodeCap deviceMemory firstUntypedSlot reg b
      ∃ offered rest, r.1.offers = b.offers ++ offered.map (⟨·, deviceMemory⟩) ∧
        InRegion reg offered ∧ FillsRegion reg (offered ++ rest) ∧
        (r.2 = true → rest = []) ∧
        (r.2 = false → RefusesLast a rootCnodeCap deviceMemory firstUntypedSlot offered b)) ∧
    ∀ (bootMemReuseReg : Region) (b : UntypedBoot),
      Ordered (b.ndksBoot.reserved.map Region.span) →
      ∃ l, (createUntypeds a rootCnodeCap bootMemReuseReg b).1.offers = b.offers ++ l ∧
        ∀ o ∈ l, SparesReserved a b.ndksBoot.reserved o := by
  refine ⟨fun deviceMemory firstUntypedSlot reg b => ?_, fun reg b hord => adds_createUntypeds hord⟩
  have hfills := fillsRegion_untypedTiles reg
  obtain ⟨offered, rest, hsplit, hoffers, hall, hrefused⟩ := provideAll_offers a rootCnodeCap
    deviceMemory firstUntypedSlot (untypedTiles reg) (fun t ht => (hfills.sizes t ht).2) b
  rw [createUntypedsForRegion_eq]
  rw [hsplit] at hfills
  refine ⟨offered, rest, hoffers, ?_, hfills, hall, hrefused⟩
  have hsub : ∀ t ∈ offered, t ∈ offered ++ rest := fun t ht => List.mem_append_left rest ht
  exact ⟨(List.pairwise_append.mp hfills.apart).1, fun t ht => hfills.inside t (hsub t ht),
    fun t ht => hfills.aligned t (hsub t ht), fun t ht => hfills.sizes t (hsub t ht)⟩

/-- The next slot of the initial CNode, which has 8192 of them, and the regions. -/
def bootAt (slotPosCur : Word) (reserved freemem : List Region) : UntypedBoot where
  slotPosCur := slotPosCur
  slots _ := emptyCte
  ndksBoot := ⟨reserved, freemem⟩
  untypedList _ := ⟨0, 0, 0⟩
  untyped := ⟨0, 0⟩
  offers := []

/-- With no slot left, the first of the two untypeds of 48 bytes is refused and the second is
not offered. -/
theorem createUntypedsForRegion_not_full : ¬ FillsRegion ⟨16, 64⟩
      ((createUntypedsForRegion .riscv64 newNullCap true 8192 ⟨16, 64⟩
        (bootAt 8192 [] [])).1.offers.map Offer.block) := by
  have hsize : untypedSizeBits ⟨16, 64⟩ = 4 := by decide +kernel
  have hrefused : (provideUntypedCap .riscv64 newNullCap true 16 4 8192 (bootAt 8192 [] [])).2 =
      false := by decide +kernel
  have hoffers : (createUntypedsForRegion .riscv64 newNullCap true 8192 ⟨16, 64⟩
      (bootAt 8192 [] [])).1.offers = [⟨⟨16, 4⟩, true⟩] := by
    rw [createUntypedsForRegion, if_neg (by decide)]
    dsimp only
    rw [hsize, if_pos (by decide), orFail, hrefused, if_neg (by decide)]
    exact offers_provideUntypedCap .riscv64 newNullCap true 8192 16 4 (bootAt 8192 [] [])
  rw [hoffers]
  intro hfills
  -- the granule at 32 lies in the region
  have hgranule : (Region.arc ⟨16, 64⟩).HasGranule 4 32 := by
    intro x hx
    have hdiv : x.toNat / 16 = 2 := hx
    show (x - 16).toNat < 48
    bv_omega
  obtain ⟨t, ht, hp⟩ := hfills.granules 32 hgranule
  rcases List.mem_singleton.mp ht with rfl
  exact absurd (show (16 : Nat) < 16 from hp) (by decide)

/-- The kernel image and the objects of the root server are reserved, and memory behind them is
free. -/
theorem createUntypeds_tiles_image :
    ∃ l, (createUntypeds .riscv64 newNullCap ⟨0xffffffc080200000, 0xffffffc080201000⟩
        (bootAt 14 [⟨0x80200000, 0x80400000⟩, ⟨0x84000000, 0x84080000⟩]
          [⟨0xffffffc090000000, 0xffffffc0a0000000⟩])).1.offers = [] ++ l ∧
      ∀ o ∈ l, SparesReserved .riscv64
        [⟨0x80200000, 0x80400000⟩, ⟨0x84000000, 0x84080000⟩] o :=
  (createUntypeds_tiles .riscv64 newNullCap).2 ⟨0xffffffc080200000, 0xffffffc080201000⟩
    (bootAt 14 [⟨0x80200000, 0x80400000⟩, ⟨0x84000000, 0x84080000⟩]
      [⟨0xffffffc090000000, 0xffffffc0a0000000⟩]) ⟨by decide, by decide⟩

end Rel4.Kernel
