import Rel4.CSpace.Lookup
import Rel4.CSpace.MdbOps
import Rel4.Common.Words
import Rel4.Lib.Objects

/-!
The objects that capabilities name.

`same_object_as` compares what `objKey` collects. The memory of the object, or
its number if it has no memory, is the `extent` of the cap, and the slots that
lie in the object are those of `HasSlot`. `CapOK` says what the kernel relies on
about the fields of a cap.
-/

namespace Rel4.CSpace
open Lib.Bitfield Lib.Objects Common
open BitVec (ofNat toNat_add getElem_or getElem_and getElem_not)

variable (a : Arch)

/-- The memory of a frame has `2 ^ frameBits` bytes: `pageBitsForSize` where that returns. -/
def frameBits (size : Word) : Nat :=
  match size.toNat with
  | 1 => largePageBits.toNat
  | 2 => hugePageBits.toNat
  | _ => pageBits.toNat

/-- Where the memory of the object begins, or its number if it has no memory.
The cap of a thread points behind the slots of the thread. -/
def objBase (c : CapT) : Word :=
  match getCapType c with
  | .threadCap => getTcbPtr a c &&& ~~~mask (tcbBits a)
  | .replyCap => getReplyTcbPtr a c
  | .irqHandlerCap => getIrqHandler a c
  | _ => getCapPtr a c

/-- The memory of the object has `2 ^ objBits` bytes. -/
def objBits (c : CapT) : Nat :=
  match getCapType c with
  | .untypedCap => (getUntypedBlockSize a c).toNat
  | .endpointCap => endpointBits.toNat
  | .notificationCap => notificationBits.toNat
  | .cnodeCap => (getCNodeRadix a c).toNat + 5
  | .threadCap => (tcbBits a).toNat
  | .zombieCap =>
    if getZombieType a c = zombieTcb then (tcbBits a).toNat else (getZombieBit a c).toNat + 5
  | .frameCap => frameBits (getFrameSize a c)
  | .pageTableCap | .asidPoolCap => ptSizeBits.toNat
  | _ => 0

/-- Objects without memory of their own are told apart by their number. -/
inductive Space where
  | memory
  | kind (t : CapTag)
  deriving DecidableEq, Repr

def extent (c : CapT) : Extent Space :=
  if getCapIsPhysical c then
    ⟨.memory, (objBase a c).toNat, (objBase a c).toNat + 2 ^ objBits a c⟩
  else ⟨.kind (getCapType c), (objBase a c).toNat, (objBase a c).toNat + 1⟩

/-- What `same_object_as` looks at. -/
structure ObjKey where
  tag : CapTag
  ptr : Word
  size : Word
  device : Word
  deriving DecidableEq, Repr

def objKey (c : CapT) : ObjKey :=
  match getCapType c with
  | .cnodeCap => ⟨.cnodeCap, getCNodePtr a c, getCNodeRadix a c, 0⟩
  | .frameCap => ⟨.frameCap, getFrameBasePtr a c, getFrameSize a c, getFrameIsDevice a c⟩
  | .irqHandlerCap => ⟨.irqHandlerCap, getIrqHandler a c, 0, 0⟩
  | .replyCap => ⟨.replyCap, getReplyTcbPtr a c, 0, 0⟩
  | t => ⟨t, getCapPtr a c, 0, 0⟩

/-- The kinds of caps that `same_object_as` can find equal. -/
def CapTag.named : CapTag → Bool
  | .endpointCap | .notificationCap | .cnodeCap | .threadCap | .irqControlCap | .irqHandlerCap
  | .domainCap | .frameCap | .pageTableCap | .vspaceCap | .asidControlCap | .asidPoolCap => true
  | _ => false

theorem CapTag.ne_of_named {t : CapTag} (h : t.named) :
    t ≠ .nullCap ∧ t ≠ .untypedCap ∧ t ≠ .zombieCap := by
  refine ⟨?_, ?_, ?_⟩ <;> rintro rfl <;> cases h

/-- The slots of the object, by number. -/
def slotCount (c : CapT) : Nat :=
  match getCapType c with
  | .cnodeCap => 2 ^ (getCNodeRadix a c).toNat
  | .threadCap => tcbCNodeEntries.toNat
  | .zombieCap => (getZombieNumber a c).toNat
  | _ => 0

/-- `x` is a slot of the object; of a zombie, one that is still to be emptied. -/
def HasSlot (c : CapT) (x : Word) : Prop :=
  ∃ i < slotCount a c, x = offsetSlot (objBase a c) (ofNat 64 i)

/-- `x` is a slot of the table: it holds a cap, or a cap is to the CNode or TCB that it lies in,
so that a deletion may move a cap there. -/
def IsSlot (caps : Word → CapT) (x : Word) : Prop :=
  getCapType (caps x) ≠ .nullCap ∨ ∃ y, HasSlot a (caps y) x

/-- Where no cap is to a CNode or TCB, the slots are those that hold a cap. -/
theorem IsSlot.live {a : Arch} {caps : Word → CapT} {x : Word} (h : IsSlot a caps x)
    (hc : ∀ y, slotCount a (caps y) = 0) : getCapType (caps x) ≠ .nullCap := by
  rcases h with h | ⟨y, j, hj, -⟩
  · exact h
  · rw [hc y] at hj
    exact absurd hj (Nat.not_lt_zero j)

/-- What the kernel relies on about the fields of a cap. -/
structure CapOK (c : CapT) : Prop where
  kind : getCapType c ≠ .nullCap ∧ getCapType c ≠ .undefined
  window : getCapIsPhysical c → pptrBase a ≤ objBase a c
  aligned : getCapIsPhysical c → (objBase a c).toNat % 2 ^ objBits a c = 0
  bits_le : objBits a c ≤ 38
  bits_ge : getCapIsPhysical c → 4 ≤ objBits a c
  free : getCapType c = .untypedCap → 16 * (getUntypedFreeIndex a c).toNat ≤ 2 ^ objBits a c
  thread : getCapType c = .threadCap → getTcbPtr a c = objBase a c + tcbOffset a
  radix : getCapType c = .cnodeCap → 1 ≤ (getCNodeRadix a c).toNat
  slots : 32 * slotCount a c ≤ 2 ^ objBits a c
  zombie : getCapType c = .zombieCap →
    getZombieType a c = zombieTcb ∨ (getZombieType a c).toNat < 64

variable {a} {c c' c1 c2 : CapT}

/-- A cap to memory without slots. -/
theorem CapOK.of_block
    (hk : getCapType c ∉ [.nullCap, .undefined, .threadCap, .cnodeCap, .zombieCap])
    (hw : pptrBase a ≤ objBase a c) (hal : (objBase a c).toNat % 2 ^ objBits a c = 0)
    (hb : 4 ≤ objBits a c ∧ objBits a c ≤ 38) (hfree : getCapType c = .untypedCap →
      16 * (getUntypedFreeIndex a c).toNat ≤ 2 ^ objBits a c) : CapOK a c := by
  simp only [List.mem_cons, List.not_mem_nil, or_false, not_or] at hk
  obtain ⟨h1, h2, h3, h4, h5⟩ := hk
  refine ⟨⟨h1, h2⟩, fun _ => hw, fun _ => hal, hb.2, fun _ => hb.1, hfree, fun e => absurd e h3,
    fun e => absurd e h4, ?_, fun e => absurd e h5⟩
  have hz : slotCount a c = 0 := by simp [slotCount]
  rw [hz]
  exact Nat.zero_le _

/-! ## `same_object_as` -/

@[simp] theorem objKey_tag : (objKey a c).tag = getCapType c := by
  unfold objKey
  split <;> simp_all

theorem capType_eq_of_key (h : objKey a c1 = objKey a c2) : getCapType c1 = getCapType c2 := by
  rw [← objKey_tag, h, objKey_tag]

theorem sameObjectAs_named (h : sameObjectAs a c1 c2 = true) : (getCapType c1).named = true := by
  revert h
  unfold sameObjectAs archSameObjectAs sameRegionAs isArchCap
  cases h1 : getCapType c1 <;> simp [CapTag.named, CapTag.isArch]

/-- On the kinds that name an object, `same_object_as` compares the keys. -/
theorem sameObjectAs_iff (hn : (getCapType c1).named) :
    sameObjectAs a c1 c2 = true ↔ objKey a c1 = objKey a c2 := by
  by_cases ht : getCapType c2 = getCapType c1
  · unfold sameObjectAs archSameObjectAs sameRegionAs isArchCap objKey getCapPtr
    rw [ht]
    cases h1 : getCapType c1 <;> simp [h1, CapTag.named, CapTag.isArch] at hn ⊢
  constructor
  · intro h
    revert h
    unfold sameObjectAs archSameObjectAs sameRegionAs isArchCap
    cases h1 : getCapType c1 <;> simp [h1, CapTag.named, CapTag.isArch] at hn ht ⊢ <;>
      simp [ht]
    exact fun h h' => absurd h' h
  · intro h
    exact absurd (capType_eq_of_key h).symm ht

theorem sameObjectAs_symm (h : sameObjectAs a c1 c2 = true) : sameObjectAs a c2 c1 = true := by
  have hn := sameObjectAs_named h
  have hk := (sameObjectAs_iff hn).mp h
  rw [capType_eq_of_key hk] at hn
  exact (sameObjectAs_iff hn).mpr hk.symm

/-! ## What the key determines -/

section

variable (hk : objKey a c' = objKey a c) (hn : (getCapType c).named)
include hk hn

theorem objBase_of_key : objBase a c' = objBase a c := by
  have ht := capType_eq_of_key hk
  unfold objKey at hk
  unfold objBase
  rw [ht] at hk ⊢
  cases h : getCapType c <;> simp [h, getCapPtr, ht, CapTag.named] at hk hn ⊢ <;>
    simp [hk]

theorem objBits_of_key : objBits a c' = objBits a c := by
  have ht := capType_eq_of_key hk
  unfold objKey at hk
  unfold objBits
  rw [ht] at hk ⊢
  cases h : getCapType c <;> simp [h, CapTag.named] at hk hn ⊢ <;> simp [hk]

theorem slotCount_of_key : slotCount a c' = slotCount a c := by
  have ht := capType_eq_of_key hk
  unfold objKey at hk
  unfold slotCount
  rw [ht] at hk ⊢
  cases h : getCapType c <;> simp [h, CapTag.named] at hk hn ⊢
  simp [hk]

end

theorem physical_of_type (ht : getCapType c' = getCapType c) :
    getCapIsPhysical c' = getCapIsPhysical c := by
  rw [getCapIsPhysical, ht, getCapIsPhysical]

/-- `c'` names what `c` names: it is `c`, or it differs in what its key does not show. -/
def SameTarget (a : Arch) (c c' : CapT) : Prop :=
  c' = c ∨ ((getCapType c).named ∧ objKey a c' = objKey a c)

namespace SameTarget

theorem refl : SameTarget a c c := .inl rfl

theorem trans (h : SameTarget a c1 c2) (h' : SameTarget a c2 c) : SameTarget a c1 c := by
  rcases h with rfl | ⟨hn, hk⟩
  · exact h'
  · rcases h' with rfl | ⟨-, hk'⟩
    · exact .inr ⟨hn, hk⟩
    · exact .inr ⟨hn, hk'.trans hk⟩

section

variable (h : SameTarget a c c')
include h

theorem key_eq : objKey a c' = objKey a c := by
  rcases h with rfl | ⟨-, hk⟩
  · rfl
  · exact hk

theorem capType_eq : getCapType c' = getCapType c := capType_eq_of_key h.key_eq

theorem base_eq : objBase a c' = objBase a c := by
  rcases h with rfl | ⟨hn, hk⟩
  · rfl
  · exact objBase_of_key hk hn

theorem bits_eq : objBits a c' = objBits a c := by
  rcases h with rfl | ⟨hn, hk⟩
  · rfl
  · exact objBits_of_key hk hn

theorem slotCount_eq : slotCount a c' = slotCount a c := by
  rcases h with rfl | ⟨hn, hk⟩
  · rfl
  · exact slotCount_of_key hk hn

theorem extent_eq : extent a c' = extent a c := by
  unfold extent
  rw [h.base_eq, h.bits_eq, physical_of_type h.capType_eq, h.capType_eq]

theorem hasSlot_iff : HasSlot a c' x ↔ HasSlot a c x := by
  unfold HasSlot
  rw [h.slotCount_eq, h.base_eq]

theorem capOK (hc : CapOK a c) : CapOK a c' := by
  have ht := h.capType_eq
  have hk := h.key_eq
  have hb := h.base_eq
  have hz := h.bits_eq
  have hs := h.slotCount_eq
  rcases h with rfl | ⟨hn, -⟩
  · exact hc
  have hp := physical_of_type ht
  obtain ⟨-, hu, hzo⟩ := CapTag.ne_of_named hn
  refine ⟨ht ▸ hc.kind, ?_, ?_, hz ▸ hc.bits_le, ?_, ?_, ?_, ?_, ?_, ?_⟩
  · rw [hp, hb]
    exact hc.window
  · rw [hp, hb, hz]
    exact hc.aligned
  · rw [hp, hz]
    exact hc.bits_ge
  · intro e
    exact absurd (ht ▸ e) hu
  · intro e
    have e' : getCapType c = .threadCap := ht ▸ e
    have hptr : getTcbPtr a c' = getTcbPtr a c := by
      have hk := congrArg ObjKey.ptr hk
      simpa [objKey, e, e', getCapPtr] using hk
    rw [hptr, hb]
    exact hc.thread e'
  · intro e
    have e' : getCapType c = .cnodeCap := ht ▸ e
    have hradix : getCNodeRadix a c' = getCNodeRadix a c := by
      have hk := congrArg ObjKey.size hk
      simpa [objKey, e, e'] using hk
    rw [hradix]
    exact hc.radix e'
  · rw [hs, hz]
    exact hc.slots
  · intro e
    exact absurd (ht ▸ e) hzo

end

end SameTarget

/-! ## Slots of an object -/

namespace CapOK

theorem end_le (hc : CapOK a c) (hp : getCapIsPhysical c) :
    (objBase a c).toNat + 2 ^ objBits a c ≤ 2 ^ 64 := by
  obtain ⟨q, hq⟩ := Nat.dvd_of_mod_eq_zero (hc.aligned hp)
  have hpow : 2 ^ objBits a c * 2 ^ (64 - objBits a c) = 2 ^ 64 := by
    have := hc.bits_le
    rw [← Nat.pow_add]
    congr 1
    omega
  have hlt := (objBase a c).isLt
  rw [hq, ← hpow] at hlt
  have hlt : q + 1 ≤ 2 ^ (64 - objBits a c) := Nat.lt_of_mul_lt_mul_left hlt
  calc (objBase a c).toNat + 2 ^ objBits a c = 2 ^ objBits a c * (q + 1) := by rw [hq, Nat.mul_succ]
    _ ≤ 2 ^ objBits a c * 2 ^ (64 - objBits a c) := Nat.mul_le_mul_left _ hlt
    _ = 2 ^ 64 := hpow

end CapOK

theorem physical_of_slots (hi : i < slotCount a c) : getCapIsPhysical c = true := by
  unfold slotCount at hi
  unfold getCapIsPhysical
  cases h : getCapType c <;> simp [h] at hi ⊢

namespace HasSlot

variable {x : Word}

theorem physical (h : HasSlot a c x) : getCapIsPhysical c = true := by
  obtain ⟨i, hi, -⟩ := h
  exact physical_of_slots hi

section

variable (h : HasSlot a c x) (hc : CapOK a c)
include h hc

/-- The number of a slot gives its address. -/
theorem toNat_eq :
    ∃ i < slotCount a c, x = offsetSlot (objBase a c) (ofNat 64 i) ∧
      x.toNat = (objBase a c).toNat + 32 * i := by
  obtain ⟨i, hi, rfl⟩ := h
  refine ⟨i, hi, rfl, ?_⟩
  have hend := hc.end_le (physical_of_slots hi)
  have hslots := hc.slots
  rw [offsetSlot, toNat_add, BitVec.toNat_mul, BitVec.toNat_ofNat]
  show ((objBase a c).toNat + 32 * (i % 2 ^ 64) % 2 ^ 64) % 2 ^ 64 = _
  omega

theorem within :
    (objBase a c).toNat ≤ x.toNat ∧ x.toNat < (objBase a c).toNat + 2 ^ objBits a c := by
  obtain ⟨i, hi, -, hx⟩ := h.toNat_eq hc
  have := hc.slots
  omega

theorem window : pptrBase a ≤ x := by
  have h1 := hc.window h.physical
  have h2 := (h.within hc).1
  rw [BitVec.le_def] at h1 ⊢
  omega

theorem slotAddr : SlotAddr a x := by
  have hw := h.window hc
  obtain ⟨i, hi, -, hx⟩ := h.toNat_eq hc
  have hbits : 5 ≤ objBits a c := by
    have hs := hc.slots
    by_contra hlt
    have : 2 ^ objBits a c ≤ 2 ^ 4 := Nat.pow_le_pow_right (by decide) (by omega)
    omega
  have hmod : x.toNat % 4 = 0 := by
    obtain ⟨q, hq⟩ := Nat.dvd_of_mod_eq_zero (hc.aligned h.physical)
    have hfour : 2 ^ objBits a c = 4 * 2 ^ (objBits a c - 2) := by
      rw [show (4 : Nat) = 2 ^ 2 from rfl, ← Nat.pow_add]
      congr 1
      omega
    rw [hfour, Nat.mul_assoc] at hq
    omega
  constructor
  · rintro rfl
    revert hw
    cases a <;> decide
  · refine canonical_of_window ?_ ?_ hw ?_
    · cases a <;> rfl
    · cases a <;> rfl
    · have hsh : (Field.mdbNext a).shift = 2 := by cases a <;> rfl
      rw [hsh]
      exact hmod

end

end HasSlot

/-! ## Regions -/

theorem objBase_of_physical (hp : getCapIsPhysical c) (ht : getCapType c ≠ .threadCap) :
    objBase a c = getCapPtr a c := by
  unfold getCapIsPhysical at hp
  unfold objBase
  cases h : getCapType c <;> simp [h] at hp ht ⊢

theorem toNat_tcbOffset : (tcbOffset a).toNat * 2 = 2 ^ (tcbBits a).toNat := by
  cases a <;> decide

/-- `get_cap_size_bits` gives the size of the object or nothing at all. -/
theorem getCapSizeBits_eq (hp : getCapIsPhysical c) : (getCapSizeBits a c).toNat = 0 ∨
      (getCapType c ≠ .threadCap ∧ (getCapSizeBits a c).toNat = objBits a c) := by
  have hradix : (getCNodeRadix a c).toNat < 2 ^ 6 := toNat_get_lt rfl rfl (by decide)
  have hsum : (getCNodeRadix a c + slotBits).toNat = (getCNodeRadix a c).toNat + 5 := by
    rw [toNat_add]
    show ((getCNodeRadix a c).toNat + 5) % 2 ^ 64 = _
    omega
  unfold getCapIsPhysical at hp
  unfold getCapSizeBits objBits
  cases h : getCapType c <;> simp [h] at hp ⊢
  case cnodeCap => exact .inr hsum

namespace CapOK

theorem toNat_tcbPtr (hc : CapOK a c) (ht : getCapType c = .threadCap) :
    (getTcbPtr a c).toNat = (objBase a c).toNat + (tcbOffset a).toNat := by
  have hend := hc.end_le (by simp [getCapIsPhysical, ht])
  have hbits : objBits a c = (tcbBits a).toNat := by simp [objBits, ht]
  have hpos : 0 < (tcbOffset a).toNat := by cases a <;> decide
  rw [hbits, ← toNat_tcbOffset] at hend
  rw [hc.thread ht, toNat_add_of_le hend (by omega)]

/-- The addresses that `same_region_as` compares lie in the memory of the object. -/
theorem region (hc : CapOK a c) (hp : getCapIsPhysical c) :
    (objBase a c).toNat ≤ (getCapPtr a c).toNat ∧
      (getCapPtr a c).toNat ≤ (getCapPtr a c + mask (getCapSizeBits a c)).toNat ∧
      (getCapPtr a c + mask (getCapSizeBits a c)).toNat <
        (objBase a c).toNat + 2 ^ objBits a c := by
  have hend := hc.end_le hp
  have hpos := Nat.two_pow_pos (objBits a c)
  have hmask : (mask (getCapSizeBits a c)).toNat = 2 ^ (getCapSizeBits a c).toNat - 1 := by
    apply toNat_mask
    have := hc.bits_le
    rcases getCapSizeBits_eq (a := a) hp with h | h <;> omega
  by_cases ht : getCapType c = .threadCap
  · have hzero : (getCapSizeBits a c).toNat = 0 := by simp [getCapSizeBits, ht]
    have hbits : objBits a c = (tcbBits a).toNat := by simp [objBits, ht]
    have hptr : getCapPtr a c = getTcbPtr a c := by simp [getCapPtr, ht]
    have hoff := toNat_tcbOffset (a := a)
    have hoff' : 0 < (tcbOffset a).toNat := by cases a <;> decide
    have htcb := hc.toNat_tcbPtr ht
    rw [hzero] at hmask
    rw [hptr, toNat_add, hmask, htcb]
    rw [hbits] at hend hpos ⊢
    omega
  · rw [← objBase_of_physical hp ht]
    have hle : 2 ^ (getCapSizeBits a c).toNat ≤ 2 ^ objBits a c := by
      apply Nat.pow_le_pow_right (by decide)
      rcases getCapSizeBits_eq (a := a) hp with h | h <;> omega
    have hpos' := Nat.two_pow_pos (getCapSizeBits a c).toNat
    rw [toNat_add, hmask]
    omega

end CapOK

/-- `same_region_as` finds every object within an untyped block. -/
theorem sameRegionAs_untyped (h1 : CapOK a c1) (ht : getCapType c1 = .untypedCap)
    (h2 : CapOK a c2) (hp : getCapIsPhysical c2)
    (hlo : (objBase a c1).toNat ≤ (objBase a c2).toNat)
    (hhi : (objBase a c2).toNat + 2 ^ objBits a c2 ≤ (objBase a c1).toNat + 2 ^ objBits a c1) :
    sameRegionAs a c1 c2 = true := by
  have hp1 : getCapIsPhysical c1 = true := by simp [getCapIsPhysical, ht]
  have hend := h1.end_le hp1
  obtain ⟨h3, h4, h5⟩ := h2.region hp
  have hbase : objBase a c1 = getUntypedPtr a c1 := by simp [objBase, ht, getCapPtr]
  have hbits : objBits a c1 = (getUntypedBlockSize a c1).toNat := by simp [objBits, ht]
  have hle := h1.bits_le
  rw [hbase] at hlo hhi hend
  rw [hbits] at hhi hend hle
  have htop : (getUntypedPtr a c1 + mask (getUntypedBlockSize a c1)).toNat =
      (getUntypedPtr a c1).toNat + (2 ^ (getUntypedBlockSize a c1).toNat - 1) := by
    have hpos := Nat.two_pow_pos (getUntypedBlockSize a c1).toNat
    rw [toNat_add, toNat_mask (by omega)]
    omega
  simp only [sameRegionAs, ht, hp, if_true, decide_eq_true_eq, BitVec.le_def, htop]
  omega

/-! ## Zombies -/

section Zombie

variable {number type ptr x : Word}

private theorem merged_high : ((x &&& ~~~m) ||| (y &&& m)) &&& ~~~m = x &&& ~~~m := by
  ext i hi
  simp only [getElem_or, getElem_and, getElem_not]
  cases x[i] <;> cases y[i] <;> cases m[i] <;> rfl

private theorem merged_low : ((x &&& ~~~m) ||| (y &&& m)) &&& m = y &&& m := by
  ext i hi
  simp only [getElem_or, getElem_and, getElem_not]
  cases x[i] <;> cases y[i] <;> cases m[i] <;> rfl

theorem and_mask_of_lt (hn : n.toNat < 64) (h : x.toNat < 2 ^ n.toNat) : x &&& mask n = x := by
  apply BitVec.eq_of_toNat_eq
  rw [toNat_and_mask hn, Nat.mod_eq_of_lt h]

theorem and_not_mask_of_aligned (hn : n.toNat < 64) (h : x.toNat % 2 ^ n.toNat = 0) :
    x &&& ~~~mask n = x := by
  apply BitVec.eq_of_toNat_eq
  rw [toNat_and_not_mask hn, h, Nat.sub_zero]

/-- The low bits of the identifier that hold the number. -/
def zombieBits (type : Word) : Word := if type = zombieTcb then tcbCNodeRadix else type

theorem getZombieBit_eq (ht : type = zombieTcb ∨ type.toNat < 64) (hc : getZombieType a c = type) :
    getZombieBit a c = zombieBits type := by
  rw [getZombieBit, hc, zombieBits]
  split
  · rfl
  next hne =>
    have hlt := ht.resolve_left hne
    exact and_mask_of_lt (by decide) hlt

theorem zombieBits_lt (ht : type = zombieTcb ∨ type.toNat < 63) :
    (zombieBits type + 1).toNat < 64 ∧ (zombieBits type + 1).toNat = (zombieBits type).toNat + 1 := by
  have h : (zombieBits type).toNat < 63 := by
    rw [zombieBits]
    split
    · decide
    next hne => exact ht.resolve_left hne
  have h' : (zombieBits type + 1).toNat = (zombieBits type).toNat + 1 := by
    rw [toNat_add]
    show ((zombieBits type).toNat + 1) % 2 ^ 64 = _
    omega
  omega

theorem capType_zombieNew : getCapType (zombieNew number type ptr) = .zombieCap := by
  rw [getCapType, zombieNew, newZombieCap, stored_build (i := 2) rfl rfl]
  decide

theorem getZombieId_zombieNew : getZombieId a (zombieNew number type ptr) =
      (ptr &&& ~~~mask (zombieBits type + 1)) ||| (number &&& mask (zombieBits type + 1)) := by
  rw [getZombieId, zombieNew, zombieBits]
  refine get_build (i := 0) rfl ?_ (canonical_of_full rfl rfl rfl)
  split <;> rfl

/-- A new zombie has the pointer and the number it was made from. -/
theorem zombieNew_fields (ht : type = zombieTcb ∨ type.toNat < 63)
    (hptr : ptr.toNat % 2 ^ ((zombieBits type).toNat + 1) = 0)
    (hn : number.toNat < 2 ^ ((zombieBits type).toNat + 1)) :
    getZombieType a (zombieNew number type ptr) = type ∧
      getZombieBit a (zombieNew number type ptr) = zombieBits type ∧
      getZombiePtr a (zombieNew number type ptr) = ptr ∧
      getZombieNumber a (zombieNew number type ptr) = number := by
  have hlt : type.toNat < 128 := by
    rcases ht with rfl | ht
    · decide
    · omega
  obtain ⟨hb, hb'⟩ := zombieBits_lt ht
  have htype : getZombieType a (zombieNew number type ptr) = type :=
    get_build (i := 1) rfl rfl (canonical_of_lt rfl rfl (by decide) hlt)
  have hbit := getZombieBit_eq (ht.imp_right fun h => by omega) htype
  refine ⟨htype, hbit, ?_, ?_⟩
  · rw [getZombiePtr, hbit, getZombieId_zombieNew, merged_high]
    exact and_not_mask_of_aligned hb (hb' ▸ hptr)
  · rw [getZombieNumber, hbit, getZombieId_zombieNew, merged_low]
    exact and_mask_of_lt hb (hb' ▸ hn)

theorem capType_setZombieNumber : getCapType (setZombieNumber a c number) = getCapType c := by
  rw [getCapType, setZombieNumber, stored_set_of_disjoint (by decide), getCapType]

theorem getZombieType_setZombieNumber :
    getZombieType a (setZombieNumber a c number) = getZombieType a c :=
  get_set_of_disjoint (by decide)

theorem getZombieBit_setZombieNumber :
    getZombieBit a (setZombieNumber a c number) = getZombieBit a c := by
  rw [getZombieBit, getZombieType_setZombieNumber, getZombieBit]

theorem getZombieId_setZombieNumber : getZombieId a (setZombieNumber a c number) =
      (getZombieId a c &&& ~~~mask (getZombieBit a c + 1)) |||
        (number &&& mask (getZombieBit a c + 1)) :=
  get_set_self (by decide) (canonical_of_full rfl rfl rfl)

theorem getZombiePtr_setZombieNumber :
    getZombiePtr a (setZombieNumber a c number) = getZombiePtr a c := by
  rw [getZombiePtr, getZombieBit_setZombieNumber, getZombieId_setZombieNumber, merged_high,
    getZombiePtr]

theorem getZombieNumber_setZombieNumber :
    getZombieNumber a (setZombieNumber a c number) = number &&& mask (getZombieBit a c + 1) := by
  rw [getZombieNumber, getZombieBit_setZombieNumber, getZombieId_setZombieNumber, merged_low]

theorem toNat_getZombieNumber_lt (hb : (getZombieBit a c + 1).toNat < 64) :
    (getZombieNumber a c).toNat < 2 ^ (getZombieBit a c + 1).toNat := by
  rw [getZombieNumber, toNat_and_mask hb]
  exact Nat.mod_lt _ (Nat.two_pow_pos _)

section

variable (ht : getCapType c = .zombieCap)
include ht

theorem objBase_zombie : objBase a c = getZombiePtr a c := by
  simp [objBase, ht, getCapPtr]

theorem objKey_zombie : objKey a c = ⟨.zombieCap, objBase a c, 0, 0⟩ := by
  simp [objKey, objBase, ht]

theorem slotCount_zombie : slotCount a c = (getZombieNumber a c).toNat := by
  simp [slotCount, ht]

theorem objBits_zombie : objBits a c = if getZombieType a c = zombieTcb then (tcbBits a).toNat
    else (getZombieBit a c).toNat + 5 := by
  simp [objBits, ht]

end

theorem toNat_tcbBits : (tcbBits a).toNat = 10 ∨ (tcbBits a).toNat = 11 := by
  cases a
  · exact .inl rfl
  · exact .inr rfl

theorem capOK_of_zombie (hz : getCapType c = .zombieCap) (hw : pptrBase a ≤ objBase a c)
    (hal : (objBase a c).toNat % 2 ^ objBits a c = 0) (hle : objBits a c ≤ 38)
    (hge : 4 ≤ objBits a c) (hs : 32 * slotCount a c ≤ 2 ^ objBits a c)
    (ht : getZombieType a c = zombieTcb ∨ (getZombieType a c).toNat < 64) : CapOK a c := by
  refine ⟨?_, fun _ => hw, fun _ => hal, hle, fun _ => hge, ?_, ?_, ?_, hs, fun _ => ht⟩ <;>
    rw [hz]
  · decide
  all_goals exact fun h => absurd h (by decide)

/-- A zombie that stands for an object. -/
theorem capOK_zombieNew (number : Word) (ht : type = zombieTcb ∨ type.toNat ≤ 33)
    (hbits : bits = if type = zombieTcb then (tcbBits a).toNat else type.toNat + 5)
    (hw : pptrBase a ≤ ptr) (hal : ptr.toNat % 2 ^ bits = 0)
    (hn : number.toNat < 2 ^ ((zombieBits type).toNat + 1)) (hs : 32 * number.toNat ≤ 2 ^ bits) :
    CapOK a (zombieNew number type ptr) ∧ objBase a (zombieNew number type ptr) = ptr ∧
      objBits a (zombieNew number type ptr) = bits ∧
      slotCount a (zombieNew number type ptr) = number.toNat := by
  have htcb := toNat_tcbBits (a := a)
  have hle : (zombieBits type).toNat + 1 ≤ bits ∧ 5 ≤ bits ∧ bits ≤ 38 := by
    rw [hbits, zombieBits]
    split
    · have : tcbCNodeRadix.toNat = 4 := rfl
      omega
    next hne =>
      have := ht.resolve_left hne
      omega
  have hptr : ptr.toNat % 2 ^ ((zombieBits type).toNat + 1) = 0 :=
    Nat.mod_eq_zero_of_dvd ((Nat.pow_dvd_pow 2 hle.1).trans (Nat.dvd_of_mod_eq_zero hal))
  obtain ⟨h1, h2, h3, h4⟩ := zombieNew_fields (ht.imp_right fun h => by omega) hptr hn
  have hz : getCapType (zombieNew number type ptr) = .zombieCap := capType_zombieNew
  have hbase := (objBase_zombie hz).trans h3
  have hcount : slotCount a (zombieNew number type ptr) = number.toNat := by
    rw [slotCount_zombie hz, h4]
  have hobj : objBits a (zombieNew number type ptr) = bits := by
    rw [objBits_zombie hz, h1, h2, hbits, zombieBits]
    split <;> rfl
  refine ⟨capOK_of_zombie hz ?_ ?_ ?_ ?_ ?_ ?_, hbase, hobj, hcount⟩
  · rw [hbase]
    exact hw
  · rw [hbase, hobj]
    exact hal
  · rw [hobj]
    exact hle.2.2
  · rw [hobj]
    omega
  · rw [hcount, hobj]
    exact hs
  · rw [h1]
    exact ht.imp_right fun h => by omega

/-- `z` is the zombie of the object of `c`, with all of its slots. -/
structure ZombieOf (a : Arch) (c z : CapT) : Prop where
  ok : CapOK a z
  isZombie : getCapType z = .zombieCap
  base_eq : objBase a z = objBase a c
  bits_eq : objBits a z = objBits a c
  slotCount_eq : slotCount a z = slotCount a c

theorem objBits_cnode (ht : getCapType c = .cnodeCap) :
    objBits a c = (getCNodeRadix a c).toNat + 5 := by
  simp [objBits, ht]

theorem objBase_cnode (ht : getCapType c = .cnodeCap) : objBase a c = getCNodePtr a c := by
  simp [objBase, ht, getCapPtr]

theorem objBase_thread (ht : getCapType c = .threadCap) :
    objBase a c = getTcbPtr a c &&& ~~~mask (tcbBits a) := by
  simp [objBase, ht]

theorem physical_cnode (ht : getCapType c = .cnodeCap) : getCapIsPhysical c = true := by
  simp [getCapIsPhysical, ht]

theorem physical_thread (ht : getCapType c = .threadCap) : getCapIsPhysical c = true := by
  simp [getCapIsPhysical, ht]

theorem physical_zombie (ht : getCapType c = .zombieCap) : getCapIsPhysical c = true := by
  simp [getCapIsPhysical, ht]

namespace CapOK

theorem radix_le (hc : CapOK a c) (ht : getCapType c = .cnodeCap) :
    (getCNodeRadix a c).toNat ≤ 33 := by
  have := hc.bits_le
  rw [objBits_cnode ht] at this
  omega

theorem zombieOf_cnode (hc : CapOK a c) (ht : getCapType c = .cnodeCap) :
    ZombieOf a c (zombieNew (bit (getCNodeRadix a c)) (getCNodeRadix a c) (getCNodePtr a c)) := by
  have hr := hc.radix_le ht
  have hne : getCNodeRadix a c ≠ zombieTcb := by
    intro e
    rw [e] at hr
    revert hr
    decide
  have hp := physical_cnode ht
  have hbits : objBits a c = if getCNodeRadix a c = zombieTcb then (tcbBits a).toNat
      else (getCNodeRadix a c).toNat + 5 := by
    rw [if_neg hne, objBits_cnode ht]
  have hbit := toNat_bit (n := getCNodeRadix a c) (by omega)
  have hw := hc.window hp
  have hal := hc.aligned hp
  rw [objBase_cnode ht] at hw hal
  obtain ⟨h1, h2, h3, h4⟩ := capOK_zombieNew (bit (getCNodeRadix a c)) (.inr hr) hbits hw hal (by
      rw [hbit, zombieBits, if_neg hne, Nat.pow_succ]
      have := Nat.two_pow_pos (getCNodeRadix a c).toNat
      omega) (by
      rw [hbit, objBits_cnode ht, Nat.pow_add]
      omega)
  refine ⟨h1, capType_zombieNew, h2.trans (objBase_cnode ht).symm, h3, ?_⟩
  rw [h4, hbit]
  simp [slotCount, ht]

theorem zombieOf_thread (hc : CapOK a c) (ht : getCapType c = .threadCap) :
    ZombieOf a c (zombieNew tcbCNodeEntries zombieTcb (objBase a c)) := by
  have hp := physical_thread ht
  have hbits : objBits a c = if zombieTcb = zombieTcb then (tcbBits a).toNat
      else zombieTcb.toNat + 5 := by
    simp [objBits, ht]
  obtain ⟨h1, h2, h3, h4⟩ := capOK_zombieNew tcbCNodeEntries (.inl rfl) hbits
    (hc.window hp) (hc.aligned hp) (by decide) (by
      have hs := hc.slots
      simpa [slotCount, ht] using hs)
  refine ⟨h1, capType_zombieNew, h2, h3, ?_⟩
  rw [h4]
  simp [slotCount, ht]

theorem zombieBit_lt (hc : CapOK a c) (ht : getCapType c = .zombieCap) :
    (getZombieBit a c).toNat ≤ 33 ∧ (getZombieBit a c + 1).toNat < 64 := by
  have hle : (getZombieBit a c).toNat ≤ 33 := by
    have hb := hc.bits_le
    rw [objBits_zombie ht] at hb
    split at hb
    next h =>
      rw [getZombieBit, if_pos h]
      decide
    next => omega
  refine ⟨hle, ?_⟩
  rw [toNat_add]
  show ((getZombieBit a c).toNat + 1) % 2 ^ 64 < 64
  omega

/-- A zombie whose last slot has been emptied. -/
theorem zombie_pred (hc : CapOK a c) (ht : getCapType c = .zombieCap)
    (hn : 0 < getZombieNumber a c)
    (hz : z = setZombieNumber a c (getZombieNumber a c - 1)) :
    CapOK a z ∧ getCapType z = .zombieCap ∧ objBase a z = objBase a c ∧
      objBits a z = objBits a c ∧ slotCount a z + 1 = slotCount a c := by
  subst hz
  have hz' : getCapType (setZombieNumber a c (getZombieNumber a c - 1)) = .zombieCap := by
    rw [capType_setZombieNumber, ht]
  have hbase : objBase a (setZombieNumber a c (getZombieNumber a c - 1)) = objBase a c := by
    rw [objBase_zombie hz', objBase_zombie ht, getZombiePtr_setZombieNumber]
  have hbits : objBits a (setZombieNumber a c (getZombieNumber a c - 1)) = objBits a c := by
    rw [objBits_zombie hz', objBits_zombie ht, getZombieType_setZombieNumber,
      getZombieBit_setZombieNumber]
  have hcount : slotCount a (setZombieNumber a c (getZombieNumber a c - 1)) + 1 =
      slotCount a c := by
    have hn' : 0 < (getZombieNumber a c).toNat := hn
    have hbit := (hc.zombieBit_lt ht).2
    have hlt := toNat_getZombieNumber_lt hbit
    have hpred : (getZombieNumber a c - 1).toNat = (getZombieNumber a c).toNat - 1 :=
      BitVec.toNat_sub_of_le (by exact hn)
    rw [slotCount_zombie hz', slotCount_zombie ht, getZombieNumber_setZombieNumber,
      and_mask_of_lt hbit (by omega), hpred]
    omega
  have hp := physical_zombie ht
  refine ⟨capOK_of_zombie hz' ?_ ?_ (hbits ▸ hc.bits_le) ?_ ?_ ?_, hz', hbase, hbits, hcount⟩
  · rw [hbase]
    exact hc.window hp
  · rw [hbase, hbits]
    exact hc.aligned hp
  · rw [hbits]
    exact hc.bits_ge hp
  · have hs := hc.slots
    rw [hbits]
    omega
  · rw [getZombieType_setZombieNumber]
    exact hc.zombie ht

end CapOK

end Zombie

end Rel4.CSpace
