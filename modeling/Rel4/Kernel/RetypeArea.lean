import Rel4.Kernel.Retype
import Rel4.Kernel.CapInv

/-!
The memory that a retype takes, and the caps that it makes.

The area begins at the first multiple of the object size behind the memory that
is in use and ends within the block of the untyped cap; the free index is moved
to its end. Each new cap names its own part of the area.
-/

namespace Rel4.Kernel
open Lib.Bitfield Common CSpace
open BitVec (toNat_add le_def ofNat toNat_sub)

variable {size : Word} {a : Arch} {cap : CapT}

/-! ## Alignment -/

/-- Rounding `f` up to a multiple of `p` leaves room for `k` objects of size `p`
if the end of the block is a multiple of `p`. -/
theorem round_up_fits (hp : 0 < p) (h : f + k * p ≤ m * p) :
    (f + p - 1 - (f + p - 1) % p) % p = 0 ∧ f ≤ f + p - 1 - (f + p - 1) % p ∧
      f + p - 1 - (f + p - 1) % p + k * p ≤ m * p := by
  have hdiv : f + p - 1 - (f + p - 1) % p = (f + p - 1) / p * p := by
    have := Nat.div_add_mod' (f + p - 1) p
    omega
  have hmod : (f + p - 1) % p < p := Nat.mod_lt _ hp
  have hle : f + p - 1 < (m - k + 1) * p := by
    have hkm : k ≤ m := Nat.le_of_mul_le_mul_right (by omega : k * p ≤ m * p) hp
    obtain ⟨d, rfl⟩ := Nat.exists_eq_add_of_le hkm
    rw [Nat.add_mul] at h
    rw [Nat.add_sub_cancel_left, Nat.add_mul]
    omega
  refine ⟨by rw [hdiv]; exact Nat.mul_mod_left _ _, by omega, ?_⟩
  have hq : (f + p - 1) / p ≤ m - k := Nat.lt_succ_iff.mp ((Nat.div_lt_iff_lt_mul hp).mpr hle)
  have hkm : k ≤ m := Nat.le_of_mul_le_mul_right (by omega : k * p ≤ m * p) hp
  calc f + p - 1 - (f + p - 1) % p + k * p = ((f + p - 1) / p + k) * p := by
        rw [hdiv, Nat.add_mul]
    _ ≤ m * p := Nat.mul_le_mul_right p (by omega)

theorem toNat_alignUp (hk : k.toNat < 64) (h : x.toNat + 2 ^ k.toNat ≤ 2 ^ 64) :
    (alignUp x k).toNat =
      x.toNat + 2 ^ k.toNat - 1 - (x.toNat + 2 ^ k.toNat - 1) % 2 ^ k.toNat := by
  have hpos : 0 < 2 ^ k.toNat := Nat.two_pow_pos _
  have hsum : (x + bit k - 1).toNat = x.toNat + 2 ^ k.toNat - 1 := by
    rw [toNat_sub, toNat_add, toNat_bit hk]
    show (2 ^ 64 - 1 + (x.toNat + 2 ^ k.toNat) % 2 ^ 64) % 2 ^ 64 = _
    omega
  rw [alignUp, toNat_and_not_mask hk, hsum]

theorem toNat_freeIndexToOffset (hb : b ≤ 38) (h : 16 * idx.toNat ≤ 2 ^ b) :
    (freeIndexToOffset idx).toNat = 16 * idx.toNat := by
  have : 2 ^ b ≤ 2 ^ 38 := Nat.pow_le_pow_right (by decide) hb
  rw [freeIndexToOffset, BitVec.toNat_shiftLeft, Nat.shiftLeft_eq]
  omega

/-! ## The area -/

/-- The area of `count` objects of `2 ^ bits` bytes that begins at `start`, in
the block of `cap` and above its first `used` bytes. -/
structure Area (a : Arch) (cap : CapT) (used : Nat) (start count bits : Word) : Prop where
  bits_le : bits.toNat ≤ 38
  aligned : start.toNat % 2 ^ bits.toNat = 0
  above : (objBase a cap).toNat + used ≤ start.toNat
  below : start.toNat + count.toNat * 2 ^ bits.toNat ≤ (objBase a cap).toNat + 2 ^ objBits a cap

theorem objBase_untyped (hu : getCapType cap = .untypedCap) :
    objBase a cap = getUntypedPtr a cap := by
  simp [objBase, hu, getCapPtr]

theorem objBits_untyped (hu : getCapType cap = .untypedCap) :
    objBits a cap = (getUntypedBlockSize a cap).toNat := by
  simp [objBits, hu]

/-- The test of the free bytes leaves room for the aligned area. -/
theorem area_of_fits (hc : CapOK a cap) (hu : getCapType cap = .untypedCap)
    (hbits : bits.toNat ≤ 38) (hidx : 16 * idx.toNat ≤ 2 ^ objBits a cap) (hpos : 1 ≤ count.toNat)
    (hfit : ¬ (bit (getUntypedBlockSize a cap) - freeIndexToOffset idx) >>> (bits &&& 63).toNat <
      count) :
    Area a cap (16 * idx.toNat) (alignUp (getFreeRef (getUntypedPtr a cap) idx) bits) count
      bits := by
  have hle := hc.bits_le
  have hal := hc.aligned (physical_untyped hu)
  have hend := hc.end_le (physical_untyped hu)
  have hoff := toNat_freeIndexToOffset hle hidx
  have hbs := objBits_untyped (a := a) hu
  rw [← objBase_untyped hu]
  generalize hbase : objBase a cap = base at *
  -- the free bytes hold `count` objects
  have hfree : (bit (getUntypedBlockSize a cap) - freeIndexToOffset idx).toNat =
      2 ^ objBits a cap - 16 * idx.toNat := by
    have hbit : (bit (getUntypedBlockSize a cap)).toNat = 2 ^ objBits a cap := by
      rw [toNat_bit (by omega), hbs]
    rw [BitVec.toNat_sub_of_le (by rw [le_def, hbit, hoff]; exact hidx), hbit, hoff]
  rw [BitVec.not_lt, le_def, BitVec.toNat_ushiftRight, hfree, Nat.shiftRight_eq_div_pow,
    toNat_and_63 (by omega)] at hfit
  have hroom : count.toNat * 2 ^ bits.toNat ≤ 2 ^ objBits a cap - 16 * idx.toNat :=
    Nat.le_trans (Nat.mul_le_mul_right _ hfit) (Nat.div_mul_le_self _ _)
  have hppos : 0 < 2 ^ bits.toNat := Nat.two_pow_pos _
  have hone : 2 ^ bits.toNat ≤ count.toNat * 2 ^ bits.toNat := Nat.le_mul_of_pos_left _ hpos
  have hble : bits.toNat ≤ objBits a cap := by
    refine (Nat.pow_le_pow_iff_right (by decide : 1 < 2)).mp ?_
    omega
  -- so the end of the block is a multiple of the object size
  obtain ⟨m, hm⟩ : ∃ m, base.toNat + 2 ^ objBits a cap = m * 2 ^ bits.toNat := by
    have hdvd : 2 ^ bits.toNat ∣ 2 ^ objBits a cap := Nat.pow_dvd_pow 2 hble
    obtain ⟨m, hm⟩ := Nat.dvd_add (hdvd.trans (Nat.dvd_of_mod_eq_zero hal)) hdvd
    exact ⟨m, by rw [hm, Nat.mul_comm]⟩
  have href : (getFreeRef base idx).toNat = base.toNat + 16 * idx.toNat := by
    rw [getFreeRef, toNat_add_of_le (by omega) (by omega), hoff]
  have hup := toNat_alignUp (k := bits) (by omega)
    (by rw [href]; omega)
  obtain ⟨h1, h2, h3⟩ := round_up_fits (f := base.toNat + 16 * idx.toNat) (k := count.toNat)
    (m := m) hppos (by omega)
  rw [href] at hup
  refine ⟨hbits, ?_, ?_, ?_⟩
  · rw [hup]
    exact h1
  · rw [hup, hbase]
    exact h2
  · rw [hup, hbase, hm]
    exact h3

namespace Area

variable {count bits : Word}

section

variable (h : Area a cap used start count bits) (hc : CapOK a cap)
  (hu : getCapType cap = .untypedCap)
include h hc hu

theorem end_le : start.toNat + count.toNat * 2 ^ bits.toNat ≤ 2 ^ 64 :=
  Nat.le_trans h.below (hc.end_le (physical_untyped hu))

/-- The new free index is the end of the area. -/
theorem freeIndex (hge : 4 ≤ bits.toNat) :
    (objBase a cap).toNat + 16 * (getFreeIndex (getUntypedPtr a cap)
      (start + count <<< (bits &&& 63).toNat)).toNat =
        start.toNat + count.toNat * 2 ^ bits.toNat := by
  have hle := hc.bits_le
  have hp2 : 2 ^ objBits a cap ≤ 2 ^ 38 := Nat.pow_le_pow_right (by decide) hle
  have h1 := h.above
  have h2 := h.below
  have hbits := h.bits_le
  have hshift : (count <<< (bits &&& 63).toNat).toNat = count.toNat * 2 ^ bits.toNat :=
    toNat_shiftLeft_and (by omega) (by omega)
  -- both ends are multiples of 16
  have hd16 : (16 : Nat) ∣ 2 ^ bits.toNat := Nat.pow_dvd_pow 2 hge
  have hdb : (16 : Nat) ∣ (objBase a cap).toNat :=
    (Nat.pow_dvd_pow 2 (hc.bits_ge (physical_untyped hu))).trans
      (Nat.dvd_of_mod_eq_zero (hc.aligned (physical_untyped hu)))
  have hde : (16 : Nat) ∣ start.toNat + count.toNat * 2 ^ bits.toNat :=
    Nat.dvd_add (hd16.trans (Nat.dvd_of_mod_eq_zero h.aligned)) (Nat.dvd_mul_left_of_dvd hd16 _)
  rw [← objBase_untyped hu, getFreeIndex, BitVec.toNat_ushiftRight, toNat_sub,
    toNat_add, hshift, Nat.shiftRight_eq_div_pow]
  generalize count.toNat * 2 ^ bits.toNat = total at *
  have := (objBase a cap).isLt
  omega

/-- Where the object `i` begins. -/
theorem toNat_object (hi : i < count.toNat) :
    (start + ofNat 64 i <<< (bits &&& 63).toNat).toNat =
      start.toNat + i * 2 ^ bits.toNat := by
  have hend := h.end_le hc hu
  have hbits := h.bits_le
  have hp2 : 2 ^ objBits a cap ≤ 2 ^ 38 := Nat.pow_le_pow_right (by decide) hc.bits_le
  have h1 := h.above
  have h2 := h.below
  have hpos : 0 < 2 ^ bits.toNat := Nat.two_pow_pos _
  have hmul : (i + 1) * 2 ^ bits.toNat ≤ count.toNat * 2 ^ bits.toNat := Nat.mul_le_mul_right _ hi
  rw [Nat.succ_mul] at hmul
  have hcount := count.isLt
  have hof : (ofNat 64 i).toNat = i := by
    rw [BitVec.toNat_ofNat]
    omega
  rw [toNat_add, toNat_shiftLeft_and (by omega) (by rw [hof]; omega), hof]
  omega

end

end Area

/-! ## The new caps -/

/-- What the decoder checks about the type and the size of the objects. -/
structure SizeOK (a : Arch) (t : ObjectType) (userSize : Word) : Prop where
  admitted : t.admitted a
  user : userSize.toNat < 64
  le : (t.getObjectSize a userSize).toNat ≤ 38
  capTable : t = .capTable → userSize ≠ 0
  untyped : t = .untyped → 4 ≤ userSize.toNat

/-- The kind of cap that names an object of this type. -/
def objectTag : ObjectType → CapTag
  | .untyped => .untypedCap
  | .tcb => .threadCap
  | .endpoint => .endpointCap
  | .notification => .notificationCap
  | .capTable => .cnodeCap
  | .pageTable | .armPageTable => .pageTableCap
  | .armVSpace => .vspaceCap
  | .gigaPage | .normalPage | .megaPage | .armHugePage | .armSmallPage | .armLargePage => .frameCap

section ObjectCap

variable {t : ObjectType} {base userSize d : Word}

/-- A pointer field without a shift holds every address of the kernel window. -/
theorem canonical_pointer {f : Field 2} (hs : f.signExt = true) (hsh : f.shift = 0)
    (hb : f.bits = (signExt a).bit + 1) (h : pptrBase a ≤ base) : f.Canonical (signExt a) base := by
  refine canonical_of_window hs ?_ h ?_
  · omega
  · rw [hsh]
    exact Nat.mod_one _

theorem getCapType_newFrameCap :
    getCapType (newFrameCap a asid base size rights d address) = .frameCap := by
  have htag : CapTag.ofWord (Field.capType.raw CapTag.frameCap.toWord) = .frameCap := by decide
  cases a with
  | riscv64 => exact (congrArg CapTag.ofWord (stored_build (i := 6) rfl rfl)).trans htag
  | aarch64 => exact (congrArg CapTag.ofWord (stored_build (i := 6) rfl rfl)).trans htag

/-- Reading a frame cap back. -/
theorem newFrameCap_fields (hw : pptrBase a ≤ base) (hs : size.toNat < 4) (hd : d.toNat < 2) :
    getFrameBasePtr a (newFrameCap a asid base size rights d address) = base ∧
      getFrameSize a (newFrameCap a asid base size rights d address) = size ∧
      getFrameIsDevice a (newFrameCap a asid base size rights d address) = d := by
  have hbase : (Field.frameBasePtr a).Canonical (signExt a) base := by
    cases a <;> exact canonical_pointer rfl rfl rfl hw
  have hsize : Field.frameSize.Canonical (signExt a) size := canonical_of_lt rfl rfl (by decide) hs
  have hdev : (Field.frameIsDevice a).Canonical (signExt a) d := by
    cases a <;> exact canonical_of_lt rfl rfl (by decide) hd
  cases a with
  | riscv64 =>
    exact ⟨get_build (i := 1) rfl rfl hbase, get_build (i := 2) rfl rfl hsize,
      get_build (i := 4) rfl rfl hdev⟩
  | aarch64 =>
    exact ⟨get_build (i := 5) rfl rfl hbase, get_build (i := 3) rfl rfl hsize,
      get_build (i := 0) rfl rfl hdev⟩

theorem getCapType_objectCap : getCapType (objectCap a t base userSize d) = objectTag t := by
  cases t <;> simp only [objectCap, objectTag]
  case untyped => rw [getCapType, newUntypedCap, stored_build (i := 4) rfl rfl]; decide
  case tcb => rw [getCapType, newThreadCap, stored_build (i := 1) rfl rfl]; decide
  case endpoint => rw [getCapType, newEndpointCap, stored_build (i := 6) rfl rfl]; decide
  case notification => rw [getCapType, newNotificationCap, stored_build (i := 4) rfl rfl]; decide
  case capTable => rw [getCapType, newCNodeCap, stored_build (i := 4) rfl rfl]; decide
  case pageTable => rw [getCapType, newPageTableCap, stored_build (i := 4) rfl rfl]; decide
  case armPageTable => rw [getCapType, newPageTableCap, stored_build (i := 4) rfl rfl]; decide
  case armVSpace => rw [getCapType, newVspaceCap, stored_build (i := 3) rfl rfl]; decide
  all_goals exact getCapType_newFrameCap

/-- Reading an untyped cap back. -/
theorem newUntypedCap_fields (hw : pptrBase a ≤ base) (hs : size.toNat < 64) (hd : d.toNat < 2) :
    getUntypedPtr a (newUntypedCap a 0 d size base) = base ∧
      getUntypedBlockSize a (newUntypedCap a 0 d size base) = size ∧
      getUntypedFreeIndex a (newUntypedCap a 0 d size base) = 0 ∧
      getUntypedIsDevice a (newUntypedCap a 0 d size base) = d := by
  have hptr : (Field.untypedPtr a).Canonical (signExt a) base := by
    cases a <;> exact canonical_pointer rfl rfl rfl hw
  have hfree : (Field.untypedFreeIndex a).Canonical (signExt a) 0 := by
    cases a <;> exact canonical_of_lt rfl rfl (by decide) (by decide)
  exact ⟨get_build (i := 3) rfl rfl hptr,
    get_build (i := 2) rfl rfl (canonical_of_lt rfl rfl (by decide) hs),
    get_build (i := 0) rfl rfl hfree,
    get_build (i := 1) rfl rfl (canonical_of_lt rfl rfl (by decide) hd)⟩

/-- Reading a CNode cap back. -/
theorem newCNodeCap_fields (hw : pptrBase a ≤ base) (hr : radix.toNat < 64)
    (hal : base.toNat % 2 = 0) :
    getCNodePtr a (newCNodeCap a radix 0 0 base) = base ∧
      getCNodeRadix a (newCNodeCap a radix 0 0 base) = radix := by
  have hptr : (Field.cnodePtr a).Canonical (signExt a) base := by
    cases a <;> exact canonical_of_window rfl (by decide) hw hal
  exact ⟨get_build (i := 3) rfl rfl hptr,
    get_build (i := 0) rfl rfl (canonical_of_lt rfl rfl (by decide) hr)⟩

theorem SizeOK.four_le (h : SizeOK a t userSize) : 4 ≤ (t.getObjectSize a userSize).toNat := by
  have hu := h.user
  have h1 := h.untyped
  cases t <;> simp only [ObjectType.getObjectSize]
  case untyped => exact h1 rfl
  case tcb => cases a <;> decide
  case capTable =>
    rw [toNat_add]
    show 4 ≤ (5 + userSize.toNat) % 2 ^ 64
    omega
  all_goals decide

/-- A thread cap points into the upper half of its object. -/
theorem tcbPtr_and_not_mask (hal : base.toNat % 2 ^ (tcbBits a).toNat = 0) :
    (base + tcbOffset a) &&& ~~~mask (tcbBits a) = base := by
  have hb := base.isLt
  have hmask : (tcbBits a).toNat < 64 := by cases a <;> decide
  apply BitVec.eq_of_toNat_eq
  rw [toNat_and_not_mask hmask, toNat_add]
  cases a with
  | riscv64 =>
    have hal : base.toNat % 1024 = 0 := hal
    show (base.toNat + 512) % 2 ^ 64 - (base.toNat + 512) % 2 ^ 64 % 1024 = base.toNat
    omega
  | aarch64 =>
    have hal : base.toNat % 2048 = 0 := hal
    show (base.toNat + 1024) % 2 ^ 64 - (base.toNat + 1024) % 2 ^ 64 % 2048 = base.toNat
    omega

theorem objectCap_frame (hf : t.isFrame) : objectCap a t base userSize d =
    newFrameCap a 0 base (getFrameType t) (vmReadWrite a) d 0 := by
  cases t <;> first | rfl | cases hf

theorem objectTag_frame (hf : t.isFrame) : objectTag t = .frameCap := by
  cases t <;> first | rfl | cases hf

theorem objectCap_frame_fields (hf : t.isFrame) (hw : pptrBase a ≤ base) (hd : d.toNat < 2) :
    getFrameBasePtr a (objectCap a t base userSize d) = base ∧
      frameBits (getFrameSize a (objectCap a t base userSize d)) =
        (t.getObjectSize a userSize).toNat ∧
      getFrameIsDevice a (objectCap a t base userSize d) = d := by
  have hs : (getFrameType t).toNat < 4 := by
    cases t <;> decide
  have hbits : frameBits (getFrameType t) = (t.getObjectSize a userSize).toNat := by
    cases t <;> first | rfl | cases hf
  obtain ⟨h1, h2, h3⟩ := newFrameCap_fields hw hs hd
  rw [objectCap_frame hf, h1, h2, h3]
  exact ⟨rfl, hbits, rfl⟩

theorem getTcbPtr_objectCap (hw : pptrBase a ≤ base)
    (hal : base.toNat % 2 ^ (tcbBits a).toNat = 0) :
    getTcbPtr a (objectCap a .tcb base userSize d) = base + tcbOffset a := by
  refine get_build (i := 0) rfl rfl ?_
  have hb := base.isLt
  have hle : pptrBase a ≤ base + tcbOffset a := by
    rw [le_def] at hw ⊢
    rw [toNat_add]
    cases a with
    | riscv64 =>
      have hal : base.toNat % 1024 = 0 := hal
      show _ ≤ (base.toNat + 512) % 2 ^ 64
      omega
    | aarch64 =>
      have hal : base.toNat % 2048 = 0 := hal
      show _ ≤ (base.toNat + 1024) % 2 ^ 64
      omega
  cases a <;> exact canonical_pointer rfl rfl rfl hle

theorem objectCap_capTable_fields (h : SizeOK a .capTable userSize) (hw : pptrBase a ≤ base)
    (hal : base.toNat % 2 ^ (ObjectType.capTable.getObjectSize a userSize).toNat = 0) :
    getCNodePtr a (objectCap a .capTable base userSize d) = base ∧
      getCNodeRadix a (objectCap a .capTable base userSize d) = userSize := by
  refine newCNodeCap_fields hw h.user ?_
  have hdvd : 2 ^ 1 ∣ 2 ^ (ObjectType.capTable.getObjectSize a userSize).toNat :=
    Nat.pow_dvd_pow 2 (Nat.le_trans (by decide) h.four_le)
  exact Nat.mod_eq_zero_of_dvd (hdvd.trans (Nat.dvd_of_mod_eq_zero hal))

theorem SizeOK.capTable_bits (h : SizeOK a .capTable userSize) :
    (ObjectType.capTable.getObjectSize a userSize).toNat = userSize.toNat + 5 := by
  have := h.user
  show (slotBits + userSize).toNat = _
  rw [toNat_add]
  show (5 + userSize.toNat) % 2 ^ 64 = _
  omega

section

variable (h : SizeOK a t userSize) (hvs : t ≠ .armVSpace) (hw : pptrBase a ≤ base)
  (hal : base.toNat % 2 ^ (t.getObjectSize a userSize).toNat = 0) (hd : d.toNat < 2)
include h hvs hw hal hd

/-- The object of a new cap has the memory that the retype gives it. -/
theorem objectCap_object : objBase a (objectCap a t base userSize d) = base ∧
      objBits a (objectCap a t base userSize d) = (t.getObjectSize a userSize).toNat := by
  have htag : getCapType (objectCap a t base userSize d) = objectTag t := getCapType_objectCap
  unfold objBase objBits getCapPtr
  rw [htag]
  by_cases hf : t.isFrame = true
  · obtain ⟨h1, h2, -⟩ := objectCap_frame_fields hf hw hd
    rw [objectTag_frame hf]
    exact ⟨h1, h2⟩
  cases t <;> simp only [objectTag] <;> try exact absurd rfl hf
  case armVSpace => exact absurd rfl hvs
  case untyped =>
    obtain ⟨h1, h2, -⟩ := newUntypedCap_fields hw h.user hd
    exact ⟨h1, congrArg BitVec.toNat h2⟩
  case tcb =>
    rw [getTcbPtr_objectCap hw hal]
    exact ⟨tcbPtr_and_not_mask hal, rfl⟩
  case capTable =>
    obtain ⟨h1, h2⟩ := objectCap_capTable_fields h hw hal
    exact ⟨h1, by rw [h2, h.capTable_bits]⟩
  case endpoint =>
    refine ⟨get_build (i := 5) rfl rfl ?_, rfl⟩
    cases a <;> exact canonical_pointer rfl rfl rfl hw
  case notification =>
    refine ⟨get_build (i := 3) rfl rfl ?_, rfl⟩
    cases a <;> exact canonical_pointer rfl rfl rfl hw
  all_goals
    refine ⟨get_build (i := 1) rfl rfl ?_, rfl⟩
    cases a <;> exact canonical_pointer rfl rfl rfl hw

/-- A new cap keeps what the kernel relies on. -/
theorem objectCap_ok : CapOK a (objectCap a t base userSize d) := by
  obtain ⟨hbase, hbits⟩ := objectCap_object h hvs hw hal hd
  have htag : getCapType (objectCap a t base userSize d) = objectTag t := getCapType_objectCap
  have hge := h.four_le
  constructor
  · rw [htag]
    cases t <;> decide
  · intro _
    rw [hbase]
    exact hw
  · intro _
    rw [hbase, hbits]
    exact hal
  · rw [hbits]
    exact h.le
  · intro _
    rw [hbits]
    exact hge
  · intro hu
    obtain rfl : t = .untyped := by
      rw [htag] at hu
      cases t <;> first | rfl | cases hu
    obtain ⟨-, -, h3, -⟩ := newUntypedCap_fields hw h.user hd
    have h3 : getUntypedFreeIndex a (objectCap a .untyped base userSize d) = 0 := h3
    rw [h3]
    exact Nat.zero_le _
  · intro ht
    obtain rfl : t = .tcb := by
      rw [htag] at ht
      cases t <;> first | rfl | cases ht
    rw [getTcbPtr_objectCap hw hal, hbase]
  · intro ht
    obtain rfl : t = .capTable := by
      rw [htag] at ht
      cases t <;> first | rfl | cases ht
    rw [(objectCap_capTable_fields h hw hal).2]
    have hne : userSize.toNat ≠ 0 := fun e => h.capTable rfl (BitVec.eq_of_toNat_eq e)
    omega
  · rw [hbits]
    unfold slotCount
    rw [htag]
    cases t <;> simp only [objectTag] <;> try exact Nat.zero_le _
    case tcb =>
      show 32 * tcbCNodeEntries.toNat ≤ 2 ^ (tcbBits a).toNat
      cases a <;> decide
    case capTable =>
      rw [(objectCap_capTable_fields h hw hal).2, h.capTable_bits, Nat.pow_add]
      omega
  · intro hz
    rw [htag] at hz
    cases t <;> cases hz

end

theorem objectCap_physical (hvs : t ≠ .armVSpace) :
    getCapIsPhysical (objectCap a t base userSize d) = true := by
  rw [getCapIsPhysical, getCapType_objectCap]
  cases t <;> first | rfl | exact absurd rfl hvs

theorem objectCap_ne_zombie : getCapType (objectCap a t base userSize d) ≠ .zombieCap := by
  rw [getCapType_objectCap]
  cases t <;> decide

end ObjectCap

end Rel4.Kernel
