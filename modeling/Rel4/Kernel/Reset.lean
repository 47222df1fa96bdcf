import Rel4.Kernel.RetypeSteps

/-!
Resetting an untyped cap, in bytes.

`reset_untyped_cap` clears the memory of a block by calls of `clear_memory`, either
once for the whole block or in chunks of 256 bytes from the free index down. Which
bytes that are is read off the list of calls; the test which way to go is wrong for
small blocks and for device memory, and the loop leaves a free index below zero.
-/

namespace Rel4.Kernel
open Lib.Bitfield Common CSpace Rel4.Task
open BitVec (ofNat toNat_ofNat eq_of_toNat_eq)

variable {n : Nat} {base : Word} {a : Arch} {s : KernelState} {slot p : Word} {cap : CapT}

/-! ## The calls of `clear_memory` -/

/-- The bytes of the memory. -/
abbrev Bytes := Word → BitVec 8

/-- A call of `clear_memory` with its arguments. -/
structure Clear where
  ptr : Word
  bits : Word
  deriving DecidableEq, Repr

/-- The call writes the byte at `p`. -/
def Clear.writes (c : Clear) (p : Word) : Bool := p - c.ptr < bit c.bits

def Clear.apply (c : Clear) (m : Bytes) : Bytes := fun p => if c.writes p then 0 else m p

/-- The part of the block that is in use. -/
def usedOffset (a : Arch) (cap : CapT) : Word := freeIndexToOffset (getUntypedFreeIndex a cap)

/-- The number of chunks up to an offset that is not zero. -/
def chunksOf (offset : Word) : Nat := ((offset - 1) >>> 8).toNat + 1

/-- The chunks of a block below `n`, the last first. -/
def chunkClears (base : Word) : Nat → List Clear
  | 0 => []
  | n + 1 => ⟨base + ofNat 64 n * bit resetChunkBits, resetChunkBits⟩ :: chunkClears base n

/-- The test for clearing the block at once. -/
def WholeBlock (a : Arch) (cap : CapT) : Prop :=
  getFrameIsDevice a cap ≠ 0 ∧ getUntypedBlockSize a cap < resetChunkBits

instance : Decidable (WholeBlock a cap) := inferInstanceAs (Decidable (_ ∧ _))

/-- The calls that `reset_untyped_cap` makes. -/
def resetClears (a : Arch) (cap : CapT) : List Clear :=
  if usedOffset a cap = 0 then []
  else if WholeBlock a cap then
    [⟨getUntypedPtr a cap, getUntypedBlockSize a cap⟩]
  else chunkClears (getUntypedPtr a cap) (chunksOf (usedOffset a cap))

/-- The free index that it writes, if it writes one. -/
def resetIndex (a : Arch) (cap : CapT) : Option Word :=
  if usedOffset a cap = 0 then none
  else if WholeBlock a cap then some 0
  else some (offsetToFreeIndex (-bit resetChunkBits))

/-- The bytes after the calls. -/
def resetBytes (a : Arch) (cap : CapT) (m : Bytes) : Bytes :=
  (resetClears a cap).foldl (fun m c => c.apply m) m

/-- The reset writes the byte at `p`. -/
def resetWrites (a : Arch) (cap : CapT) (p : Word) : Bool :=
  (resetClears a cap).any fun c => c.writes p

theorem clearChunks_eq_foldl (n : Nat) : ∀ s : KernelState, clearChunks s base n =
      (chunkClears base n).foldl (fun s c => clearMemory s c.ptr c.bits) s := by
  induction n with
  | zero => exact fun _ => rfl
  | succ n ih => exact fun s => ih _

/-- On the objects of the kernel the reset is these calls, and the write of the index. -/
theorem resetUntypedCap_eq (s : KernelState) (slot : Word) :
    resetUntypedCap a s slot = match resetIndex a (s.ctes slot).cap with
      | none => s
      | some i => setFreeIndex a
          ((resetClears a (s.ctes slot).cap).foldl (fun s c => clearMemory s c.ptr c.bits) s)
          slot i := by
  unfold resetUntypedCap resetIndex resetClears
  by_cases hzero : usedOffset a (s.ctes slot).cap = 0
  · simp only [if_pos hzero]
    exact if_pos hzero
  simp only [if_neg hzero]
  refine (if_neg hzero).trans ?_
  by_cases hwhole : WholeBlock a (s.ctes slot).cap
  · simp only [if_pos hwhole]
    exact if_pos hwhole
  · simp only [if_neg hwhole, clearChunks_eq_foldl]
    exact if_neg hwhole

theorem foldl_apply (l : List Clear) (m : Bytes) (p : Word) :
    l.foldl (fun m c => c.apply m) m p = if l.any (fun c => c.writes p) then 0 else m p := by
  induction l generalizing m with
  | nil => rfl
  | cons c l ih =>
    rw [List.foldl_cons, ih, List.any_cons]
    by_cases hl : l.any (fun c => c.writes p) = true
    · simp [hl]
    · simp only [hl, Bool.false_eq_true, if_false, Bool.or_false, Clear.apply]

/-! ## Which bytes are written -/

theorem chunk_writes (hn : 256 * (n + 1) ≤ 2 ^ 64) (p : Word) :
    Clear.writes ⟨base + ofNat 64 n * bit resetChunkBits, resetChunkBits⟩ p = true ↔
      256 * n ≤ (p - base).toNat ∧ (p - base).toNat < 256 * (n + 1) := by
  have hsize : (bit resetChunkBits).toNat = 256 := by decide
  have hptr : (ofNat 64 n * bit resetChunkBits).toNat = 256 * n := by
    rw [BitVec.toNat_mul, toNat_ofNat, hsize]
    omega
  have hsub : p - (base + ofNat 64 n * bit resetChunkBits) =
      p - base - ofNat 64 n * bit resetChunkBits := by
    generalize ofNat 64 n * bit resetChunkBits = k
    bv_omega
  rw [Clear.writes, decide_eq_true_eq, BitVec.lt_def, hsize, hsub, sub_lt_iff (by omega), hptr]
  exact Iff.rfl

theorem chunkClears_write (hn : 256 * n ≤ 2 ^ 64) (p : Word) :
    (chunkClears base n).any (fun c => c.writes p) = true ↔ (p - base).toNat < 256 * n := by
  induction n with
  | zero => simp [chunkClears]
  | succ n ih =>
    rw [chunkClears, List.any_cons, Bool.or_eq_true, chunk_writes hn, ih (by omega)]
    omega

/-- The chunks reach from the base over the whole part in use, and end less than a
chunk behind it. -/
theorem chunksOf_bounds (h : offset ≠ 0) :
    offset.toNat ≤ 256 * chunksOf offset ∧ 256 * chunksOf offset < offset.toNat + 256 := by
  have hpos : offset.toNat ≠ 0 := fun e => h (eq_of_toNat_eq e)
  have hsub : (offset - 1).toNat = offset.toNat - 1 := by
    rw [BitVec.toNat_sub_of_le (by rw [BitVec.le_def]; exact Nat.one_le_iff_ne_zero.mpr hpos)]
    rfl
  rw [chunksOf, BitVec.toNat_ushiftRight, hsub, Nat.shiftRight_eq_div_pow]
  omega

/-- The offset of a byte in the block. -/
def blockOffset (a : Arch) (cap : CapT) (p : Word) : Nat := (p - getUntypedPtr a cap).toNat

/-- How many bytes from the base on are written. -/
def writtenLength (a : Arch) (cap : CapT) : Nat :=
  if usedOffset a cap = 0 then 0
  else if WholeBlock a cap then 2 ^ (getUntypedBlockSize a cap).toNat
  else 256 * chunksOf (usedOffset a cap)

/-- Untyped caps of the sizes that there are, aligned, with a free index inside. -/
structure UntypedOk (a : Arch) (cap : CapT) : Prop where
  untyped : getCapType cap = .untypedCap
  bits_ge : 4 ≤ (getUntypedBlockSize a cap).toNat
  bits_le : (getUntypedBlockSize a cap).toNat ≤ 38
  aligned : (getUntypedPtr a cap).toNat % 2 ^ (getUntypedBlockSize a cap).toNat = 0
  used_le : (usedOffset a cap).toNat ≤ 2 ^ (getUntypedBlockSize a cap).toNat

theorem UntypedOk.size_le (h : UntypedOk a cap) : 2 ^ (getUntypedBlockSize a cap).toNat ≤ 2 ^ 38 :=
  Nat.pow_le_pow_right (by decide) h.bits_le

theorem resetWrites_iff (h : UntypedOk a cap) (p : Word) :
    resetWrites a cap p = true ↔ blockOffset a cap p < writtenLength a cap := by
  have hbits := h.bits_le
  have hsize := h.size_le
  have hused := h.used_le
  unfold resetWrites resetClears writtenLength
  split
  · exact iff_of_false nofun (Nat.not_lt_zero _)
  rename_i hne
  have hbounds := chunksOf_bounds hne
  split
  · rw [List.any_cons, List.any_nil, Bool.or_false, Clear.writes, decide_eq_true_eq,
      BitVec.lt_def, toNat_bit (Nat.lt_of_le_of_lt hbits (by decide))]
    exact Iff.rfl
  · exact chunkClears_write (by omega) p

theorem used_le_writtenLength (h : UntypedOk a cap) :
    (usedOffset a cap).toNat ≤ writtenLength a cap := by
  unfold writtenLength
  split
  next hzero =>
    rw [hzero]
    exact Nat.le_refl 0
  next hne =>
    split
    · exact h.used_le
    · exact (chunksOf_bounds hne).1

/-! ## Exact resets -/

/-- In memory that is not a device's, the part in use is cleared and nothing outside
the block is written; in a device's, nothing is written. -/
structure MemoryExact (a : Arch) (cap : CapT) : Prop where
  cleared : getUntypedIsDevice a cap = 0 → ∀ m p, blockOffset a cap p < (usedOffset a cap).toNat →
    resetBytes a cap m p = 0
  inside : getUntypedIsDevice a cap = 0 → ∀ p, resetWrites a cap p = true →
    blockOffset a cap p < 2 ^ (getUntypedBlockSize a cap).toNat
  device : getUntypedIsDevice a cap ≠ 0 → ∀ p, resetWrites a cap p = false

/-- Besides, the free index is zero afterwards. -/
structure ResetExact (a : Arch) (s : KernelState) (slot : Word) : Prop where
  freeIndex : getUntypedFreeIndex a ((resetUntypedCap a s slot).ctes slot).cap = 0
  memory : MemoryExact a (s.ctes slot).cap

/-- There is a byte at every offset. -/
theorem blockOffset_add (a : Arch) (cap : CapT) (hk : k < 2 ^ 64) :
    blockOffset a cap (getUntypedPtr a cap + ofNat 64 k) = k := by
  have hsub : getUntypedPtr a cap + ofNat 64 k - getUntypedPtr a cap = ofNat 64 k := by
    generalize ofNat 64 k = w
    bv_omega
  rw [blockOffset, hsub, toNat_ofNat, Nat.mod_eq_of_lt hk]

/-- Only the number of bytes counts. -/
theorem memoryExact_iff_length (h : UntypedOk a cap) : MemoryExact a cap ↔
    (getUntypedIsDevice a cap = 0 →
      writtenLength a cap ≤ 2 ^ (getUntypedBlockSize a cap).toNat) ∧
    (getUntypedIsDevice a cap ≠ 0 → writtenLength a cap = 0) := by
  have hsize := h.size_le
  constructor
  · refine fun hm => ⟨fun hdev => ?_, fun hdev => ?_⟩
    · by_contra hlt
      -- the first byte behind the block
      have hoff := blockOffset_add a cap (by omega : 2 ^ (getUntypedBlockSize a cap).toNat < 2 ^ 64)
      have hin := hm.inside hdev _ ((resetWrites_iff h _).mpr (by rw [hoff]; omega))
      rw [hoff] at hin
      exact Nat.lt_irrefl _ hin
    · by_contra hpos
      have hoff := blockOffset_add a cap (by decide : 0 < 2 ^ 64)
      have hwritten := (resetWrites_iff h _).mpr (by rw [hoff]; omega)
      rw [hm.device hdev] at hwritten
      cases hwritten
  · rintro ⟨hram, hdevice⟩
    refine ⟨fun hdev m p hp => ?_, fun hdev p hp => ?_, fun hdev p => ?_⟩
    · refine (foldl_apply _ m p).trans (if_pos ?_)
      exact (resetWrites_iff h p).mpr (Nat.lt_of_lt_of_le hp (used_le_writtenLength h))
    · exact Nat.lt_of_lt_of_le ((resetWrites_iff h p).mp hp) (hram hdev)
    · rw [← Bool.not_eq_true, resetWrites_iff h, hdevice hdev]
      exact Nat.not_lt_zero _

/-- What is written must be the memory of a block that is no device's, and chunks need
a block of their size. -/
theorem memoryExact_iff (h : UntypedOk a cap) : MemoryExact a cap ↔ usedOffset a cap = 0 ∨
    (getUntypedIsDevice a cap = 0 ∧
      (8 ≤ (getUntypedBlockSize a cap).toNat ∨ WholeBlock a cap)) := by
  rw [memoryExact_iff_length h]
  unfold writtenLength
  by_cases hzero : usedOffset a cap = 0
  · rw [if_pos hzero]
    exact iff_of_true ⟨fun _ => Nat.zero_le _, fun _ => rfl⟩ (.inl hzero)
  rw [if_neg hzero]
  have hbounds := chunksOf_bounds hzero
  have hpos : (usedOffset a cap).toNat ≠ 0 := fun e => hzero (eq_of_toNat_eq e)
  constructor
  · rintro ⟨hram, hdevice⟩
    right
    have hdev : getUntypedIsDevice a cap = 0 := by
      by_contra hdev
      have hlen := hdevice hdev
      split at hlen
      · exact absurd hlen (Nat.ne_of_gt (Nat.two_pow_pos _))
      · omega
    refine ⟨hdev, ?_⟩
    by_contra hnot
    obtain ⟨hsmall, hwhole⟩ := not_or.mp hnot
    have hlen := hram hdev
    rw [if_neg hwhole] at hlen
    have hblock : 2 ^ (getUntypedBlockSize a cap).toNat ≤ 2 ^ 7 :=
      Nat.pow_le_pow_right (by decide) (by omega)
    omega
  · rintro (hzero' | ⟨hdev, hsize⟩)
    · exact absurd hzero' hzero
    · refine ⟨fun _ => ?_, fun hdev' => absurd hdev hdev'⟩
      split
      · exact Nat.le_refl _
      next hwhole => exact chunks_le hzero rfl (hsize.resolve_right hwhole) h.used_le

/-! ## The free index -/

/-- The shift of the free index loses nothing. -/
theorem usedOffset_eq_zero (cap : CapT) : usedOffset a cap = 0 ↔ getUntypedFreeIndex a cap = 0 := by
  have hlt : (getUntypedFreeIndex a cap).toNat < 2 ^ 48 := by
    cases a with
    | riscv64 =>
      exact Nat.lt_trans (toNat_get_lt rfl rfl (by decide)) (by decide)
    | aarch64 =>
      exact toNat_get_lt rfl rfl (by decide)
  have hoff : (usedOffset a cap).toNat = (getUntypedFreeIndex a cap).toNat * 16 := by
    rw [usedOffset, freeIndexToOffset, BitVec.toNat_shiftLeft, Nat.shiftLeft_eq]
    omega
  constructor
  · intro h
    rw [h] at hoff
    refine eq_of_toNat_eq ?_
    have hzero : (0 : Word).toNat = 0 := rfl
    omega
  · intro h
    rw [usedOffset, h]
    rfl

theorem freeIndex_resetUntypedCap :
    getUntypedFreeIndex a ((resetUntypedCap a s slot).ctes slot).cap = 0 ↔
      usedOffset a (s.ctes slot).cap = 0 ∨ WholeBlock a (s.ctes slot).cap := by
  have hset : ∀ (s : KernelState) i, ((setFreeIndex a s slot i).ctes slot).cap =
      setUntypedFreeIndex a (s.ctes slot).cap i := by
    intro s i
    show ((s.ctes.setCap slot _) slot).cap = _
    rw [Slots.cap_setCap, if_pos rfl]
  rw [resetUntypedCap_eq]
  unfold resetIndex
  by_cases hzero : usedOffset a (s.ctes slot).cap = 0
  · simp only [if_pos hzero]
    exact iff_of_true ((usedOffset_eq_zero _).mp hzero) (.inl hzero)
  simp only [if_neg hzero]
  by_cases hwhole : WholeBlock a (s.ctes slot).cap
  · simp only [if_pos hwhole, hset]
    exact iff_of_true (getUntypedFreeIndex_setFreeIndex (by decide)) (.inr hwhole)
  · simp only [if_neg hwhole, hset]
    refine iff_of_false ?_ (not_or.mpr ⟨hzero, hwhole⟩)
    rw [getUntypedFreeIndex, setUntypedFreeIndex, Field.get, stored_set_self (by cases a <;> decide)]
    cases a <;> decide

/-- A reset is exact only if there is nothing to reset, or if the block is no device's
and the test takes it for a small device's. -/
theorem resetExact_iff (h : UntypedOk a (s.ctes slot).cap) : ResetExact a s slot ↔
    usedOffset a (s.ctes slot).cap = 0 ∨
      (getUntypedIsDevice a (s.ctes slot).cap = 0 ∧ WholeBlock a (s.ctes slot).cap) := by
  constructor
  · rintro ⟨hindex, hmemory⟩
    rcases freeIndex_resetUntypedCap.mp hindex with hzero | hwhole
    · exact .inl hzero
    · exact ((memoryExact_iff h).mp hmemory).imp_right fun hram => ⟨hram.1, hwhole⟩
  · intro hok
    refine ⟨freeIndex_resetUntypedCap.mpr (hok.imp_right And.right), (memoryExact_iff h).mpr ?_⟩
    exact hok.imp_right fun hram => ⟨hram.1, .inr hram.2⟩

/-- One slot with an untyped cap of which the first 16 bytes are in use. -/
def oneUntyped (a : Arch) (isDevice blockSize ptr : Word) : KernelState :=
  { KernelState.zero with
    ctes := fun _ => ⟨newUntypedCap a 1 isDevice blockSize ptr, defaultMdbNode⟩ }

/-- A block of 64 bytes at an address whose bit 6 is read as the device bit. -/
theorem resetExact_iff_small : ResetExact .aarch64
    (oneUntyped .aarch64 0 6 (pptrBase .aarch64 + 0x1040)) 0 := by
  have h : UntypedOk .aarch64 ((oneUntyped .aarch64 0 6 (pptrBase .aarch64 + 0x1040)).ctes 0).cap :=
    ⟨by decide, by decide, by decide, by decide, by decide⟩
  exact (resetExact_iff h).mpr (.inr ⟨by decide, by decide⟩)

/-- A page is left with a free index below zero, of a block of 16 bytes the memory
behind it is cleared, and so is the memory of a device. -/
theorem resetUntypedCap_inexact :
    ¬ResetExact .riscv64 (oneUntyped .riscv64 0 12 (pptrBase .riscv64 + 0x1000)) 0 ∧
      ¬MemoryExact .riscv64 (newUntypedCap .riscv64 1 0 4 (pptrBase .riscv64 + 0x1000)) ∧
      ¬MemoryExact .riscv64 (newUntypedCap .riscv64 1 1 12 (pptrBase .riscv64 + 0x1000)) := by
  refine ⟨fun h => ?_, fun h => ?_, fun h => ?_⟩
  · exact absurd h.freeIndex (by decide)
  · exact absurd (h.inside (by decide) (pptrBase .riscv64 + 0x1010) (by decide)) (by decide)
  · exact absurd (h.device (by decide) (pptrBase .riscv64 + 0x1000)) (by decide)

end Rel4.Kernel
