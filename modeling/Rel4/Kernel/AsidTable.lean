import Rel4.Kernel.Asid
import Rel4.Kernel.RetypeSteps

/-!
The ASID table and the caps of root tables.

The table and the root caps form a registry (`Lib.Registry`): the words of the
pools say which root has an ASID, and the caps of a root carry it. Making a pool
adds no entry (`AsidInv.makePool`), and an assignment writes both sides
(`AsidInv.assign`).
-/

namespace Rel4.Kernel
open Lib Lib.Bitfield Common CSpace Rel4.Task VSpace Function
open BitVec (ofNat toNat_mul toNat_ofNat toNat_add eq_of_toNat_eq)

variable {static : Word → Prop} {i k : Nat} {cap : CapT} {a : Arch} {s s' : KernelState}
  {asid asid' root p x slot : Word}

/-! ## Words of a pool -/

/-- Pools and root tables are pages. -/
def IsPage (p : Word) : Prop := p.toNat % 4096 = 0

theorem toNat_pageWord (hp : IsPage p) (hk : k < 512) :
    (p + 8 * ofNat 64 k).toNat = p.toNat + 8 * k := by
  have hp : p.toNat % 4096 = 0 := hp
  have hmul : (8 * ofNat 64 k : Word).toNat = 8 * k := by
    rw [toNat_mul, toNat_ofNat]
    show 8 * (k % 2 ^ 64) % 2 ^ 64 = 8 * k
    omega
  rw [toNat_add, hmul]
  omega

theorem pageWord_inj (hp : IsPage p) (hq : IsPage q) {l : Nat} (hk : k < 512) (hl : l < 512)
    (h : p + 8 * ofNat 64 k = q + 8 * ofNat 64 l) : p = q ∧ k = l := by
  have h' := congrArg BitVec.toNat h
  rw [toNat_pageWord hp hk, toNat_pageWord hq hl] at h'
  have hp : p.toNat % 4096 = 0 := hp
  have hq : q.toNat % 4096 = 0 := hq
  exact ⟨eq_of_toNat_eq (by omega), by omega⟩

theorem toNat_asidLow : (asid &&& 511).toNat = asid.toNat % 512 :=
  Nat.and_two_pow_sub_one_eq_mod _ 9

theorem poolEntry_eq : poolEntry p asid = p + 8 * ofNat 64 (asid.toNat % 512) := by
  rw [poolEntry, ← toNat_asidLow, BitVec.ofNat_toNat, BitVec.setWidth_eq]

theorem toNat_asidHigh : (asid >>> asidLowBits).toNat = asid.toNat / 512 := by
  rw [BitVec.toNat_ushiftRight, Nat.shiftRight_eq_div_pow]
  rfl

/-! ## The registry -/

/-- What a cap tells of a root: its table and its ASID, if it has one. -/
def rootInfo (a : Arch) (cap : CapT) : Option (Word × Option Word) :=
  if getCapType cap = rootTag a then
    some (getRootPtr a cap, if getRootIsMapped a cap = 0 then none else some (getRootAsid a cap))
  else none

/-- The ASIDs that resolve, and the caps for root tables. -/
def asidRegistry (a : Arch) (s : KernelState) : Registry Word Word Word where
  owner := findVspaceForAsid a s
  tag x := rootInfo a (s.ctes x).cap

theorem rootInfo_eq_some {i : Option Word} : rootInfo a cap = some (root, i) ↔
    getCapType cap = rootTag a ∧ getRootPtr a cap = root ∧
      (if getRootIsMapped a cap = 0 then none else some (getRootAsid a cap)) = i := by
  unfold rootInfo
  split
  next h => simp [h]
  next h => simp [h]

/-- What the caps of pools and roots hold, and that the pools of the table have caps. -/
structure AsidLayout (a : Arch) (s : KernelState) : Prop where
  rootPage : ∀ x, s.ctes.capType x = rootTag a →
    IsPage (getRootPtr a (s.ctes x).cap) ∧ pptrBase a ≤ getRootPtr a (s.ctes x).cap
  base : ∀ x, s.ctes.capType x = .asidPoolCap → (getAsidBase a (s.ctes x).cap).toNat % 512 = 0
  pools : ∀ i, s.asidTable i ≠ 0 → ∃ x, s.ctes.capType x = .asidPoolCap ∧
    getAsidPool a (s.ctes x).cap = s.asidTable i
  index : ∀ x i, s.ctes.capType x = .asidPoolCap → s.asidTable i ≠ 0 →
    getAsidPool a (s.ctes x).cap = s.asidTable i → getAsidBase a (s.ctes x).cap >>> asidLowBits = i

/-- The invariant of the ASID table. -/
structure AsidInv (a : Arch) (static : Word → Prop) (s : KernelState) : Prop where
  caps : ∃ ls, CapInv a static (capSpace s) ls
  layout : AsidLayout a s
  consistent : (asidRegistry a s).Consistent 0

/-! ## Where the pools lie -/

section Places

variable {static : Word → Prop} {ls : List (List Word)} {cap : CapT}

theorem objBase_pool (ht : getCapType cap = .asidPoolCap) : objBase a cap = getAsidPool a cap := by
  simp only [objBase, getCapPtr, ht]

theorem objBits_pool (ht : getCapType cap = .asidPoolCap) : objBits a cap = 12 := by
  simp only [objBits, ht]
  rfl

theorem physical_pool (ht : getCapType cap = .asidPoolCap) : getCapIsPhysical cap = true := by
  simp only [getCapIsPhysical, ht]

theorem objBase_root (ht : getCapType cap = rootTag a) : objBase a cap = getRootPtr a cap := by
  cases a with
  | riscv64 =>
    have ht : getCapType cap = .pageTableCap := ht
    simp only [objBase, getCapPtr, ht, getRootPtr]
  | aarch64 =>
    have ht : getCapType cap = .vspaceCap := ht
    simp only [objBase, getCapPtr, ht, getRootPtr]

theorem AsidLayout.poolPage (h : AsidLayout a s) (hc : CapInv a static (capSpace s) ls) {i : Word}
    (hi : s.asidTable i ≠ 0) : IsPage (s.asidTable i) := by
  obtain ⟨x, hx, hptr⟩ := h.pools i hi
  have hx : getCapType (s.ctes x).cap = .asidPoolCap := hx
  have hok : CapOK a (s.ctes x).cap := hc.capOK fun hnull => by cases hx.symm.trans hnull
  have hal := hok.aligned (physical_pool hx)
  rw [objBase_pool hx, objBits_pool hx, hptr] at hal
  exact hal

/-- On riscv64 pools and roots are different objects. -/
theorem CapInv.pool_ne_root (hc : CapInv .riscv64 static (capSpace s) ls) {y : Word}
    (hx : s.ctes.capType x = .asidPoolCap) (hy : s.ctes.capType y = .pageTableCap) :
    getAsidPool .riscv64 (s.ctes x).cap ≠ getRootPtr .riscv64 (s.ctes y).cap := by
  have hx' : getCapType (s.ctes x).cap = .asidPoolCap := hx
  have hy' : getCapType (s.ctes y).cap = .pageTableCap := hy
  intro hsame
  have hphys : getCapIsPhysical (s.ctes y).cap = true := by simp only [getCapIsPhysical, hy']
  have hov : (extent .riscv64 (s.ctes x).cap).Overlaps (extent .riscv64 (s.ctes y).cap) := by
    have hpos : 0 < 2 ^ objBits .riscv64 (s.ctes y).cap := Nat.two_pow_pos _
    have hroot : objBase .riscv64 (s.ctes y).cap = getRootPtr .riscv64 (s.ctes y).cap :=
      objBase_root hy'
    rw [extent_physical (physical_pool hx'), extent_physical hphys, objBase_pool hx', hroot, hsame,
      objBits_pool hx']
    refine ⟨rfl, ?_, ?_⟩ <;> simp only <;> omega
  have hne : ∀ {z t}, getCapType (s.ctes z).cap = t → t ≠ .nullCap → t ≠ .untypedCap →
      (capSpace s).slots.capType z ≠ .nullCap ∧ (capSpace s).slots.capType z ≠ .untypedCap := by
    rintro z t rfl h₁ h₂
    exact ⟨h₁, h₂⟩
  obtain ⟨hx₁, hx₂⟩ := hne hx' (by decide) (by decide)
  obtain ⟨hy₁, hy₂⟩ := hne hy' (by decide) (by decide)
  have hobj := hc.object_eq_of_overlaps hx₁ hy₁ hx₂ hy₂ hov
  have hkey := capType_eq_of_key (hc.key_eq_of_object hx₁ hy₁ hx₂ hy₂ hobj)
  cases hx'.symm.trans (hkey.trans hy')

/-- Words of different ASIDs are different words. -/
theorem AsidLayout.poolEntry_ne (h : AsidLayout a s) (hc : CapInv a static (capSpace s) ls)
    (hpool : asidPoolOf s asid ≠ 0) (hpool' : asidPoolOf s asid' ≠ 0) (hne : asid ≠ asid') :
    poolEntry (asidPoolOf s asid) asid ≠ poolEntry (asidPoolOf s asid') asid' := by
  intro heq
  rw [poolEntry_eq, poolEntry_eq] at heq
  obtain ⟨hpage, hlow⟩ := pageWord_inj (h.poolPage hc hpool) (h.poolPage hc hpool')
    (Nat.mod_lt _ (by decide)) (Nat.mod_lt _ (by decide)) heq
  obtain ⟨x, hx, hptr⟩ := h.pools _ hpool
  have hhigh := congrArg BitVec.toNat ((h.index x _ hx hpool hptr).symm.trans
    (h.index x _ hx hpool' (hptr.trans hpage)))
  rw [toNat_asidHigh, toNat_asidHigh] at hhigh
  exact hne (eq_of_toNat_eq (by omega))

/-- On riscv64 the words of pools are not entries of root tables. -/
theorem AsidLayout.poolEntry_ne_root (h : AsidLayout .riscv64 s)
    (hc : CapInv .riscv64 static (capSpace s) ls) (hx : s.ctes.capType x = .pageTableCap)
    (hpool : asidPoolOf s asid ≠ 0) (hk : k < 512) :
    poolEntry (asidPoolOf s asid) asid ≠ getRootPtr .riscv64 (s.ctes x).cap + 8 * ofNat 64 k := by
  intro heq
  rw [poolEntry_eq] at heq
  obtain ⟨hpage, -⟩ := pageWord_inj (h.poolPage hc hpool) (h.rootPage x hx).1
    (Nat.mod_lt _ (by decide)) hk heq
  obtain ⟨y, hy, hptr⟩ := h.pools _ hpool
  exact hc.pool_ne_root hy hx (hptr.trans hpage)

end Places

/-! ## Caps -/

theorem rootTag_cases : rootTag a = .pageTableCap ∨ rootTag a = .vspaceCap := by
  cases a
  · exact .inl rfl
  · exact .inr rfl

theorem nullCap_ne_rootTag : .nullCap ≠ rootTag a := by
  cases a <;> decide

theorem asidPoolCap_ne_rootTag : .asidPoolCap ≠ rootTag a := by
  cases a <;> decide

theorem untypedCap_ne_rootTag : .untypedCap ≠ rootTag a := by
  cases a <;> decide

theorem rootInfo_eq_none (ht : getCapType cap = t) (hne : t ≠ rootTag a) : rootInfo a cap = none :=
  if_neg (ht ▸ hne)

theorem getCapType_newAsidPoolCap (base pool : Word) :
    getCapType (newAsidPoolCap a base pool) = .asidPoolCap := by
  have htag : CapTag.ofWord (CSpace.Field.capType.raw CapTag.asidPoolCap.toWord) = .asidPoolCap := by
    decide
  exact (congrArg CapTag.ofWord (stored_build (i := 2) rfl rfl)).trans htag

theorem getAsidPool_newAsidPoolCap (hp : IsPage p) (hwin : pptrBase a ≤ p) :
    getAsidPool a (newAsidPoolCap a base p) = p := by
  have hp : p.toNat % 4096 = 0 := hp
  refine get_build (i := 1) rfl rfl ?_
  cases a with
  | riscv64 =>
    refine canonical_of_window rfl rfl hwin ?_
    show p.toNat % 4 = 0
    omega
  | aarch64 =>
    refine canonical_of_window rfl rfl hwin ?_
    show p.toNat % 2048 = 0
    omega

theorem getAsidBase_newAsidPoolCap (hi : i < asidPoolNum) :
    getAsidBase a (newAsidPoolCap a (ofNat 64 i <<< asidLowBits) p) =
        ofNat 64 i <<< asidLowBits ∧
      (ofNat 64 i <<< asidLowBits).toNat = 512 * i := by
  have hi : i < 128 := hi
  have hnat : (ofNat 64 i <<< asidLowBits).toNat = 512 * i := by
    simp only [asidLowBits, BitVec.toNat_shiftLeft, toNat_ofNat, Nat.shiftLeft_eq]
    omega
  refine ⟨get_build (i := 0) rfl rfl (canonical_of_lt rfl rfl (by decide) ?_), hnat⟩
  rw [hnat]
  show 512 * i < 2 ^ 16
  omega

/-- The layout stays if the root caps keep their tables, no pool cap is changed and no
pool is added; the pools of the table must still have caps. -/
theorem AsidLayout.kept (h : AsidLayout a s)
    (hroot : ∀ x, s'.ctes.capType x = rootTag a → s.ctes.capType x = rootTag a ∧
      getRootPtr a (s'.ctes x).cap = getRootPtr a (s.ctes x).cap)
    (hpool : ∀ x, s'.ctes.capType x = .asidPoolCap → (s'.ctes x).cap = (s.ctes x).cap)
    (htable : ∀ i, s'.asidTable i ≠ 0 → s'.asidTable i = s.asidTable i)
    (hcaps : ∀ i, s'.asidTable i ≠ 0 → ∃ x, s'.ctes.capType x = .asidPoolCap ∧
      getAsidPool a (s.ctes x).cap = s.asidTable i) : AsidLayout a s' := by
  have htype : ∀ {x}, s'.ctes.capType x = .asidPoolCap → s.ctes.capType x = .asidPoolCap := by
    intro x hx
    have hx' : getCapType (s'.ctes x).cap = .asidPoolCap := hx
    rw [hpool x hx] at hx'
    exact hx'
  refine ⟨fun x hx => ?_, fun x hx => ?_, fun i hi => ?_, fun x i hx hi hptr => ?_⟩
  · obtain ⟨ht, hptr⟩ := hroot x hx
    rw [hptr]
    exact h.rootPage x ht
  · rw [hpool x hx]
    exact h.base x (htype hx)
  · obtain ⟨x, hx, hptr⟩ := hcaps i hi
    refine ⟨x, hx, ?_⟩
    rw [hpool x hx, hptr, htable i hi]
  · rw [hpool x hx] at hptr ⊢
    have hsame := htable i hi
    rw [hsame] at hi hptr
    exact h.index x i (htype hx) hi hptr

/-! ## Making a pool -/

namespace MakesPool

variable {parent dest : Word} {i : Nat} {static : Word → Prop} {ls : List (List Word)}

theorem poolMemory (h : MakesPool a s s' parent dest i) : s.ctes.capType parent = .untypedCap ∧
      getUntypedBlockSize a (s.ctes parent).cap = asidPoolBits := by
  have hmem := h.memoryCap
  simp only [isPoolMemory, decide_eq_true_eq] at hmem
  exact ⟨hmem.1, hmem.2.1⟩

section

variable (h : MakesPool a s s' parent dest i) (hc : CapInv a static (capSpace s) ls)
include h hc

/-- What is known of the untyped cap. -/
theorem block : CapOK a (s.ctes parent).cap ∧ objBits a (s.ctes parent).cap = 12 ∧
      objBase a (s.ctes parent).cap = getUntypedPtr a (s.ctes parent).cap ∧
      IsPage (getUntypedPtr a (s.ctes parent).cap) ∧
      pptrBase a ≤ getUntypedPtr a (s.ctes parent).cap := by
  obtain ⟨ht, hsize⟩ := h.poolMemory
  have ht : getCapType (s.ctes parent).cap = .untypedCap := ht
  have hok : CapOK a (s.ctes parent).cap := hc.capOK fun hnull => by cases ht.symm.trans hnull
  have hbits : objBits a (s.ctes parent).cap = 12 := by
    rw [objBits_untyped ht, hsize]
    rfl
  have hbase : objBase a (s.ctes parent).cap = getUntypedPtr a (s.ctes parent).cap :=
    objBase_untyped ht
  have hal := hok.aligned (physical_untyped ht)
  have hwin := hok.window (physical_untyped ht)
  rw [hbits, hbase] at hal
  rw [hbase] at hwin
  exact ⟨hok, hbits, hbase, hal, hwin⟩

/-- `ensure_no_children` is right about untyped caps. -/
theorem noDescendants (y : Word) (hy : (capSpace s).slots.capType y ≠ .nullCap) :
    (capSpace s).id parent ∉ (capSpace s).ancestors y :=
  hc.no_descendants h.poolMemory.1 h.noChildren hy

theorem block_null (hx : x - getUntypedPtr a (s.ctes parent).cap < bit asidPoolBits) :
    s.ctes.capType x = .nullCap := by
  obtain ⟨hok, hbits, hbase, -⟩ := h.block hc
  have ht : getCapType (s.ctes parent).cap = .untypedCap := h.poolMemory.1
  have hend := hok.end_le (physical_untyped ht)
  have hb : (bit asidPoolBits).toNat = 2 ^ 12 := by decide
  rw [hbits, hbase] at hend
  rw [BitVec.lt_def, hb, sub_lt_iff hend] at hx
  refine hc.block_empty ht (h.noDescendants hc) ?_
  show Covers (extent a (s.ctes parent).cap) x
  rw [extent_physical (physical_untyped ht), hbits, hbase]
  exact ⟨rfl, hx.1, hx.2⟩

/-- No pool lies in the block. -/
theorem pool_ne (hx : s.ctes.capType x = .asidPoolCap) :
    getAsidPool a (s.ctes x).cap ≠ getUntypedPtr a (s.ctes parent).cap := by
  obtain ⟨-, hbits, hbase, -⟩ := h.block hc
  have ht : getCapType (s.ctes parent).cap = .untypedCap := h.poolMemory.1
  have hx' : getCapType (s.ctes x).cap = .asidPoolCap := hx
  intro hsame
  refine hc.block_apart (y := x) ht (h.noDescendants hc) (fun hn => ?_) (fun hu => ?_) ?_
  · cases hx'.symm.trans hn
  · cases hx'.symm.trans hu
  · show (extent a (s.ctes parent).cap).Overlaps (extent a (s.ctes x).cap)
    rw [extent_physical (physical_untyped ht), extent_physical (physical_pool hx'), hbits, hbase,
      objBase_pool hx', objBits_pool hx', hsame]
    refine ⟨rfl, ?_, ?_⟩ <;> simp only <;> omega

/-- The caps before the cap of the pool is inserted. -/
theorem block_cap (x : Word) : (blockSlots a s.ctes parent x).cap = (s.ctes x).cap ∨
      (getCapType (blockSlots a s.ctes parent x).cap = .nullCap ∧ s.ctes.capType x = .nullCap) ∨
      (x = parent ∧ getCapType (blockSlots a s.ctes parent x).cap = .untypedCap) := by
  unfold blockSlots
  split
  next hx => exact .inr (.inl ⟨capType_newNullCap, h.block_null hc hx⟩)
  next =>
    rw [Slots.cap_setCap]
    split
    next hx =>
      refine .inr (.inr ⟨hx, ?_⟩)
      rw [getCapType_setUntypedFreeIndex]
      exact h.poolMemory.1
    next => exact .inl rfl

theorem caps_block : CapInv a static ⟨blockSlots a s.ctes parent, s.origin, s.fresh⟩ ls := by
  obtain ⟨hok, -⟩ := h.block hc
  have ht : getCapType (s.ctes parent).cap = .untypedCap := h.poolMemory.1
  have hset := hc.setFreeIndex ht (Nat.le_of_eq (CapInv.toNat_maxFreeIndex hok ht))
    fun y hy hd => absurd hd (h.noDescendants hc y hy)
  refine hset.clear fun x => ?_
  unfold blockSlots
  split
  next hx =>
    refine .inr ⟨rfl, ?_⟩
    have hnull := h.block_null hc hx
    rw [CapSpace.capType_setCap, if_neg]
    · exact hnull
    · rintro rfl
      cases h.poolMemory.1.symm.trans hnull
  next => exact .inl rfl

theorem capOK_pool : CapOK a (poolCapOf a s.ctes parent i) := by
  obtain ⟨-, -, -, hpage, hwin⟩ := h.block hc
  have ht : getCapType (poolCapOf a s.ctes parent i) = .asidPoolCap := getCapType_newAsidPoolCap _ _
  have hbase : objBase a (poolCapOf a s.ctes parent i) = getUntypedPtr a (s.ctes parent).cap :=
    (objBase_pool ht).trans (getAsidPool_newAsidPoolCap hpage hwin)
  have hbits : objBits a (poolCapOf a s.ctes parent i) = 12 := objBits_pool ht
  refine .of_block ?_ ?_ ?_ ?_ fun hu => ?_
  · rw [ht]
    decide
  · rw [hbase]
    exact hwin
  · rw [hbase, hbits]
    exact hpage
  · omega
  · rw [ht] at hu
    cases hu

end

/-- The cap of the pool is inserted into a slot that was empty. -/
theorem insertEffect (h : MakesPool a s s' parent dest i) (hdest : SlotAddr a dest) :
    (blockSlots a s.ctes parent).capType dest = .nullCap ∧
      ∃ r, InsertEffect a (blockSlots a s.ctes parent) s'.ctes (blockSlots a s.ctes parent parent).cap
        (poolCapOf a s.ctes parent i) parent dest r := by
  obtain ⟨r, -, hnull, he⟩ := cteInsert_effect h.insert hdest.2
  have hnot : getCapType (poolCapOf a s.ctes parent i) ≠ .untypedCap := by
    rw [poolCapOf, getCapType_newAsidPoolCap]
    decide
  rw [sourceCapAfter, if_neg fun hu => hnot hu.2.1] at he
  exact ⟨hnull, _, he⟩

section

variable (h : MakesPool a s s' parent dest i) (hc : CapInv a static (capSpace s) ls)
include h hc

theorem slotAddr_dest : SlotAddr a dest := hc.slotAddr_of_reached h.dest_node.reached

theorem cap_eq (x : Word) : (s'.ctes x).cap =
      if x = dest then poolCapOf a s.ctes parent i else (blockSlots a s.ctes parent x).cap := by
  obtain ⟨-, r, he⟩ := h.insertEffect (h.slotAddr_dest hc)
  exact he.cap_eq x

theorem dest_null : s.ctes.capType dest = .nullCap := by
  have hnull : getCapType (blockSlots a s.ctes parent dest).cap = .nullCap :=
    (h.insertEffect (h.slotAddr_dest hc)).1
  rcases h.block_cap hc dest with hsame | ⟨-, hn⟩ | ⟨-, hu⟩
  · rw [hsame] at hnull
    exact hnull
  · exact hn
  · cases hu.symm.trans hnull

theorem capInv : ∃ ls', CapInv a static (capSpace s') ls' := by
  obtain ⟨hok, hbits, hbase, hpage, hwin⟩ := h.block hc
  have ht : getCapType (s.ctes parent).cap = .untypedCap := h.poolMemory.1
  obtain ⟨hnull, r, he⟩ := h.insertEffect (h.slotAddr_dest hc)
  have hpool : getCapType (poolCapOf a s.ctes parent i) = .asidPoolCap :=
    getCapType_newAsidPoolCap _ _
  have hparent : (blockSlots a s.ctes parent parent).cap = setUntypedFreeIndex a (s.ctes parent).cap
        (maxFreeIndex (getUntypedBlockSize a (s.ctes parent).cap)) := by
    have hout : ¬parent - getUntypedPtr a (s.ctes parent).cap < bit asidPoolBits := by
      intro hin
      cases h.poolMemory.1.symm.trans (h.block_null hc hin)
    rw [blockSlots, if_neg hout, Slots.cap_setCap, if_pos rfl]
  have hset : getCapType (setUntypedFreeIndex a (s.ctes parent).cap
      (maxFreeIndex (getUntypedBlockSize a (s.ctes parent).cap))) = .untypedCap := by
    rw [getCapType_setUntypedFreeIndex, ht]
  have hmax := CapInv.toNat_maxFreeIndex hok ht
  obtain ⟨-, hfull⟩ := CapOK.setFreeIndex ht hok (Nat.le_of_eq hmax)
  rw [h.caps]
  refine ⟨_, (h.caps_block hc).insertFirst ?_ hnull he (fun hu => ?_) ?_ (h.capOK_pool hc) ?_
    fun y hy hd => ?_⟩
  · show getCapType (blockSlots a s.ctes parent parent).cap = _
    rw [hparent, hset]
  · cases hpool.symm.trans hu
  · -- the node that holds the slot is not touched
    obtain ⟨y, hy, hs⟩ := h.dest_node
    have hy' : getCapType (s.ctes y).cap = .cnodeCap := hy
    have hsame : (blockSlots a s.ctes parent y).cap = (s.ctes y).cap := by
      rcases h.block_cap hc y with hsame | ⟨-, hn⟩ | ⟨rfl, -⟩
      · exact hsame
      · cases hy'.symm.trans hn
      · cases hy'.symm.trans ht
    refine .inr ⟨y, ?_, ?_⟩
    · show getCapType (blockSlots a s.ctes parent y).cap ≠ .nullCap
      rw [hsame, hy']
      decide
    · rw [hsame]
      exact hs
  · rw [hparent, refOf_usedExtent hset, hfull, objBase_setFreeIndex ht, hmax,
      extent_physical (physical_pool hpool), objBase_pool hpool, objBits_pool hpool, hbits, hbase,
      poolCapOf, getAsidPool_newAsidPoolCap hpage hwin]
    exact ⟨rfl, Nat.le_refl _, Nat.le_refl _⟩
  · refine absurd hd (h.noDescendants hc y ?_)
    have hy : getCapType (blockSlots a s.ctes parent y).cap ≠ .nullCap := hy
    rcases h.block_cap hc y with hsame | ⟨hn, -⟩ | ⟨rfl, -⟩
    · rw [hsame] at hy
      exact hy
    · exact absurd hn hy
    · intro hn
      cases ht.symm.trans hn

theorem rootInfo_cap (x : Word) : rootInfo a (s'.ctes x).cap = rootInfo a (s.ctes x).cap := by
  rw [h.cap_eq hc]
  split
  next hx =>
    rw [hx, poolCapOf, rootInfo_eq_none (getCapType_newAsidPoolCap _ _) asidPoolCap_ne_rootTag,
      rootInfo_eq_none (h.dest_null hc) nullCap_ne_rootTag]
  rcases h.block_cap hc x with hsame | ⟨hn, hn'⟩ | ⟨rfl, hu⟩
  · rw [hsame]
  · rw [rootInfo_eq_none hn nullCap_ne_rootTag, rootInfo_eq_none hn' nullCap_ne_rootTag]
  · rw [rootInfo_eq_none hu untypedCap_ne_rootTag,
      rootInfo_eq_none h.poolMemory.1 untypedCap_ne_rootTag]

theorem layout (hlay : AsidLayout a s) : AsidLayout a s' := by
  obtain ⟨-, -, -, hpage, hwin⟩ := h.block hc
  have hptr : getAsidPool a (poolCapOf a s.ctes parent i) = getUntypedPtr a (s.ctes parent).cap :=
    getAsidPool_newAsidPoolCap hpage hwin
  obtain ⟨hbase, hnat⟩ := getAsidBase_newAsidPoolCap
    (p := getUntypedPtr a (s.ctes parent).cap) h.index
  -- a pool cap is the new one or an old one
  have hpoolCap : ∀ x, s'.ctes.capType x = .asidPoolCap →
      (x = dest ∧ (s'.ctes x).cap = poolCapOf a s.ctes parent i) ∨
        (s.ctes.capType x = .asidPoolCap ∧ (s'.ctes x).cap = (s.ctes x).cap) := by
    intro x hx
    have hx : getCapType (s'.ctes x).cap = .asidPoolCap := hx
    rw [h.cap_eq hc] at hx ⊢
    split at hx
    next hxd => exact .inl ⟨hxd, if_pos hxd⟩
    next hxd =>
      rw [if_neg hxd]
      rcases h.block_cap hc x with hsame | ⟨hn, -⟩ | ⟨-, hu⟩
      · rw [hsame] at hx ⊢
        exact .inr ⟨hx, rfl⟩
      · cases hx.symm.trans hn
      · cases hx.symm.trans hu
  have hold : ∀ x, s.ctes.capType x = .asidPoolCap → s'.ctes.capType x = .asidPoolCap ∧
      (s'.ctes x).cap = (s.ctes x).cap := by
    intro x hx
    have hx' : getCapType (s.ctes x).cap = .asidPoolCap := hx
    have hsame : (s'.ctes x).cap = (s.ctes x).cap := by
      rw [h.cap_eq hc, if_neg]
      · rcases h.block_cap hc x with hsame | ⟨-, hn⟩ | ⟨rfl, -⟩
        · exact hsame
        · cases hx.symm.trans hn
        · cases hx.symm.trans h.poolMemory.1
      · rintro rfl
        cases hx.symm.trans (h.dest_null hc)
    refine ⟨?_, hsame⟩
    show getCapType (s'.ctes x).cap = _
    rw [hsame, hx']
  have hdest : (s'.ctes dest).cap = poolCapOf a s.ctes parent i := by
    rw [h.cap_eq hc, if_pos rfl]
  refine ⟨fun x hx => ?_, fun x hx => ?_, fun j hj => ?_, fun x j hx hj hsame => ?_⟩
  · have hinfo := h.rootInfo_cap hc x
    rw [rootInfo, if_pos (show getCapType (s'.ctes x).cap = rootTag a from hx)] at hinfo
    obtain ⟨ht, hroot, -⟩ := rootInfo_eq_some.mp hinfo.symm
    rw [← hroot]
    exact hlay.rootPage x ht
  · rcases hpoolCap x hx with ⟨-, hnew⟩ | ⟨hx, hsame⟩
    · rw [hnew, poolCapOf, hbase, hnat]
      omega
    · rw [hsame]
      exact hlay.base x hx
  · rw [h.table, update_apply] at hj ⊢
    split at hj
    next hji =>
      rw [if_pos hji]
      refine ⟨dest, ?_, ?_⟩
      · show getCapType (s'.ctes dest).cap = _
        rw [hdest]
        exact getCapType_newAsidPoolCap _ _
      · rw [hdest, hptr]
    next hji =>
      rw [if_neg hji]
      obtain ⟨x, hx, hpx⟩ := hlay.pools j hj
      obtain ⟨hx', hsame⟩ := hold x hx
      exact ⟨x, hx', by rw [hsame, hpx]⟩
  · rw [h.table, update_apply] at hj hsame
    rcases hpoolCap x hx with ⟨-, hnew⟩ | ⟨hx, hcap⟩
    · rw [hnew] at hsame ⊢
      rw [poolCapOf, hbase, shift_asidBase h.index]
      split at hj
      next hji => exact hji.symm
      next hji =>
        -- another pool would lie in the block
        rw [if_neg hji, hptr] at hsame
        obtain ⟨y, hy, hpy⟩ := hlay.pools j hj
        exact absurd (hpy.trans hsame.symm) (h.pool_ne hc hy)
    · rw [hcap] at hsame ⊢
      split at hj
      next hji =>
        rw [if_pos hji] at hsame
        exact absurd hsame (h.pool_ne hc hx)
      next hji =>
        rw [if_neg hji] at hsame
        exact hlay.index x j hx hj hsame

end

/-- The new pool has no entries, so no ASID is added. -/
theorem find_of_find (h : MakesPool a s s' parent dest i)
    (hr : findVspaceForAsid a s' asid = some root) : findVspaceForAsid a s asid = some root := by
  obtain ⟨hpool, hroot⟩ := findVspaceForAsid_eq_some.mp hr
  have hpool' : asidPoolOf s' asid = if asid >>> asidLowBits = ofNat 64 i then
      getUntypedPtr a (s.ctes parent).cap else asidPoolOf s asid := by
    rw [asidPoolOf, h.table, update_apply]
    rfl
  have hmem : ∀ w, s'.userMemory w = s.userMemory w ∨ s'.userMemory w = 0 := by
    intro w
    rw [h.memory]
    by_cases hw : w - getUntypedPtr a (s.ctes parent).cap < bit asidPoolBits
    · exact .inr (if_pos hw)
    · exact .inl (if_neg hw)
  by_cases hi : asid >>> asidLowBits = ofNat 64 i
  · -- the word lies in the cleared block
    rw [if_pos hi] at hpool'
    have hin : poolEntry (asidPoolOf s' asid) asid - getUntypedPtr a (s.ctes parent).cap <
        bit asidPoolBits := by
      have hb : (bit asidPoolBits).toNat = 4096 := by decide
      rw [hpool', poolEntry, BitVec.add_comm, BitVec.add_sub_cancel, BitVec.lt_def, hb,
        toNat_mul, toNat_asidLow]
      show 8 * (asid.toNat % 512) % 2 ^ 64 < 4096
      omega
    rw [h.memory] at hroot
    simp only [if_pos hin, poolRoot_zero] at hroot
    cases hroot
  · rw [if_neg hi] at hpool'
    exact findVspaceForAsid_of_cleared (.inl hpool') hmem hr

end MakesPool

/-- Making a pool. -/
theorem AsidInv.makePool (h : AsidInv a static s) (hm : MakesPool a s s' parent dest i) :
    AsidInv a static s' := by
  obtain ⟨ls, hc⟩ := h.caps
  refine ⟨hm.capInv hc, hm.layout hc h.layout, ?_⟩
  refine h.consistent.release ?_ fun j o hj => hm.find_of_find hj
  funext x
  exact hm.rootInfo_cap hc x

/-! ## Assigning an ASID -/

section RootCap

variable {cap : CapT}

theorem getCapType_setRootMapped : getCapType (setRootMapped a cap asid) = getCapType cap := by
  cases a with
  | riscv64 =>
    rw [getCapType, setRootMapped, stored_set_of_disjoint (by decide),
      stored_set_of_disjoint (by decide), stored_set_of_disjoint (by decide), getCapType]
  | aarch64 =>
    rw [getCapType, setRootMapped, stored_set_of_disjoint (by decide),
      stored_set_of_disjoint (by decide), getCapType]

theorem getRootPtr_setRootMapped : getRootPtr a (setRootMapped a cap asid) = getRootPtr a cap := by
  cases a with
  | riscv64 =>
    simp only [getRootPtr, setRootMapped, getPtBasePtr]
    rw [get_set_of_disjoint (by decide), get_set_of_disjoint (by decide),
      get_set_of_disjoint (by decide)]
  | aarch64 =>
    simp only [getRootPtr, setRootMapped, getVsBasePtr]
    rw [get_set_of_disjoint (by decide), get_set_of_disjoint (by decide)]

theorem getRootIsMapped_setRootMapped : getRootIsMapped a (setRootMapped a cap asid) = 1 := by
  cases a with
  | riscv64 =>
    simp only [getRootIsMapped, setRootMapped, getPtIsMapped]
    rw [get_set_of_disjoint (by decide), get_set_of_disjoint (by decide),
      get_set_self (by decide) (by decide)]
  | aarch64 =>
    simp only [getRootIsMapped, setRootMapped, getVsIsMapped]
    rw [get_set_self (by decide) (by decide)]

theorem getRootAsid_setRootMapped (h : asid.toNat < 2 ^ 16) :
    getRootAsid a (setRootMapped a cap asid) = asid := by
  cases a with
  | riscv64 =>
    simp only [getRootAsid, setRootMapped, getPtMappedAsid]
    exact get_set_self (by decide) (canonical_of_lt rfl rfl (by decide) h)
  | aarch64 =>
    simp only [getRootAsid, setRootMapped, getVsMappedAsid]
    rw [get_set_of_disjoint (by decide)]
    exact get_set_self (by decide) (canonical_of_lt rfl rfl (by decide) h)

theorem sameTarget_setRootMapped (ht : getCapType cap = rootTag a) :
    SameTarget a cap (setRootMapped a cap asid) := by
  have hset : getCapType (setRootMapped a cap asid) = rootTag a := by
    rw [getCapType_setRootMapped, ht]
  have hptr : getRootPtr a (setRootMapped a cap asid) = getRootPtr a cap := getRootPtr_setRootMapped
  cases a with
  | riscv64 =>
    have ht : getCapType cap = .pageTableCap := ht
    have hset : getCapType (setRootMapped .riscv64 cap asid) = .pageTableCap := hset
    have hptr : getPtBasePtr .riscv64 (setRootMapped .riscv64 cap asid) =
        getPtBasePtr .riscv64 cap := hptr
    refine .inr ⟨by rw [ht]; rfl, ?_⟩
    simp only [objKey, hset, ht, getCapPtr, hptr]
  | aarch64 =>
    have ht : getCapType cap = .vspaceCap := ht
    have hset : getCapType (setRootMapped .aarch64 cap asid) = .vspaceCap := hset
    have hptr : getVsBasePtr .aarch64 (setRootMapped .aarch64 cap asid) =
        getVsBasePtr .aarch64 cap := hptr
    refine .inr ⟨by rw [ht]; rfl, ?_⟩
    simp only [objKey, hset, ht, getCapPtr, hptr]

/-- The word for a root in the kernel window leads back to it. -/
theorem poolRoot_rootEntry (hpage : IsPage root) (hwin : pptrBase a ≤ root) :
    poolRoot a (rootEntry a root) = some root := by
  have hpage : root.toNat % 4096 = 0 := hpage
  cases a with
  | riscv64 =>
    refine if_neg ?_
    rintro rfl
    exact absurd hwin (by decide)
  | aarch64 =>
    have hword : (fun _ => newAsidMapVspace root) = Layout.asidMap.build [root, 1] := by
      funext k
      rw [Fin.fin_one_eq_zero k]
      rfl
    have hone : VSpace.Field.asidMapType.raw 1 = 1 := by decide
    have htype : VSpace.Field.asidMapType.stored (Layout.asidMap.build [root, 1]) = 1 :=
      (stored_build (i := 1) rfl rfl).trans hone
    have hroot : VSpace.Field.asidMapRoot.get (signExt .aarch64) (Layout.asidMap.build [root, 1]) =
        root := get_build (i := 0) rfl rfl (canonical_of_window rfl rfl hwin hpage)
    show (if VSpace.Field.asidMapType.stored (fun _ => newAsidMapVspace root) = 1 then
      some (VSpace.Field.asidMapRoot.get (signExt .aarch64) fun _ => newAsidMapVspace root)
      else none) = some root
    rw [hword, if_pos htype, hroot]

end RootCap

namespace Assigns

variable {base : Word} {i : Nat}

theorem toNat_asid (h : Assigns a s s' slot base i) (hlt : base.toNat < 2 ^ 16)
    (hbase : base.toNat % 512 = 0) :
    (base + ofNat 64 i).toNat = base.toNat + i ∧
      (base + ofNat 64 i).toNat < 2 ^ 16 := by
  have hi : i < 512 := h.index
  rw [toNat_add, toNat_ofNat]
  omega

theorem asidPoolOf_eq (h : Assigns a s s' slot base i) (hlt : base.toNat < 2 ^ 16)
    (hbase : base.toNat % 512 = 0) :
    asidPoolOf s (base + ofNat 64 i) = asidPoolOf s base := by
  have hi : i < 512 := h.index
  have hhigh : (base + ofNat 64 i) >>> asidLowBits = base >>> asidLowBits := by
    apply eq_of_toNat_eq
    rw [toNat_asidHigh, toNat_asidHigh, (h.toNat_asid hlt hbase).1]
    omega
  rw [asidPoolOf, hhigh, asidPoolOf]

/-- Only the new ASID resolves differently. -/
theorem find_cases (h : Assigns a s s' slot base i) (hc : CapInv a static (capSpace s) ls)
    (hlay : AsidLayout a s) (hlt : base.toNat < 2 ^ 16) (hbase : base.toNat % 512 = 0)
    (hr : findVspaceForAsid a s' asid = some root) :
    asid = base + ofNat 64 i ∧ root = getRootPtr a (s.ctes slot).cap ∨
      findVspaceForAsid a s asid = some root := by
  obtain ⟨hpage, hwin⟩ := hlay.rootPage slot h.root
  have hpool := h.asidPoolOf_eq hlt hbase
  have hne := h.pool_ne
  obtain ⟨hpool', hroot⟩ := findVspaceForAsid_eq_some.mp hr
  rw [asidPoolOf, h.table, ← asidPoolOf] at hpool' hroot
  by_cases hasid : asid = base + ofNat 64 i
  · subst hasid
    rw [hpool, h.entry, poolRoot_rootEntry hpage hwin] at hroot
    exact .inl ⟨rfl, (Option.some.inj hroot).symm⟩
  refine .inr (findVspaceForAsid_eq_some.mpr ⟨hpool', ?_⟩)
  rw [← h.memory _ ?_ ?_]
  · exact hroot
  · rw [← hpool] at hne ⊢
    exact hlay.poolEntry_ne hc hpool' hne hasid
  · rintro rfl k hk
    exact hlay.poolEntry_ne_root hc h.root hpool' hk

end Assigns

/-- Assigning an ASID through a pool cap. -/
theorem AsidInv.assign (h : AsidInv a static s) {cte : Word}
    (hcte : s.ctes.capType cte = .asidPoolCap)
    (hm : Assigns a s s' slot (getAsidBase a (s.ctes cte).cap) i) : AsidInv a static s' := by
  obtain ⟨ls, hc⟩ := h.caps
  have hlt : (getAsidBase a (s.ctes cte).cap).toNat < 2 ^ 16 := toNat_get_lt rfl rfl (by decide)
  have hbase := h.layout.base cte hcte
  have hroot : getCapType (s.ctes slot).cap = rootTag a := hm.root
  have hlive : (capSpace s).slots.capType slot ≠ .nullCap := fun hn =>
    nullCap_ne_rootTag (hn.symm.trans hroot)
  have hcap : ∀ x, (s'.ctes x).cap = if x = slot then
      setRootMapped a (s.ctes slot).cap (getAsidBase a (s.ctes cte).cap + ofNat 64 i)
      else (s.ctes x).cap := by
    intro x
    have hslots : s'.ctes = s.ctes.setCap slot _ := congrArg CapSpace.slots hm.caps
    rw [hslots, Slots.cap_setCap]
  have hpool : ∀ x, x ≠ slot → (s'.ctes x).cap = (s.ctes x).cap := fun x hx => by
    rw [hcap, if_neg hx]
  have hslot : ∀ x, s.ctes.capType x = .asidPoolCap → x ≠ slot := by
    rintro x hx rfl
    exact asidPoolCap_ne_rootTag (hx.symm.trans hroot)
  refine ⟨⟨ls, ?_⟩, h.layout.kept (fun x hx => ?_) (fun x hx => ?_) (fun j _ => by rw [hm.table])
    fun j hj => ?_, ?_⟩
  · rw [hm.caps]
    exact hc.setSame hlive (sameTarget_setRootMapped hroot)
  · by_cases hxs : x = slot
    · rw [hcap, if_pos hxs, hxs]
      exact ⟨hroot, getRootPtr_setRootMapped⟩
    · have hx : getCapType (s'.ctes x).cap = rootTag a := hx
      rw [hpool x hxs] at hx ⊢
      exact ⟨hx, rfl⟩
  · refine hpool x fun hxs => ?_
    have hx : getCapType (s'.ctes x).cap = .asidPoolCap := hx
    rw [hcap, if_pos hxs, getCapType_setRootMapped, hroot] at hx
    exact asidPoolCap_ne_rootTag hx.symm
  · rw [hm.table] at hj
    obtain ⟨x, hx, hptr⟩ := h.layout.pools j hj
    refine ⟨x, ?_, hptr⟩
    show getCapType (s'.ctes x).cap = _
    rw [hpool x (hslot x hx)]
    exact hx
  · refine h.consistent.assign (x := slot) (o := getRootPtr a (s.ctes slot).cap) ?_ hm.asid_ne ?_
      fun j q hj => hm.find_cases hc h.layout hlt hbase hj
    · exact rootInfo_eq_some.mpr ⟨hroot, rfl, if_pos hm.unmapped⟩
    · funext x
      show rootInfo a (s'.ctes x).cap = _
      rw [hcap, update_apply]
      split
      · refine rootInfo_eq_some.mpr ⟨?_, getRootPtr_setRootMapped, ?_⟩
        · rw [getCapType_setRootMapped, hroot]
        · rw [getRootIsMapped_setRootMapped, getRootAsid_setRootMapped (hm.toNat_asid hlt hbase).2]
          rfl
      · rfl

end Rel4.Kernel
