import Rel4.Kernel.AsidTable
import Rel4.Kernel.CapRun

/-!
The ASID table over whole runs.

Deleting a pool only takes entries away. The last cap of a root has to take the
entry of the root with it; on aarch64 it takes that of ASID 1, whatever the ASID
of the root is (`AsidInv.rootDeletable`).
-/

namespace Rel4.Kernel
open Lib.Bitfield Common CSpace Rel4.Task VSpace Function

variable {cap : CapT} {static : Word → Prop} {a : Arch}
  {s s' : KernelState} {asid root w x slot : Word} {e : ExceptionT}

/-! ## Deletion -/

section Deletion

variable {cap : CapT} {vspace : Word}

/-- The caps that the ASID table is about. -/
def AsidTag (a : Arch) (t : CapTag) : Prop := t = rootTag a ∨ t = .asidPoolCap

theorem finaliseCap_arch (ht : AsidTag a (getCapType cap))
    (h : finaliseCap a s cap final = .ok (s', fc)) :
    archFinaliseCap a s cap final = .ok s' ∧ fc = ⟨newNullCap, newNullCap⟩ := by
  obtain ⟨r, hr, h⟩ := bind_eq_ok.mp h
  have himm : finaliseImmediate a s cap final =
      (archFinaliseCap a s cap final >>= fun s => return some s) := by
    unfold finaliseImmediate
    rcases ht with ht | ht
    · rcases rootTag_cases with e | e <;> rw [ht, e]
    · rw [ht]
  rw [himm] at hr
  obtain ⟨s₁, hs, hr⟩ := bind_eq_ok.mp hr
  cases hr
  cases h
  exact ⟨hs, rfl⟩

section

variable (ht : AsidTag a (s.ctes.capType slot))
  (h : deleteAll a strict fuel s slot true = .ok (s', e))
include ht h

/-- Deleting an architecture cap: what `Arch_finaliseCap` does, and an empty slot. -/
theorem deleteAll_arch :
    ∃ s₁, archFinaliseCap a s (s.ctes slot).cap (isFinalCap a s.ctes slot) = .ok s₁ ∧
      capSpace s' = { capSpace s with slots := setEmpty a s.ctes slot } ∧
      s'.asidTable = s₁.asidTable ∧ s'.userMemory = s₁.userMemory := by
  have hlive : s.ctes.capType slot ≠ .nullCap := by
    intro hnull
    rw [AsidTag, hnull] at ht
    rcases ht with ht | ht
    · rcases rootTag_cases with e | e <;> rw [e] at ht <;> cases ht
    · cases ht
  have hrem : ∀ {s₁ fc}, finaliseCap a s (s.ctes slot).cap (isFinalCap a s.ctes slot) =
      .ok (s₁, fc) → fc.remainder = newNullCap := by
    intro s₁ fc hfc
    rw [(finaliseCap_arch ht hfc).2]
  obtain ⟨s₁, fc, hfc, rfl, -⟩ := deleteAll_removable hlive hrem h
  obtain ⟨harch, rfl⟩ := finaliseCap_arch ht hfc
  have hcaps : capSpace s₁ = capSpace s := by
    have herase : eraseVSpace s₁ = eraseVSpace s := VSpaceEq.archFinaliseCap harch
    have hspace := congrArg capSpace herase
    exact hspace
  refine ⟨s₁, harch, ?_, ?_, ?_⟩
  · have hctes : s₁.ctes = s.ctes := congrArg CapSpace.slots hcaps
    rw [← hcaps, ← hctes, ← ctes_setEmptySlot]
    unfold setEmptySlot postCapDeletion
    split <;> rfl
  · unfold setEmptySlot postCapDeletion
    split <;> rfl
  · unfold setEmptySlot postCapDeletion
    split <;> rfl

theorem capType_deleteAll_arch :
    s'.ctes.capType x = if x = slot then .nullCap else s.ctes.capType x := by
  obtain ⟨-, -, hcaps, -⟩ := deleteAll_arch ht h
  have hctes : s'.ctes = setEmpty a s.ctes slot := congrArg CapSpace.slots hcaps
  rw [hctes, capType_setEmpty]

end

theorem setVmRoot_pools : (setVmRoot a s cap).1.asidTable = s.asidTable ∧
    (setVmRoot a s cap).1.userMemory = s.userMemory := by
  unfold setVmRoot
  cases a with
  | riscv64 =>
    simp only
    split
    · exact ⟨rfl, rfl⟩
    · split <;> exact ⟨rfl, rfl⟩
  | aarch64 => exact ⟨rfl, rfl⟩

theorem recordLookupFault_pools (r : KernelState × Option (Words 2)) :
    (recordLookupFault r).asidTable = r.1.asidTable ∧
      (recordLookupFault r).userMemory = r.1.userMemory := by
  unfold recordLookupFault
  split <;> exact ⟨rfl, rfl⟩

theorem findVspaceForAsid_congr (htable : s'.asidTable = s.asidTable)
    (hmem : s'.userMemory = s.userMemory) :
    findVspaceForAsid a s' asid = findVspaceForAsid a s asid := by
  rw [findVspaceForAsid, asidPoolOf, htable, hmem, findVspaceForAsid, asidPoolOf]

/-- `s'` is `s` with some words of the memory cleared. -/
structure ClearsMemory (s s' : KernelState) : Prop where
  table : s'.asidTable = s.asidTable
  memory : ∀ w, s'.userMemory w = s.userMemory w ∨ s'.userMemory w = 0

theorem ClearsMemory.find (h : ClearsMemory s s')
    (hr : findVspaceForAsid a s' asid = some root) : findVspaceForAsid a s asid = some root :=
  findVspaceForAsid_of_cleared (.inl (congrFun h.table _)) h.memory hr

theorem clearsMemory_refl : ClearsMemory s s := ⟨rfl, fun _ => .inl rfl⟩

theorem clearsMemory_update (w : Word) :
    ClearsMemory s (setMemory s (update s.userMemory w 0)) := by
  refine ⟨rfl, fun x => ?_⟩
  show update s.userMemory w 0 x = _ ∨ _
  rw [update_apply]
  split
  next hx => exact .inr (by rw [hx]; exact update_self ..)
  next => exact .inl rfl

/-- What `deleteASID` writes. -/
theorem deleteASID_memory (a : Arch) (s : KernelState) (asid vspace : Word) :
    (deleteASID a s asid vspace).asidTable = s.asidTable ∧
      (deleteASID a s asid vspace).userMemory =
        if asidPoolOf s asid ≠ 0 ∧
            holdsVspace a (s.userMemory (poolEntry (asidPoolOf s asid) asid)) vspace then
          update s.userMemory (poolEntry (asidPoolOf s asid) asid) 0
        else s.userMemory := by
  unfold deleteASID deleteAsid
  simp only
  split
  next =>
    obtain ⟨h₁, h₂⟩ := recordLookupFault_pools (setVmRoot a (setMemory s (update s.userMemory
      (poolEntry (asidPoolOf s asid) asid) 0)) (vtableCap a s s.ksCurThread))
    exact ⟨h₁.trans setVmRoot_pools.1, h₂.trans setVmRoot_pools.2⟩
  next => exact recordLookupFault_pools (s, none)

theorem clearsMemory_deleteASID : ClearsMemory s (deleteASID a s asid vspace) := by
  obtain ⟨htable, hmem⟩ := deleteASID_memory a s asid vspace
  refine ⟨htable, fun w => ?_⟩
  rw [hmem]
  split
  · exact (clearsMemory_update (poolEntry (asidPoolOf s asid) asid)).memory w
  · exact .inl rfl

theorem holdsVspace_of_poolRoot (h : poolRoot a w = some vspace) : holdsVspace a w vspace = true := by
  cases a with
  | riscv64 =>
    have hw : (if w = 0 then none else some w) = some vspace := h
    split at hw
    · cases hw
    · exact decide_eq_true (Option.some.inj hw)
  | aarch64 => exact decide_eq_true h

/-- After `deleteASID` the ASID does not resolve to the root. -/
theorem find_deleteASID : findVspaceForAsid a (deleteASID a s asid vspace) asid ≠ some vspace := by
  intro h
  obtain ⟨hpool, hroot⟩ := findVspaceForAsid_eq_some.mp (clearsMemory_deleteASID.find h)
  obtain ⟨htable, hmem⟩ := deleteASID_memory a s asid vspace
  rw [if_pos ⟨hpool, holdsVspace_of_poolRoot hroot⟩] at hmem
  obtain ⟨-, hroot'⟩ := findVspaceForAsid_eq_some.mp h
  rw [asidPoolOf, htable, ← asidPoolOf, hmem, update_self, poolRoot_zero] at hroot'
  cases hroot'

/-- `deleteASID` leaves the other ASIDs alone. -/
theorem AsidLayout.find_deleteASID_of_ne (h : AsidLayout a s) (hc : CapInv a static (capSpace s) ls)
    (hne : asid' ≠ asid) (hr : findVspaceForAsid a s asid' = some root) :
    findVspaceForAsid a (deleteASID a s asid vspace) asid' = some root := by
  obtain ⟨htable, hmem⟩ := deleteASID_memory a s asid vspace
  obtain ⟨hpool, hroot⟩ := findVspaceForAsid_eq_some.mp hr
  refine findVspaceForAsid_eq_some.mpr ?_
  rw [asidPoolOf, htable, ← asidPoolOf]
  refine ⟨hpool, ?_⟩
  rw [hmem]
  split
  next hhold =>
    rw [update_of_ne (h.poolEntry_ne hc hpool hhold.1 hne)]
    exact hroot
  next => exact hroot

theorem archFinaliseCap_pool (ht : getCapType cap = .asidPoolCap)
    (h : archFinaliseCap a s cap final = .ok s') :
    s'.userMemory = s.userMemory ∧
      (∀ i, s'.asidTable i = s.asidTable i ∨ s'.asidTable i = 0) ∧
      (final = true → asidPoolOf s (getAsidBase a cap) = getAsidPool a cap →
        asidPoolOf s' (getAsidBase a cap) = 0) := by
  unfold archFinaliseCap at h
  simp only [ht] at h
  split at h
  next =>
    cases h
    unfold deleteASIDPool deleteAsidPool
    split
    next =>
      obtain ⟨h₁, h₂⟩ := recordLookupFault_pools (setVmRoot a (setAsidPool s
        (getAsidBase a cap >>> asidLowBits) 0) (vtableCap a s s.ksCurThread))
      have htable : ∀ i, (setAsidPool s (getAsidBase a cap >>> asidLowBits) 0).asidTable i =
          if i = getAsidBase a cap >>> asidLowBits then 0 else s.asidTable i :=
        fun i => update_apply ..
      refine ⟨h₂.trans setVmRoot_pools.2, fun i => ?_, fun _ _ => ?_⟩
      · rw [h₁, setVmRoot_pools.1, htable]
        split
        · exact .inr rfl
        · exact .inl rfl
      · rw [asidPoolOf, h₁, setVmRoot_pools.1, htable, if_pos rfl]
    next hne => exact ⟨rfl, fun i => .inl rfl, fun _ hpool => absurd hpool hne⟩
  next hfinal =>
    cases h
    exact ⟨rfl, fun i => .inl rfl, fun hf => absurd hf hfinal⟩

theorem rootInfo_setEmpty (σ : Slots) (x : Word) : (fun y => rootInfo a (setEmpty a σ x y).cap) =
      update (fun y => rootInfo a (σ y).cap) x none := by
  funext y
  rw [update_apply, cap_setEmpty]
  by_cases hy : y = x
  · rw [if_pos hy]
    split
    · exact rootInfo_eq_none capType_newNullCap nullCap_ne_rootTag
    next hnull =>
      rw [hy] at hnull ⊢
      exact rootInfo_eq_none (not_not.mp fun h => hnull ⟨rfl, h⟩) nullCap_ne_rootTag
  · rw [if_neg hy, if_neg fun h => hy h.1]

variable {static : Word → Prop}

theorem CapInv.deleteArch (hc : CapInv a static (capSpace s) ls)
    (ht : AsidTag a (s.ctes.capType slot))
    (hcaps : capSpace s' = { capSpace s with slots := setEmpty a s.ctes slot }) :
    ∃ ls', CapInv a static (capSpace s') ls' := by
  rw [hcaps]
  refine ⟨_, hc.erase fun y _ _ hs => ?_⟩
  obtain ⟨i, hi, -⟩ := hs
  have hcount : slotCount a (s.ctes slot).cap = 0 := by
    have ht : AsidTag a (getCapType (s.ctes slot).cap) := ht
    unfold slotCount
    rcases ht with ht | ht
    · rcases rootTag_cases with e | e <;> rw [ht, e]
    · rw [ht]
  exact absurd (hcount ▸ hi) (Nat.not_lt_zero i)

/-- The layout after a cap has been deleted; the pools of the table must still have
caps. -/
theorem AsidLayout.delete (h : AsidLayout a s)
    (hcaps : capSpace s' = { capSpace s with slots := setEmpty a s.ctes slot })
    (htable : ∀ i, s'.asidTable i ≠ 0 → s'.asidTable i = s.asidTable i)
    (hpools : ∀ i, s'.asidTable i ≠ 0 → ∃ x, x ≠ slot ∧ s.ctes.capType x = .asidPoolCap ∧
      getAsidPool a (s.ctes x).cap = s.asidTable i) : AsidLayout a s' := by
  have hctes : s'.ctes = setEmpty a s.ctes slot := congrArg CapSpace.slots hcaps
  have hsame : ∀ {x t}, s'.ctes.capType x = t → t ≠ .nullCap → (s'.ctes x).cap = (s.ctes x).cap := by
    rintro x t rfl hx
    rw [hctes, capType_setEmpty] at hx
    rw [hctes, cap_setEmpty, if_neg fun h => hx (if_pos h.1)]
  refine h.kept (fun x hx => ?_) (fun x hx => hsame hx (by decide)) htable fun i hi => ?_
  · have hx' : getCapType (s'.ctes x).cap = rootTag a := hx
    rw [hsame hx nullCap_ne_rootTag.symm] at hx' ⊢
    exact ⟨hx', rfl⟩
  · obtain ⟨x, hxs, hx, hptr⟩ := hpools i hi
    refine ⟨x, ?_, hptr⟩
    rw [hctes, capType_setEmpty, if_neg hxs]
    exact hx

/-- Deleting a pool cap; the last one takes the pool out of the table. -/
theorem AsidInv.deletePool (h : AsidInv a static s) (ht : s.ctes.capType slot = .asidPoolCap)
    (hdel : deleteAll a strict fuel s slot true = .ok (s', e)) : AsidInv a static s' := by
  obtain ⟨ls, hc⟩ := h.caps
  obtain ⟨s₁, harch, hcaps, htable, hmem⟩ := deleteAll_arch (.inr ht) hdel
  obtain ⟨hmem₁, htable₁, hgone⟩ := archFinaliseCap_pool ht harch
  rw [asidPoolOf, asidPoolOf, ← htable] at hgone
  rw [← htable] at htable₁
  rw [← hmem] at hmem₁
  have hkeep : ∀ i, s'.asidTable i ≠ 0 → s'.asidTable i = s.asidTable i :=
    fun i hi => (htable₁ i).resolve_right hi
  refine ⟨hc.deleteArch (.inr ht) hcaps, h.layout.delete hcaps hkeep fun i hi => ?_, ?_⟩
  · have hbefore : s.asidTable i ≠ 0 := hkeep i hi ▸ hi
    obtain ⟨x, hx, hptr⟩ := h.layout.pools i hbefore
    by_cases hxs : x = slot
    · -- the cap was not the last one, or the pool would be gone
      subst hxs
      have hindex := h.layout.index x i hx hbefore hptr
      have hnot : isFinalCap a s.ctes x ≠ true := by
        intro hfinal
        rw [hindex] at hgone
        exact hi (hgone hfinal hptr.symm)
      have hnamed : ((capSpace s).slots.capType x).named = true := by
        show (s.ctes.capType x).named = true
        rw [hx]
        rfl
      have hother := mt (hc.isFinalCap_iff hnamed).mpr hnot
      push Not at hother
      obtain ⟨y, hyx, hs⟩ := hother
      have hkey : objKey a (s.ctes x).cap = objKey a (s.ctes y).cap :=
        (sameObjectAs_iff hnamed).mp (Bool.not_eq_false _ ▸ hs)
      have hx' : getCapType (s.ctes x).cap = .asidPoolCap := hx
      have hy : getCapType (s.ctes y).cap = .asidPoolCap := (capType_eq_of_key hkey).symm.trans hx'
      refine ⟨y, hyx, hy, ?_⟩
      rw [← hptr, ← objBase_pool hx', ← objBase_pool hy]
      exact objBase_of_key hkey.symm (by rw [hx']; rfl)
    · exact ⟨x, hxs, hx, hptr⟩
  · refine h.consistent.release ?_ fun j o hj =>
      findVspaceForAsid_of_cleared (htable₁ _) (fun w => .inl (congrFun hmem₁ w)) hj
    have hctes : s'.ctes = setEmpty a s.ctes slot := congrArg CapSpace.slots hcaps
    show (fun x => rootInfo a (s'.ctes x).cap) = fun x => rootInfo a (s.ctes x).cap
    rw [hctes, rootInfo_setEmpty, update_eq_self_iff]
    exact (rootInfo_eq_none ht asidPoolCap_ne_rootTag).symm

end Deletion

/-! ## Deleting a root -/

/-- No other slot has a cap for the root of the cap in `x`. -/
def RootFinal (a : Arch) (s : KernelState) (x : Word) : Prop :=
  ∀ y, y ≠ x → s.ctes.capType y = rootTag a →
    getRootPtr a (s.ctes y).cap ≠ getRootPtr a (s.ctes x).cap

/-- On root caps `same_object_as` compares the tables. -/
theorem sameObjectAs_roots (hc : getCapType c = rootTag a) (h : sameObjectAs a c c' = true) :
    getCapType c' = rootTag a ∧ getRootPtr a c' = getRootPtr a c := by
  have hn := sameObjectAs_named h
  have hk := (sameObjectAs_iff hn).mp h
  have hc' : getCapType c' = rootTag a := (capType_eq_of_key hk).symm.trans hc
  rw [← objBase_root hc, ← objBase_root hc']
  exact ⟨hc', objBase_of_key hk.symm hn⟩

/-- The only cap of a root is recognised as final. -/
theorem RootFinal.isFinalCap (h : RootFinal a s x) (hls : MdbInv a s.ctes ls)
    (hx : s.ctes.capType x = rootTag a) : isFinalCap a s.ctes x = true := by
  have hlive : s.ctes.capType x ≠ .nullCap := by
    rw [hx]
    cases a <;> decide
  have haddr := hls.slotAddr hlive
  refine isFinalCap_eq_true_iff.mpr ⟨fun _ => ?_, fun _ => ?_⟩
  · refine Bool.eq_false_iff.mpr fun hs => ?_
    obtain ⟨ht, hptr⟩ := sameObjectAs_roots hx (sameObjectAs_symm hs)
    exact h _ (hls.mdbWF.prev_ne_self haddr) ht hptr
  · refine Bool.eq_false_iff.mpr fun hs => ?_
    obtain ⟨ht, hptr⟩ := sameObjectAs_roots hx hs
    exact h _ (hls.mdbWF.next_ne_self haddr) ht hptr

/-- Finalising a root clears words of the memory at most. On riscv64 the ASID of a
final cap no longer resolves to the root. -/
theorem finalisePageTable_riscv64 (h : finalisePageTable .riscv64 s cap = .ok s') :
    ClearsMemory s s' ∧
      findVspaceForAsid .riscv64 s' (getPtMappedAsid .riscv64 cap) ≠
        some (getPtBasePtr .riscv64 cap) := by
  obtain ⟨s₁, hs, h⟩ := bind_eq_ok.mp h
  cases h
  have hpools := recordLookupFault_pools (s₁,
    if findVspaceForAsid .riscv64 s (getPtMappedAsid .riscv64 cap) = none then
      some fun _ => (0 : Word) else none)
  suffices hsuff : ClearsMemory s s₁ ∧
      findVspaceForAsid .riscv64 s₁ (getPtMappedAsid .riscv64 cap) ≠
        some (getPtBasePtr .riscv64 cap) by
    refine ⟨⟨hpools.1.trans hsuff.1.table, fun w => ?_⟩, ?_⟩
    · rw [hpools.2]
      exact hsuff.1.memory w
    · rw [findVspaceForAsid_congr hpools.1 hpools.2]
      exact hsuff.2
  unfold deleteOrUnmap at hs
  split at hs
  · cases hs
    exact ⟨clearsMemory_deleteASID, find_deleteASID⟩
  rename_i hfind
  have hclear : ClearsMemory s s₁ := by
    rcases unmapPageTable_cases hs with rfl | ⟨slot, rfl⟩
    · exact clearsMemory_refl
    · exact clearsMemory_update _
  exact ⟨hclear, fun hr => hfind (hclear.find hr)⟩

theorem getVsIsMapped_eq_one (h : getVsIsMapped a cap ≠ 0) : getVsIsMapped a cap = 1 := by
  have hlt : (getVsIsMapped a cap).toNat < 2 := toNat_get_lt rfl rfl (by decide)
  have hne : (getVsIsMapped a cap).toNat ≠ 0 := fun h0 => h (BitVec.eq_of_toNat_eq h0)
  have hone : (getVsIsMapped a cap).toNat = 1 := by omega
  exact BitVec.eq_of_toNat_eq hone

/-- The ASID whose entry goes with the last cap of a root: that of the cap on
riscv64, the mapped flag of the cap on aarch64. -/
def deletedAsid (a : Arch) (cap : CapT) : Word :=
  match a with
  | .riscv64 => getPtMappedAsid a cap
  | .aarch64 => getVsIsMapped a cap

theorem archFinaliseCap_root (ht : getCapType cap = rootTag a)
    (h : archFinaliseCap a s cap final = .ok s') :
    ClearsMemory s s' ∧ (final = true → getRootIsMapped a cap ≠ 0 →
      findVspaceForAsid a s' (deletedAsid a cap) ≠ some (getRootPtr a cap)) := by
  cases a with
  | riscv64 =>
    have ht : getCapType cap = .pageTableCap := ht
    simp only [archFinaliseCap, ht] at h
    split at h
    · obtain ⟨hclear, hfind⟩ := finalisePageTable_riscv64 h
      exact ⟨hclear, fun _ _ => hfind⟩
    next hnot =>
      cases h
      exact ⟨clearsMemory_refl, fun hf hm => absurd ⟨hf, hm⟩ hnot⟩
  | aarch64 =>
    have ht : getCapType cap = .vspaceCap := ht
    simp only [archFinaliseCap, ht, true_and] at h
    split at h
    · cases h
      exact ⟨clearsMemory_deleteASID, fun _ _ => find_deleteASID⟩
    next hnot =>
      cases h
      exact ⟨clearsMemory_refl, fun hf hm => absurd ⟨hf, getVsIsMapped_eq_one hm⟩ hnot⟩

/-- On aarch64, a root with an ASID other than 1 keeps its entry when its last cap
is deleted; this is the condition that it has no such ASID. -/
def RootDeletable (a : Arch) (s : KernelState) (x : Word) : Prop :=
  a = .aarch64 → RootFinal a s x →
    ∀ asid, findVspaceForAsid a s asid = some (getRootPtr a (s.ctes x).cap) → asid = 1

/-- The root of a cap that was the last one is not found any more. -/
def RootGone (a : Arch) (s s' : KernelState) (x : Word) : Prop :=
  RootFinal a s x → ∀ asid, findVspaceForAsid a s' asid ≠ some (getRootPtr a (s.ctes x).cap)

section DeleteRoot

variable {static : Word → Prop}

section

variable (h : AsidInv a static s) (ht : s.ctes.capType slot = rootTag a)
  (hdel : deleteAll a strict fuel s slot true = .ok (s', e))
include h ht hdel

theorem AsidInv.rootGone (hok : RootDeletable a s slot) : RootGone a s s' slot := by
  intro hfinal asid hr
  obtain ⟨ls, hc⟩ := h.caps
  obtain ⟨s₁, harch, -, htable, hmem⟩ := deleteAll_arch (.inl ht) hdel
  rw [findVspaceForAsid_congr htable hmem] at hr
  obtain ⟨hclear, hgone⟩ := archFinaliseCap_root ht harch
  have hbefore := hclear.find hr
  -- the cap carries the ASID that the table has for its root
  have htag := h.consistent.tag_eq hbefore (rootInfo_eq_some.mpr ⟨ht, rfl, rfl⟩)
  by_cases hm : getRootIsMapped a (s.ctes slot).cap = 0
  · rw [if_pos hm] at htag
    cases htag
  rw [if_neg hm] at htag
  have hasid : deletedAsid a (s.ctes slot).cap = asid := by
    cases a with
    | riscv64 => exact Option.some.inj htag
    | aarch64 =>
      rw [hok rfl hfinal asid hbefore]
      exact getVsIsMapped_eq_one hm
  have hnot := hgone (hfinal.isFinalCap hc.mdb ht) hm
  rw [hasid] at hnot
  exact hnot hr

/-- Deleting a root cap. -/
theorem AsidInv.deleteRoot (hok : RootDeletable a s slot) : AsidInv a static s' := by
  obtain ⟨ls, hc⟩ := h.caps
  obtain ⟨s₁, harch, hcaps, htable, hmem⟩ := deleteAll_arch (.inl ht) hdel
  obtain ⟨hclear, -⟩ := archFinaliseCap_root ht harch
  have hgone := h.rootGone ht hdel hok
  have hsame : s'.asidTable = s.asidTable := htable.trans hclear.table
  refine ⟨hc.deleteArch (.inl ht) hcaps, h.layout.delete hcaps (fun i _ => by rw [hsame])
    fun i hi => ?_, ?_⟩
  · obtain ⟨x, hx, hptr⟩ := h.layout.pools i (hsame ▸ hi)
    refine ⟨x, ?_, hx, hptr⟩
    rintro rfl
    exact asidPoolCap_ne_rootTag (hx.symm.trans ht)
  · refine h.consistent.drop (x := slot) ?_ (fun j o hj => ?_) fun j o hx hj => ?_
    · have hctes : s'.ctes = setEmpty a s.ctes slot := congrArg CapSpace.slots hcaps
      show (fun x => rootInfo a (s'.ctes x).cap) = _
      rw [hctes, rootInfo_setEmpty]
      rfl
    · rw [show (asidRegistry a s').owner j = findVspaceForAsid a s₁ j from
        findVspaceForAsid_congr htable hmem] at hj
      exact hclear.find hj
    · obtain ⟨-, rfl, -⟩ := rootInfo_eq_some.mp hx
      by_contra hother
      refine hgone (fun y hy hyt hptr => hother ?_) j hj
      exact ⟨y, _, hy, rootInfo_eq_some.mpr ⟨hyt, hptr, rfl⟩⟩

/-- The root of a last cap is gone only if the condition holds. -/
theorem AsidInv.rootDeletable (hgone : RootGone a s s' slot) : RootDeletable a s slot := by
  rintro rfl hfinal asid hr
  by_contra hne
  obtain ⟨ls, hc⟩ := h.caps
  obtain ⟨s₁, harch, -, htable, hmem⟩ := deleteAll_arch (.inl ht) hdel
  refine hgone hfinal asid ?_
  rw [findVspaceForAsid_congr htable hmem]
  have ht : getCapType (s.ctes slot).cap = .vspaceCap := ht
  simp only [archFinaliseCap, ht, true_and] at harch
  split at harch
  next hm =>
    cases harch
    rw [hm.2]
    exact h.layout.find_deleteASID_of_ne hc hne hr
  · cases harch
    exact hr

end

end DeleteRoot

/-! ## Runs -/

/-- Slots and ASID table stay, and so do the words of the pools. -/
structure KeepsAsids (s s' : KernelState) : Prop where
  caps : capSpace s' = capSpace s
  table : s'.asidTable = s.asidTable
  memory : ∀ i asid, s.asidTable i ≠ 0 →
    s'.userMemory (poolEntry (s.asidTable i) asid) = s.userMemory (poolEntry (s.asidTable i) asid)

theorem KeepsAsids.find (h : KeepsAsids s s') :
    findVspaceForAsid a s' asid = findVspaceForAsid a s asid := by
  have hpool : asidPoolOf s' asid = asidPoolOf s asid := by
    rw [asidPoolOf, h.table, asidPoolOf]
  unfold findVspaceForAsid
  simp only [hpool]
  split
  · rfl
  next hne => rw [asidPoolOf, h.memory _ _ hne]

theorem Reports.keepsAsids (h : Reports s s') : KeepsAsids s s' where
  caps := h.proj capSpace
  table := h.proj (·.asidTable)
  memory _ _ _ := by rw [h.proj (·.userMemory)]

theorem AsidInv.keeps (h : AsidInv a static s) (hk : KeepsAsids s s') : AsidInv a static s' := by
  obtain ⟨ls, hc⟩ := h.caps
  have hctes : s'.ctes = s.ctes := congrArg CapSpace.slots hk.caps
  refine ⟨⟨ls, hk.caps ▸ hc⟩, h.layout.kept (fun x hx => ?_) (fun x _ => by rw [hctes])
    (fun i _ => by rw [hk.table]) fun i hi => ?_, ?_⟩
  · rw [hctes] at hx ⊢
    exact ⟨hx, rfl⟩
  · rw [hk.table] at hi
    rw [hctes]
    exact h.layout.pools i hi
  · refine h.consistent.release ?_ fun j o hj => ?_
    · show (fun x => rootInfo a (s'.ctes x).cap) = fun x => rootInfo a (s.ctes x).cap
      rw [hctes]
    · exact hk.find.symm.trans hj

inductive AsidOp where
  | makePool (label : MessageLabel) (length buffer : Word)
  | assign (label : MessageLabel) (cte : Word)
  | delete (fuel : Nat) (slot : Word)
  /-- Anything that leaves the slots, the ASID table and the pools alone. -/
  | other

namespace AsidOp

/-- The operation takes `s` to `s'`. Assignments come through a pool cap, and the
caps that are deleted are pool caps and root caps. -/
def Runs (a : Arch) (s s' : KernelState) : AsidOp → Prop
  | .makePool label length buffer =>
    ∃ e, decodeAsidControl a s label length buffer = .ok (s', e)
  | .assign label cte =>
    s.ctes.capType cte = .asidPoolCap ∧ ∃ e, decodeAsidPool a s label cte = (s', e)
  | .delete fuel slot =>
    AsidTag a (s.ctes.capType slot) ∧ ∃ e, deleteAll a false fuel s slot true = .ok (s', e)
  | .other => KeepsAsids s s'

/-- A root cap is deleted only if `Arch_finaliseCap` can take its entry away. -/
def Safe (a : Arch) (s : KernelState) : AsidOp → Prop
  | .delete _ slot => s.ctes.capType slot = rootTag a → RootDeletable a s slot
  | _ => True

/-- The deletion of a last root cap leaves no entry for the root. -/
def Detaches (a : Arch) (s s' : KernelState) : AsidOp → Prop
  | .delete _ slot => s.ctes.capType slot = rootTag a → RootGone a s s' slot
  | _ => True

end AsidOp

/-- One step. -/
theorem AsidInv.runs (h : AsidInv a static s) {op : AsidOp} (hop : op.Runs a s s')
    (hsafe : op.Safe a s) : AsidInv a static s' ∧ op.Detaches a s s' := by
  cases op with
  | makePool label length buffer =>
    obtain ⟨e, hrun⟩ := hop
    refine ⟨?_, trivial⟩
    rcases decodeAsidControl_cases hrun with ⟨-, hrep⟩ | ⟨-, parent, dest, i, hm⟩
    · exact h.keeps hrep.keepsAsids
    · exact h.makePool hm
  | assign label cte =>
    obtain ⟨hcte, e, hrun⟩ := hop
    refine ⟨?_, trivial⟩
    rcases decodeAsidPool_cases hrun with ⟨-, hrep⟩ | ⟨-, slot, i, hm⟩
    · exact h.keeps hrep.keepsAsids
    · exact h.assign hcte hm
  | delete fuel slot =>
    obtain ⟨ht, e, hdel⟩ := hop
    rcases ht with ht | ht
    · exact ⟨h.deleteRoot ht hdel (hsafe ht), fun _ => h.rootGone ht hdel (hsafe ht)⟩
    · refine ⟨h.deletePool ht hdel, fun hroot => ?_⟩
      exact absurd (ht.symm.trans hroot) asidPoolCap_ne_rootTag
  | other => exact ⟨h.keeps hop, trivial⟩

structure AsidStep where
  before : KernelState
  op : AsidOp
  after : KernelState

/-- `s` is reached from `s₀` by the steps. -/
inductive AsidRun (a : Arch) (s₀ : KernelState) : List AsidStep → KernelState → Prop
  | nil : AsidRun a s₀ [] s₀
  | snoc {steps : List AsidStep} {s s' : KernelState} {op : AsidOp} :
    AsidRun a s₀ steps s → op.Runs a s s' → AsidRun a s₀ (steps ++ [⟨s, op, s'⟩]) s'

/-- A live cap in `x` is marked mapped with the ASID and is for the root. -/
def MarkedRoot (a : Arch) (s : KernelState) (asid root x : Word) : Prop :=
  s.ctes.capType x = rootTag a ∧ getRootPtr a (s.ctes x).cap = root ∧
    getRootIsMapped a (s.ctes x).cap ≠ 0 ∧ getRootAsid a (s.ctes x).cap = asid

/-- What the table promises. An ASID has one root, as `findVspaceForAsid` is a
function. -/
structure AsidsConsistent (a : Arch) (s : KernelState) : Prop where
  marked : ∀ asid root, findVspaceForAsid a s asid = some root → ∃ x, MarkedRoot a s asid root x
  zero : findVspaceForAsid a s 0 = none
  unique : ∀ asid asid' root, findVspaceForAsid a s asid = some root →
    findVspaceForAsid a s asid' = some root → asid = asid'

theorem AsidInv.asidsConsistent (h : AsidInv a static s) : AsidsConsistent a s where
  marked asid root hr := by
    obtain ⟨x, hx⟩ := h.consistent.sound hr
    obtain ⟨ht, hptr, hasid⟩ := rootInfo_eq_some.mp hx
    split at hasid
    · cases hasid
    next hm => exact ⟨x, ht, hptr, hm, Option.some.inj hasid⟩
  zero := h.consistent.reserved_free
  unique _ _ _ hr hr' := h.consistent.owner_inj hr hr'

/-- In a run whose steps are safe, the invariant holds throughout. -/
theorem AsidRun.asidInv {s₀ : KernelState} {steps : List AsidStep} (h : AsidRun a s₀ steps s)
    (h₀ : AsidInv a static s₀) (hsafe : ∀ st ∈ steps, st.op.Safe a st.before) :
    AsidInv a static s ∧
      ∀ st ∈ steps, AsidInv a static st.after ∧ st.op.Detaches a st.before st.after := by
  induction h with
  | nil => exact ⟨h₀, fun st hst => by cases hst⟩
  | snoc _ hop ih =>
    obtain ⟨hinv, hsteps⟩ := ih fun st hst => hsafe st (List.mem_append_left _ hst)
    have hlast := hsafe _ (List.mem_append_right _ List.mem_cons_self)
    obtain ⟨hinv', hdet⟩ := hinv.runs hop hlast
    refine ⟨hinv', fun st hst => ?_⟩
    rcases List.mem_append.mp hst with hst | hst
    · exact hsteps st hst
    · rw [List.mem_singleton.mp hst]
      exact ⟨hinv', hdet⟩

/-- In every run whose steps are safe the table is consistent in every state, and the
last cap of a root takes its entry with it. In the states that are reached, deleting
a root cap goes right if and only if the condition on it holds. -/
theorem asidRun_consistent_iff {static : Word → Prop} {s₀ : KernelState} {steps : List AsidStep}
    (h₀ : AsidInv a static s₀) (hrun : AsidRun a s₀ steps s) (hsafe : ∀ st ∈ steps, st.op.Safe a st.before) :
    AsidsConsistent a s ∧
      (∀ st ∈ steps, AsidsConsistent a st.after ∧ st.op.Detaches a st.before st.after) ∧
      ∀ fuel slot s' e, s.ctes.capType slot = rootTag a →
        deleteAll a false fuel s slot true = .ok (s', e) →
        (AsidsConsistent a s' ∧ RootGone a s s' slot ↔ RootDeletable a s slot) := by
  obtain ⟨hinv, hsteps⟩ := hrun.asidInv h₀ hsafe
  refine ⟨hinv.asidsConsistent, fun st hst => ?_, fun fuel slot s' e ht hdel => ?_⟩
  · obtain ⟨hafter, hdet⟩ := hsteps st hst
    exact ⟨hafter.asidsConsistent, hdet⟩
  · refine ⟨fun hok => ?_, fun hok => ?_⟩
    · exact hinv.rootDeletable ht hdel hok.2
    · exact ⟨(hinv.deleteRoot ht hdel hok).asidsConsistent, hinv.rootGone ht hdel hok⟩

/-! ## A pool and a root -/

/-- A cap for a root without an ASID. -/
def newRootCap (a : Arch) (root : Word) : CapT :=
  match a with
  | .riscv64 => newPageTableCap a 0 root 0 0
  | .aarch64 => newVspaceCap 0 root 0

/-- A pool for the ASIDs from 512 on without entries, a root without an ASID, and a
message that asks for one. -/
def poolState (a : Arch) : KernelState :=
  { KernelState.zero with
    ctes := writeSlot (writeSlot (fun _ => emptyCte) (bootSlot a 0)
      (newAsidPoolCap a 512 (pptrBase a + 0x400000))) (bootSlot a 1)
      (newRootCap a (pptrBase a + 0x401000))
    origin := update (fun _ => ⟨0, [], 0⟩) (bootSlot a 1) ⟨1, [], 1⟩
    fresh := 2
    asidTable := fun i => if i = 1 then pptrBase a + 0x400000 else 0
    currentExtraCaps := fun i => if i = 0 then bootSlot a 1 else 0 }

def IsPoolStateSlot (a : Arch) (x : Word) : Prop := x = bootSlot a 0 ∨ x = bootSlot a 1

theorem poolState_live (hx : (poolState a).ctes.capType x ≠ .nullCap) : IsPoolStateSlot a x := by
  by_contra hne
  rw [IsPoolStateSlot, not_or] at hne
  apply hx
  simp only [poolState, writeSlot, Slots.capType_setMdb, Slots.capType_setCap, if_neg hne.1,
    if_neg hne.2]
  exact capType_newNullCap

theorem poolState_boot : Boot a (IsPoolStateSlot a) (poolState a) where
  finite := by
    refine ⟨[bootSlot a 0, bootSlot a 1], by cases a <;> decide, fun x => ⟨?_, fun hx => ?_⟩⟩
    · intro hx
      rcases List.mem_pair.mp hx with rfl | rfl <;> cases a <;> decide
    · rw [List.mem_pair]
      exact poolState_live hx
  unlinked x := by
    simp only [poolState]
    exact unlinked_writeSlot (unlinked_writeSlot unlinked_empty) x
  flags x hx := by
    rcases poolState_live hx with rfl | rfl <;> cases a <;> decide
  ok x hx := by
    rcases poolState_live hx with rfl | rfl <;> cases a <;> constructor <;> decide
  apart x y hx hy hne := by
    rcases poolState_live hx with rfl | rfl <;> rcases poolState_live hy with rfl | rfl
    · exact absurd rfl hne
    · rintro ⟨h1, h2, h3⟩
      revert h1 h2 h3
      cases a <;> decide
    · rintro ⟨h1, h2, h3⟩
      revert h1 h2 h3
      cases a <;> decide
    · exact absurd rfl hne
  resident x hx := .inl (poolState_live hx)
  static_addr x hx := by
    rcases hx with rfl | rfl <;> cases a <;> decide
  static_free x u _ hu := by
    exfalso
    rcases poolState_live (by rw [hu]; decide) with rfl | rfl <;> revert hu <;> cases a <;> decide
  roots x hx := by
    rcases poolState_live hx with rfl | rfl <;> cases a <;> decide
  inj x y hx hy he := by
    rcases poolState_live hx with rfl | rfl <;> rcases poolState_live hy with rfl | rfl
    · rfl
    · revert he
      cases a <;> decide
    · revert he
      cases a <;> decide
    · rfl

theorem poolState_asidInv : AsidInv a (IsPoolStateSlot a) (poolState a) := by
  have hfind : ∀ asid, findVspaceForAsid a (poolState a) asid = none := by
    intro asid
    unfold findVspaceForAsid
    simp only
    split
    · rfl
    · exact poolRoot_zero
  have hpool : ∀ {x}, (poolState a).ctes.capType x = .asidPoolCap → x = bootSlot a 0 := by
    intro x hx
    refine (poolState_live (by rw [hx]; decide)).resolve_right ?_
    rintro rfl
    revert hx
    cases a <;> decide
  have hroot : ∀ {x}, (poolState a).ctes.capType x = rootTag a → x = bootSlot a 1 := by
    intro x hx
    refine (poolState_live (by rw [hx]; exact nullCap_ne_rootTag.symm)).resolve_left ?_
    rintro rfl
    revert hx
    cases a <;> decide
  have hindex : ∀ {i}, (poolState a).asidTable i ≠ 0 →
      i = 1 ∧ (poolState a).asidTable i = pptrBase a + 0x400000 := by
    intro i hi
    have hi : (if i = 1 then pptrBase a + 0x400000 else 0) ≠ 0 := hi
    split at hi
    next h => exact ⟨h, if_pos h⟩
    next => exact absurd rfl hi
  have htag : ∀ {x r}, (asidRegistry a (poolState a)).tag x = some r → x = bootSlot a 1 := by
    intro x r hx
    exact hroot (rootInfo_eq_some.mp hx).1
  refine ⟨poolState_boot.capInv, ⟨fun x hx => ?_, fun x hx => ?_, fun i hi => ?_,
    fun x i hx hi _ => ?_⟩, ⟨fun hi => ?_, fun hx hy => ?_, fun hx hy => ?_, hfind 0⟩⟩
  · rw [hroot hx]
    cases a <;> unfold IsPage <;> decide
  · rw [hpool hx]
    cases a <;> decide
  · rw [(hindex hi).2]
    exact ⟨bootSlot a 0, by cases a <;> decide, by cases a <;> decide⟩
  · rw [hpool hx, (hindex hi).1]
    cases a <;> decide
  · cases (hfind _).symm.trans hi
  · rw [htag hx] at hx
    rw [htag hy] at hy
    cases hx.symm.trans hy
    rfl
  · rw [htag hx, htag hy]

/-- The state after the assignment, which gives the root ASID 512. -/
def assignedState (a : Arch) : KernelState :=
  (decodeAsidPool a (poolState a) (poolAssignLabel a) (bootSlot a 0)).1

/-- The assignment and then the deletion of the only cap of the root. -/
def deleteSteps (a : Arch) (s : KernelState) : List AsidStep :=
  [⟨poolState a, .assign (poolAssignLabel a) (bootSlot a 0), assignedState a⟩,
    ⟨assignedState a, .delete 2 (bootSlot a 1), s⟩]

theorem assign_runs :
    (AsidOp.assign (poolAssignLabel a) (bootSlot a 0)).Runs a (poolState a) (assignedState a) :=
  ⟨by cases a <;> decide, _, rfl⟩

theorem capType_assignedState :
    (assignedState a).ctes.capType x = (poolState a).ctes.capType x := by
  obtain ⟨-, e, hrun⟩ := assign_runs
  rcases decodeAsidPool_cases hrun with ⟨-, hrep⟩ | ⟨-, slot, i, hm⟩
  · rw [hrep.proj (·.ctes)]
  have hslots : (assignedState a).ctes = (poolState a).ctes.setCap slot _ :=
    congrArg CapSpace.slots hm.caps
  rw [hslots, Slots.capType_setCap, getCapType_setRootMapped]
  split
  next hx => rw [hx]; rfl
  next => rfl

theorem deleteSteps_run
    (hdel : deleteAll a false 2 (assignedState a) (bootSlot a 1) true = .ok (s, e)) :
    AsidRun a (poolState a) (deleteSteps a s) s := by
  have hfirst := AsidRun.snoc .nil (assign_runs (a := a))
  have ht : (assignedState a).ctes.capType (bootSlot a 1) = rootTag a := by
    rw [capType_assignedState]
    cases a <;> decide
  have hdelete : (AsidOp.delete 2 (bootSlot a 1)).Runs a (assignedState a) s := ⟨.inl ht, e, hdel⟩
  exact hfirst.snoc hdelete

/-- On riscv64 the deletion takes the entry away. -/
theorem asidRun_consistent_iff_delete :
    findVspaceForAsid .riscv64 (assignedState .riscv64) 512 = some (pptrBase .riscv64 + 0x401000) ∧
      ∃ s, AsidRun .riscv64 (poolState .riscv64) (deleteSteps .riscv64 s) s ∧
        AsidsConsistent .riscv64 s ∧
        RootGone .riscv64 (assignedState .riscv64) s (bootSlot .riscv64 1) := by
  obtain ⟨⟨s, e⟩, hdel, -⟩ := Exec.satisfies_iff.mp (by decide +kernel :
    (deleteAll .riscv64 false 2 (assignedState .riscv64) (bootSlot .riscv64 1) true).satisfies
      (fun _ => true) = true)
  have hrun := deleteSteps_run hdel
  have hsafe : ∀ st ∈ deleteSteps .riscv64 s, st.op.Safe .riscv64 st.before := by
    intro st hst
    rcases List.mem_pair.mp hst with rfl | rfl
    · trivial
    · intro _ harch
      cases harch
  obtain ⟨hcons, hsteps, -⟩ := asidRun_consistent_iff poolState_asidInv hrun hsafe
  have ht : (assignedState .riscv64).ctes.capType (bootSlot .riscv64 1) = rootTag .riscv64 := by
    rw [capType_assignedState]
    decide
  have hlast := (hsteps _ (List.mem_cons_of_mem _ List.mem_cons_self)).2
  simp only [AsidOp.Detaches] at hlast
  have hfind : findVspaceForAsid .riscv64 (assignedState .riscv64) 512 =
      some (pptrBase .riscv64 + 0x401000) := by decide +kernel
  exact ⟨hfind, s, hrun, hcons, hlast ht⟩

/-- On aarch64 the ASID still resolves to the root when no cap for it is left. -/
theorem deleted_root_resolves : AsidInv .aarch64 (IsPoolStateSlot .aarch64) (poolState .aarch64) ∧
      ∃ s, AsidRun .aarch64 (poolState .aarch64) (deleteSteps .aarch64 s) s ∧
        findVspaceForAsid .aarch64 s 512 = some (pptrBase .aarch64 + 0x401000) ∧
        (∀ x, s.ctes.capType x ≠ .vspaceCap) ∧ ¬AsidsConsistent .aarch64 s := by
  obtain ⟨⟨s, e⟩, hdel, hfind⟩ := Exec.satisfies_iff.mp (by decide +kernel :
    (deleteAll .aarch64 false 2 (assignedState .aarch64) (bootSlot .aarch64 1) true).satisfies
      (fun r => findVspaceForAsid .aarch64 r.1 512 = some (pptrBase .aarch64 + 0x401000)) = true)
  have hfind := of_decide_eq_true hfind
  have ht : (assignedState .aarch64).ctes.capType (bootSlot .aarch64 1) = .vspaceCap := by
    rw [capType_assignedState]
    decide
  have hnone : ∀ x, s.ctes.capType x ≠ .vspaceCap := by
    intro x hx
    rw [capType_deleteAll_arch (.inl ht) hdel] at hx
    split at hx
    · cases hx
    rename_i hne
    rw [capType_assignedState] at hx
    rcases poolState_live (by rw [hx]; decide) with rfl | rfl
    · revert hx
      decide
    · exact hne rfl
  refine ⟨poolState_asidInv, s, deleteSteps_run hdel, hfind, hnone, fun hcons => ?_⟩
  obtain ⟨x, hx, -⟩ := hcons.marked _ _ hfind
  exact hnone x hx

end Rel4.Kernel
