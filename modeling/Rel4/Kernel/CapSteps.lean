import Rel4.Kernel.CapInv

/-!
Each operation on the capability space keeps `CapInv`.

The operations are those of `MdbOps`, with the history they write: a new cap
behind its parent, a move, an exchange of two slots that are not neighbours, a
removal, a change of a cap in place, and clearing memory that holds no caps.
-/

namespace Rel4.Kernel
open Lib.Bitfield Lib.DList Lib.Objects Common CSpace Rel4.Task Function

variable {a : Arch} {w w' : CapSpace} {ls : List (List Word)} {x y src dest : Word}
  {c srcCap : CapT} {σ' : Slots} {static : Word → Prop}

/-! ## Changes in place -/

namespace CapSpace

def setCap (w : CapSpace) (x : Word) (c : CapT) : CapSpace := { w with slots := w.slots.setCap x c }

theorem cap_setCap : ((w.setCap x c).slots y).cap = if y = x then c else (w.slots y).cap :=
  Slots.cap_setCap

theorem capType_setCap :
    (w.setCap x c).slots.capType y = if y = x then getCapType c else w.slots.capType y :=
  Slots.capType_setCap

theorem refs_setCap (hc : getCapType c ≠ .nullCap) :
    (w.setCap x c).refs a = update (w.refs a) x (some (refOf a c (w.origin x))) := by
  funext y
  rw [update_apply]
  split
  next h =>
    subst h
    rw [refs_of_live (by rw [capType_setCap, if_pos rfl]; exact hc), cap_setCap, if_pos rfl]
    rfl
  rename_i h
  unfold refs
  rw [capType_setCap, if_neg h, cap_setCap, if_neg h]
  rfl

end CapSpace

theorem CapInv.setCap (h : CapInv a static w ls) (hx : w.slots.capType x ≠ .nullCap) (hc : CapOK a c)
    (hu : getCapType c = .untypedCap →
      w.slots.capType x = .untypedCap ∧ extent a c = extent a (w.slots x).cap)
    (hres : ∀ y ∈ ls.flatten, HasSlot a (w.slots x).cap y → HasSlot a c y)
    (hobj : ObjInv (update (w.refs a) x (some (refOf a c (w.origin x))))) :
    CapInv a static (w.setCap x c) ls where
  mdb := h.mdb.congr (fun _ => Slots.next_setCap) (fun _ => Slots.prev_setCap) fun y => by
    rw [CapSpace.capType_setCap]
    split
    next e => simp [e, hx, hc.kind.1]
    next => rfl
  lineage := h.lineage
  object_lt := h.object_lt
  ok y hy := by
    rw [CapSpace.cap_setCap]
    split
    · exact hc
    · exact h.ok y hy
  obj := by
    rw [CapSpace.refs_setCap hc.kind.1]
    exact hobj
  resident y hy := by
    refine (h.resident y hy).imp_right ?_
    rintro ⟨z, hz, hs⟩
    refine ⟨z, ?_, ?_⟩
    · rw [CapSpace.capType_setCap]
      split
      · exact hc.kind.1
      · exact hz
    · rw [CapSpace.cap_setCap]
      split
      next e =>
        subst e
        exact hres y hy hs
      next => exact hs
  static_addr := h.static_addr
  static_free y u hy ht := by
    rw [CapSpace.capType_setCap] at ht
    rw [CapSpace.cap_setCap]
    split at ht
    next e =>
      subst e
      rw [if_pos rfl, (hu ht).2]
      exact h.static_free y u hy (hu ht).1
    next e =>
      rw [if_neg e]
      exact h.static_free y u hy ht
  revocable y hy ht := by
    have hflags : (w.setCap x c).slots.revocable a y = w.slots.revocable a y :=
      congrArg Prod.fst (Slots.flags_setCap (a := a))
    rw [hflags]
    rw [CapSpace.capType_setCap] at ht
    split at ht
    next e =>
      subst e
      exact h.revocable y hy (hu ht).1
    next => exact h.revocable y hy ht

theorem ne_null_of_capOK (hc : CapOK a c) : getCapType c ≠ .nullCap := hc.kind.1

/-! ### The free index of an untyped cap -/

section FreeIndex

variable {idx : Word}

theorem getUntypedPtr_setFreeIndex :
    getUntypedPtr a (setUntypedFreeIndex a c idx) = getUntypedPtr a c :=
  get_set_of_disjoint (by cases a <;> decide)

theorem getUntypedFreeIndex_setFreeIndex (hi : idx.toNat < 2 ^ 39) :
    getUntypedFreeIndex a (setUntypedFreeIndex a c idx) = idx := by
  refine get_set_self (by cases a <;> decide) ?_
  cases a with
  | riscv64 => exact canonical_of_lt rfl rfl (by decide) hi
  | aarch64 => exact canonical_of_lt rfl rfl (by decide) (Nat.lt_trans hi (by decide))

variable (hu : getCapType c = .untypedCap)

include hu

theorem objBase_setFreeIndex : objBase a (setUntypedFreeIndex a c idx) = objBase a c := by
  simp [objBase, getCapType_setUntypedFreeIndex, hu, getCapPtr, getUntypedPtr_setFreeIndex]

theorem objBits_setFreeIndex : objBits a (setUntypedFreeIndex a c idx) = objBits a c := by
  have hsize : getUntypedBlockSize a (setUntypedFreeIndex a c idx) = getUntypedBlockSize a c :=
    get_set_of_disjoint (by cases a <;> decide)
  simp [objBits, getCapType_setUntypedFreeIndex, hu, hsize]

theorem extent_setFreeIndex : extent a (setUntypedFreeIndex a c idx) = extent a c := by
  rw [extent, extent, objBase_setFreeIndex hu, objBits_setFreeIndex hu,
    physical_of_type (getCapType_setUntypedFreeIndex c idx), getCapType_setUntypedFreeIndex]

theorem objKey_setFreeIndex : objKey a (setUntypedFreeIndex a c idx) = objKey a c := by
  simp [objKey, getCapType_setUntypedFreeIndex, hu, getCapPtr, getUntypedPtr_setFreeIndex]

theorem CapOK.setFreeIndex (hc : CapOK a c) (hidx : 16 * idx.toNat ≤ 2 ^ objBits a c) :
    CapOK a (setUntypedFreeIndex a c idx) ∧
      getUntypedFreeIndex a (setUntypedFreeIndex a c idx) = idx := by
  have hlt : idx.toNat < 2 ^ 39 := by
    have : 2 ^ objBits a c ≤ 2 ^ 38 := Nat.pow_le_pow_right (by decide) hc.bits_le
    omega
  have hfree := getUntypedFreeIndex_setFreeIndex (a := a) (c := c) hlt
  have ht := getCapType_setUntypedFreeIndex (a := a) c idx
  have hp := physical_untyped hu
  have hbase : objBase a (setUntypedFreeIndex a c idx) = _ := objBase_setFreeIndex hu
  have hbits : objBits a (setUntypedFreeIndex a c idx) = _ := objBits_setFreeIndex hu
  refine ⟨.of_block ?_ ?_ ?_ ?_ fun _ => ?_, hfree⟩
  · rw [ht, hu]
    decide
  · rw [hbase]
    exact hc.window hp
  · rw [hbase, hbits]
    exact hc.aligned hp
  · rw [hbits]
    exact ⟨hc.bits_ge hp, hc.bits_le⟩
  · rw [hfree, hbits]
    exact hidx

end FreeIndex

theorem not_hasSlot_untyped (hu : getCapType c = .untypedCap) : ¬ HasSlot a c x := by
  rintro ⟨i, hi, -⟩
  simp [slotCount, hu] at hi

namespace CapInv

section

variable {idx : Word} (h : CapInv a static w ls) (hx : w.slots.capType x = .untypedCap)
  (hidx : 16 * idx.toNat ≤ 2 ^ objBits a (w.slots x).cap)
  (hd : ∀ y, w.slots.capType y ≠ .nullCap → w.id x ∈ w.ancestors y → (extent a (w.slots y).cap).hi ≤ (objBase a (w.slots x).cap).toNat + 16 * idx.toNat)
include h hx hidx hd

theorem objInv_setFreeIndex : ObjInv (update (w.refs a) x
      (some (refOf a (setUntypedFreeIndex a (w.slots x).cap idx) (w.origin x)))) := by
  have hxl : w.slots.capType x ≠ .nullCap := by rw [hx]; decide
  obtain ⟨-, hfree⟩ := CapOK.setFreeIndex hx (h.capOK hxl) hidx
  have ht := getCapType_setUntypedFreeIndex (a := a) (w.slots x).cap idx
  have hext : extent a (setUntypedFreeIndex a (w.slots x).cap idx) = _ := extent_setFreeIndex hx
  have hused : (refOf a (setUntypedFreeIndex a (w.slots x).cap idx) (w.origin x)).usedExtent =
      ⟨.memory, (objBase a (w.slots x).cap).toNat,
        (objBase a (w.slots x).cap).toNat + 16 * idx.toNat⟩ := by
    rw [refOf_usedExtent (ht.trans hx), objBase_setFreeIndex hx, hfree]
  refine h.obj.modify (refs_of_live hxl) ?_ hext rfl rfl rfl ?_ (.inl ⟨?_, ?_⟩)
  · simp [refOf, ht]
  · intro _
    constructor
    · show (refOf a (setUntypedFreeIndex a (w.slots x).cap idx) (w.origin x)).usedExtent.hi ≤
        (extent a (w.slots x).cap).hi
      rw [hused, extent_physical (physical_untyped hx)]
      exact Nat.add_le_add_left hidx _
    · intro y d hy hm
      obtain ⟨hyl, rfl⟩ := refs_eq_some.mp hy
      have hcon := h.contained hx hyl hm
      rw [refOf_usedExtent hx] at hcon
      rw [hused]
      exact ⟨hcon.1, hcon.2.1, hd y hyl hm⟩
  · simp [refOf, ht]
  · exact objKey_setFreeIndex hx

theorem setFreeIndex :
    CapInv a static (w.setCap x (setUntypedFreeIndex a (w.slots x).cap idx)) ls := by
  have hxl : w.slots.capType x ≠ .nullCap := by rw [hx]; decide
  obtain ⟨hok, -⟩ := CapOK.setFreeIndex hx (h.capOK hxl) hidx
  exact h.setCap hxl hok (fun _ => ⟨hx, extent_setFreeIndex hx⟩)
    (fun y _ hs => absurd hs (not_hasSlot_untyped hx)) (h.objInv_setFreeIndex hx hidx hd)

end

/-! ### Zombies -/

theorem extent_zombieOf (hz : ZombieOf a c z) (hp : getCapIsPhysical c) :
    extent a z = extent a c := by
  rw [extent_physical hp, extent_physical (physical_zombie hz.isZombie), hz.base_eq, hz.bits_eq]

/-- The last cap to a CNode or a thread becomes a zombie. -/
theorem zombify (h : CapInv a static w ls) (hx : (w.slots.capType x).named)
    (hp : getCapIsPhysical (w.slots x).cap) (hz : ZombieOf a (w.slots x).cap z)
    (hlast : ∀ y, y ≠ x → sameObjectAs a (w.slots x).cap (w.slots y).cap = false) :
    CapInv a static (w.setCap x z) ls := by
  obtain ⟨hxl, hxu, -⟩ := CapTag.ne_of_named hx
  have hzu : getCapType z ≠ .untypedCap := by rw [hz.isZombie]; decide
  refine h.setCap hxl hz.ok (fun e => absurd e hzu) ?_ ?_
  · intro y _ hs
    unfold HasSlot at hs ⊢
    rw [hz.slotCount_eq, hz.base_eq]
    exact hs
  · refine h.obj.modify (refs_of_live hxl) ?_ (extent_zombieOf hz hp) rfl rfl rfl ?_ (.inr ?_)
    · rw [refOf_not_container.mpr hzu, refOf_not_container.mpr hxu]
    · intro hc
      exact absurd (refOf_container.mp hc) hxu
    · intro y d hy hdc ho
      obtain ⟨hyl, rfl⟩ := refs_eq_some.mp hy
      by_contra hyx
      have := h.sameObjectAs_of_object hx hyl (refOf_not_container.mp hdc) ho
      rw [hlast y hyx] at this
      cases this

/-- A zombie counts down when its last slot is empty. -/
theorem shrink (h : CapInv a static w ls) (hx : w.slots.capType x = .zombieCap)
    (hn : 0 < getZombieNumber a (w.slots x).cap)
    (hend : w.slots.capType (offsetSlot (getZombiePtr a (w.slots x).cap)
      (getZombieNumber a (w.slots x).cap - 1)) = .nullCap) :
    CapInv a static (w.setCap x (setZombieNumber a (w.slots x).cap
      (getZombieNumber a (w.slots x).cap - 1))) ls := by
  have hxl : w.slots.capType x ≠ .nullCap := by rw [hx]; decide
  have hxu : w.slots.capType x ≠ .untypedCap := by rw [hx]; decide
  have hxz : getCapType (w.slots x).cap = .zombieCap := hx
  generalize hdef : setZombieNumber a (w.slots x).cap (getZombieNumber a (w.slots x).cap - 1) = z
  obtain ⟨hok, hz, hbase, hbits, hcount⟩ := (h.capOK hxl).zombie_pred hxz hn hdef.symm
  refine h.setCap hxl hok (fun e => ?_) ?_ ?_
  · rw [hz] at e
    cases e
  · rintro y hy ⟨i, hi, rfl⟩
    refine ⟨i, ?_, by rw [hbase]⟩
    by_contra hge
    -- the slot that the zombie no longer covers holds no cap
    have hi' : i = (getZombieNumber a (w.slots x).cap - 1).toNat := by
      rw [BitVec.toNat_sub_of_le (by exact hn)]
      rw [slotCount_zombie hxz] at hi hcount
      show i = (getZombieNumber a (w.slots x).cap).toNat - 1
      omega
    rw [hi', objBase_zombie hxz, BitVec.ofNat_toNat, BitVec.setWidth_eq] at hy
    exact (h.live.mp hy) hend
  · refine h.obj.modify (refs_of_live hxl) ?_ ?_ rfl rfl rfl ?_ (.inl ⟨?_, ?_⟩)
    · simp [refOf, hz, hxz]
    · show extent a _ = extent a _
      rw [extent_physical (physical_zombie hz), extent_physical (physical_zombie hxz), hbase, hbits]
    · intro hc
      exact absurd (refOf_container.mp hc) hxu
    · simp [refOf, hz, hxz]
    · show objKey a _ = objKey a _
      rw [objKey_zombie hz, objKey_zombie hxz, hbase]

end CapInv

/-! ## New caps -/

namespace CapSpace

/-- A cap with parent `src` has been written to `dest`. -/
def inserted (w : CapSpace) (σ' : Slots) (src dest : Word) (object : Nat) : CapSpace where
  slots := σ'
  origin := update w.origin dest ⟨w.fresh, w.id src :: w.ancestors src, object⟩
  fresh := w.fresh + 1

variable {object : Nat}

theorem refs_inserted (e : InsertEffect a w.slots σ' srcCap c src dest fl)
    (hsrc : w.slots.capType src ≠ .nullCap) (hdest : w.slots.capType dest = .nullCap)
    (hs : getCapType srcCap ≠ .nullCap) (hc : getCapType c ≠ .nullCap) :
    (w.inserted σ' src dest object).refs a =
      update (update (w.refs a) src (some (refOf a srcCap (w.origin src)))) dest
        (some (refOf a c ⟨w.fresh, w.id src :: w.ancestors src, object⟩)) := by
  have hne : src ≠ dest := by
    rintro rfl
    exact hsrc hdest
  have hcap : ∀ y, σ'.capType y = if y = dest then getCapType c
      else if y = src then getCapType srcCap else w.slots.capType y := by
    intro y
    rw [Slots.capType, e.cap]
    split
    · rfl
    · split <;> rfl
  funext y
  unfold refs inserted
  simp only [hcap, e.cap, update_apply]
  by_cases hyd : y = dest
  · simp only [hyd, if_true, hc, if_false]
  · by_cases hys : y = src
    · simp only [hys, hne, if_true, if_false, hs]
    · simp only [hyd, hys, if_false]

end CapSpace

namespace CapInv

variable {object : Nat}

/-- A new cap, once its reference fits the others. -/
theorem of_insert (h : CapInv a static w ls) (e : InsertEffect a w.slots σ' srcCap c src dest fl)
    (hsrc : w.slots.capType src ≠ .nullCap) (hdest : w.slots.capType dest = .nullCap)
    (hres : w.Reached a static dest)
    (hsame : getCapType srcCap = w.slots.capType src) (hsok : CapOK a srcCap)
    (hslots : ∀ x, HasSlot a (w.slots src).cap x → HasSlot a srcCap x)
    (hc : CapOK a c)
    (hfl : getCapType c = .untypedCap → fl.1 = 1 ∧ w.slots.capType src = .untypedCap ∧
      (extent a c).Within (extent a (w.slots src).cap))
    (hsext : getCapType srcCap = .untypedCap → extent a srcCap = extent a (w.slots src).cap)
    (ho : object ≤ w.fresh)
    (hobj : ObjInv ((w.inserted σ' src dest object).refs a)) :
    CapInv a static (w.inserted σ' src dest object) (ls.map (insertAfter src dest)) := by
  have hsm := h.live.mpr hsrc
  have hdm := h.mdb.not_mem hdest
  have haddr := h.slotAddr_of_reached hres
  have hmdb := h.mdb.of_insertEffect e hsrc hdest haddr hsame (ne_null_of_capOK hc)
  have hmem : ∀ {x}, x ∈ (ls.map (insertAfter src dest)).flatten → x = dest ∨ x ∈ ls.flatten :=
    fun hx => (mem_flatten_map_insertAfter hsm).mp hx
  have hne : ∀ {x}, x ∈ ls.flatten → x ≠ dest := by
    rintro x hx rfl
    exact hdm hx
  have hold : ∀ {x}, x ∈ ls.flatten → (w.inserted σ' src dest object).origin x = w.origin x :=
    fun hx => update_of_ne (hne hx) _ _
  have hnew : (w.inserted σ' src dest object).origin dest =
      ⟨w.fresh, w.id src :: w.ancestors src, object⟩ := update_self _ _ _
  have hcap : ∀ {x}, x ∈ ls.flatten → (σ' x).cap = if x = src then srcCap else (w.slots x).cap := by
    intro x hx
    rw [e.cap, if_neg (hne hx)]
  have hcapd : (σ' dest).cap = c := by rw [e.cap, if_pos rfl]
  -- a slot of an object is still one afterwards
  have hkeep : ∀ {y}, w.Reached a static y → (w.inserted σ' src dest object).Reached a static y := by
    rintro y (hy | ⟨z, hz, hs⟩)
    · exact .inl hy
    have hzm := h.live.mpr hz
    refine .inr ⟨z, (hmdb.live z).mp ((mem_flatten_map_insertAfter hsm).mpr (.inr hzm)), ?_⟩
    show HasSlot a (σ' z).cap y
    rw [hcap hzm]
    split
    next hzs => exact hslots y (hzs ▸ hs)
    next => exact hs
  refine ⟨hmdb, ?_, ?_, ?_, hobj, ?_, h.static_addr, ?_, ?_⟩
  · have hl : Lineage ls (w.inserted σ' src dest object).id
        (w.inserted σ' src dest object).ancestors w.fresh :=
      h.lineage.congr (fun x hx => congrArg Origin.id (hold hx))
        fun x hx => congrArg Origin.ancestors (hold hx)
    refine hl.child h.mdb.rep.nodup hmdb.rep.nodup hsm hdm (congrArg Origin.id hnew) ?_
    show ((w.inserted σ' src dest object).origin dest).ancestors =
      ((w.inserted σ' src dest object).origin src).id ::
        ((w.inserted σ' src dest object).origin src).ancestors
    rw [hnew, hold hsm]
    rfl
  · intro x hx
    rcases hmem hx with rfl | hx
    · rw [hnew]
      exact Nat.lt_succ_of_le ho
    · rw [hold hx]
      exact Nat.lt_succ_of_lt (h.object_lt x hx)
  · intro x hx
    show CapOK a (σ' x).cap
    rcases hmem hx with rfl | hx
    · rw [hcapd]
      exact hc
    rw [hcap hx]
    split
    · exact hsok
    · exact h.ok x hx
  · intro x hx
    rcases hmem hx with rfl | hx
    · exact hkeep hres
    · exact hkeep (h.resident x hx)
  · intro x u hx ht hcov
    replace ht : getCapType (σ' u).cap = .untypedCap := ht
    replace hcov : Covers (extent a (σ' u).cap) x := hcov
    have hum : u ∈ (ls.map (insertAfter src dest)).flatten := by
      refine (hmdb.live u).mpr ?_
      rw [Slots.capType, ht]
      decide
    rcases hmem hum with rfl | hum
    · rw [hcapd] at ht hcov
      exact h.static_free x src hx (hfl ht).2.1 (hcov.of_within (hfl ht).2.2)
    rw [hcap hum] at ht hcov
    split at ht
    next hus =>
      rw [if_pos hus, hsext ht] at hcov
      exact h.static_free x src hx (hsame ▸ ht) hcov
    next hus =>
      rw [if_neg hus] at hcov
      exact h.static_free x u hx ht hcov
  · intro x hx ht
    have hrev : σ'.revocable a x = if x = dest then fl.1 else w.slots.revocable a x := by
      have := congrArg Prod.fst (e.flags x)
      rw [apply_ite Prod.fst] at this
      exact this
    replace ht : getCapType (σ' x).cap = .untypedCap := ht
    show σ'.revocable a x = 1
    rcases hmem hx with rfl | hx
    · rw [hcapd] at ht
      rw [hrev, if_pos rfl, (hfl ht).1]
    rw [hrev, if_neg (hne hx)]
    refine h.revocable x hx ?_
    rw [hcap hx] at ht
    split at ht
    next hxs =>
      rw [hxs, ← hsame]
      exact ht
    next => exact ht

theorem update_refs_self (hsrc : w.slots.capType src ≠ .nullCap) :
    update (w.refs a) src (some (refOf a (w.slots src).cap (w.origin src))) =
      w.refs a := by
  rw [← refs_of_live hsrc, update_eq_self]

section

variable (h : CapInv a static w ls)
include h

/-- A cap may be replaced by one that names the same. -/
theorem setSame (hx : w.slots.capType x ≠ .nullCap) (hst : SameTarget a (w.slots x).cap c) :
    CapInv a static (w.setCap x c) ls := by
  have ht := hst.capType_eq
  refine h.setCap hx (hst.capOK (h.capOK hx)) (fun hu => ⟨ht.symm.trans hu, hst.extent_eq⟩) (fun y _ hs => hst.hasSlot_iff.mpr hs) ?_
  rw [refOf_sameTarget hst, update_refs_self hx]
  exact h.obj

/-- The numbers of a new cap are new. -/
theorem newRef (srcCap c : CapT) (object : Nat) (hsrc : w.slots.capType src ≠ .nullCap) :
    NewRef (update (w.refs a) src (some (refOf a srcCap (w.origin src)))) src
      (refOf a srcCap (w.origin src))
      (refOf a c ⟨w.fresh, w.id src :: w.ancestors src, object⟩) w.fresh := by
  -- every reference has the numbers of the cap in its slot
  have hold : ∀ {y d}, update (w.refs a) src (some (refOf a srcCap (w.origin src))) y =
      some d → w.slots.capType y ≠ .nullCap ∧ d.id = w.id y ∧ d.anc = w.ancestors y ∧
        d.object = (w.origin y).object := by
    intro y d hy
    rw [update_apply] at hy
    split at hy
    next e =>
      obtain rfl := Option.some.inj hy
      subst e
      exact ⟨hsrc, rfl, rfl, rfl⟩
    next =>
      obtain ⟨hyl, rfl⟩ := refs_eq_some.mp hy
      exact ⟨hyl, rfl, rfl, rfl⟩
  refine ⟨update_self _ _ _, ?_, ?_, ?_, ?_, rfl, rfl⟩
  · intro y d hy he
    obtain ⟨hyl, hid, -, -⟩ := hold hy
    exact h.inj hyl hsrc (hid.symm.trans he)
  · intro y d hy
    obtain ⟨hyl, hid, -, -⟩ := hold hy
    rw [hid]
    exact h.lineage.id_lt y (h.live.mpr hyl)
  · intro y d hy
    obtain ⟨hyl, -, -, hobj⟩ := hold hy
    rw [hobj]
    exact h.object_lt y (h.live.mpr hyl)
  · intro y d hy
    obtain ⟨hyl, -, hanc, -⟩ := hold hy
    rw [hanc]
    exact h.lineage.anc_lt y (h.live.mpr hyl)

/-- A new object in the used part of an untyped block. -/
theorem insertFirst (hsrc : w.slots.capType src = .untypedCap)
    (hdest : w.slots.capType dest = .nullCap)
    (e : InsertEffect a w.slots σ' (w.slots src).cap c src dest fl)
    (hfl : getCapType c = .untypedCap → fl.1 = 1) (hres : w.Reached a static dest) (hc : CapOK a c)
    (hw : (extent a c).Within (refOf a (w.slots src).cap (w.origin src)).usedExtent)
    (hfree : ∀ y, w.slots.capType y ≠ .nullCap → w.id src ∈ w.ancestors y →
      ¬ (extent a (w.slots y).cap).Overlaps (extent a c)) :
    CapInv a static (w.inserted σ' src dest w.fresh) (ls.map (insertAfter src dest)) := by
  have hsl : w.slots.capType src ≠ .nullCap := by rw [hsrc]; decide
  have hwhole : (refOf a (w.slots src).cap (w.origin src)).usedExtent.Within
      (extent a (w.slots src).cap) :=
    ⟨rfl, Nat.le_refl _, h.obj.used_le src _ (refs_of_live hsl) (refOf_container.mpr hsrc)⟩
  refine h.of_insert e hsl hdest hres rfl (h.capOK hsl) (fun _ hs => hs) hc
    (fun hu => ⟨hfl hu, hsrc, hw.trans hwhole⟩) (fun _ => rfl) (Nat.le_refl _) ?_
  rw [CapSpace.refs_inserted e hsl hdest hsl (ne_null_of_capOK hc)]
  have hn := h.newRef (w.slots src).cap c w.fresh hsl
  rw [update_refs_self hsl] at hn ⊢
  refine h.obj.insert_object hn (refOf_container.mpr hsrc) hw ?_ (fun _ => rfl) ?_
  · intro y d hy hm
    obtain ⟨hyl, rfl⟩ := refs_eq_some.mp hy
    exact hfree y hyl hm
  · intro hu
    have hcu := refOf_container.mp hu
    have hext := extent_physical (a := a) (physical_untyped hcu)
    have hfi := hc.free hcu
    simp only [refOf, hcu, if_true, hext]
    omega

/-- `cte_insert` of a second cap to the object of the source. -/
theorem insertCopy (hins : cteInsert a w.slots c src dest = .ok σ')
    (hsrc : (w.slots.capType src).named) (hres : w.Reached a static dest)
    (hst : SameTarget a (w.slots src).cap c) :
    CapInv a static (w.inserted σ' src dest (w.origin src).object) (ls.map (insertAfter src dest)) := by
  obtain ⟨hsl, hsu, hsz⟩ := CapTag.ne_of_named hsrc
  have hstor := (h.slotAddr_of_reached hres).2
  obtain ⟨r, -, hdest, e⟩ := cteInsert_effect hins hstor
  have hct := hst.capType_eq
  have hafter : sourceCapAfter a (w.slots src).cap c = (w.slots src).cap := by
    rw [sourceCapAfter, if_neg (fun hh => hsu hh.1)]
  rw [hafter] at e
  have hok := hst.capOK (h.capOK hsl)
  have hcu : getCapType c ≠ .untypedCap := by
    rw [hct]
    exact hsu
  refine h.of_insert e hsl hdest hres rfl (h.capOK hsl) (fun _ hs => hs) hok
    (fun hu => absurd hu hcu) (fun _ => rfl) (Nat.le_of_lt (h.object_lt src (h.live.mpr hsl))) ?_
  rw [CapSpace.refs_inserted e hsl hdest hsl (ne_null_of_capOK hok)]
  have hn := h.newRef (w.slots src).cap c (w.origin src).object hsl
  rw [update_refs_self hsl] at hn ⊢
  refine h.obj.insert_copy hn (refOf_not_container.mpr hsu) ?_ (refOf_not_container.mpr hcu)
    hst.extent_eq hst.key_eq rfl ?_
  · have hz : getCapType (w.slots src).cap ≠ .zombieCap := hsz
    simp [refOf, hz]
  · have hz : getCapType c ≠ .zombieCap := by
      rw [hct]
      exact hsz
    simp [refOf, hz]

end

/-- A full untyped block has given out all of its memory. -/
theorem toNat_maxFreeIndex (hc : CapOK a c) (hu : getCapType c = .untypedCap) :
    16 * (maxFreeIndex (getUntypedBlockSize a c)).toNat = 2 ^ objBits a c := by
  have hbits : objBits a c = (getUntypedBlockSize a c).toNat := by simp [objBits, hu]
  have hge := hc.bits_ge (physical_untyped hu)
  have hle := hc.bits_le
  rw [hbits] at hge hle ⊢
  have hsub : (getUntypedBlockSize a c - minUntypedBits).toNat =
      (getUntypedBlockSize a c).toNat - 4 := by
    rw [BitVec.toNat_sub_of_le (by rw [BitVec.le_def]; exact hge)]
    rfl
  rw [maxFreeIndex, toNat_bit (by omega), hsub, show (16 : Nat) = 2 ^ 4 from rfl, ← Nat.pow_add]
  congr 1
  omega

/-- `cte_insert` of a copy of an untyped cap without children; the source is
full afterwards. -/
theorem insertUntyped (h : CapInv a static w ls)
    (hins : cteInsert a w.slots (w.slots src).cap src dest = .ok σ')
    (hsrc : w.slots.capType src = .untypedCap)
    (hres : w.Reached a static dest)
    (hnone : ∀ y, w.slots.capType y ≠ .nullCap → w.id src ∉ w.ancestors y) :
    CapInv a static (w.inserted σ' src dest (w.origin src).object) (ls.map (insertAfter src dest)) := by
  have hsl : w.slots.capType src ≠ .nullCap := by rw [hsrc]; decide
  have hsu : getCapType (w.slots src).cap = .untypedCap := hsrc
  have hstor := (h.slotAddr_of_reached hres).2
  obtain ⟨r, hr, hdest, e⟩ := cteInsert_effect hins hstor
  have hrev : r = true := by
    simp [isCapRevocable, isArchCap, hsu, CapTag.isArch] at hr
    exact hr
  have hafter : sourceCapAfter a (w.slots src).cap (w.slots src).cap =
      setUntypedFreeIndex a (w.slots src).cap
        (maxFreeIndex (getUntypedBlockSize a (w.slots src).cap)) := by
    rw [sourceCapAfter, if_pos ⟨hsu, hsu, rfl, rfl⟩]
  rw [hafter] at e
  have hok := h.capOK hsl
  have hmax := toNat_maxFreeIndex hok hsu
  obtain ⟨hfok, hfull⟩ := CapOK.setFreeIndex hsu hok (Nat.le_of_eq hmax)
  have hft := (getCapType_setUntypedFreeIndex (a := a) (w.slots src).cap
    (maxFreeIndex (getUntypedBlockSize a (w.slots src).cap))).trans hsu
  refine h.of_insert e hsl hdest hres (hft.trans hsrc.symm) hfok
    (fun x hs => absurd hs (not_hasSlot_untyped hsu)) hok ?_ (fun _ => extent_setFreeIndex hsu)
    (Nat.le_of_lt (h.object_lt src (h.live.mpr hsl))) ?_
  · intro _
    rw [hrev]
    exact ⟨rfl, hsrc, rfl, Nat.le_refl _, Nat.le_refl _⟩
  rw [CapSpace.refs_inserted e hsl hdest (by rw [hft]; decide) hsl]
  have hmod := h.objInv_setFreeIndex hsrc (Nat.le_of_eq hmax)
    fun y hyl hm => absurd hm (hnone y hyl)
  have hn := h.newRef (setUntypedFreeIndex a (w.slots src).cap
    (maxFreeIndex (getUntypedBlockSize a (w.slots src).cap))) (w.slots src).cap
    (w.origin src).object hsl
  refine hmod.insert_object hn (refOf_container.mpr hft) ?_ ?_ ?_ ?_
  · rw [refOf_usedExtent hft, hfull, objBase_setFreeIndex hsu, hmax]
    show (extent a (w.slots src).cap).Within _
    rw [extent_physical (physical_untyped hsu)]
    exact ⟨rfl, Nat.le_refl _, Nat.le_refl _⟩
  · intro y d hy hm
    rw [update_apply] at hy
    split at hy
    next hys =>
      obtain rfl := Option.some.inj hy
      exact absurd hm (hnone src hsl)
    next =>
      obtain ⟨hyl, rfl⟩ := refs_eq_some.mp hy
      exact absurd hm (hnone y hyl)
  · intro hcf
    exact absurd hsu (refOf_not_container.mp hcf)
  · intro _
    have hfi := hok.free hsu
    simp only [refOf, hsu, if_true, extent_physical (physical_untyped hsu)]
    omega

end CapInv

/-! ## Caps that change their slots -/

namespace CapInv

/-- Whatever `w'` holds is found in other slots of `w`. -/
theorem of_embedding (h : CapInv a static w ls) (hg : Injective g) (hmdb : MdbInv a w'.slots ls')
    (hline : Lineage ls' w'.id w'.ancestors w'.fresh) (hfresh : w'.fresh = w.fresh)
    (hslot : ∀ y, w'.slots.capType y ≠ .nullCap →
      w.slots.capType (g y) ≠ .nullCap ∧ SameTarget a (w.slots (g y)).cap (w'.slots y).cap ∧
      w'.origin y = w.origin (g y) ∧ w'.slots.revocable a y = w.slots.revocable a (g y) ∧
      w'.Reached a static y) :
    CapInv a static w' ls' := by
  have hmem : ∀ {y}, y ∈ ls'.flatten → _ := fun {y} hy => hslot y ((hmdb.live y).mp hy)
  refine ⟨hmdb, hline, fun y hy => ?_, fun y hy => ?_, ?_, fun y hy => (hmem hy).2.2.2.2,
    h.static_addr, fun y u hy ht => ?_, fun y hy ht => ?_⟩
  · obtain ⟨hx, -, ho, -⟩ := hmem hy
    rw [ho, hfresh]
    exact h.object_lt _ (h.live.mpr hx)
  · obtain ⟨hx, hst, -⟩ := hmem hy
    exact hst.capOK (h.capOK hx)
  · refine h.obj.of_embedding g hg fun y r hy => ?_
    obtain ⟨hyl, rfl⟩ := refs_eq_some.mp hy
    obtain ⟨hx, hst, ho, -⟩ := hslot y hyl
    rw [refs_of_live hx, refOf_sameTarget hst, ho]
  · obtain ⟨-, hst, -⟩ := hslot u (by rw [ht]; decide)
    rw [hst.extent_eq]
    exact h.static_free y _ hy (hst.capType_eq.symm.trans ht)
  · obtain ⟨hx, hst, -, hrev, -⟩ := hmem hy
    rw [hrev]
    exact h.revocable _ (h.live.mpr hx) (hst.capType_eq.symm.trans ht)

/-- The caps of the slots `x` are found in the slots `f x`. -/
theorem of_rename (h : CapInv a static w ls) (f : Equiv.Perm Word)
    (hmdb : MdbInv a w'.slots (ls.map (·.map f))) (hfresh : w'.fresh = w.fresh)
    (hcap : ∀ x, w.slots.capType x ≠ .nullCap →
      SameTarget a (w.slots x).cap (w'.slots (f x)).cap)
    (horigin : ∀ x, w.slots.capType x ≠ .nullCap → w'.origin (f x) = w.origin x)
    (hrev : ∀ x, w.slots.capType x ≠ .nullCap →
      w'.slots.revocable a (f x) = w.slots.revocable a x)
    (hres : ∀ x, w.slots.capType x ≠ .nullCap → w.Reached a static (f x)) :
    CapInv a static w' (ls.map (·.map f)) := by
  have hmem : ∀ {y}, y ∈ (ls.map (·.map f)).flatten →
      ∃ x, w.slots.capType x ≠ .nullCap ∧ f x = y := by
    intro y hy
    rw [← List.map_flatten] at hy
    obtain ⟨x, hx, rfl⟩ := List.mem_map.mp hy
    exact ⟨x, h.live.mp hx, rfl⟩
  refine h.of_embedding f.symm.injective hmdb ?_ hfresh fun y hy => ?_
  · rw [hfresh]
    have hl : Lineage (ls.map (·.map f)) (fun y => w.id (f.symm y))
        (fun y => w.ancestors (f.symm y)) w.fresh :=
      h.lineage.rename f (fun x => by rw [f.symm_apply_apply]) fun x => by rw [f.symm_apply_apply]
    refine hl.congr ?_ ?_
    · intro y hy
      obtain ⟨x, hx, rfl⟩ := hmem hy
      rw [f.symm_apply_apply]
      exact congrArg Origin.id (horigin x hx)
    · intro y hy
      obtain ⟨x, hx, rfl⟩ := hmem hy
      rw [f.symm_apply_apply]
      exact congrArg Origin.ancestors (horigin x hx)
  · obtain ⟨x, hx, rfl⟩ := hmem ((hmdb.live y).mpr hy)
    rw [f.symm_apply_apply]
    refine ⟨hx, hcap x hx, horigin x hx, hrev x hx, (hres x hx).imp_right ?_⟩
    rintro ⟨z, hz, hs⟩
    refine ⟨f z, (hmdb.live _).mp ?_, (hcap z hz).hasSlot_iff.mpr hs⟩
    rw [← List.map_flatten]
    exact List.mem_map_of_mem (h.live.mpr hz)

/-- `cte_move` -/
theorem move (h : CapInv a static w ls) (hmove : cteMove a w.slots c src dest = .ok σ')
    (hsrc : w.slots.capType src ≠ .nullCap)
    (hres : w.Reached a static dest)
    (hst : SameTarget a (w.slots src).cap c) :
    CapInv a static ⟨σ', update w.origin dest (w.origin src), w.fresh⟩
      (ls.map (·.map (Equiv.swap src dest))) := by
  have haddr := h.slotAddr_of_reached hres
  obtain ⟨hdest, e⟩ := cteMove_effect hmove haddr.2
  have hct := hst.capType_eq
  have hc : getCapType c ≠ .nullCap := by
    rw [hct]
    exact hsrc
  have hne : src ≠ dest := by
    rintro rfl
    exact hsrc hdest
  have hnd : ∀ {x}, w.slots.capType x ≠ .nullCap → x ≠ dest := by
    rintro x hx rfl
    exact hx hdest
  refine h.of_rename (Equiv.swap src dest) (h.mdb.of_moveEffect e hsrc hdest haddr hc) rfl
    ?_ ?_ ?_ ?_ <;> intro x hx <;> by_cases hxs : x = src
  · subst hxs
    rw [Equiv.swap_apply_left, e.cap, if_neg hne.symm, if_pos rfl]
    exact hst
  · rw [Equiv.swap_apply_of_ne_of_ne hxs (hnd hx), e.cap, if_neg hxs, if_neg (hnd hx)]
    exact .refl
  · subst hxs
    rw [Equiv.swap_apply_left]
    exact update_self _ _ _
  · rw [Equiv.swap_apply_of_ne_of_ne hxs (hnd hx)]
    exact update_of_ne (hnd hx) _ _
  · subst hxs
    have := e.flags dest
    rw [if_neg hne.symm, if_pos rfl] at this
    rw [Equiv.swap_apply_left]
    exact congrArg Prod.fst this
  · have := e.flags x
    rw [if_neg hxs, if_neg (hnd hx)] at this
    rw [Equiv.swap_apply_of_ne_of_ne hxs (hnd hx)]
    exact congrArg Prod.fst this
  · rw [hxs, Equiv.swap_apply_left]
    exact hres
  · rw [Equiv.swap_apply_of_ne_of_ne hxs (hnd hx)]
    exact h.resident x (h.live.mpr hx)

/-- `cte_swap` of a slot with another that is not its neighbour. -/
theorem swap (h : CapInv a static w ls) (hx : w.slots.capType x ≠ .nullCap)
    (hres : w.Reached a static y) (hne : y ≠ x)
    (hn : ¬ Neighbours a w.slots y x) :
    CapInv a static ⟨cteSwap a w.slots (w.slots y).cap y (w.slots x).cap x,
        update (update w.origin y (w.origin x)) x (w.origin y), w.fresh⟩
      (ls.map (·.map (Equiv.swap y x))) := by
  have hya := h.slotAddr_of_reached hres
  refine h.of_rename (Equiv.swap y x) (h.mdb.cteSwap hya (h.mdb.slotAddr hx) hne hn) rfl
    ?_ ?_ ?_ ?_ <;> intro z hz
  · rw [cap_cteSwap, Equiv.swap_apply_def]
    left
    grind
  · simp only [update_apply, Equiv.swap_apply_def]
    grind
  · refine congrArg Prod.fst ((flags_cteSwap (Equiv.swap y x z)).trans (?_ : _ = w.slots.flags a z))
    rw [Equiv.swap_apply_def]
    grind
  · rw [Equiv.swap_apply_def]
    split
    · exact h.resident x (h.live.mpr hx)
    · split
      · exact hres
      · exact h.resident z (h.live.mpr hz)

/-! ## Removal -/

end CapInv

/-- No cap lies in a slot that only the cap in `x` reaches. -/
def CapSpace.Erasable (a : Arch) (w : CapSpace) (x : Word) : Prop :=
  ∀ y, y ≠ x → w.slots.capType y ≠ .nullCap → HasSlot a (w.slots x).cap y →
    ∃ z, z ≠ x ∧ w.slots.capType z ≠ .nullCap ∧ HasSlot a (w.slots z).cap y

namespace CapInv

/-- Whatever is left of the caps keeps the invariant, if the slots that hold
caps are still reached. -/
theorem of_subset (h : CapInv a static w ls) (hmdb : MdbInv a σ' ls')
    (hline : Lineage ls' w.id w.ancestors w.fresh)
    (hcap : ∀ x, σ'.capType x ≠ .nullCap → (σ' x).cap = (w.slots x).cap)
    (hrev : ∀ x, σ'.capType x ≠ .nullCap → σ'.revocable a x = w.slots.revocable a x)
    (hres : ∀ x, σ'.capType x ≠ .nullCap →
      static x ∨ ∃ y, σ'.capType y ≠ .nullCap ∧ HasSlot a (w.slots y).cap x) :
    CapInv a static { w with slots := σ' } ls' := by
  have hlive : ∀ {x}, σ'.capType x ≠ .nullCap → w.slots.capType x ≠ .nullCap := by
    intro x hx
    rw [Slots.capType, ← hcap x hx]
    exact hx
  refine h.of_embedding injective_id hmdb hline rfl fun x hx =>
    ⟨hlive hx, .inl (hcap x hx), rfl, hrev x hx, (hres x hx).imp_right ?_⟩
  rintro ⟨y, hy, hs⟩
  exact ⟨y, hy, hcap y hy ▸ hs⟩

/-- `set_empty` -/
theorem erase (h : CapInv a static w ls) (he : w.Erasable a x) :
    CapInv a static { w with slots := setEmpty a w.slots x } (ls.map (·.erase x)) := by
  have hmdb := h.mdb.setEmpty x
  have hline := h.lineage.erase (s := x) h.mdb.rep.nodup
  have hmem : ∀ {y}, (setEmpty a w.slots x).capType y ≠ .nullCap ↔
      y ≠ x ∧ w.slots.capType y ≠ .nullCap := by
    intro y
    rw [← hmdb.live, mem_flatten_map_erase h.mdb.rep.nodup, h.live]
  by_cases hx : w.slots.capType x = .nullCap
  · have hsame := setEmpty_of_null (a := a) hx
    refine h.of_subset hmdb hline ?_ ?_ ?_
    · intro y _
      rw [hsame]
    · intro y _
      rw [hsame]
    · intro y hy
      rw [hsame]
      exact h.resident y (h.live.mpr (hmem.mp hy).2)
  · have e := setEmpty_effect (a := a) hx
    refine h.of_subset hmdb hline ?_ ?_ ?_
    · intro y hy
      rw [e.cap, if_neg (hmem.mp hy).1]
    · intro y hy
      have hf := e.flags y
      rw [if_neg (hmem.mp hy).1] at hf
      split at hf
      · exact congrArg Prod.fst hf
      · exact congrArg Prod.fst hf
    · intro y hy
      obtain ⟨hyx, hyl⟩ := hmem.mp hy
      refine (h.resident y (h.live.mpr hyl)).imp_right ?_
      rintro ⟨z, hz, hs⟩
      by_cases hzx : z = x
      · subst hzx
        obtain ⟨z', h1, h2, h3⟩ := he y hyx hyl hs
        exact ⟨z', hmem.mpr ⟨h1, h2⟩, h3⟩
      · exact ⟨z, hmem.mpr ⟨hzx, hz⟩, hs⟩

/-- Zeroing slots that hold no caps. -/
theorem clear (h : CapInv a static w ls)
    (hσ : ∀ x, σ' x = w.slots x ∨ (σ' x = emptyCte ∧ w.slots.capType x = .nullCap)) :
    CapInv a static { w with slots := σ' } ls := by
  have hnull : ∀ x, σ'.capType x = .nullCap ↔ w.slots.capType x = .nullCap := by
    intro x
    rcases hσ x with e | ⟨e, hx⟩
    · rw [Slots.capType, e, Slots.capType]
    · rw [Slots.capType, e]
      exact ⟨fun _ => hx, fun _ => capType_newNullCap⟩
  have hsame : ∀ {x}, σ'.capType x ≠ .nullCap → σ' x = w.slots x := by
    intro x hx
    exact (hσ x).resolve_right fun hh => hx ((hnull x).mpr hh.2)
  refine h.of_subset (h.mdb.clear hσ) h.lineage ?_ ?_ ?_
  · intro x hx
    rw [hsame hx]
  · intro x hx
    rw [Slots.revocable, hsame hx, Slots.revocable]
  · intro x hx
    refine (h.resident x (h.live.mpr fun e => hx ((hnull x).mpr e))).imp_right ?_
    rintro ⟨z, hz, hs⟩
    exact ⟨z, fun e => hz ((hnull z).mp e), hs⟩

end CapInv

end Rel4.Kernel
