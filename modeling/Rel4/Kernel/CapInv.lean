import Rel4.CSpace.Object
import Rel4.Kernel.Frame
import Rel4.Lib.Lineage

/-!
The invariant of the capability space.

`CapInv` joins the mapping database with the history of its caps: the lists are
the ones of `MdbInv`, their order is the one of `Lineage`, and the caps refer to
objects as `ObjInv` says. Every slot that holds a cap lies in an object that a
cap names. From it follow the two questions that the kernel answers by looking
at one or two neighbours: whether an untyped cap has children
(`no_descendants`), and whether a cap is the last one to its object
(`isFinalCap_iff`).
-/

namespace Rel4.Kernel
open Lib.Bitfield Lib.DList Lib.Objects Common CSpace Rel4.Task

/-- The slots with the history of their caps. -/
structure CapSpace where
  slots : Slots
  origin : Word → Origin
  fresh : Nat

def capSpace (s : KernelState) : CapSpace := ⟨s.ctes, s.origin, s.fresh⟩

/-- A cap as a reference to an object; an untyped cap is a container. -/
def refOf (a : Arch) (c : CapT) (o : Origin) : Ref Space ObjKey where
  container := getCapType c = .untypedCap
  extent := extent a c
  used :=
    if getCapType c = .untypedCap then
      (objBase a c).toNat + 16 * (getUntypedFreeIndex a c).toNat
    else 0
  key := objKey a c
  sole := getCapType c = .zombieCap
  id := o.id
  anc := o.ancestors
  object := o.object

namespace CapSpace

variable (a : Arch) (w : CapSpace)

def refs (x : Word) : Option (Ref Space ObjKey) :=
  if w.slots.capType x = .nullCap then none else some (refOf a (w.slots x).cap (w.origin x))

def id (x : Word) : Nat := (w.origin x).id

def ancestors (x : Word) : List Nat := (w.origin x).ancestors

end CapSpace

/-- `x` is an address of the range. -/
def Covers (e : Extent Space) (x : Word) : Prop :=
  e.space = .memory ∧ e.lo ≤ x.toNat ∧ x.toNat < e.hi

/-- `x` is one of the slots that the kernel keeps outside of objects, or a slot
of an object that a cap names. -/
def CapSpace.Reached (a : Arch) (static : Word → Prop) (w : CapSpace) (x : Word) : Prop :=
  static x ∨ ∃ y, w.slots.capType y ≠ .nullCap ∧ HasSlot a (w.slots y).cap x

/-- The invariant, with the lists of the mapping database. -/
structure CapInv (a : Arch) (static : Word → Prop) (w : CapSpace) (ls : List (List Word)) :
    Prop where
  mdb : MdbInv a w.slots ls
  lineage : Lineage ls w.id w.ancestors w.fresh
  object_lt : ∀ x ∈ ls.flatten, (w.origin x).object < w.fresh
  ok : ∀ x ∈ ls.flatten, CapOK a (w.slots x).cap
  obj : ObjInv (w.refs a)
  resident : ∀ x ∈ ls.flatten, w.Reached a static x
  static_addr : ∀ x, static x → SlotAddr a x
  static_free : ∀ x u, static x → w.slots.capType u = .untypedCap →
    ¬ Covers (extent a (w.slots u).cap) x
  revocable : ∀ x ∈ ls.flatten, w.slots.capType x = .untypedCap → w.slots.revocable a x = 1

variable {a : Arch} {w : CapSpace} {ls : List (List Word)} {x y u : Word} {c : CapT}

/-! ## References -/

theorem refs_of_live (hx : w.slots.capType x ≠ .nullCap) :
    w.refs a x = some (refOf a (w.slots x).cap (w.origin x)) := if_neg hx

theorem refs_eq_some : w.refs a x = some r ↔
      w.slots.capType x ≠ .nullCap ∧ refOf a (w.slots x).cap (w.origin x) = r := by
  unfold CapSpace.refs
  split
  next h => simp [h]
  next h => simp [h]

theorem refOf_sameTarget (h : SameTarget a c c') : refOf a c' o = refOf a c o := by
  have ht := h.capType_eq
  have he := h.extent_eq
  rcases h with rfl | ⟨hn, hk⟩
  · rfl
  · have hne := (CapTag.ne_of_named hn).2.1
    simp only [refOf, ht, he, hk, if_neg hne]

theorem refOf_container : (refOf a c o).container = true ↔ getCapType c = .untypedCap := by
  simp [refOf]

theorem refOf_not_container : (refOf a c o).container = false ↔ getCapType c ≠ .untypedCap := by
  simp [refOf]

theorem extent_physical (hp : getCapIsPhysical c) : extent a c =
    ⟨.memory, (objBase a c).toNat, (objBase a c).toNat + 2 ^ objBits a c⟩ := by
  rw [extent, if_pos hp]

theorem physical_untyped (ht : getCapType c = .untypedCap) : getCapIsPhysical c = true := by
  simp [getCapIsPhysical, ht]

theorem refOf_usedExtent (ht : getCapType c = .untypedCap) : (refOf a c o).usedExtent =
    ⟨.memory, (objBase a c).toNat,
      (objBase a c).toNat + 16 * (getUntypedFreeIndex a c).toNat⟩ := by
  simp [Ref.usedExtent, refOf, ht, extent_physical (physical_untyped ht)]

/-- Whatever lies within memory has memory. -/
theorem physical_of_space (h : (extent a c).space = .memory) : getCapIsPhysical c = true := by
  by_contra hp
  rw [extent, if_neg hp] at h
  cases h

/-- The extent of a cap is not empty. -/
theorem extent_overlaps_self : (extent a c).Overlaps (extent a c) := by
  have hpos := Nat.two_pow_pos (objBits a c)
  have hlt : (extent a c).lo < (extent a c).hi := by
    unfold extent
    split
    · show (objBase a c).toNat < (objBase a c).toNat + _
      omega
    · show (objBase a c).toNat < (objBase a c).toNat + 1
      omega
  exact ⟨rfl, hlt, hlt⟩

theorem Covers.of_within (h : Covers e x) (hw : e.Within f) : Covers f x := by
  obtain ⟨hs, h1, h2⟩ := h
  obtain ⟨hs', h3, h4⟩ := hw
  exact ⟨hs'.symm.trans hs, by omega, by omega⟩

theorem HasSlot.covers (h : HasSlot a c x) (hc : CapOK a c) : Covers (extent a c) x := by
  rw [extent_physical h.physical]
  exact ⟨rfl, h.within hc⟩

/-- The parent test recognises what lies in the block of an untyped cap. -/
theorem isMdbParentOf_of_within (hp : CapOK a parent.cap) (ht : getCapType parent.cap = .untypedCap)
    (hrev : getRevocable a parent.cteMDBNode ≠ 0) (hc : CapOK a child.cap)
    (hw : (extent a child.cap).Within (extent a parent.cap)) :
    isMdbParentOf a parent child = true := by
  rw [extent_physical (physical_untyped ht)] at hw
  obtain ⟨hsp, hlo, hhi⟩ := hw
  have hphys := physical_of_space hsp
  rw [extent_physical hphys] at hlo hhi
  have hregion := sameRegionAs_untyped hp ht hc hphys hlo hhi
  rw [isMdbParentOf, if_neg hrev, hregion, ht]
  rfl

namespace CapInv

theorem live (h : CapInv a static w ls) : x ∈ ls.flatten ↔ w.slots.capType x ≠ .nullCap := h.mdb.live x

theorem capOK (h : CapInv a static w ls) (hx : w.slots.capType x ≠ .nullCap) : CapOK a (w.slots x).cap :=
  h.ok x (h.live.mpr hx)

theorem slotAddr_of_reached (h : CapInv a static w ls) (hx : w.Reached a static x) :
    SlotAddr a x := by
  rcases hx with hx | ⟨y, hy, hs⟩
  · exact h.static_addr x hx
  · exact hs.slotAddr (h.capOK hy)

theorem inj (h : CapInv a static w ls) (hx : w.slots.capType x ≠ .nullCap)
    (hy : w.slots.capType y ≠ .nullCap) (he : w.id x = w.id y) : x = y :=
  h.lineage.inj x (h.live.mpr hx) y (h.live.mpr hy) he

/-! ## Children of an untyped cap -/

section

variable (h : CapInv a static w ls) (hu : w.slots.capType u = .untypedCap)
include h hu

/-- What descends from an untyped cap lies in the used part of its block. -/
theorem contained (hx : w.slots.capType x ≠ .nullCap) (hd : w.id u ∈ w.ancestors x) :
    (extent a (w.slots x).cap).Within (refOf a (w.slots u).cap (w.origin u)).usedExtent :=
  h.obj.contained u x _ _ (refs_of_live (by rw [hu]; decide)) (refs_of_live hx)
    (refOf_container.mpr hu) hd

/-- The parent test of the mapping database recognises what descends from an
untyped cap. -/
theorem isMdbParentOf_untyped (hx : w.slots.capType x ≠ .nullCap) (hd : w.id u ∈ w.ancestors x) :
    isMdbParentOf a (w.slots u) (w.slots x) = true := by
  have hul : w.slots.capType u ≠ .nullCap := by rw [hu]; decide
  have hu' : getCapType (w.slots u).cap = .untypedCap := hu
  have hku := h.capOK hul
  have hfree := hku.free hu'
  obtain ⟨hsp, hlo, hhi⟩ := h.contained hu hx hd
  rw [refOf_usedExtent hu'] at hsp hlo hhi
  have hrev : getRevocable a (w.slots u).cteMDBNode = 1 := h.revocable u (h.live.mpr hul) hu
  refine isMdbParentOf_of_within hku hu' (by rw [hrev]; decide) (h.capOK hx) ?_
  rw [extent_physical (physical_untyped hu')]
  exact ⟨hsp, hlo, Nat.le_trans hhi (by simp [hfree])⟩

/-- `ensure_no_children` is right about untyped caps. -/
theorem no_descendants (hn : ensureNoChildren a w.slots u = .none)
    (hx : w.slots.capType x ≠ .nullCap) : w.id u ∉ w.ancestors x := by
  intro hd
  have hul : w.slots.capType u ≠ .nullCap := by rw [hu]; decide
  have hum := h.live.mpr hul
  have hb := h.lineage.before u hum x (h.live.mpr hx) hd
  obtain ⟨hnm, hnd⟩ := (h.lineage.contiguous (w.id u)).next h.mdb.rep hb (.inl rfl) (.inr hd)
  have hnl := h.live.mp hnm
  have hn0 := h.mdb.ne_zero hnl
  have hne : w.slots.next a u ≠ u := h.mdb.mdbWF.next_ne_self (h.mdb.slotAddr hul)
  have hchild : w.id u ∈ w.ancestors (w.slots.next a u) :=
    hnd.resolve_left fun he => hne (h.inj hul hnl he).symm
  have hparent := h.isMdbParentOf_untyped hu hnl hchild
  rw [ensureNoChildren, if_pos ⟨hn0, hparent⟩] at hn
  cases hn

end

/-! ## The last cap to an object -/

section

variable (h : CapInv a static w ls)
include h

section

variable (hx : w.slots.capType x ≠ .nullCap) (hy : w.slots.capType y ≠ .nullCap)
  (hxu : w.slots.capType x ≠ .untypedCap) (hyu : w.slots.capType y ≠ .untypedCap)
include hx hy hxu hyu

theorem key_eq_of_object (ho : (w.origin x).object = (w.origin y).object) :
    objKey a (w.slots x).cap = objKey a (w.slots y).cap :=
  h.obj.key_eq x y _ _ (refs_of_live hx) (refs_of_live hy) (refOf_not_container.mpr hxu)
    (refOf_not_container.mpr hyu) ho

/-- Two caps that overlap and are no untyped caps have one object. -/
theorem object_eq_of_overlaps (ho : (extent a (w.slots x).cap).Overlaps (extent a (w.slots y).cap)) :
    (w.origin x).object = (w.origin y).object := by
  by_cases hxy : x = y
  · rw [hxy]
  · rcases h.obj.laminar x y _ _ (refs_of_live hx) (refs_of_live hy) hxy ho with h1 | h1 | h1
    · exact h1.2.2
    · exact absurd (refOf_container.mp h1.1) hxu
    · exact absurd (refOf_container.mp h1.1) hyu

end

theorem object_eq_of_sameObjectAs (hs : sameObjectAs a (w.slots x).cap (w.slots y).cap = true) :
    w.slots.capType y ≠ .nullCap ∧ (w.origin x).object = (w.origin y).object := by
  have hn := sameObjectAs_named hs
  have hk := (sameObjectAs_iff hn).mp hs
  have ht : w.slots.capType x = w.slots.capType y := capType_eq_of_key hk
  have hnx : (w.slots.capType x).named := hn
  obtain ⟨hxl, hxu, -⟩ := CapTag.ne_of_named hnx
  have hyl : w.slots.capType y ≠ .nullCap := ht ▸ hxl
  refine ⟨hyl, h.object_eq_of_overlaps hxl hyl hxu (ht ▸ hxu) ?_⟩
  have hst : SameTarget a (w.slots x).cap (w.slots y).cap := .inr ⟨hn, hk.symm⟩
  rw [hst.extent_eq]
  exact extent_overlaps_self

/-- The caps to one object are contiguous. -/
theorem contiguous_object (hx : w.slots.capType x ≠ .nullCap)
    (hxu : w.slots.capType x ≠ .untypedCap) :
    Contiguous ls fun y =>
      w.slots.capType y ≠ .untypedCap ∧ (w.origin y).object = (w.origin x).object := by
  refine (h.lineage.contiguous (w.origin x).object).congr fun y hy => ?_
  have hyl := h.live.mp hy
  constructor
  · rintro ⟨hyu, ho⟩
    have hd := h.obj.descends_object y _ (refs_of_live hyl) (refOf_not_container.mpr hyu)
    have hd : w.id y = (w.origin y).object ∨ (w.origin y).object ∈ w.ancestors y :=
      hd.imp_left Eq.symm
    rw [ho] at hd
    exact hd.imp_left Eq.symm
  · intro hd
    obtain ⟨h1, h2⟩ := h.obj.object_of_descends x y _ _ (refs_of_live hx) (refs_of_live hyl)
      (refOf_not_container.mpr hxu) hd
    exact ⟨refOf_not_container.mp h1, h2⟩

theorem sameObjectAs_of_object (hx : (w.slots.capType x).named) (hy : w.slots.capType y ≠ .nullCap)
    (hyu : w.slots.capType y ≠ .untypedCap) (ho : (w.origin y).object = (w.origin x).object) :
    sameObjectAs a (w.slots x).cap (w.slots y).cap = true := by
  obtain ⟨hxl, hxu, -⟩ := CapTag.ne_of_named hx
  exact (sameObjectAs_iff hx).mpr (h.key_eq_of_object hxl hy hxu hyu ho.symm)

/-- `is_final_cap` looks at two neighbours and is right about all slots. -/
theorem isFinalCap_iff (hx : (w.slots.capType x).named) : isFinalCap a w.slots x = true ↔
      ∀ y, y ≠ x → sameObjectAs a (w.slots x).cap (w.slots y).cap = false := by
  obtain ⟨hxl, hxu, -⟩ := CapTag.ne_of_named hx
  have haddr := h.mdb.slotAddr hxl
  have hnext := h.mdb.mdbWF.next_ne_self haddr
  have hprev := h.mdb.mdbWF.prev_ne_self haddr
  rw [isFinalCap_eq_true_iff]
  constructor
  · rintro ⟨hfp, hfn⟩ y hyx
    by_contra hs
    rw [Bool.not_eq_false] at hs
    obtain ⟨hyl, ho⟩ := h.object_eq_of_sameObjectAs hs
    have hyu : w.slots.capType y ≠ .untypedCap := by
      intro e
      have hk := (sameObjectAs_iff hx).mp hs
      exact hxu ((capType_eq_of_key hk).trans e)
    have hc := h.contiguous_object hxl hxu
    obtain ⟨l, hl, hxm, hym⟩ := hc.one_list x (h.live.mpr hxl) y (h.live.mpr hyl) ⟨hxu, rfl⟩
      ⟨hyu, ho.symm⟩
    -- one of the two neighbours is a cap to the same object
    rcases sublist_pair_or hxm hym (Ne.symm hyx) with hb | hb
    · obtain ⟨hm, hu, ho'⟩ := hc.next h.mdb.rep ⟨l, hl, hb⟩ ⟨hxu, rfl⟩ ⟨hyu, ho.symm⟩
      have hnl := h.live.mp hm
      have hsame := h.sameObjectAs_of_object hx hnl hu ho'
      cases hsame.symm.trans (hfn (h.mdb.ne_zero hnl))
    · obtain ⟨hm, hu, ho'⟩ := hc.prev h.mdb.rep ⟨l, hl, hb⟩ ⟨hxu, rfl⟩ ⟨hyu, ho.symm⟩
      have hpl := h.live.mp hm
      have hsame := sameObjectAs_symm (h.sameObjectAs_of_object hx hpl hu ho')
      cases hsame.symm.trans (hfp (h.mdb.ne_zero hpl))
  · intro hall
    refine ⟨fun _ => Bool.eq_false_iff.mpr fun hs => ?_, fun _ => hall _ hnext⟩
    cases (sameObjectAs_symm hs).symm.trans (hall _ hprev)

end

end CapInv

end Rel4.Kernel
