import Mathlib.Data.List.Basic
import Mathlib.Logic.Function.Basic
import Mathlib.Logic.Equiv.Defs

/-!
References to objects that are carved out of containers.

A reference names an object, or it is a container: a range of a space in which
objects are created one after the other. Every reference has a number and
carries the numbers of the references it was derived from. `ObjInv` says that
two references overlap only if they name the same object or if one is a
container that the other was derived from, and each operation on references
keeps it.
-/

namespace Rel4.Lib.Objects
open Function

/-- A range of one of several spaces. -/
structure Extent (σ : Type*) where
  space : σ
  lo : Nat
  hi : Nat

namespace Extent

variable {σ : Type*} {e f g : Extent σ}

def Overlaps (e f : Extent σ) : Prop := e.space = f.space ∧ e.lo < f.hi ∧ f.lo < e.hi

instance [DecidableEq σ] (e f : Extent σ) : Decidable (e.Overlaps f) :=
  inferInstanceAs (Decidable (_ ∧ _))

/-- `e` lies within `f`. -/
def Within (e f : Extent σ) : Prop := e.space = f.space ∧ f.lo ≤ e.lo ∧ e.hi ≤ f.hi

theorem Overlaps.symm (h : e.Overlaps f) : f.Overlaps e := ⟨h.1.symm, h.2.2, h.2.1⟩

theorem Overlaps.of_within (h : e.Overlaps g) (hw : g.Within f) : e.Overlaps f := by
  obtain ⟨hs, h1, h2⟩ := h
  obtain ⟨hs', h3, h4⟩ := hw
  exact ⟨hs.trans hs', by omega, by omega⟩

theorem Within.refl (e : Extent σ) : e.Within e := ⟨rfl, Nat.le_refl _, Nat.le_refl _⟩

theorem Within.trans (h : e.Within f) (hw : f.Within g) : e.Within g := by
  obtain ⟨hs, h1, h2⟩ := h
  obtain ⟨hs', h3, h4⟩ := hw
  exact ⟨hs.trans hs', by omega, by omega⟩

end Extent

/-- A reference. The objects of a container lie below `used`; `sole` marks the
last reference to an object that is being destroyed. -/
structure Ref (σ κ : Type*) where
  container : Bool
  extent : Extent σ
  used : Nat
  key : κ
  sole : Bool
  id : Nat
  anc : List Nat
  object : Nat

namespace Ref

variable {σ κ : Type*}

/-- The part of a container that has been given out. -/
def usedExtent (c : Ref σ κ) : Extent σ := { c.extent with hi := c.used }

/-- `c` was derived from the reference with this number, or is it. -/
def DescendsFrom (c : Ref σ κ) (i : Nat) : Prop := i = c.id ∨ i ∈ c.anc

end Ref

/-- The invariant of a store of references. -/
structure ObjInv {α σ κ : Type*} (refs : α → Option (Ref σ κ)) : Prop where
  used_le : ∀ x c, refs x = some c → c.container → c.used ≤ c.extent.hi
  contained : ∀ x y c d, refs x = some c → refs y = some d → c.container → c.id ∈ d.anc →
    d.extent.Within c.usedExtent
  laminar : ∀ x y c d, refs x = some c → refs y = some d → x ≠ y →
    c.extent.Overlaps d.extent →
    (c.container = false ∧ d.container = false ∧ c.object = d.object) ∨
      (c.container ∧ c.id ∈ d.anc) ∨ (d.container ∧ d.id ∈ c.anc)
  descends_object : ∀ x c, refs x = some c → c.container = false → c.DescendsFrom c.object
  object_of_descends : ∀ x y c d, refs x = some c → refs y = some d → c.container = false →
    d.DescendsFrom c.object → d.container = false ∧ d.object = c.object
  key_eq : ∀ x y c d, refs x = some c → refs y = some d → c.container = false →
    d.container = false → c.object = d.object → c.key = d.key
  sole : ∀ x y c d, refs x = some c → refs y = some d → c.container = false →
    d.container = false → c.sole → c.object = d.object → x = y

namespace ObjInv

variable {α σ κ : Type*} {refs : α → Option (Ref σ κ)} {x y p : α} {c d : Ref σ κ}

/-- Every reference of the new store is one of the old, at a place of its own. -/
theorem of_embedding (h : ObjInv refs) (g : α → α) (hg : Injective g)
    (hr : ∀ x c, refs' x = some c → refs (g x) = some c) : ObjInv refs' where
  used_le x c hx := h.used_le (g x) c (hr x c hx)
  contained x y c d hx hy := h.contained (g x) (g y) c d (hr x c hx) (hr y d hy)
  laminar x y c d hx hy hne := h.laminar (g x) (g y) c d (hr x c hx) (hr y d hy) (hg.ne hne)
  descends_object x c hx := h.descends_object (g x) c (hr x c hx)
  object_of_descends x y c d hx hy := h.object_of_descends (g x) (g y) c d (hr x c hx) (hr y d hy)
  key_eq x y c d hx hy := h.key_eq (g x) (g y) c d (hr x c hx) (hr y d hy)
  sole x y c d hx hy hc hd hs ho := hg (h.sole (g x) (g y) c d (hr x c hx) (hr y d hy) hc hd hs ho)

end ObjInv

/-- What `ObjInv` asks of two references at different places. -/
structure Beside {σ κ : Type*} (d r : Ref σ κ) : Prop where
  below : d.container → d.id ∈ r.anc → r.extent.Within d.usedExtent
  above : r.container → r.id ∈ d.anc → d.extent.Within r.usedExtent
  laminar : d.extent.Overlaps r.extent →
    (d.container = false ∧ r.container = false ∧ d.object = r.object) ∨
      (d.container ∧ d.id ∈ r.anc) ∨ (r.container ∧ r.id ∈ d.anc)
  object_below : d.container = false → r.DescendsFrom d.object →
    r.container = false ∧ r.object = d.object
  object_above : r.container = false → d.DescendsFrom r.object →
    d.container = false ∧ d.object = r.object
  key : d.container = false → r.container = false → d.object = r.object → d.key = r.key
  sole : d.container = false → r.container = false → d.object = r.object →
    d.sole = false ∧ r.sole = false

/-- `r` is a new reference, derived from the reference `c` at `p`. -/
structure NewRef {α σ κ : Type*} (refs : α → Option (Ref σ κ)) (p : α) (c r : Ref σ κ)
    (fresh : Nat) : Prop where
  parent : refs p = some c
  inj : ∀ y d, refs y = some d → d.id = c.id → y = p
  id_lt : ∀ y d, refs y = some d → d.id < fresh
  object_lt : ∀ y d, refs y = some d → d.object < fresh
  anc_lt : ∀ y d, refs y = some d → ∀ i ∈ d.anc, i < fresh
  id : r.id = fresh
  anc : r.anc = c.id :: c.anc

namespace NewRef

variable {α σ κ : Type*} {refs : α → Option (Ref σ κ)} {p y : α} {c d r : Ref σ κ}

section

variable (n : NewRef refs p c r fresh)
include n

/-- A reference that `r` was derived from is `c` or one that `c` was derived from. -/
theorem anc_of_new (hy : refs y = some d) (hm : d.id ∈ r.anc) : (y = p ∧ d = c) ∨ d.id ∈ c.anc := by
  rw [n.anc, List.mem_cons] at hm
  refine hm.imp_left fun he => ?_
  obtain rfl := n.inj y d hy he
  exact ⟨rfl, Option.some.inj (hy.symm.trans n.parent)⟩

theorem not_anc_new (hy : refs y = some d) : r.id ∉ d.anc := by
  intro hm
  have := n.anc_lt y d hy _ hm
  have := n.id
  omega

theorem not_anc_self : r.id ∉ r.anc := by
  intro hm
  rw [n.anc, List.mem_cons] at hm
  have hid := n.id
  rcases hm with he | hm
  · have := n.id_lt p c n.parent
    omega
  · have := n.anc_lt p c n.parent _ hm
    omega

theorem descends_of_new (hi : i < fresh) (hd : r.DescendsFrom i) : c.DescendsFrom i := by
  rcases hd with he | hm
  · have := n.id
    omega
  · rw [n.anc, List.mem_cons] at hm
    exact hm

theorem not_descends_fresh (hy : refs y = some d) : ¬ d.DescendsFrom fresh := by
  rintro (he | hm)
  · have := n.id_lt y d hy
    omega
  · have := n.anc_lt y d hy _ hm
    omega

end

end NewRef

namespace ObjInv

variable {α σ κ : Type*} [DecidableEq α] {refs : α → Option (Ref σ κ)} {p : α} {c r : Ref σ κ}

private theorem update_eq_some (hy : update refs q (some r) y = some d) :
    (y = q ∧ d = r) ∨ (y ≠ q ∧ refs y = some d) := by
  by_cases hyq : y = q
  · rw [hyq, update_self] at hy
    exact .inl ⟨hyq, (Option.some.inj hy).symm⟩
  · rw [update_of_ne hyq] at hy
    exact .inr ⟨hyq, hy⟩

/-- A reference is stored: it is in order by itself and beside every other one. -/
theorem insert (h : ObjInv refs) (hused : r.container → r.used ≤ r.extent.hi)
    (hself : r.container → r.id ∈ r.anc → r.extent.Within r.usedExtent)
    (hobj : r.container = false → r.DescendsFrom r.object)
    (hb : ∀ y d, refs y = some d → y ≠ q → Beside d r) : ObjInv (update refs q (some r)) := by
  refine ⟨fun x e hx => ?_, fun x y e d hx hy => ?_, fun x y e d hx hy hne ho => ?_,
    fun x e hx => ?_, fun x y e d hx hy => ?_, fun x y e d hx hy he hd ho => ?_,
    fun x y e d hx hy he hd hs ho => ?_⟩
  · rcases update_eq_some hx with ⟨-, rfl⟩ | ⟨-, hx⟩
    · exact hused
    · exact h.used_le x e hx
  · rcases update_eq_some hx with ⟨-, rfl⟩ | ⟨hxq, hx'⟩ <;>
      rcases update_eq_some hy with ⟨-, rfl⟩ | ⟨hyq, hy'⟩
    · exact hself
    · exact (hb y d hy' hyq).above
    · exact (hb x e hx' hxq).below
    · exact h.contained x y e d hx' hy'
  · rcases update_eq_some hx with ⟨hxq, rfl⟩ | ⟨hxq, hx'⟩ <;>
      rcases update_eq_some hy with ⟨hyq, rfl⟩ | ⟨hyq, hy'⟩
    · exact absurd (hxq.trans hyq.symm) hne
    · rcases (hb y d hy' hyq).laminar ho.symm with ⟨h1, h2, h3⟩ | h1 | h1
      · exact .inl ⟨h2, h1, h3.symm⟩
      · exact .inr (.inr h1)
      · exact .inr (.inl h1)
    · exact (hb x e hx' hxq).laminar ho
    · exact h.laminar x y e d hx' hy' hne ho
  · rcases update_eq_some hx with ⟨-, rfl⟩ | ⟨-, hx⟩
    · exact hobj
    · exact h.descends_object x e hx
  · rcases update_eq_some hx with ⟨-, rfl⟩ | ⟨hxq, hx'⟩ <;>
      rcases update_eq_some hy with ⟨-, rfl⟩ | ⟨hyq, hy'⟩
    · exact fun he _ => ⟨he, rfl⟩
    · exact (hb y d hy' hyq).object_above
    · exact (hb x e hx' hxq).object_below
    · exact h.object_of_descends x y e d hx' hy'
  · rcases update_eq_some hx with ⟨-, rfl⟩ | ⟨hxq, hx'⟩ <;>
      rcases update_eq_some hy with ⟨-, rfl⟩ | ⟨hyq, hy'⟩
    · rfl
    · exact ((hb y d hy' hyq).key hd he ho.symm).symm
    · exact (hb x e hx' hxq).key he hd ho
    · exact h.key_eq x y e d hx' hy' he hd ho
  · rcases update_eq_some hx with ⟨hxq, rfl⟩ | ⟨hxq, hx'⟩ <;>
      rcases update_eq_some hy with ⟨hyq, rfl⟩ | ⟨hyq, hy'⟩
    · exact hxq.trans hyq.symm
    · rw [((hb y d hy' hyq).sole hd he ho.symm).2] at hs
      cases hs
    · rw [((hb x e hx' hxq).sole he hd ho).1] at hs
      cases hs
    · exact h.sole x y e d hx' hy' he hd hs ho

/-- A new object, or a new container, in the used part of a container, away from
everything derived from it before. -/
theorem insert_object (h : ObjInv refs) (n : NewRef refs p c r fresh) (hc : c.container)
    (hw : r.extent.Within c.usedExtent)
    (hfree : ∀ y d, refs y = some d → c.id ∈ d.anc → ¬ d.extent.Overlaps r.extent)
    (hobj : r.container = false → r.object = fresh)
    (hused : r.container → r.used ≤ r.extent.hi) : ObjInv (update refs q (some r)) := by
  have hp := n.parent
  -- a new object is nobody else's
  have hnew : ∀ y d, refs y = some d → r.container = false → d.object ≠ r.object := by
    intro y d hy hr ho
    have := n.object_lt y d hy
    rw [hobj hr] at ho
    omega
  refine h.insert hused (fun _ hm => absurd hm n.not_anc_self)
    (fun hr => .inl ((hobj hr).trans n.id.symm)) fun y d hy _ => ⟨fun hd hm => ?_, fun _ hm => ?_,
    fun ho => ?_, fun hd ho => ?_, fun hr ho => ?_, fun _ hr ho => ?_, fun _ hr ho => ?_⟩
  · rcases n.anc_of_new hy hm with ⟨-, rfl⟩ | hm
    · exact hw
    · have hu := h.used_le p c hp hc
      have hrc : r.extent.Within c.extent := hw.trans ⟨rfl, Nat.le_refl _, hu⟩
      exact hrc.trans (h.contained y p d c hy hp hd hm)
  · exact absurd hm (n.not_anc_new hy)
  · -- what overlaps `r` is a container that `r` was derived from
    right
    left
    by_cases hyp : y = p
    · subst hyp
      obtain rfl := Option.some.inj (hp.symm.trans hy)
      exact ⟨hc, by simp [n.anc]⟩
    · have hover : d.extent.Overlaps c.extent :=
        (ho.of_within hw).of_within ⟨rfl, Nat.le_refl _, h.used_le p c hp hc⟩
      rcases h.laminar y p d c hy hp hyp hover with h1 | h1 | h1
      · simp [hc] at h1
      · exact ⟨h1.1, by simp [n.anc, h1.2]⟩
      · exact absurd ho (hfree y d hy h1.2)
  · have hdc := n.descends_of_new (n.object_lt y d hy) ho
    have := (h.object_of_descends y p d c hy hp hd hdc).1
    simp [hc] at this
  · rw [hobj hr] at ho
    exact absurd ho (n.not_descends_fresh hy)
  · exact absurd ho (hnew y d hy hr)
  · exact absurd ho (hnew y d hy hr)

/-- A second reference to the object of `c`. -/
theorem insert_copy (h : ObjInv refs) (n : NewRef refs p c r fresh) (hc : c.container = false)
    (hcs : c.sole = false) (hr : r.container = false) (hext : r.extent = c.extent)
    (hkey : r.key = c.key) (hobj : r.object = c.object) (hsole : r.sole = false) :
    ObjInv (update refs q (some r)) := by
  have hp := n.parent
  refine h.insert (fun h => absurd h (by simp [hr])) (fun _ hm => absurd hm n.not_anc_self)
    (fun _ => ?_) fun y d hy _ => ⟨fun hd hm => ?_, fun _ hm => ?_, fun ho => ?_, fun hd ho => ?_,
    fun _ ho => ?_, fun hd _ ho => ?_, fun hd _ ho => ⟨?_, hsole⟩⟩
  · right
    rw [hobj, n.anc, List.mem_cons]
    exact h.descends_object p c hp hc
  · rcases n.anc_of_new hy hm with ⟨-, rfl⟩ | hm
    · simp [hc] at hd
    · rw [hext]
      exact h.contained y p d c hy hp hd hm
  · exact absurd hm (n.not_anc_new hy)
  · by_cases hyp : y = p
    · subst hyp
      obtain rfl := Option.some.inj (hp.symm.trans hy)
      exact .inl ⟨hc, hr, hobj.symm⟩
    · rcases h.laminar y p d c hy hp hyp (hext ▸ ho) with h1 | h1 | h1
      · exact .inl ⟨h1.1, hr, h1.2.2.trans hobj.symm⟩
      · exact .inr (.inl ⟨h1.1, by simp [n.anc, h1.2]⟩)
      · simp [hc] at h1
  · have hdc := n.descends_of_new (n.object_lt y d hy) ho
    rw [hobj]
    exact ⟨hr, (h.object_of_descends y p d c hy hp hd hdc).2⟩
  · rw [hobj] at ho ⊢
    exact h.object_of_descends p y c d hp hy hc ho
  · rw [hkey]
    exact h.key_eq y p d c hy hp hd hc (ho.trans hobj)
  · by_contra hs
    obtain rfl := h.sole y p d c hy hp hd hc (by simpa using hs) (ho.trans hobj)
    obtain rfl := Option.some.inj (hp.symm.trans hy)
    exact hs hcs

/-- A reference changes in place. It stays the same kind of reference to the same
object; how much of a container is used may change, and the last reference to
an object may become `sole`. -/
theorem modify (h : ObjInv refs) (hp : refs p = some c) (hcont : r.container = c.container)
    (hext : r.extent = c.extent) (hid : r.id = c.id) (hanc : r.anc = c.anc)
    (hobj : r.object = c.object)
    (hused : c.container → r.used ≤ c.extent.hi ∧
      ∀ y d, refs y = some d → c.id ∈ d.anc → d.extent.Within r.usedExtent)
    (hsole : (r.sole = c.sole ∧ r.key = c.key) ∨ ∀ y d, refs y = some d → d.container = false →
      d.object = c.object → y = p) :
    ObjInv (update refs p (some r)) := by
  rw [← hcont, ← hext] at hused
  refine h.insert (fun hr => (hused hr).1) (fun hr hm => ?_) (fun hr => ?_) fun y d hy hne =>
    ⟨fun hd hm => ?_, fun hr hm => ?_, fun ho => ?_, fun hd ho => ?_, fun hr ho => ?_,
      fun hd hr ho => ?_, fun hd hr ho => ?_⟩
  · rw [hext]
    exact (hused hr).2 p c hp (hid ▸ hanc ▸ hm)
  · rw [Ref.DescendsFrom, hid, hanc, hobj]
    exact h.descends_object p c hp (hcont ▸ hr)
  · rw [hext]
    exact h.contained y p d c hy hp hd (hanc ▸ hm)
  · exact (hused hr).2 y d hy (hid ▸ hm)
  · rw [hcont, hobj, hid, hanc]
    exact h.laminar y p d c hy hp hne (hext ▸ ho)
  · rw [Ref.DescendsFrom, hid, hanc] at ho
    rw [hcont, hobj]
    exact h.object_of_descends y p d c hy hp hd ho
  · rw [hobj] at ho ⊢
    exact h.object_of_descends p y c d hp hy (hcont ▸ hr) ho
  · rcases hsole with ⟨-, hk⟩ | honly
    · rw [hk]
      exact h.key_eq y p d c hy hp hd (hcont ▸ hr) (ho.trans hobj)
    · exact absurd (honly y d hy hd (ho.trans hobj)) hne
  · rcases hsole with ⟨hs, -⟩ | honly
    · have hc : c.container = false := hcont ▸ hr
      rw [hs]
      refine ⟨Bool.eq_false_iff.mpr fun hs => hne ?_, Bool.eq_false_iff.mpr fun hs => hne ?_⟩
      · exact h.sole y p d c hy hp hd hc hs (ho.trans hobj)
      · exact (h.sole p y c d hp hy hc hd hs (ho.trans hobj).symm).symm
    · exact absurd (honly y d hy hd (ho.trans hobj)) hne

end ObjInv

end Rel4.Lib.Objects
