import Mathlib.Logic.Function.Basic

/-!
A registry of identifiers for objects that are reached through handles.

`owner` is the table from identifiers to objects. Each handle of an object
carries a tag with the object and, once the object is registered, with its
identifier. The table and the tags are written separately, so they have to be
kept consistent: an entry of the table needs a handle that tells of it.
-/

namespace Rel4.Lib
open Function

universe u v w

structure Registry (Handle : Type u) (Obj : Type v) (Id : Type w) where
  owner : Id → Option Obj
  tag : Handle → Option (Obj × Option Id)

namespace Registry

variable {Id : Type w}
variable {r r' : Registry Handle Obj Id} {reserved i : Id} {o : Obj} {x y : Handle}

/-- What the table says is on a handle, the handles of an object agree, and an
object that is not registered has one handle only. -/
structure Consistent (r : Registry Handle Obj Id) (reserved : Id) : Prop where
  sound : ∀ {i o}, r.owner i = some o → ∃ x, r.tag x = some (o, some i)
  agree : ∀ {x y o j k}, r.tag x = some (o, j) → r.tag y = some (o, k) → j = k
  single : ∀ {x y o k}, r.tag x = some (o, none) → r.tag y = some (o, k) → x = y
  reserved_free : r.owner reserved = none

namespace Consistent

/-- An object has one identifier. -/
theorem owner_inj (h : Consistent r reserved) (hi : r.owner i = some o) (hj : r.owner j = some o) :
    i = j := by
  obtain ⟨x, hx⟩ := h.sound hi
  obtain ⟨y, hy⟩ := h.sound hj
  exact Option.some.inj (h.agree hx hy)

/-- The identifier of an object is the one on each of its handles. -/
theorem tag_eq (h : Consistent r reserved) (hi : r.owner i = some o) (hx : r.tag x = some (o, k)) :
    k = some i := by
  obtain ⟨y, hy⟩ := h.sound hi
  exact h.agree hx hy

/-- Identifiers may be taken back at any time. -/
theorem release (h : Consistent r reserved) (htag : r'.tag = r.tag)
    (howner : ∀ i o, r'.owner i = some o → r.owner i = some o) : Consistent r' reserved where
  sound hi := by
    rw [htag]
    exact h.sound (howner _ _ hi)
  agree hx hy := by
    rw [htag] at hx hy
    exact h.agree hx hy
  single hx hy := by
    rw [htag] at hx hy
    exact h.single hx hy
  reserved_free := by
    cases hr : r'.owner reserved with
    | none => rfl
    | some o =>
      have hbefore := howner _ _ hr
      rw [h.reserved_free] at hbefore
      cases hbefore

variable [DecidableEq Handle]

/-- A handle may be dropped if another one of its object is left, or if the
identifier on it no longer leads to the object. -/
theorem drop (h : Consistent r reserved) (htag : r'.tag = update r.tag x none)
    (howner : ∀ i o, r'.owner i = some o → r.owner i = some o)
    (hlast : ∀ i o, r.tag x = some (o, some i) → r'.owner i = some o →
      ∃ y k, y ≠ x ∧ r.tag y = some (o, k)) : Consistent r' reserved := by
  have hback : ∀ {y t}, r'.tag y = some t → r.tag y = some t := by
    intro y t hy
    rw [htag, update_apply] at hy
    split at hy
    · cases hy
    · exact hy
  refine ⟨fun {i o} hi => ?_, fun hx hy => h.agree (hback hx) (hback hy),
    fun hx hy => h.single (hback hx) (hback hy), ?_⟩
  · obtain ⟨z, hz⟩ := h.sound (howner _ _ hi)
    by_cases hzx : z = x
    · subst hzx
      obtain ⟨y, k, hyx, hy⟩ := hlast i o hz hi
      cases h.agree hz hy
      refine ⟨y, ?_⟩
      rw [htag, update_of_ne hyx]
      exact hy
    · refine ⟨z, ?_⟩
      rw [htag, update_of_ne hzx]
      exact hz
  · have hrel : Consistent ⟨r'.owner, r.tag⟩ reserved := h.release rfl howner
    exact hrel.reserved_free

/-- An object without an identifier takes a free one. -/
theorem assign (h : Consistent r reserved) (hx : r.tag x = some (o, none)) (hi : i ≠ reserved)
    (htag : r'.tag = update r.tag x (some (o, some i)))
    (howner : ∀ j p, r'.owner j = some p → j = i ∧ p = o ∨ r.owner j = some p) :
    Consistent r' reserved := by
  have hother : ∀ {y p k}, r'.tag y = some (p, k) → y ≠ x → r.tag y = some (p, k) ∧ p ≠ o := by
    intro y p k hy hyx
    rw [htag, update_of_ne hyx] at hy
    refine ⟨hy, ?_⟩
    rintro rfl
    exact hyx (h.single hx hy).symm
  have hself : r'.tag x = some (o, some i) := by
    rw [htag, update_self]
  refine ⟨fun {j p} hj => ?_, fun {y z p k l} hy hz => ?_, fun {y z p k} hy hz => ?_, ?_⟩
  · rcases howner _ _ hj with ⟨rfl, rfl⟩ | hj
    · exact ⟨x, hself⟩
    · obtain ⟨y, hy⟩ := h.sound hj
      have hyx : y ≠ x := by
        rintro rfl
        rw [hx] at hy
        cases hy
      refine ⟨y, ?_⟩
      rw [htag, update_of_ne hyx]
      exact hy
  · by_cases hyx : y = x <;> by_cases hzx : z = x
    · rw [hyx] at hy
      rw [hzx] at hz
      cases hy.symm.trans hz
      rfl
    · rw [hyx, hself] at hy
      cases hy
      exact absurd rfl (hother hz hzx).2
    · rw [hzx, hself] at hz
      cases hz
      exact absurd rfl (hother hy hyx).2
    · exact h.agree (hother hy hyx).1 (hother hz hzx).1
  · have hyx : y ≠ x := by
      rintro rfl
      rw [hself] at hy
      cases hy
    by_cases hzx : z = x
    · rw [hzx, hself] at hz
      cases hz
      exact absurd rfl (hother hy hyx).2
    · exact h.single (hother hy hyx).1 (hother hz hzx).1
  · cases hr : r'.owner reserved with
    | none => rfl
    | some p =>
      rcases howner _ _ hr with ⟨hri, -⟩ | hr
      · exact absurd hri.symm hi
      · rw [h.reserved_free] at hr
        cases hr

end Consistent

end Registry

end Rel4.Lib
