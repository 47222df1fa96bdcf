import Mathlib.Logic.Function.Basic

/-!
Pairs of objects that point at each other.

`f` and `g` are the pointer fields of two kinds of objects, with a null value
each. They are `Linked` when every pointer that is not null is answered by one
back. Joining two objects keeps this if both are free (`link_iff`), and so does
taking one object out of its pair (`unlink`).
-/

namespace Rel4.Lib.Link
open Function

variable {α β : Type} {na : α} {nb : β} {f : α → β} {g : β → α}

structure Linked (na : α) (nb : β) (f : α → β) (g : β → α) : Prop where
  left : ∀ x, f x ≠ nb → x ≠ na ∧ g (f x) = x
  right : ∀ y, g y ≠ na → y ≠ nb ∧ f (g y) = y

namespace Linked

theorem symm (h : Linked na nb f g) : Linked nb na g f := ⟨h.right, h.left⟩

theorem iff (h : Linked na nb f g) (hx : x ≠ na) (hy : y ≠ nb) : f x = y ↔ g y = x := by
  constructor
  · rintro rfl
    exact (h.left x hy).2
  · rintro rfl
    exact (h.right y hx).2

/-- Nothing points at an object that points nowhere. -/
theorem ne_of_free (h : Linked na nb f g) (hx : x ≠ na) (hfree : f x = nb) (y : β) : g y ≠ x := by
  rintro rfl
  obtain ⟨hy, hf⟩ := h.right y hx
  exact hy (hf.symm.trans hfree)

variable [DecidableEq α] [DecidableEq β]

theorem left_update (h : Linked na nb f g) (hx : x ≠ na) (hfree : g y = na) (z : α)
    (hz : update f x y z ≠ nb) : z ≠ na ∧ update g y x (update f x y z) = z := by
  by_cases hzx : z = x
  · subst hzx
    rw [update_self, update_self]
    exact ⟨hx, rfl⟩
  rw [update_of_ne hzx] at hz ⊢
  obtain ⟨hz', hg⟩ := h.left z hz
  refine ⟨hz', ?_⟩
  have hne : f z ≠ y := by
    intro e
    rw [e, hfree] at hg
    exact hz' hg.symm
  rw [update_of_ne hne]
  exact hg

/-- Two objects can be joined if the second is free, the first being free. -/
theorem link_iff (h : Linked na nb f g) (hx : x ≠ na) (hy : y ≠ nb) (hfree : f x = nb) :
    Linked na nb (update f x y) (update g y x) ↔ g y = na := by
  constructor
  · intro h'
    by_contra hg
    -- the partner of `y` still points at it, but `y` points at `x` now
    obtain ⟨-, hf⟩ := h.right y hg
    have hne : g y ≠ x := h.ne_of_free hx hfree y
    have hkeep : update f x y (g y) = y := by rw [update_of_ne hne, hf]
    have hback := (h'.left (g y) (by rw [hkeep]; exact hy)).2
    rw [hkeep, update_self] at hback
    exact hne hback.symm
  · intro hg
    exact ⟨h.left_update hx hg, h.symm.left_update hy hfree⟩

/-- An object leaves its pair. -/
theorem unlink (h : Linked na nb f g) (hx : f x ≠ nb) :
    Linked na nb (update f x nb) (update g (f x) na) := by
  obtain ⟨-, hback⟩ := h.left x hx
  refine ⟨fun z hz => ?_, fun y hy => ?_⟩
  · have hzx : z ≠ x := by
      rintro rfl
      exact hz (update_self ..)
    rw [update_of_ne hzx] at hz ⊢
    obtain ⟨hz', hg⟩ := h.left z hz
    refine ⟨hz', ?_⟩
    have hne : f z ≠ f x := by
      intro e
      rw [e, hback] at hg
      exact hzx hg.symm
    rw [update_of_ne hne]
    exact hg
  · have hyx : y ≠ f x := by
      rintro rfl
      exact hy (update_self ..)
    rw [update_of_ne hyx] at hy ⊢
    obtain ⟨hy', hf⟩ := h.right y hy
    refine ⟨hy', ?_⟩
    have hne : g y ≠ x := by
      intro e
      rw [e] at hf
      exact hyx hf.symm
    rw [update_of_ne hne]
    exact hf

end Linked

end Rel4.Lib.Link
