import Rel4.Lib.Queues

/-!
Queues that say where their members wait.

Each member of a population waits in one room or in none (`place`), and the
queue of a room holds exactly those who wait there. Members join a queue at its
back, leave it from anywhere, or all at once.
-/

namespace Rel4.Lib.Queues
open Lib.DList Function

variable [DecidableEq α]

structure Waiting (null : α) (member : α → Prop) (L : Links α) (place : α → Option ι)
    (q : ι → List α) : Prop where
  links : Family null L q
  mem : ∀ {x i}, x ∈ q i ↔ member x ∧ place x = some i

namespace Waiting

variable {null : α} {member : α → Prop} {L : Links α} {place : α → Option ι}
  {q : ι → List α} {x : α} {i : ι}

theorem congr (h : Waiting null member L place q) (hn : ∀ x, x ≠ null → L'.next x = L.next x)
    (hp : ∀ x, x ≠ null → L'.prev x = L.prev x) (hplace : ∀ x, member x → place' x = place x) :
    Waiting null member L' place' q := by
  refine ⟨h.links.congr (fun i x hx => hn x ((h.links.queue i).ne_null hx))
    fun i x hx => hp x ((h.links.queue i).ne_null hx), fun {x i} => h.mem.trans ?_⟩
  exact and_congr_right fun hx => by rw [hplace x hx]

theorem place_eq (h : Waiting null member L place q) (hx : x ∈ q i) : place x = some i :=
  (h.mem.mp hx).2

theorem not_mem (h : Waiting null member L place q) (hx : place x = none) : x ∉ q i := by
  intro hm
  have hp := h.place_eq hm
  rw [hx] at hp
  cases hp

variable [DecidableEq ι]

/-- A member that waits nowhere joins the queue of a room. -/
theorem join (h : Waiting null member L place q) (hx : member x) (hnull : x ≠ null)
    (hfree : place x = none)
    (hn : ∀ y, y ≠ null → L'.next y = (pushBack null L ((q i).getLastD null) x).next y)
    (hp : ∀ y, L'.prev y = (pushBack null L ((q i).getLastD null) x).prev y)
    (hplace : ∀ y, place' y = if y = x then some i else place y) :
    Waiting null member L' place' (update q i (q i ++ [x])) := by
  have hfam := h.links.pushBack (i := i) (fun j => h.not_mem hfree) hnull
  refine ⟨hfam.congr (fun j y hy => hn y ((hfam.queue j).ne_null hy)) fun _ y _ => hp y, ?_⟩
  intro y j
  rw [hplace]
  by_cases hj : j = i
  · subst hj
    rw [update_self, List.mem_append, List.mem_singleton, h.mem]
    by_cases hy : y = x
    · subst hy
      simp [hx]
    · simp [hy]
  · rw [update_of_ne hj, h.mem]
    by_cases hy : y = x
    · subst hy
      simp [hfree, Ne.symm hj]
    · simp [hy]

/-- A member leaves the queue it is in; what becomes of its own pointers does not
matter. -/
theorem leave (h : Waiting null member L place q) (hx : x ∈ q i)
    (hn : ∀ y, y ≠ null → y ≠ x → L'.next y = (skip L x).next y)
    (hp : ∀ y, y ≠ null → y ≠ x → L'.prev y = (skip L x).prev y)
    (hplace : ∀ y, place' y = if y = x then none else place y) :
    Waiting null member L' place' (update q i ((q i).erase x)) := by
  have hfam := h.links.remove hx
  have hnodup := (h.links.queue i).nodup
  have hgone : ∀ {j y}, y ∈ update q i ((q i).erase x) j → y ≠ x := by
    rintro j y hy rfl
    by_cases hj : j = i
    · subst hj
      rw [update_self, hnodup.mem_erase_iff] at hy
      exact hy.1 rfl
    · rw [update_of_ne hj] at hy
      exact hj (h.links.disjoint hy hx)
  refine ⟨hfam.congr (fun j y hy => hn y ((hfam.queue j).ne_null hy) (hgone hy))
    fun j y hy => hp y ((hfam.queue j).ne_null hy) (hgone hy), ?_⟩
  intro y j
  rw [hplace]
  by_cases hy : y = x
  · subst hy
    rw [if_pos rfl]
    refine ⟨fun hm => absurd rfl (hgone hm), fun hm => ?_⟩
    cases hm.2
  rw [if_neg hy, ← h.mem]
  by_cases hj : j = i
  · subst hj
    rw [update_self, hnodup.mem_erase_iff]
    exact and_iff_right hy
  · rw [update_of_ne hj]

/-- All members leave a room. -/
theorem clear (h : Waiting null member L place q)
    (hplace : ∀ y, member y → place' y = if place y = some i then none else place y) :
    Waiting null member L place' (update q i []) := by
  refine ⟨h.links.update .nil (fun j _ => h.links.queue j) (by simp), ?_⟩
  intro y j
  by_cases hy : member y
  · rw [hplace y hy]
    by_cases hj : j = i
    · subst hj
      rw [update_self]
      split
      · simp
      · rename_i hne
        simp [hne]
    · rw [update_of_ne hj, h.mem]
      split
      · rename_i hi
        simp [hi, Ne.symm hj]
      · rfl
  · have hnot : ∀ j, y ∉ update q i [] j := by
      intro j hm
      by_cases hj : j = i
      · subst hj
        simp at hm
      · rw [update_of_ne hj, h.mem] at hm
        exact hy hm.1
    exact ⟨fun hm => absurd hm (hnot j), fun hm => absurd hm.1 hy⟩

end Waiting

end Rel4.Lib.Queues
