import Rel4.Lib.DList

/-!
Queues with a head and a tail over the pointer fields of their members.

A family of queues shares one pair of pointer fields, and so a cell is in one
queue at most. Threads join at the back (`pushBack`) and leave from anywhere
(`remove`); both are stated for the pointers that such code writes, whatever it
leaves in a cell that has left.
-/

namespace Rel4.Lib.Queues
open Lib.DList Function

variable {α : Type*} {null d s x : α} {l : List α} {L : Links α}

/-! ## Ends of a list -/

theorem headD_eq_null_iff (hnull : null ∉ l) : l.headD null = null ↔ l = [] := by
  cases l with
  | nil => simp
  | cons y l =>
    have hy : y ≠ null := fun e => hnull (e ▸ List.mem_cons_self)
    simp [hy]

theorem getLastD_eq_null_iff (hnull : null ∉ l) : l.getLastD null = null ↔ l = [] := by
  rcases List.eq_nil_or_concat' l with rfl | ⟨u, y, rfl⟩
  · simp
  · have hy : y ≠ null := fun e => hnull (e ▸ by simp)
    simp [hy]

variable [DecidableEq α]

theorem headD_concat (hnull : null ∉ l) :
    (l ++ [d]).headD null = if l.headD null = null then d else l.headD null := by
  cases l with
  | nil => simp
  | cons y l =>
    have hy : y ≠ null := fun e => hnull (e ▸ List.mem_cons_self)
    simp [hy]

/-- The head after a removal: the successor takes over from a head that leaves. -/
theorem headD_erase (hl : l.Nodup) (hnull : null ∉ l) (hs : s ∈ l) : (l.erase s).headD null =
      if predIn null l s = null then succIn null l s else l.headD null := by
  obtain ⟨u, v, rfl, hu, -⟩ := exists_split hs hl
  have hnu : null ∉ u := fun hm => hnull (List.mem_append_left _ hm)
  rw [List.erase_append_right _ hu, List.erase_cons_head, predIn_append_cons hu,
    succIn_append_cons hu]
  simp only [getLastD_eq_null_iff hnu]
  cases u with
  | nil => simp
  | cons y u => simp

/-- The tail after a removal: the predecessor takes over from a tail that leaves. -/
theorem getLastD_erase (hl : l.Nodup) (hnull : null ∉ l) (hs : s ∈ l) : (l.erase s).getLastD null =
      if succIn null l s = null then predIn null l s else l.getLastD null := by
  obtain ⟨u, v, rfl, hu, -⟩ := exists_split hs hl
  have hnv : null ∉ v := fun hm => hnull (List.mem_append_right _ (List.mem_cons_of_mem _ hm))
  rw [List.erase_append_right _ hu, List.erase_cons_head, predIn_append_cons hu,
    succIn_append_cons hu]
  simp only [headD_eq_null_iff hnv]
  rcases List.eq_nil_or_concat' v with rfl | ⟨v, y, rfl⟩
  · simp
  · rw [if_neg (by simp), ← List.append_assoc, List.getLastD_concat]
    have e : u ++ s :: (v ++ [y]) = (u ++ s :: v) ++ [y] := by simp
    rw [e, List.getLastD_concat]

/-! ## One queue -/

structure IsQueue (null : α) (L : Links α) (l : List α) : Prop where
  nodup : l.Nodup
  null_not_mem : null ∉ l
  next_eq : ∀ x ∈ l, L.next x = succIn null l x
  prev_eq : ∀ x ∈ l, L.prev x = predIn null l x

theorem isQueue_iff : IsQueue null L l ↔ Represents null L [l] := by
  constructor
  · intro h
    refine ⟨by simpa using h.nodup, by simpa using h.null_not_mem, ?_, ?_⟩
    · intro k hk
      obtain rfl := List.mem_singleton.mp hk
      exact h.next_eq
    · intro k hk
      obtain rfl := List.mem_singleton.mp hk
      exact h.prev_eq
  · intro h
    exact ⟨by simpa using h.nodup, by simpa using h.null_not_mem,
      h.next_eq l List.mem_cons_self, h.prev_eq l List.mem_cons_self⟩

/-- The pointers with `d` linked behind `last`. -/
def pushBack (null : α) (L : Links α) (last d : α) : Links α where
  next x := if x = d then null else if x = last then d else L.next x
  prev x := if x = d then last else L.prev x

/-- The pointers with `s` skipped; its own are left as they are. -/
def skip (L : Links α) (s : α) : Links α where
  next x := if x = L.prev s then L.next s else L.next x
  prev x := if x = L.next s then L.prev s else L.prev x

namespace IsQueue

theorem nil : IsQueue null L [] := ⟨List.nodup_nil, List.not_mem_nil, by simp, by simp⟩

section

variable (h : IsQueue null L l)
include h

theorem congr (hn : ∀ x ∈ l, L'.next x = L.next x) (hp : ∀ x ∈ l, L'.prev x = L.prev x) :
    IsQueue null L' l :=
  ⟨h.nodup, h.null_not_mem, fun x hx => (hn x hx).trans (h.next_eq x hx),
    fun x hx => (hp x hx).trans (h.prev_eq x hx)⟩

theorem ne_null (hx : x ∈ l) : x ≠ null := fun e => h.null_not_mem (e ▸ hx)

theorem next_mem_or (hx : x ∈ l) : L.next x = null ∨ L.next x ∈ l := by
  rw [h.next_eq x hx]
  exact succIn_mem_or hx h.nodup

theorem prev_mem_or (hx : x ∈ l) : L.prev x = null ∨ L.prev x ∈ l := by
  rw [h.prev_eq x hx]
  exact predIn_mem_or hx h.nodup

theorem ne_prev (hx : x ∈ l) : x ≠ L.prev x := by
  rw [h.prev_eq x hx]
  obtain ⟨u, v, rfl, hu, hv⟩ := exists_split hx h.nodup
  rw [predIn_append_cons hu]
  rcases getLastD_mem_or u null with hnull | hmem
  · rw [hnull]
    exact h.ne_null hx
  · exact fun e => hu (e ▸ hmem)

/-- A cell without neighbours is alone in its queue. -/
theorem erase_eq_nil_iff (hs : s ∈ l) : l.erase s = [] ↔ L.prev s = null ∧ L.next s = null := by
  rw [h.prev_eq s hs, h.next_eq s hs]
  obtain ⟨u, v, rfl, hu, -⟩ := exists_split hs h.nodup
  have hnu : null ∉ u := fun hm => h.null_not_mem (List.mem_append_left _ hm)
  have hnv : null ∉ v := fun hm =>
    h.null_not_mem (List.mem_append_right _ (List.mem_cons_of_mem _ hm))
  rw [List.erase_append_right _ hu, List.erase_cons_head, predIn_append_cons hu,
    succIn_append_cons hu, getLastD_eq_null_iff hnu, headD_eq_null_iff hnv, List.append_eq_nil_iff]

theorem pushBack (hd : d ∉ l) (hdn : d ≠ null) :
    IsQueue null (pushBack null L (l.getLastD null) d) (l ++ [d]) := by
  rcases List.eq_nil_or_concat' l with rfl | ⟨u, p, rfl⟩
  · refine ⟨by simp, by simpa using hdn.symm, ?_, ?_⟩
    · intro x hx
      obtain rfl : x = d := by simpa using hx
      simp [Queues.pushBack, succIn]
    · intro x hx
      obtain rfl : x = d := by simpa using hx
      simp [Queues.pushBack, predIn]
  · -- behind a last cell, `pushBack` is the insertion of `DList`
    have hp : p ∈ u ++ [p] := by simp
    have hpu : p ∉ u := by
      intro hm
      exact (List.nodup_append.mp h.nodup).2.2 p hm p List.mem_cons_self rfl
    have hlast : L.next p = null := by
      rw [h.next_eq p hp, succIn_append_cons hpu]
      rfl
    have hins : DList.insertAfter p d (u ++ [p]) = u ++ [p] ++ [d] := by
      rw [insertAfter_append_cons hpu]
      simp
    have hrep := (isQueue_iff.mp h).insertAfter (p := p) (by simp) (by simpa using hd) hdn
    rw [List.map_singleton, hins] at hrep
    have hdp : d ≠ p := fun e => hd (e ▸ hp)
    refine (isQueue_iff.mpr hrep).congr ?_ ?_
    · intro x hx
      simp only [Queues.pushBack, Links.insertAfter, List.getLastD_concat, hlast]
      by_cases hxd : x = d
      · rw [if_pos hxd, if_neg (fun e => hdp (hxd.symm.trans e)), if_pos hxd]
      · rw [if_neg hxd, if_neg hxd]
    · intro x hx
      have hxn : x ≠ null := by
        rcases List.mem_append.mp hx with hx | hx
        · exact h.ne_null hx
        · rw [List.mem_singleton.mp hx]
          exact hdn
      simp only [Queues.pushBack, Links.insertAfter, List.getLastD_concat, hlast, if_neg hxn]

theorem remove (hs : s ∈ l) : IsQueue null (skip L s) (l.erase s) := by
  have hrep := (isQueue_iff.mp h).unlink (by simpa using hs)
  rw [List.map_singleton] at hrep
  refine (isQueue_iff.mpr hrep).congr ?_ ?_
  · intro x hx
    have hxs : x ≠ s := (h.nodup.mem_erase_iff.mp hx).1
    simp only [skip, Links.unlink, if_neg hxs]
  · intro x hx
    have hxs : x ≠ s := (h.nodup.mem_erase_iff.mp hx).1
    simp only [skip, Links.unlink, if_neg hxs]

end

end IsQueue

/-! ## Families of queues -/

/-- Queues over the same pointer fields, no two of which share a cell. -/
structure Family (null : α) (L : Links α) (q : ι → List α) : Prop where
  queue : ∀ i, IsQueue null L (q i)
  disjoint : ∀ {i j x}, x ∈ q i → x ∈ q j → i = j

namespace Family

variable {q : ι → List α} {i j : ι}

theorem congr (h : Family null L q) (hn : ∀ i, ∀ x ∈ q i, L'.next x = L.next x)
    (hp : ∀ i, ∀ x ∈ q i, L'.prev x = L.prev x) : Family null L' q :=
  ⟨fun i => (h.queue i).congr (hn i) (hp i), h.disjoint⟩

theorem of_eq (h : Family null L q) (hq : ∀ i, q' i = q i) : Family null L q' := by
  rw [funext hq]
  exact h

variable [DecidableEq ι]

/-- The queue `i` becomes `l`, which has the cells it had and no cell of another queue. -/
theorem update (h : Family null L q) (hi : IsQueue null L' l)
    (hother : ∀ j, j ≠ i → IsQueue null L' (q j)) (hl : ∀ x ∈ l, ∀ j, j ≠ i → x ∉ q j) :
    Family null L' (update q i l) := by
  refine ⟨fun j => ?_, fun {j k x} hj hk => ?_⟩
  · by_cases hji : j = i
    · subst hji
      rw [update_self]
      exact hi
    · rw [update_of_ne hji]
      exact hother j hji
  · by_cases hji : j = i
    · by_cases hki : k = i
      · rw [hji, hki]
      · subst hji
        rw [update_self] at hj
        rw [update_of_ne hki] at hk
        exact absurd hk (hl x hj k hki)
    · rw [update_of_ne hji] at hj
      by_cases hki : k = i
      · subst hki
        rw [update_self] at hk
        exact absurd hj (hl x hk j hji)
      · rw [update_of_ne hki] at hk
        exact h.disjoint hj hk

theorem pushBack (h : Family null L q) (hd : ∀ j, d ∉ q j) (hdn : d ≠ null) :
    Family null (pushBack null L ((q i).getLastD null) d) (Function.update q i (q i ++ [d])) := by
  refine h.update ((h.queue i).pushBack (hd i) hdn) (fun j hji => ?_) fun x hx j hji hxj => ?_
  · -- no cell of another queue is `d` or the last one of queue `i`
    have hne : ∀ x ∈ q j, x ≠ (q i).getLastD null := by
      rintro x hx rfl
      rcases getLastD_mem_or (q i) null with hlast | hlast
      · exact (h.queue j).ne_null hx hlast
      · exact hji (h.disjoint hx hlast)
    have hxd : ∀ x ∈ q j, x ≠ d := fun x hx e => hd j (e ▸ hx)
    refine (h.queue j).congr (fun x hx => ?_) fun x hx => ?_
    · simp only [Queues.pushBack, if_neg (hxd x hx), if_neg (hne x hx)]
    · simp only [Queues.pushBack, if_neg (hxd x hx)]
  · rcases List.mem_append.mp hx with hx | hx
    · exact hji (h.disjoint hxj hx)
    · rw [List.mem_singleton.mp hx] at hxj
      exact hd j hxj

theorem remove (h : Family null L q) (hs : s ∈ q i) :
    Family null (skip L s) (Function.update q i ((q i).erase s)) := by
  refine h.update ((h.queue i).remove hs) (fun j hji => ?_) fun x hx j hji hxj => ?_
  · have hne : ∀ y, (y = null ∨ y ∈ q i) → ∀ x ∈ q j, x ≠ y := by
      rintro y (hy | hy) x hx rfl
      · exact (h.queue j).ne_null hx hy
      · exact hji (h.disjoint hx hy)
    refine (h.queue j).congr (fun x hx => ?_) fun x hx => ?_
    · simp only [skip, if_neg (hne _ ((h.queue i).prev_mem_or hs) x hx)]
    · simp only [skip, if_neg (hne _ ((h.queue i).next_mem_or hs) x hx)]
  · exact hji (h.disjoint hxj (List.mem_of_mem_erase hx))

end Family

end Rel4.Lib.Queues
