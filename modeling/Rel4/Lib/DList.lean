import Mathlib.Logic.Equiv.Basic
import Mathlib.Data.List.Nodup
import Mathlib.Data.List.Pairwise

/-!
Doubly linked lists in memory, represented by lists of addresses.

`Links` is the pair of pointer fields of every cell, with a null address for
the ends. A family of disjoint chains represents the links when each cell's
pointers are its neighbours in its chain (`Represents`). The three ways in
which list code changes the pointers, inserting behind a cell, unlinking a cell
and renaming cells, are followed on the chains by `insertAfter`, `erase` and
`map`.
-/

namespace Rel4.Lib.DList
open Function
open List (nodup_append mem_cons_self nodup_cons eq_nil_or_concat' mem_cons_of_mem cons_append
  append_cons mem_cons map_cons mem_flatten nodup_flatten mem_flatten_of_mem)
open List (mem_map append_assoc)

section Cut

variable {α : Type*} {x : α} {l : List α}

/-- A list without repetitions, cut at one of its elements. -/
theorem exists_split (hx : x ∈ l) (hl : l.Nodup) : ∃ u v, l = u ++ x :: v ∧ x ∉ u ∧ x ∉ v := by
  obtain ⟨u, v, rfl⟩ := List.append_of_mem hx
  refine ⟨u, v, rfl, ?_, ?_⟩
  · intro hu
    exact (nodup_append.mp hl).2.2 x hu x mem_cons_self rfl
  · exact (nodup_cons.mp (nodup_append.mp hl).2.1).1

theorem headD_mem_or (v : List α) (null : α) : v.headD null = null ∨ v.headD null ∈ v := by
  cases v with
  | nil => exact .inl rfl
  | cons w v => exact .inr mem_cons_self

theorem getLastD_mem_or (u : List α) (null : α) : u.getLastD null = null ∨ u.getLastD null ∈ u := by
  rcases eq_nil_or_concat' u with rfl | ⟨u, w, rfl⟩
  · exact .inl rfl
  · right
    simp

end Cut

variable {α : Type*} [DecidableEq α]

/-! ## Neighbours in a list -/

/-- The element behind the first `x` of the list. -/
def succIn (null : α) (l : List α) (x : α) : α := (l.dropWhile (· ≠ x)).tail.headD null

/-- The element before the first `x` of the list. -/
def predIn (null : α) (l : List α) (x : α) : α := (l.takeWhile (· ≠ x)).getLastD null

def insertAfter (p d : α) : List α → List α
  | [] => []
  | x :: xs => if x = p then x :: d :: xs else x :: insertAfter p d xs

/-- The list with `ds` behind the first `p`. -/
def insertAllAfter (p : α) (ds : List α) : List α → List α
  | [] => []
  | x :: xs => if x = p then x :: (ds ++ xs) else x :: insertAllAfter p ds xs

variable {null p d x y : α} {l u v : List α}

private theorem takeWhile_ne_append (h : x ∉ u) : (u ++ x :: v).takeWhile (· ≠ x) = u := by
  induction u with
  | nil => simp
  | cons w u ih =>
    have hw : w ≠ x := fun e => h (e ▸ mem_cons_self)
    have hu : x ∉ u := fun hm => h (mem_cons_of_mem _ hm)
    rw [cons_append, List.takeWhile_cons_of_pos (by simpa using hw), ih hu]

private theorem dropWhile_ne_append (h : x ∉ u) : (u ++ x :: v).dropWhile (· ≠ x) = x :: v := by
  induction u with
  | nil => simp
  | cons w u ih =>
    have hw : w ≠ x := fun e => h (e ▸ mem_cons_self)
    have hu : x ∉ u := fun hm => h (mem_cons_of_mem _ hm)
    rw [cons_append, List.dropWhile_cons_of_pos (by simpa using hw), ih hu]

theorem succIn_append_cons (h : x ∉ u) : succIn null (u ++ x :: v) x = v.headD null := by
  rw [succIn, dropWhile_ne_append h, List.tail_cons]

theorem predIn_append_cons (h : x ∉ u) : predIn null (u ++ x :: v) x = u.getLastD null := by
  rw [predIn, takeWhile_ne_append h]

section

variable (hx : x ∈ l) (hl : l.Nodup)
include hx hl

theorem succIn_mem_or : succIn null l x = null ∨ succIn null l x ∈ l := by
  obtain ⟨u, v, rfl, hu, -⟩ := exists_split hx hl
  rw [succIn_append_cons hu]
  rcases headD_mem_or v null with h | h
  · exact .inl h
  · exact .inr (List.mem_append_right _ (mem_cons_of_mem _ h))

theorem predIn_mem_or : predIn null l x = null ∨ predIn null l x ∈ l := by
  obtain ⟨u, v, rfl, hu, -⟩ := exists_split hx hl
  rw [predIn_append_cons hu]
  rcases getLastD_mem_or u null with h | h
  · exact .inl h
  · exact .inr (List.mem_append_left _ h)

/-- Successor and predecessor are inverse to each other. -/
theorem predIn_succIn (hy : succIn null l x ≠ null) : predIn null l (succIn null l x) = x := by
  obtain ⟨u, v, rfl, hu, -⟩ := exists_split hx hl
  rw [succIn_append_cons hu] at hy ⊢
  cases v with
  | nil => exact absurd rfl hy
  | cons w v =>
    have hw : w ∉ u ++ [x] := by
      intro hm
      rw [append_cons] at hl
      exact (nodup_append.mp hl).2.2 w hm w mem_cons_self rfl
    rw [List.headD_cons, append_cons, predIn_append_cons hw]
    simp

theorem succIn_predIn (hy : predIn null l x ≠ null) : succIn null l (predIn null l x) = x := by
  obtain ⟨u, v, rfl, hu, -⟩ := exists_split hx hl
  rw [predIn_append_cons hu] at hy ⊢
  rcases eq_nil_or_concat' u with rfl | ⟨u, w, rfl⟩
  · exact absurd rfl hy
  have hw : w ∉ u := by
    rw [append_assoc] at hl
    exact fun hm => (nodup_append.mp hl).2.2 w hm w (by simp) rfl
  have hlast : (u ++ [w]).getLastD null = w := by simp
  rw [hlast, append_assoc, List.singleton_append, succIn_append_cons hw]
  rfl

end

/-! ## Inserting behind an element -/

theorem insertAfter_of_not_mem (h : p ∉ l) : insertAfter p d l = l := by
  induction l with
  | nil => rfl
  | cons w l ih =>
    have hw : w ≠ p := fun e => h (e ▸ mem_cons_self)
    rw [insertAfter, if_neg hw, ih (fun hm => h (mem_cons_of_mem _ hm))]

theorem insertAfter_append_cons (h : p ∉ u) : insertAfter p d (u ++ p :: v) = u ++ p :: d :: v := by
  induction u with
  | nil => simp [insertAfter]
  | cons w u ih =>
    have hw : w ≠ p := fun e => h (e ▸ mem_cons_self)
    rw [cons_append, insertAfter, if_neg hw, ih (fun hm => h (mem_cons_of_mem _ hm))]
    rfl

theorem insertAllAfter_nil : insertAllAfter p [] l = l := by
  induction l with
  | nil => rfl
  | cons x xs ih =>
    rw [insertAllAfter, ih]
    split <;> rfl

theorem insertAfter_insertAllAfter :
    insertAfter p d (insertAllAfter p ds l) = insertAllAfter p (d :: ds) l := by
  induction l with
  | nil => rfl
  | cons x xs ih =>
    rw [insertAllAfter, insertAllAfter]
    split
    next h => rw [insertAfter, if_pos h, cons_append]
    next h => rw [insertAfter, if_neg h, ih]

theorem insertAfter_append_left (h : p ∈ u) : insertAfter p d (u ++ v) = insertAfter p d u ++ v := by
  induction u with
  | nil => simp at h
  | cons w u ih =>
    by_cases hw : w = p
    · simp [insertAfter, hw]
    · have hp : p ∈ u := (mem_cons.mp h).resolve_left fun e => hw e.symm
      simp [insertAfter, hw, ih hp]

theorem insertAfter_append_right (h : p ∉ u) : insertAfter p d (u ++ v) = u ++ insertAfter p d v := by
  induction u with
  | nil => rfl
  | cons w u ih =>
    rw [mem_cons, not_or] at h
    simp [insertAfter, Ne.symm h.1, ih h.2]

theorem mem_insertAfter : x ∈ insertAfter p d l ↔ x ∈ l ∨ (x = d ∧ p ∈ l) := by
  induction l with
  | nil => simp [insertAfter]
  | cons w l ih =>
    by_cases hw : w = p
    · subst hw
      simp only [insertAfter, if_true, mem_cons]
      tauto
    · simp only [insertAfter, if_neg hw, mem_cons, ih, Ne.symm hw, false_or, or_assoc]

theorem nodup_insertAfter (hl : l.Nodup) (hd : d ∉ l) : (insertAfter p d l).Nodup := by
  by_cases hp : p ∈ l
  · obtain ⟨u, v, rfl, hu, -⟩ := exists_split hp hl
    rw [insertAfter_append_cons hu, append_cons]
    refine (List.perm_middle.nodup_iff).mpr (nodup_cons.mpr ⟨?_, ?_⟩)
    · simpa using hd
    · simpa using hl
  · rwa [insertAfter_of_not_mem hp]

theorem succIn_insertAfter (hl : l.Nodup) (hd : d ∉ l) (hp : p ∈ l) (hx : x ∈ insertAfter p d l) :
    succIn null (insertAfter p d l) x =
      if x = p then d else if x = d then succIn null l p else succIn null l x := by
  obtain ⟨u, v, rfl, hu, hv⟩ := exists_split hp hl
  rw [insertAfter_append_cons hu] at hx ⊢
  have hnd := nodup_insertAfter (p := p) hl hd
  rw [insertAfter_append_cons hu] at hnd
  by_cases hxp : x = p
  · subst hxp
    rw [if_pos rfl, succIn_append_cons hu]
    rfl
  rw [if_neg hxp]
  by_cases hxd : x = d
  · subst hxd
    have hxu : x ∉ u ++ [p] := by
      intro hm
      apply hd
      rw [append_cons]
      exact List.mem_append_left v hm
    rw [if_pos rfl, succIn_append_cons hu, append_cons, succIn_append_cons hxu]
  rw [if_neg hxd]
  have hxuv : x ∈ u ∨ x ∈ v := by simpa [hxp, hxd] using hx
  rcases hxuv with hxu | hxv
  · -- the successor of an element of `u` is in `u` or is `p`
    obtain ⟨u₁, u₂, rfl, hx₁, -⟩ := exists_split hxu (nodup_append.mp hl).1
    rw [append_assoc, append_assoc, cons_append, cons_append,
      succIn_append_cons hx₁, succIn_append_cons hx₁]
    cases u₂ <;> rfl
  · obtain ⟨v₁, v₂, rfl, hx₁, -⟩ := exists_split hxv (nodup_cons.mp (nodup_append.mp hl).2.1).2
    have hxu : x ∉ u := fun hm =>
      (nodup_append.mp hl).2.2 x hm x (mem_cons_of_mem _ hxv) rfl
    have h1 : x ∉ u ++ p :: d :: v₁ := by simp [hxu, hxp, hxd, hx₁]
    have h2 : x ∉ u ++ p :: v₁ := by simp [hxu, hxp, hx₁]
    calc succIn null (u ++ p :: d :: (v₁ ++ x :: v₂)) x
        = succIn null ((u ++ p :: d :: v₁) ++ x :: v₂) x := by simp
      _ = succIn null ((u ++ p :: v₁) ++ x :: v₂) x := by
        rw [succIn_append_cons h1, succIn_append_cons h2]
      _ = succIn null (u ++ p :: (v₁ ++ x :: v₂)) x := by simp

/-! ## Removing an element -/

private theorem erase_append_cons (h : x ∉ u) : (u ++ x :: v).erase x = u ++ v := by
  rw [List.erase_append_right _ h, List.erase_cons_head]

theorem succIn_erase (hl : l.Nodup) (hnull : null ∉ l) (hs : y ∈ l) (hx : x ∈ l) (hxy : x ≠ y) :
    succIn null (l.erase y) x =
      if succIn null l x = y then succIn null l y else succIn null l x := by
  have hny : null ≠ y := fun e => hnull (e ▸ hs)
  obtain ⟨u, v, rfl, hu, hv⟩ := exists_split hs hl
  rw [erase_append_cons hu, succIn_append_cons hu]
  have hxuv : x ∈ u ∨ x ∈ v := by simpa [hxy] using hx
  rcases hxuv with hxu | hxv
  · obtain ⟨u₁, u₂, rfl, hx₁, -⟩ := exists_split hxu (nodup_append.mp hl).1
    rw [append_assoc, append_assoc, cons_append, cons_append,
      succIn_append_cons hx₁, succIn_append_cons hx₁]
    cases u₂ with
    | nil => simp
    | cons w u₂ =>
      have hwy : w ≠ y := fun e => hu (by simp [e])
      simp [hwy]
  · obtain ⟨v₁, v₂, rfl, hx₁, -⟩ := exists_split hxv (nodup_cons.mp (nodup_append.mp hl).2.1).2
    have hxu : x ∉ u := fun hm =>
      (nodup_append.mp hl).2.2 x hm x (mem_cons_of_mem _ hxv) rfl
    have h1 : x ∉ u ++ v₁ := by simp [hxu, hx₁]
    have h2 : x ∉ u ++ y :: v₁ := by simp [hxu, hxy, hx₁]
    have e1 : u ++ (v₁ ++ x :: v₂) = (u ++ v₁) ++ x :: v₂ := by simp
    have e2 : u ++ y :: (v₁ ++ x :: v₂) = (u ++ y :: v₁) ++ x :: v₂ := by simp
    rw [e1, e2, succIn_append_cons h1, succIn_append_cons h2]
    cases v₂ with
    | nil => simp [hny]
    | cons w v₂ =>
      have hwy : w ≠ y := fun e => hv (by simp [e])
      simp [hwy]

/-! ## Renaming elements -/

theorem succIn_map (hf : Injective f) (hnull : f null = null) (hl : l.Nodup) (hx : x ∈ l) :
    succIn null (l.map f) (f x) = f (succIn null l x) := by
  obtain ⟨u, v, rfl, hu, -⟩ := exists_split hx hl
  have hfu : f x ∉ u.map f := by
    intro hm
    obtain ⟨w, hw, hwx⟩ := mem_map.mp hm
    exact hu (hf hwx ▸ hw)
  rw [List.map_append, map_cons, succIn_append_cons hfu, succIn_append_cons hu]
  cases v with
  | nil => exact hnull.symm
  | cons w v => rfl

/-! ## Membership in a family of lists -/

theorem mem_flatten_map_insertAfter {ls : List (List α)} (hp : p ∈ ls.flatten) :
    x ∈ (ls.map (insertAfter p d)).flatten ↔ x = d ∨ x ∈ ls.flatten := by
  obtain ⟨l, hl, hpl⟩ := mem_flatten.mp hp
  simp only [mem_flatten, mem_map]
  constructor
  · rintro ⟨_, ⟨k, hk, rfl⟩, hx⟩
    rcases mem_insertAfter.mp hx with hx | ⟨rfl, -⟩
    · exact .inr ⟨k, hk, hx⟩
    · exact .inl rfl
  · rintro (rfl | ⟨k, hk, hx⟩)
    · exact ⟨_, ⟨l, hl, rfl⟩, mem_insertAfter.mpr (.inr ⟨rfl, hpl⟩)⟩
    · exact ⟨_, ⟨k, hk, rfl⟩, mem_insertAfter.mpr (.inl hx)⟩

theorem mem_flatten_map_erase {ls : List (List α)} (hls : ls.flatten.Nodup) :
    x ∈ (ls.map (·.erase y)).flatten ↔ x ≠ y ∧ x ∈ ls.flatten := by
  have hnd := (nodup_flatten.mp hls).1
  simp only [mem_flatten, mem_map]
  constructor
  · rintro ⟨_, ⟨l, hl, rfl⟩, hx⟩
    obtain ⟨hne, hx⟩ := (hnd l hl).mem_erase_iff.mp hx
    exact ⟨hne, l, hl, hx⟩
  · rintro ⟨hne, l, hl, hx⟩
    exact ⟨_, ⟨l, hl, rfl⟩, (List.mem_erase_of_ne hne).mpr hx⟩

theorem mem_flatten_map_swap {ls : List (List α)} (hx : x ∈ ls.flatten) (hy : y ∉ ls.flatten)
    {z : α} :
    z ∈ (ls.map (·.map (Equiv.swap x y))).flatten ↔ z = y ∨ z ≠ x ∧ z ∈ ls.flatten := by
  have hne : y ≠ x := by
    rintro rfl
    exact hy hx
  rw [← List.map_flatten, ← Equiv.swap_apply_self x y z,
    List.mem_map_of_injective (Equiv.swap x y).injective, Equiv.swap_apply_self]
  by_cases hzx : z = x
  · rw [hzx, Equiv.swap_apply_left]
    simp [hy, hne.symm]
  by_cases hzy : z = y
  · rw [hzy, Equiv.swap_apply_right]
    simp [hx]
  · rw [Equiv.swap_apply_of_ne_of_ne hzx hzy]
    simp [hzx, hzy]

/-- An element lies in one list only. -/
theorem chain_unique {ls : List (List α)} (hnd : ls.flatten.Nodup) (h₁ : l₁ ∈ ls) (h₂ : l₂ ∈ ls)
    (hx₁ : x ∈ l₁) (hx₂ : x ∈ l₂) : l₁ = l₂ := by
  by_contra hne
  have hdis := (nodup_flatten.mp hnd).2
  have hsymm : Std.Symm (@List.Disjoint α) := ⟨fun _ _ hd _ h₁ h₂ => hd h₂ h₁⟩
  exact hdis.forall h₁ h₂ hne hx₁ hx₂

/-! ## Links in memory -/

structure Links (α : Type*) where
  next : α → α
  prev : α → α

/-- Every cell of the chains points to its neighbours in its chain. -/
structure Represents (null : α) (L : Links α) (ls : List (List α)) : Prop where
  nodup : ls.flatten.Nodup
  null_not_mem : null ∉ ls.flatten
  next_eq : ∀ l ∈ ls, ∀ x ∈ l, L.next x = succIn null l x
  prev_eq : ∀ l ∈ ls, ∀ x ∈ l, L.prev x = predIn null l x

namespace Represents

variable {L : Links α} {ls : List (List α)}

section

variable (h : Represents null L ls)
include h

theorem chain_nodup (hl : l ∈ ls) : l.Nodup := (nodup_flatten.mp h.nodup).1 l hl

theorem null_not_mem_chain (hl : l ∈ ls) : null ∉ l :=
  fun hm => h.null_not_mem (mem_flatten_of_mem hl hm)

theorem ne_null (hx : x ∈ ls.flatten) : x ≠ null := fun e => h.null_not_mem (e ▸ hx)

theorem congr (hn : ∀ x ∈ ls.flatten, L'.next x = L.next x)
    (hp : ∀ x ∈ ls.flatten, L'.prev x = L.prev x) : Represents null L' ls where
  nodup := h.nodup
  null_not_mem := h.null_not_mem
  next_eq l hl x hx := (hn x (mem_flatten_of_mem hl hx)).trans (h.next_eq l hl x hx)
  prev_eq l hl x hx := (hp x (mem_flatten_of_mem hl hx)).trans (h.prev_eq l hl x hx)

theorem next_mem_or (hx : x ∈ ls.flatten) : L.next x = null ∨ L.next x ∈ ls.flatten := by
  obtain ⟨l, hl, hxl⟩ := mem_flatten.mp hx
  rw [h.next_eq l hl x hxl]
  exact (succIn_mem_or hxl (h.chain_nodup hl)).imp_right (mem_flatten_of_mem hl)

theorem prev_mem_or (hx : x ∈ ls.flatten) : L.prev x = null ∨ L.prev x ∈ ls.flatten := by
  obtain ⟨l, hl, hxl⟩ := mem_flatten.mp hx
  rw [h.prev_eq l hl x hxl]
  exact (predIn_mem_or hxl (h.chain_nodup hl)).imp_right (mem_flatten_of_mem hl)

/-- The pointers of linked cells are inverse to each other. -/
theorem next_eq_iff (hx : x ∈ ls.flatten) (hy : y ∈ ls.flatten) : L.next x = y ↔ L.prev y = x := by
  obtain ⟨l, hl, hxl⟩ := mem_flatten.mp hx
  obtain ⟨k, hk, hyk⟩ := mem_flatten.mp hy
  rw [h.next_eq l hl x hxl, h.prev_eq k hk y hyk]
  constructor
  · rintro rfl
    have hne : succIn null l x ≠ null := h.ne_null hy
    have hmem := (succIn_mem_or hxl (h.chain_nodup hl)).resolve_left hne
    rw [chain_unique h.nodup hk hl hyk hmem]
    exact predIn_succIn hxl (h.chain_nodup hl) hne
  · rintro rfl
    have hne : predIn null k y ≠ null := h.ne_null hx
    have hmem := (predIn_mem_or hyk (h.chain_nodup hk)).resolve_left hne
    rw [chain_unique h.nodup hl hk hxl hmem]
    exact succIn_predIn hyk (h.chain_nodup hk) hne

end

end Represents

/-! ## Pointer updates -/

namespace Links

/-- Link `d` behind `p`. -/
def insertAfter (L : Links α) (p d : α) : Links α where
  next x := if x = p then d else if x = d then L.next p else L.next x
  prev x := if x = d then p else if x = L.next p then d else L.prev x

/-- Unlink `s`. -/
def unlink (null : α) (L : Links α) (s : α) : Links α where
  next x := if x = s then null else if x = L.prev s then L.next s else L.next x
  prev x := if x = s then null else if x = L.next s then L.prev s else L.prev x

/-- Let every cell take the place of its image under `f`. -/
def rename (L : Links α) (f : Equiv.Perm α) : Links α where
  next x := f (L.next (f.symm x))
  prev x := f (L.prev (f.symm x))

end Links

namespace Represents

variable {L : Links α} {ls : List (List α)}

/-- Where the forward pointers are right, the others only have to be inverse to them. -/
theorem of_next (hnd : ls.flatten.Nodup) (hnull : null ∉ ls.flatten)
    (hnext : ∀ l ∈ ls, ∀ x ∈ l, L.next x = succIn null l x)
    (hprev : ∀ y ∈ ls.flatten, ∀ x ∈ ls.flatten, L.next x = y → L.prev y = x)
    (hfirst : ∀ y ∈ ls.flatten, L.prev y ≠ null → ∃ x ∈ ls.flatten, L.next x = y) :
    Represents null L ls := by
  refine ⟨hnd, hnull, hnext, fun l hl y hy => ?_⟩
  have hlnd := (nodup_flatten.mp hnd).1
  have hyf := mem_flatten_of_mem hl hy
  by_cases hpred : predIn null l y = null
  · rw [hpred]
    by_contra hne
    obtain ⟨x, hx, hxy⟩ := hfirst y hyf hne
    obtain ⟨k, hk, hxk⟩ := mem_flatten.mp hx
    rw [hnext k hk x hxk] at hxy
    have hne' : succIn null k x ≠ null := fun e => hnull (e ▸ hxy ▸ hyf)
    have hyk := (succIn_mem_or hxk (hlnd k hk)).resolve_left hne'
    have hback := predIn_succIn hxk (hlnd k hk) hne'
    rw [hxy] at hyk hback
    rw [chain_unique hnd hl hk hy hyk, hback] at hpred
    exact hnull (hpred ▸ hx)
  · have hmem := (predIn_mem_or hy (hlnd l hl)).resolve_left hpred
    refine hprev y hyf _ (mem_flatten_of_mem hl hmem) ?_
    rw [hnext l hl _ hmem, succIn_predIn hy (hlnd l hl) hpred]

theorem insertAfter (h : Represents null L ls) (hp : p ∈ ls.flatten) (hd : d ∉ ls.flatten)
    (hnull : d ≠ null) :
    Represents null (L.insertAfter p d) (ls.map (DList.insertAfter p d)) := by
  have hdl : ∀ l ∈ ls, d ∉ l := fun l hl hm => hd (mem_flatten_of_mem hl hm)
  have hdp : d ≠ p := fun e => hd (e ▸ hp)
  have hne : ∀ {x y}, x ∈ ls.flatten → L.next x = y → y ≠ d := by
    rintro x y hx hxy rfl
    rcases h.next_mem_or hx with e | hm
    · exact hnull (hxy.symm.trans e)
    · exact hd (hxy ▸ hm)
  refine of_next ?_ ?_ ?_ ?_ ?_
  · refine nodup_flatten.mpr ⟨?_, ?_⟩
    · intro l' hl'
      obtain ⟨l, hl, rfl⟩ := mem_map.mp hl'
      exact nodup_insertAfter (h.chain_nodup hl) (hdl l hl)
    · -- the chain of `p` stays disjoint from the others, which do not hold `d`
      rw [List.pairwise_map]
      refine (nodup_flatten.mp h.nodup).2.imp_of_mem ?_
      intro l₁ l₂ h₁ h₂ hdis x hx₁ hx₂
      rcases mem_insertAfter.mp hx₁ with hx₁ | ⟨rfl, hp₁⟩ <;>
        rcases mem_insertAfter.mp hx₂ with hx₂ | ⟨hxd, hp₂⟩
      · exact hdis hx₁ hx₂
      · exact hdl l₁ h₁ (hxd ▸ hx₁)
      · exact hdl l₂ h₂ hx₂
      · exact hdis hp₁ hp₂
  · intro hm
    obtain ⟨l', hl', hml'⟩ := mem_flatten.mp hm
    obtain ⟨l, hl, rfl⟩ := mem_map.mp hl'
    rcases mem_insertAfter.mp hml' with hml | ⟨e, -⟩
    · exact h.null_not_mem_chain hl hml
    · exact hnull e.symm
  · intro l' hl' x hx
    obtain ⟨l, hl, rfl⟩ := mem_map.mp hl'
    by_cases hpl : p ∈ l
    · rw [succIn_insertAfter (h.chain_nodup hl) (hdl l hl) hpl hx]
      simp only [Links.insertAfter]
      by_cases hxp : x = p
      · rw [if_pos hxp, if_pos hxp]
      rw [if_neg hxp, if_neg hxp]
      by_cases hxd : x = d
      · rw [if_pos hxd, if_pos hxd, h.next_eq l hl p hpl]
      · have hxl : x ∈ l := by simpa [hxd] using mem_insertAfter.mp hx
        rw [if_neg hxd, if_neg hxd, h.next_eq l hl x hxl]
    · rw [insertAfter_of_not_mem hpl] at hx ⊢
      have hxp : x ≠ p := fun e => hpl (e ▸ hx)
      have hxd : x ≠ d := fun e => hdl l hl (e ▸ hx)
      simp only [Links.insertAfter, if_neg hxp, if_neg hxd, h.next_eq l hl x hx]
  · intro y hy x hx hxy
    rw [mem_flatten_map_insertAfter hp] at hx hy
    simp only [Links.insertAfter] at hxy ⊢
    split_ifs at hxy with hxp hxd
    · rw [if_pos hxy.symm, hxp]
    · rw [if_neg (hne hp hxy), if_pos hxy.symm, hxd]
    · have hxl := hx.resolve_left hxd
      have hyd := hne hxl hxy
      have hyl := hy.resolve_left hyd
      have hback := (h.next_eq_iff hxl hyl).mp hxy
      rw [if_neg hyd, if_neg, hback]
      exact fun e => hxp (hback.symm.trans ((h.next_eq_iff hp hyl).mp e.symm))
  · intro y hy hprev
    simp only [mem_flatten_map_insertAfter hp] at hy ⊢
    simp only [Links.insertAfter] at hprev ⊢
    split_ifs at hprev with hyd hyp
    · exact ⟨p, .inr hp, by rw [if_pos rfl, hyd]⟩
    · exact ⟨d, .inl rfl, by rw [if_neg hdp, if_pos rfl, hyp]⟩
    · have hyl := hy.resolve_left hyd
      have hmem := (h.prev_mem_or hyl).resolve_left hprev
      have hnext := (h.next_eq_iff hmem hyl).mpr rfl
      refine ⟨L.prev y, .inr hmem, ?_⟩
      have hpne : L.prev y ≠ p := fun e => hyp (by rw [← hnext, e])
      have hdne : L.prev y ≠ d := fun e => hd (e ▸ hmem)
      rw [if_neg hpne, if_neg hdne, hnext]

theorem unlink (h : Represents null L ls) (hs : s ∈ ls.flatten) :
    Represents null (L.unlink null s) (ls.map (·.erase s)) := by
  have hmem : ∀ l ∈ ls, ∀ x, x ∈ l.erase s ↔ x ≠ s ∧ x ∈ l :=
    fun l hl x => (h.chain_nodup hl).mem_erase_iff
  have hsub : (ls.map (·.erase s)).flatten.Sublist ls.flatten := by
    clear h hs hmem
    induction ls with
    | nil => exact List.Sublist.refl _
    | cons l ls ih =>
      rw [map_cons, List.flatten_cons, List.flatten_cons]
      exact List.erase_sublist.append ih
  refine of_next (h.nodup.sublist hsub) (fun hm => h.null_not_mem (hsub.subset hm)) ?_ ?_ ?_
  · intro l' hl' x hx
    obtain ⟨l, hl, rfl⟩ := mem_map.mp hl'
    obtain ⟨hxs, hxl⟩ := (hmem l hl x).mp hx
    have hxf := mem_flatten_of_mem hl hxl
    have hiff : x = L.prev s ↔ succIn null l x = s := by
      rw [← h.next_eq l hl x hxl, h.next_eq_iff hxf hs, eq_comm]
    simp only [Links.unlink, if_neg hxs, hiff]
    by_cases hsl : s ∈ l
    · rw [succIn_erase (h.chain_nodup hl) (h.null_not_mem_chain hl) hsl hxl hxs,
        h.next_eq l hl x hxl, h.next_eq l hl s hsl]
    have hne : succIn null l x ≠ s := by
      rintro rfl
      exact ((succIn_mem_or hxl (h.chain_nodup hl)).resolve_left (h.ne_null hs) |> hsl)
    rw [if_neg hne, List.erase_of_not_mem hsl, h.next_eq l hl x hxl]
  · intro y hy x hx hxy
    obtain ⟨hys, hyl⟩ := (mem_flatten_map_erase h.nodup).mp hy
    obtain ⟨hxs, hxl⟩ := (mem_flatten_map_erase h.nodup).mp hx
    simp only [Links.unlink, if_neg hxs, if_neg hys] at hxy ⊢
    split_ifs at hxy with hxp
    · rw [if_pos hxy.symm, hxp]
    · have hback := (h.next_eq_iff hxl hyl).mp hxy
      have hne : y ≠ L.next s := fun e =>
        hxs (hback.symm.trans ((h.next_eq_iff hs hyl).mp e.symm))
      rw [if_neg hne, hback]
  · intro y hy hprev
    obtain ⟨hys, hyl⟩ := (mem_flatten_map_erase h.nodup).mp hy
    simp only [mem_flatten_map_erase h.nodup]
    simp only [Links.unlink, if_neg hys] at hprev ⊢
    split_ifs at hprev with hyn
    · have hmem := (h.prev_mem_or hs).resolve_left hprev
      have hne : L.prev s ≠ s := fun e => hys (hyn.trans ((h.next_eq_iff hs hs).mpr e))
      exact ⟨L.prev s, ⟨hne, hmem⟩, by rw [if_neg hne, if_pos rfl, hyn]⟩
    · have hmem := (h.prev_mem_or hyl).resolve_left hprev
      have hnext := (h.next_eq_iff hmem hyl).mpr rfl
      have hne : L.prev y ≠ s := fun e => hyn (by rw [← hnext, e])
      have hne' : L.prev y ≠ L.prev s := fun e =>
        hys (hnext.symm.trans ((h.next_eq_iff hmem hs).mpr e.symm))
      exact ⟨L.prev y, ⟨hne, hmem⟩, by rw [if_neg hne, if_neg hne', hnext]⟩

theorem rename (h : Represents null L ls) (f : Equiv.Perm α) (hf : f null = null) :
    Represents null (L.rename f) (ls.map (·.map f)) := by
  have hflat : (ls.map (·.map f)).flatten = ls.flatten.map f := by
    rw [List.map_flatten]
  refine of_next ?_ ?_ ?_ ?_ ?_
  · rw [hflat]
    exact h.nodup.map f.injective
  · rw [hflat]
    intro hm
    obtain ⟨x, hx, hxf⟩ := mem_map.mp hm
    exact h.ne_null hx (f.injective (hxf.trans hf.symm))
  · intro l' hl' x hx
    obtain ⟨l, hl, rfl⟩ := mem_map.mp hl'
    obtain ⟨y, hy, rfl⟩ := mem_map.mp hx
    rw [succIn_map f.injective hf (h.chain_nodup hl) hy]
    simp only [Links.rename, Equiv.symm_apply_apply, h.next_eq l hl y hy]
  · rw [hflat]
    intro _ hfy _ hfx hxy
    obtain ⟨y, hy, rfl⟩ := mem_map.mp hfy
    obtain ⟨x, hx, rfl⟩ := mem_map.mp hfx
    simp only [Links.rename, Equiv.symm_apply_apply] at hxy ⊢
    rw [(h.next_eq_iff hx hy).mp (f.injective hxy)]
  · rw [hflat]
    intro _ hfy hprev
    obtain ⟨y, hy, rfl⟩ := mem_map.mp hfy
    simp only [Links.rename, Equiv.symm_apply_apply] at hprev
    have hmem := (h.prev_mem_or hy).resolve_left fun e => hprev (by rw [e, hf])
    refine ⟨_, List.mem_map_of_mem hmem, ?_⟩
    simp only [Links.rename, Equiv.symm_apply_apply]
    rw [(h.next_eq_iff hmem hy).mpr rfl]

/-- A new chain of one unlinked cell. -/
theorem singleton (h : Represents null L ls) (hd : d ∉ ls.flatten) (hnull : d ≠ null)
    (hn : L.next d = null) (hp : L.prev d = null) : Represents null L ([d] :: ls) := by
  refine ⟨?_, ?_, ?_, ?_⟩
  · exact nodup_cons.mpr ⟨hd, h.nodup⟩
  · intro hm
    rcases mem_cons.mp hm with e | hm
    · exact hnull e.symm
    · exact h.null_not_mem hm
  · intro l hl x hx
    rcases mem_cons.mp hl with rfl | hl
    · obtain rfl := List.mem_singleton.mp hx
      simpa [succIn] using hn
    · exact h.next_eq l hl x hx
  · intro l hl x hx
    rcases mem_cons.mp hl with rfl | hl
    · obtain rfl := List.mem_singleton.mp hx
      simpa [predIn] using hp
    · exact h.prev_eq l hl x hx

end Represents

end Rel4.Lib.DList
