import Rel4.Lib.DList

/-!
Families of lists whose elements descend from one another.

Every element carries a number and the numbers of its ancestors. A new element
stands directly behind its parent, an element can be removed, and elements can
be renamed in place. Then the elements that descend from one number are always
contiguous: they fill an interval of one list, with the ancestor in front as
long as it is there.
-/

namespace Rel4.Lib.DList
open List
open List (singleton_sublist mem_cons mem_flatten_of_mem nodup_flatten mem_map_of_mem)

variable {α : Type*} {ls : List (List α)} {x y z p d : α} {l u v : List α}

/-! ## Order in a list -/

/-- `x` stands before `y` in one of the lists. -/
def Before (ls : List (List α)) (x y : α) : Prop := ∃ l ∈ ls, [x, y] <+ l

theorem sublist_pair_cons : [x, y] <+ w :: l ↔ (x = w ∧ y ∈ l) ∨ [x, y] <+ l := by
  rw [List.sublist_cons_iff]
  constructor
  · rintro (h | ⟨r, he, hr⟩)
    · exact .inr h
    · obtain ⟨rfl, rfl⟩ := List.cons_eq_cons.mp he
      exact .inl ⟨rfl, singleton_sublist.mp hr⟩
  · rintro (⟨rfl, hy⟩ | h)
    · exact .inr ⟨[y], rfl, singleton_sublist.mpr hy⟩
    · exact .inl h

theorem sublist_pair_split (hx : x ∉ u) : [x, y] <+ u ++ x :: v ↔ y ∈ v := by
  induction u with
  | nil =>
    rw [List.nil_append, sublist_pair_cons]
    constructor
    · rintro (⟨-, hy⟩ | h)
      · exact hy
      · exact h.subset (by simp)
    · intro hy
      exact .inl ⟨rfl, hy⟩
  | cons w u ih =>
    rw [mem_cons, not_or] at hx
    rw [List.cons_append, sublist_pair_cons, ih hx.2]
    simp [hx.1]

theorem sublist_pair_map (hf : Function.Injective f) : [f x, f y] <+ l.map f ↔ [x, y] <+ l := by
  induction l with
  | nil => simp
  | cons w l ih =>
    rw [List.map_cons, sublist_pair_cons, sublist_pair_cons, ih, hf.eq_iff,
      List.mem_map_of_injective hf]

theorem not_sublist_pair_symm (hl : l.Nodup) (h : [x, y] <+ l) : ¬ [y, x] <+ l := by
  induction l with
  | nil => simp at h
  | cons w l ih =>
    obtain ⟨hw, hl⟩ := List.nodup_cons.mp hl
    rw [sublist_pair_cons] at h ⊢
    rintro (⟨rfl, hx⟩ | h')
    · rcases h with ⟨rfl, hy⟩ | h
      · exact hw hx
      · exact hw (h.subset (by simp))
    · rcases h with ⟨rfl, hy⟩ | h
      · exact hw (h'.subset (by simp))
      · exact ih hl h h'

/-- Two elements of a list stand in one order or the other. -/
theorem sublist_pair_or (hx : x ∈ l) (hy : y ∈ l) (hne : x ≠ y) : [x, y] <+ l ∨ [y, x] <+ l := by
  induction l with
  | nil => simp at hx
  | cons w l ih =>
    rw [mem_cons] at hx hy
    rw [sublist_pair_cons, sublist_pair_cons]
    rcases hx with rfl | hx
    · exact .inl (.inl ⟨rfl, hy.resolve_left hne.symm⟩)
    · rcases hy with rfl | hy
      · exact .inr (.inl ⟨rfl, hx⟩)
      · exact (ih hx hy).imp .inr .inr

/-- The order after an insertion. -/
theorem sublist_pair_insertAfter [DecidableEq α] (hl : l.Nodup) (hp : p ∈ l) :
    [x, y] <+ insertAfter p d l ↔
      [x, y] <+ l ∨ (x = d ∧ [p, y] <+ l) ∨ (y = d ∧ (x = p ∨ [x, p] <+ l)) := by
  induction l with
  | nil => simp at hp
  | cons w l ih =>
    obtain ⟨hw, hl⟩ := List.nodup_cons.mp hl
    by_cases hwp : w = p
    · subst hwp
      have hno : ∀ x, ¬ [x, w] <+ l := fun x h => hw (h.subset (by simp))
      have hyes : [w, y] <+ w :: l ↔ y ∈ l := sublist_pair_split (u := []) (by simp)
      rw [insertAfter, if_pos rfl, sublist_pair_cons, sublist_pair_cons, hyes, sublist_pair_cons,
        sublist_pair_cons, mem_cons]
      simp only [hno, hw, and_false, or_false]
      generalize ([x, y] <+ l) = q
      constructor
      · rintro (⟨hx, hy | hy⟩ | ⟨hx, hy⟩ | h)
        · exact .inr (.inr ⟨hy, hx⟩)
        · exact .inl (.inl ⟨hx, hy⟩)
        · exact .inr (.inl ⟨hx, hy⟩)
        · exact .inl (.inr h)
      · rintro ((⟨hx, hy⟩ | h) | ⟨hx, hy⟩ | ⟨hy, hx⟩)
        · exact .inl ⟨hx, .inr hy⟩
        · exact .inr (.inr h)
        · exact .inr (.inl ⟨hx, hy⟩)
        · exact .inl ⟨hx, .inl hy⟩
    · have hp := (mem_cons.mp hp).resolve_left (Ne.symm hwp)
      rw [insertAfter, if_neg hwp, sublist_pair_cons, ih hl hp, mem_insertAfter,
        sublist_pair_cons, sublist_pair_cons, sublist_pair_cons]
      simp only [hp, Ne.symm hwp, false_and, false_or, and_true]
      constructor
      · rintro (⟨hx, hy | hy⟩ | h | h | ⟨hy, hx | hx⟩)
        · exact .inl (.inl ⟨hx, hy⟩)
        · exact .inr (.inr ⟨hy, .inr (.inl hx)⟩)
        · exact .inl (.inr h)
        · exact .inr (.inl h)
        · exact .inr (.inr ⟨hy, .inl hx⟩)
        · exact .inr (.inr ⟨hy, .inr (.inr hx)⟩)
      · rintro ((⟨hx, hy⟩ | h) | h | ⟨hy, hx | hx | hx⟩)
        · exact .inl ⟨hx, .inl hy⟩
        · exact .inr (.inl h)
        · exact .inr (.inr (.inl h))
        · exact .inr (.inr (.inr ⟨hy, .inl hx⟩))
        · exact .inl ⟨hx, .inr hy⟩
        · exact .inr (.inr (.inr ⟨hy, .inr hx⟩))

/-! ## Contiguous sets -/

/-- The elements with property `P` fill an interval of one list. -/
structure Contiguous (ls : List (List α)) (P : α → Prop) : Prop where
  convex : ∀ l ∈ ls, ∀ x y z, [x, y] <+ l → [y, z] <+ l → P x → P z → P y
  one_list : ∀ x ∈ ls.flatten, ∀ y ∈ ls.flatten, P x → P y → ∃ l ∈ ls, x ∈ l ∧ y ∈ l

namespace Contiguous

variable {P : α → Prop}

theorem congr (h : Contiguous ls P) (hQ : ∀ x ∈ ls.flatten, Q x ↔ P x) : Contiguous ls Q where
  convex l hl x y z hxy hyz hx hz := by
    have hmem : ∀ w ∈ l, w ∈ ls.flatten := fun w hw => mem_flatten_of_mem hl hw
    rw [hQ x (hmem x (hxy.subset (by simp)))] at hx
    rw [hQ z (hmem z (hyz.subset (by simp)))] at hz
    rw [hQ y (hmem y (hxy.subset (by simp)))]
    exact h.convex l hl x y z hxy hyz hx hz
  one_list x hx y hy hxQ hyQ := h.one_list x hx y hy ((hQ x hx).mp hxQ) ((hQ y hy).mp hyQ)

/-- A set of at most one element. -/
theorem of_unique (hnd : ls.flatten.Nodup) (h : ∀ x ∈ ls.flatten, P x → x = d) :
    Contiguous ls P where
  convex l hl x y z hxy hyz hx hz := by
    have hx := h x (mem_flatten_of_mem hl (hxy.subset (by simp))) hx
    have hz := h z (mem_flatten_of_mem hl (hyz.subset (by simp))) hz
    subst hx hz
    exact absurd hyz (not_sublist_pair_symm ((nodup_flatten.mp hnd).1 l hl) hxy)
  one_list x hx y hy hxP hyP := by
    obtain ⟨l, hl, hxl⟩ := List.mem_flatten.mp hx
    have hxy : x = y := (h x hx hxP).trans (h y hy hyP).symm
    exact ⟨l, hl, hxl, hxy ▸ hxl⟩

theorem rename (h : Contiguous ls P) (f : Equiv.Perm α) (hQ : ∀ x, Q (f x) ↔ P x) :
    Contiguous (ls.map (·.map f)) Q where
  convex l' hl' x y z hxy hyz hx hz := by
    obtain ⟨l, hl, rfl⟩ := List.mem_map.mp hl'
    rw [← f.apply_symm_apply x] at hxy hx
    rw [← f.apply_symm_apply y] at hxy hyz ⊢
    rw [← f.apply_symm_apply z] at hyz hz
    rw [hQ] at hx hz ⊢
    rw [sublist_pair_map f.injective] at hxy hyz
    exact h.convex l hl _ _ _ hxy hyz hx hz
  one_list x hx y hy hxQ hyQ := by
    rw [← List.map_flatten] at hx hy
    obtain ⟨x', hx', rfl⟩ := List.mem_map.mp hx
    obtain ⟨y', hy', rfl⟩ := List.mem_map.mp hy
    rw [hQ] at hxQ hyQ
    obtain ⟨l, hl, hxl, hyl⟩ := h.one_list x' hx' y' hy' hxQ hyQ
    exact ⟨l.map f, mem_map_of_mem hl, mem_map_of_mem hxl, mem_map_of_mem hyl⟩

variable [DecidableEq α]

theorem erase (h : Contiguous ls P) (hnd : ls.flatten.Nodup) :
    Contiguous (ls.map (·.erase s)) P where
  convex l' hl' x y z hxy hyz hx hz := by
    obtain ⟨l, hl, rfl⟩ := List.mem_map.mp hl'
    exact h.convex l hl x y z (hxy.trans List.erase_sublist) (hyz.trans List.erase_sublist) hx hz
  one_list x hx y hy hxP hyP := by
    obtain ⟨hxs, hx⟩ := (mem_flatten_map_erase hnd).mp hx
    obtain ⟨hys, hy⟩ := (mem_flatten_map_erase hnd).mp hy
    obtain ⟨l, hl, hxl, hyl⟩ := h.one_list x hx y hy hxP hyP
    exact ⟨l.erase s, mem_map_of_mem hl, (List.mem_erase_of_ne hxs).mpr hxl,
      (List.mem_erase_of_ne hys).mpr hyl⟩

theorem insertAfter (h : Contiguous ls P) (hnd : ls.flatten.Nodup) (hp : p ∈ ls.flatten)
    (hd : d ∉ ls.flatten) (hPd : P d ↔ P p) :
    Contiguous (ls.map (DList.insertAfter p d)) P where
  convex l' hl' x y z hxy hyz hx hz := by
    obtain ⟨l, hl, rfl⟩ := List.mem_map.mp hl'
    have hlnd := (nodup_flatten.mp hnd).1 l hl
    have hdl : d ∉ l := fun hm => hd (mem_flatten_of_mem hl hm)
    by_cases hpl : p ∈ l
    · have hc := h.convex l hl
      have hno : ∀ {w}, ¬ [d, w] <+ l := fun hs => hdl (hs.subset (by simp))
      have hno' : ∀ {w}, ¬ [w, d] <+ l := fun hs => hdl (hs.subset (by simp))
      rw [sublist_pair_insertAfter hlnd hpl] at hxy hyz
      rcases hxy with hxy | ⟨rfl, hpy⟩ | ⟨rfl, hxp⟩
      · rcases hyz with hyz | ⟨rfl, -⟩ | ⟨rfl, hyp⟩
        · exact hc x y z hxy hyz hx hz
        · exact absurd hxy hno'
        · rcases hyp with rfl | hyp
          · exact hPd.mp hz
          · exact hc x y p hxy hyp hx (hPd.mp hz)
      · rcases hyz with hyz | ⟨rfl, -⟩ | ⟨rfl, hyp⟩
        · exact hc p y z hpy hyz (hPd.mp hx) hz
        · exact absurd hpy hno'
        · rcases hyp with rfl | hyp
          · exact hPd.mp hx
          · exact absurd hyp (not_sublist_pair_symm hlnd hpy)
      · rcases hyz with hyz | ⟨-, hpz⟩ | ⟨rfl, hyp⟩
        · exact absurd hyz hno
        · rcases hxp with rfl | hxp
          · exact hPd.mpr hx
          · exact hPd.mpr (hc x p z hxp hpz hx hz)
        · exact hz
    · rw [insertAfter_of_not_mem hpl] at hxy hyz
      exact h.convex l hl x y z hxy hyz hx hz
  one_list x hx y hy hxP hyP := by
    -- `d` is in the list of `p`
    have hreplace : ∀ w ∈ (ls.map (DList.insertAfter p d)).flatten, P w →
        ∃ w' ∈ ls.flatten, P w' ∧ ∀ l ∈ ls, w' ∈ l → w ∈ DList.insertAfter p d l := by
      intro w hw hwP
      rcases (mem_flatten_map_insertAfter hp).mp hw with rfl | hw
      · exact ⟨p, hp, hPd.mp hwP, fun l _ hm => mem_insertAfter.mpr (.inr ⟨rfl, hm⟩)⟩
      · exact ⟨w, hw, hwP, fun l _ hm => mem_insertAfter.mpr (.inl hm)⟩
    obtain ⟨x', hx', hxP', hxl⟩ := hreplace x hx hxP
    obtain ⟨y', hy', hyP', hyl⟩ := hreplace y hy hyP
    obtain ⟨l, hl, hxm, hym⟩ := h.one_list x' hx' y' hy' hxP' hyP'
    exact ⟨_, mem_map_of_mem hl, hxl l hl hxm, hyl l hl hym⟩

/-- Of two elements of the set, the first one's successor is in the set. -/
theorem next (h : Contiguous ls P) (rep : Represents null L ls) (hb : Before ls x y) (hx : P x)
    (hy : P y) : L.next x ∈ ls.flatten ∧ P (L.next x) := by
  obtain ⟨l, hl, hxy⟩ := hb
  have hxl : x ∈ l := hxy.subset (by simp)
  rw [rep.next_eq l hl x hxl]
  obtain ⟨u, v, rfl, hu, -⟩ := exists_split hxl (rep.chain_nodup hl)
  rw [succIn_append_cons hu]
  have hyv := (sublist_pair_split hu).mp hxy
  cases v with
  | nil => simp at hyv
  | cons n v =>
    refine ⟨mem_flatten_of_mem hl (by simp), ?_⟩
    rw [List.headD_cons]
    rcases mem_cons.mp hyv with rfl | hyv
    · exact hy
    have hxn : [x, n] <+ u ++ x :: n :: v := (sublist_pair_split hu).mpr (by simp)
    have hny : [n, y] <+ n :: v := sublist_pair_cons.mpr (.inl ⟨rfl, hyv⟩)
    have hsuf : n :: v <+ u ++ x :: n :: v :=
      (List.sublist_cons_self x _).trans (List.sublist_append_right u _)
    exact h.convex _ hl x n y hxn (hny.trans hsuf) hx hy

/-- Of two elements of the set, the second one's predecessor is in the set. -/
theorem prev (h : Contiguous ls P) (rep : Represents null L ls) (hb : Before ls y x) (hx : P x)
    (hy : P y) : L.prev x ∈ ls.flatten ∧ P (L.prev x) := by
  obtain ⟨l, hl, hyx⟩ := hb
  have hxl : x ∈ l := hyx.subset (by simp)
  rw [rep.prev_eq l hl x hxl]
  obtain ⟨u, v, rfl, hu, hv⟩ := exists_split hxl (rep.chain_nodup hl)
  rw [predIn_append_cons hu]
  have hyu : y ∈ u := by
    have hyl : y ∈ u ++ x :: v := hyx.subset (by simp)
    have hnot : ¬ [x, y] <+ u ++ x :: v := fun hs =>
      not_sublist_pair_symm (rep.chain_nodup hl) hyx hs
    rw [sublist_pair_split hu] at hnot
    have hne : y ≠ x := by
      rintro rfl
      exact absurd hyx (not_sublist_pair_symm (rep.chain_nodup hl) hyx)
    rw [List.mem_append, mem_cons] at hyl
    exact hyl.resolve_right fun h => h.elim hne hnot
  rcases List.eq_nil_or_concat' u with rfl | ⟨u, m, rfl⟩
  · simp at hyu
  have hm : (u ++ [m]).getLastD null = m := by simp
  rw [hm]
  refine ⟨mem_flatten_of_mem hl (by simp), ?_⟩
  have hassoc : u ++ [m] ++ x :: v = u ++ m :: x :: v := List.append_cons _ _ _ |>.symm
  rcases List.mem_append.mp hyu with hyu | hym
  · have hmx : [m, x] <+ u ++ m :: x :: v :=
      (sublist_pair_cons.mpr (.inl ⟨rfl, by simp⟩)).trans (List.sublist_append_right u _)
    have hym : [y, m] <+ u ++ m :: x :: v :=
      (singleton_sublist.mpr hyu).append (singleton_sublist.mpr (by simp))
    exact h.convex _ hl y m x (hassoc ▸ hym) (hassoc ▸ hmx) hy hx
  · rw [← List.mem_singleton.mp hym]
    exact hy

end Contiguous

/-! ## Numbered elements -/

/-- Every element has a number of its own and a list of ancestors. -/
structure Lineage (ls : List (List α)) (id : α → Nat) (anc : α → List Nat) (fresh : Nat) :
    Prop where
  inj : ∀ x ∈ ls.flatten, ∀ y ∈ ls.flatten, id x = id y → x = y
  id_lt : ∀ x ∈ ls.flatten, id x < fresh
  anc_lt : ∀ x ∈ ls.flatten, ∀ i ∈ anc x, i < fresh
  trans : ∀ x ∈ ls.flatten, ∀ y ∈ ls.flatten, id x ∈ anc y → anc x ⊆ anc y
  before : ∀ x ∈ ls.flatten, ∀ y ∈ ls.flatten, id x ∈ anc y → Before ls x y
  contiguous : ∀ i, Contiguous ls fun y => i = id y ∨ i ∈ anc y

namespace Lineage

variable {id : α → Nat} {anc : α → List Nat} {fresh : Nat}

theorem congr (h : Lineage ls id anc fresh) (hid : ∀ x ∈ ls.flatten, id' x = id x)
    (hanc : ∀ x ∈ ls.flatten, anc' x = anc x) : Lineage ls id' anc' fresh where
  inj x hx y hy he := h.inj x hx y hy (by rw [← hid x hx, he, hid y hy])
  id_lt x hx := by
    rw [hid x hx]
    exact h.id_lt x hx
  anc_lt x hx := by
    rw [hanc x hx]
    exact h.anc_lt x hx
  trans x hx y hy hm := by
    rw [hid x hx, hanc y hy] at hm
    rw [hanc x hx, hanc y hy]
    exact h.trans x hx y hy hm
  before x hx y hy hm := by
    rw [hid x hx, hanc y hy] at hm
    exact h.before x hx y hy hm
  contiguous i := (h.contiguous i).congr fun x hx => by rw [hid x hx, hanc x hx]

theorem rename (h : Lineage ls id anc fresh) (f : Equiv.Perm α) (hid : ∀ x, id' (f x) = id x)
    (hanc : ∀ x, anc' (f x) = anc x) : Lineage (ls.map (·.map f)) id' anc' fresh := by
  have hmem : ∀ {y}, y ∈ (ls.map (·.map f)).flatten → ∃ x ∈ ls.flatten, f x = y := by
    intro y hy
    rw [← List.map_flatten] at hy
    exact List.mem_map.mp hy
  refine ⟨?_, ?_, ?_, ?_, ?_, ?_⟩
  · rintro _ hx _ hy he
    obtain ⟨x, hx', rfl⟩ := hmem hx
    obtain ⟨y, hy', rfl⟩ := hmem hy
    rw [hid, hid] at he
    rw [h.inj x hx' y hy' he]
  · rintro _ hx
    obtain ⟨x, hx', rfl⟩ := hmem hx
    rw [hid]
    exact h.id_lt x hx'
  · rintro _ hx
    obtain ⟨x, hx', rfl⟩ := hmem hx
    rw [hanc]
    exact h.anc_lt x hx'
  · rintro _ hx _ hy he
    obtain ⟨x, hx', rfl⟩ := hmem hx
    obtain ⟨y, hy', rfl⟩ := hmem hy
    rw [hid, hanc] at he
    rw [hanc, hanc]
    exact h.trans x hx' y hy' he
  · rintro _ hx _ hy he
    obtain ⟨x, hx', rfl⟩ := hmem hx
    obtain ⟨y, hy', rfl⟩ := hmem hy
    rw [hid, hanc] at he
    obtain ⟨l, hl, hs⟩ := h.before x hx' y hy' he
    exact ⟨l.map f, mem_map_of_mem hl, (sublist_pair_map f.injective).mpr hs⟩
  · intro i
    refine (h.contiguous i).rename f fun x => ?_
    rw [hid, hanc]

variable [DecidableEq α]

theorem erase (h : Lineage ls id anc fresh) (hnd : ls.flatten.Nodup) :
    Lineage (ls.map (·.erase s)) id anc fresh := by
  have hmem : ∀ {x}, x ∈ (ls.map (·.erase s)).flatten → x ≠ s ∧ x ∈ ls.flatten :=
    (mem_flatten_map_erase hnd).mp
  refine ⟨?_, ?_, ?_, ?_, ?_, fun i => (h.contiguous i).erase hnd⟩
  · intro x hx y hy
    exact h.inj x (hmem hx).2 y (hmem hy).2
  · intro x hx
    exact h.id_lt x (hmem hx).2
  · intro x hx
    exact h.anc_lt x (hmem hx).2
  · intro x hx y hy
    exact h.trans x (hmem hx).2 y (hmem hy).2
  · intro x hx y hy he
    obtain ⟨l, hl, hs⟩ := h.before x (hmem hx).2 y (hmem hy).2 he
    refine ⟨l.erase s, mem_map_of_mem hl, ?_⟩
    have hs' := hs.erase s
    rwa [List.erase_of_not_mem (by simp [(hmem hx).1.symm, (hmem hy).1.symm])] at hs'

/-- A new element behind its parent. -/
theorem child (h : Lineage ls id anc fresh) (hnd : ls.flatten.Nodup)
    (hnd' : (ls.map (DList.insertAfter p d)).flatten.Nodup) (hp : p ∈ ls.flatten)
    (hd : d ∉ ls.flatten) (hid : id d = fresh) (hanc : anc d = id p :: anc p) :
    Lineage (ls.map (DList.insertAfter p d)) id anc (fresh + 1) := by
  have hmem : ∀ {x}, x ∈ (ls.map (DList.insertAfter p d)).flatten → x = d ∨ x ∈ ls.flatten :=
    (mem_flatten_map_insertAfter hp).mp
  have hancp : ∀ i ∈ anc d, i < fresh := by
    intro i hi
    rw [hanc, mem_cons] at hi
    rcases hi with rfl | hi
    · exact h.id_lt p hp
    · exact h.anc_lt p hp i hi
  have hnone : ∀ {y}, y ∈ (ls.map (DList.insertAfter p d)).flatten → id d ∉ anc y := by
    intro y hy he
    rcases hmem hy with rfl | hy
    · exact absurd (hancp _ he) (by omega)
    · exact absurd (h.anc_lt y hy _ he) (by omega)
  -- an ancestor of `d` is `p` or an ancestor of `p`
  have hup : ∀ x ∈ ls.flatten, id x ∈ anc d → x = p ∨ id x ∈ anc p := by
    intro x hx he
    rw [hanc, mem_cons] at he
    exact he.imp_left (h.inj x hx p hp)
  refine ⟨?_, ?_, ?_, ?_, ?_, ?_⟩
  · intro x hx y hy he
    rcases hmem hx with rfl | hxl <;> rcases hmem hy with rfl | hyl
    · rfl
    · exact absurd (h.id_lt y hyl) (by omega)
    · exact absurd (h.id_lt x hxl) (by omega)
    · exact h.inj x hxl y hyl he
  · intro x hx
    rcases hmem hx with rfl | hx
    · omega
    · exact Nat.lt_succ_of_lt (h.id_lt x hx)
  · intro x hx i hi
    rcases hmem hx with rfl | hx
    · exact Nat.lt_succ_of_lt (hancp i hi)
    · exact Nat.lt_succ_of_lt (h.anc_lt x hx i hi)
  · intro x hx y hy he
    rcases hmem hx with rfl | hxl
    · exact absurd he (hnone hy)
    rcases hmem hy with rfl | hyl
    · rw [hanc]
      rcases hup x hxl he with rfl | he
      · exact List.subset_cons_self _ _
      · exact List.Subset.trans (h.trans x hxl p hp he) (List.subset_cons_self _ _)
    · exact h.trans x hxl y hyl he
  · intro x hx y hy he
    rcases hmem hx with rfl | hxl
    · exact absurd he (hnone hy)
    rcases hmem hy with rfl | hyl
    · obtain ⟨l, hl, hpl⟩ := List.mem_flatten.mp hp
      have hln := (nodup_flatten.mp hnd).1 l hl
      refine ⟨_, mem_map_of_mem hl, (sublist_pair_insertAfter hln hpl).mpr ?_⟩
      refine .inr (.inr ⟨rfl, ?_⟩)
      rcases hup x hxl he with rfl | he
      · exact .inl rfl
      right
      obtain ⟨k, hk, hs⟩ := h.before x hxl p hp he
      have hkl : k = l := by
        by_contra hne
        have hdis := (nodup_flatten.mp hnd).2
        have hsymm : Std.Symm (@List.Disjoint α) := ⟨fun _ _ hd _ h₁ h₂ => hd h₂ h₁⟩
        exact hdis.forall hk hl hne (hs.subset (by simp)) hpl
      exact hkl ▸ hs
    · obtain ⟨l, hl, hs⟩ := h.before x hxl y hyl he
      refine ⟨_, mem_map_of_mem hl, ?_⟩
      by_cases hpl : p ∈ l
      · exact (sublist_pair_insertAfter ((nodup_flatten.mp hnd).1 l hl) hpl).mpr (.inl hs)
      · rw [insertAfter_of_not_mem hpl]
        exact hs
  · intro i
    by_cases hi : i = fresh
    · refine Contiguous.of_unique (d := d) hnd' fun x hx hP => ?_
      rcases hmem hx with rfl | hx
      · rfl
      have h1 := h.id_lt x hx
      have h2 := h.anc_lt x hx i
      rcases hP with hP | hP
      · omega
      · exact absurd (h2 hP) (by omega)
    · refine (h.contiguous i).insertAfter hnd hp hd ?_
      rw [hid, hanc, mem_cons]
      simp [hi]

end Lineage

end Rel4.Lib.DList
