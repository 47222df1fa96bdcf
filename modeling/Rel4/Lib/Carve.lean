import Mathlib.Order.Basic
import Mathlib.Tactic.Order
import Mathlib.Data.List.Basic

/-!
Carving intervals out of intervals.

`carve is rs` takes the intervals `is` one after the other and cuts the
intervals `rs` out of each. It goes through `rs` once: an interval that `trim`
is through with at one of the `is` is not cut out of the later ones. `Clean`
says when nothing is missed by that, and `carve_exact_iff` that it says no more.
-/

namespace Rel4.Lib.Carve

universe u

variable {α : Type u} [LinearOrder α]

/-- What lies from `lo` on and below `hi`. -/
structure Span (α : Type u) where
  lo : α
  hi : α

namespace Span

variable {i r : Span α} {p : α}

def Has (i : Span α) (p : α) : Prop := i.lo ≤ p ∧ p < i.hi

def Apart (i j : Span α) : Prop := ∀ p, i.Has p → ¬j.Has p

theorem not_has (h : i.hi ≤ i.lo) : ¬i.Has p := by
  rintro ⟨hlo, hhi⟩
  order

theorem lo_lt_hi (h : i.Has p) : i.lo < i.hi := by
  obtain ⟨hlo, hhi⟩ := h
  order

end Span

open Carve.Span
open List (pairwise_cons mem_cons forall_mem_cons mem_cons_self suffix_rfl suffix_cons)

/-- Intervals in their order, which may be empty and may touch. -/
structure Ordered (rs : List (Span α)) : Prop where
  le : ∀ r ∈ rs, r.lo ≤ r.hi
  pairwise : rs.Pairwise fun r r' => r.hi ≤ r'.lo

namespace Ordered

variable {rs : List (Span α)} {r r' : Span α} {p : α}

theorem tail (h : Ordered (r :: rs)) : Ordered rs :=
  ⟨fun r' hr => h.le r' (List.mem_cons_of_mem _ hr), (pairwise_cons.mp h.pairwise).2⟩

theorem head_le (h : Ordered (r :: rs)) (hr : r' ∈ rs) : r.hi ≤ r'.lo :=
  (pairwise_cons.mp h.pairwise).1 r' hr

theorem suffix (h : Ordered rs) (hs : rs' <:+ rs) : Ordered rs' :=
  ⟨fun r hr => h.le r (hs.subset hr), h.pairwise.sublist hs.sublist⟩

/-- No point is in two of them. -/
theorem eq_of_has (h : Ordered rs) (hr : r ∈ rs) (hr' : r' ∈ rs) (hp : r.Has p)
    (hp' : r'.Has p) : r = r' := by
  induction rs with
  | nil => cases hr
  | cons x rs ih =>
    obtain ⟨hlo, hhi⟩ := hp
    obtain ⟨hlo', hhi'⟩ := hp'
    rcases mem_cons.mp hr with rfl | hr <;> rcases mem_cons.mp hr' with rfl | hr'
    · rfl
    · have hle := h.head_le hr'
      order
    · have hle := h.head_le ‹r ∈ rs›
      order
    · exact ih h.tail hr hr'

/-- Below the end of the first there is nothing of the others. -/
theorem not_has_tail (h : Ordered (r :: rs)) (hp : p < r.hi) : ∀ r' ∈ rs, ¬r'.Has p := by
  rintro r' hr' ⟨hlo, -⟩
  have hle := h.head_le hr'
  order

end Ordered

/-! ## One interval -/

/-- The pieces of `i` that are left of it without `rs`, and those of `rs` that the next
interval is to be compared with. -/
def trim (i : Span α) : List (Span α) → List (Span α) × List (Span α)
  | [] => (if i.lo < i.hi then [i] else [], [])
  | r :: rs =>
    if r.lo = r.hi then trim i rs
    else if i.hi ≤ i.lo then ([], r :: rs)
    else if r.hi ≤ i.lo then trim i rs
    else if i.hi ≤ r.lo then ([i], r :: rs)
    else if r.lo ≤ i.lo then trim ⟨if i.hi < r.hi then i.hi else r.hi, i.hi⟩ rs
    else if r.hi < i.hi then
      (⟨i.lo, r.lo⟩ :: (trim ⟨r.hi, i.hi⟩ rs).1, (trim ⟨r.hi, i.hi⟩ rs).2)
    else ([⟨i.lo, r.lo⟩], r :: rs)

variable {i j r f : Span α} {is rs : List (Span α)} {p : α}

/-- Where `r` reaches over the start of `i`, what stands after it is left of `i`. -/
theorem has_front (hlo : r.lo ≤ i.lo) (hhi : i.lo < r.hi) :
    Has ⟨if i.hi < r.hi then i.hi else r.hi, i.hi⟩ p ↔ i.Has p ∧ ¬r.Has p := by
  unfold Has
  constructor
  · rintro ⟨h, hp⟩
    split at h
    · order
    · exact ⟨⟨by order, hp⟩, fun hr => by order⟩
  · rintro ⟨⟨hp, hp'⟩, hr⟩
    have hle : r.hi ≤ p := le_of_not_gt fun h => hr ⟨hlo.trans hp, h⟩
    refine ⟨?_, hp'⟩
    split
    · order
    · exact hle

/-- Where `r` stands inside of `i`, what stands before it and after it is left of `i`. -/
theorem has_middle (hlo : i.lo < r.lo) (hr : r.lo ≤ r.hi) (hhi : r.hi < i.hi) :
    Has ⟨i.lo, r.lo⟩ p ∨ Has ⟨r.hi, i.hi⟩ p ↔ i.Has p ∧ ¬r.Has p := by
  unfold Has
  grind

/-- Where `r` reaches over the end of `i`, what stands before it is left of `i`. -/
theorem has_back (hr : r.lo < i.hi) (hhi : i.hi ≤ r.hi) :
    Has ⟨i.lo, r.lo⟩ p ↔ i.Has p ∧ ¬r.Has p := by
  unfold Has
  grind

/-- The pieces are `i` without `rs`. -/
theorem has_trim (h : Ordered rs) :
    (∃ f ∈ (trim i rs).1, f.Has p) ↔ i.Has p ∧ ∀ r ∈ rs, ¬r.Has p := by
  fun_induction trim i rs with
  | case1 i =>
    by_cases hi : i.lo < i.hi
    · simp [hi]
    · simp [hi, not_has (not_lt.mp hi)]
  | case2 i r rs hempty ih =>
    rw [ih h.tail, forall_mem_cons]
    simp only [not_has hempty.ge, not_false_eq_true, true_and]
  | case3 i r rs hr hi => simp [not_has hi]
  | case4 i r rs hr hi hbelow ih =>
    have hapart : i.Has p → ¬r.Has p := fun hp hrp => by
      have := hp.1.trans_lt hrp.2
      order
    rw [ih h.tail, forall_mem_cons]
    exact and_congr_right fun hp => (and_iff_right (hapart hp)).symm
  | case5 i r rs hr hi hbelow habove =>
    have hle := h.le r mem_cons_self
    have hapart : i.Has p → ¬r.Has p := fun hp hrp => by
      have := hrp.1.trans_lt hp.2
      order
    have hrest : i.Has p → ∀ r' ∈ rs, ¬r'.Has p := fun hp =>
      h.not_has_tail ((hp.2.trans_le habove).trans_le hle)
    rw [forall_mem_cons]
    simp only [List.mem_singleton, exists_eq_left]
    exact (and_iff_left_of_imp fun hp => ⟨hapart hp, hrest hp⟩).symm
  | case6 i r rs hr hi hbelow habove hfront ih =>
    rw [ih h.tail, forall_mem_cons, ← and_assoc, has_front hfront (not_le.mp hbelow)]
  | case7 i r rs hr hi hbelow habove hfront hend ih =>
    have hle := h.le r mem_cons_self
    have hrest : Has ⟨i.lo, r.lo⟩ p → ∀ r' ∈ rs, ¬r'.Has p := fun hp =>
      h.not_has_tail (hp.2.trans_le hle)
    rw [forall_mem_cons, ← and_assoc, ← has_middle (not_le.mp hfront) hle hend]
    rw [List.exists_mem_cons_iff, ih h.tail, or_and_right, and_iff_left_of_imp hrest]
  | case8 i r rs hr hi hbelow habove hfront hend =>
    have hle := h.le r mem_cons_self
    have hrest : Has ⟨i.lo, r.lo⟩ p → ∀ r' ∈ rs, ¬r'.Has p := fun hp =>
      h.not_has_tail (hp.2.trans_le hle)
    rw [forall_mem_cons, ← and_assoc, ← has_back (not_le.mp habove) (not_lt.mp hend)]
    simp only [List.mem_singleton, exists_eq_left]
    exact (and_iff_left_of_imp hrest).symm

/-- No piece begins before `i`. -/
theorem lo_le_of_mem_trim (h : Ordered rs) (hf : f ∈ (trim i rs).1) : i.lo ≤ f.lo := by
  fun_induction trim i rs with
  | case1 i => grind
  | case2 i r rs hempty ih => exact ih h.tail hf
  | case3 i r rs hr hi => cases hf
  | case4 i r rs hr hi hbelow ih => exact ih h.tail hf
  | case5 i r rs hr hi hbelow habove => grind
  | case6 i r rs hr hi hbelow habove hfront ih =>
    refine le_trans ?_ (ih h.tail hf)
    split <;> order
  | case7 i r rs hr hi hbelow habove hfront hend ih =>
    rcases mem_cons.mp hf with rfl | hf
    · exact le_rfl
    · exact (not_le.mp hbelow).le.trans (ih h.tail hf)
  | case8 i r rs hr hi hbelow habove hfront hend => grind

theorem trim_pairwise (h : Ordered rs) : (trim i rs).1.Pairwise Apart := by
  fun_induction trim i rs with
  | case1 i => split <;> simp
  | case2 i r rs hempty ih => exact ih h.tail
  | case3 i r rs hr hi => exact .nil
  | case4 i r rs hr hi hbelow ih => exact ih h.tail
  | case5 i r rs hr hi hbelow habove => exact List.pairwise_singleton _ _
  | case6 i r rs hr hi hbelow habove hfront ih => exact ih h.tail
  | case7 i r rs hr hi hbelow habove hfront hend ih =>
    refine pairwise_cons.mpr ⟨fun f hf p hp hfp => ?_, ih h.tail⟩
    have hle := h.le r mem_cons_self
    have hlo : r.hi ≤ f.lo := lo_le_of_mem_trim h.tail hf
    exact absurd ((hle.trans hlo).trans hfp.1) (not_le.mpr hp.2)
  | case8 i r rs hr hi hbelow habove hfront hend => exact List.pairwise_singleton _ _

theorem trim_suffix : (trim i rs).2 <:+ rs := by
  fun_induction trim i rs with
  | case1 i => exact suffix_rfl
  | case2 i r rs hempty ih => exact ih.trans (suffix_cons r rs)
  | case3 i r rs hr hi => exact suffix_rfl
  | case4 i r rs hr hi hbelow ih => exact ih.trans (suffix_cons r rs)
  | case5 i r rs hr hi hbelow habove => exact suffix_rfl
  | case6 i r rs hr hi hbelow habove hfront ih => exact ih.trans (suffix_cons r rs)
  | case7 i r rs hr hi hbelow habove hfront hend ih => exact ih.trans (suffix_cons r rs)
  | case8 i r rs hr hi hbelow habove hfront hend => exact suffix_rfl

/-- `trim` is through with `r` at `i`: `r` begins below the end of `i`, and it ends there as
well, or nothing of `i` is left below `r`. -/
def Passed (i : Span α) (rs : List (Span α)) (r : Span α) : Prop :=
  i.lo < i.hi ∧ r.lo < i.hi ∧
    (r.hi < i.hi ∨ r.lo ≤ i.lo ∨ ∃ r' ∈ rs, r'.lo < r'.hi ∧ r'.hi = r.lo)

/-- The first of `rs` is dropped and the others are compared with what is left of `i`. -/
theorem not_mem_trim_tail (h : Ordered (r' :: rs)) (hmem : r ∈ r' :: rs) (hr : r.lo < r.hi)
    (hfirst : r = r' → Passed i (r' :: rs) r) (ih : r ∈ rs → (r ∉ (trim i' rs).2 ↔ Passed i' rs r))
    (hrest : r ∈ rs → r'.hi ≤ r.lo → (Passed i' rs r ↔ Passed i (r' :: rs) r)) :
    r ∉ (trim i' rs).2 ↔ Passed i (r' :: rs) r := by
  rcases mem_cons.mp hmem with rfl | hmem
  · refine iff_of_true (fun hin => ?_) (hfirst rfl)
    have hle := h.head_le (trim_suffix.subset hin)
    order
  · rw [ih hmem, hrest hmem (h.head_le hmem)]

theorem not_mem_trim_iff (h : Ordered rs) (hmem : r ∈ rs) (hr : r.lo < r.hi) :
    r ∉ (trim i rs).2 ↔ Passed i rs r := by
  fun_induction trim i rs with
  | case1 i => cases hmem
  | case2 i r' rs hempty ih =>
    exact not_mem_trim_tail h hmem hr (by grind) (ih h.tail) (by grind [Passed])
  | case3 i r' rs hr' hi => grind [Passed]
  | case4 i r' rs hr' hi hbelow ih =>
    exact not_mem_trim_tail h hmem hr (by grind [Passed]) (ih h.tail) (by grind [Passed])
  | case5 i r' rs hr' hi hbelow habove =>
    have hle : ∀ x ∈ rs, r'.hi ≤ x.lo := fun x => h.head_le
    have hle' := h.le r' mem_cons_self
    grind [Passed]
  | case6 i r' rs hr' hi hbelow habove hfront ih =>
    exact not_mem_trim_tail h hmem hr (by grind [Passed]) (ih h.tail) (by grind [Passed])
  | case7 i r' rs hr' hi hbelow habove hfront hend ih =>
    have hle' := h.le r' mem_cons_self
    exact not_mem_trim_tail h hmem hr (by grind [Passed]) (ih h.tail) (by grind [Passed])
  | case8 i r' rs hr' hi hbelow habove hfront hend =>
    have hle : ∀ x ∈ rs, r'.hi ≤ x.lo := fun x => h.head_le
    grind [Passed]

theorem Passed.mono (h : Passed i rs r) (hs : rs ⊆ rs') : Passed i rs' r := by
  obtain ⟨hi, hlo, hend | hfront | ⟨r', hr', hmeet⟩⟩ := h
  · exact ⟨hi, hlo, .inl hend⟩
  · exact ⟨hi, hlo, .inr (.inl hfront)⟩
  · exact ⟨hi, hlo, .inr (.inr ⟨r', hs hr', hmeet⟩)⟩

/-! ## A list of intervals -/

/-- The pieces of `is` without `rs`, where `rs` is gone through once. -/
def carve : List (Span α) → List (Span α) → List (Span α)
  | [], _ => []
  | i :: is, rs => (trim i rs).1 ++ carve is (trim i rs).2

theorem carve_nil : carve is [] = is.filter fun i => i.lo < i.hi := by
  induction is with
  | nil => rfl
  | cons i is ih =>
    rw [carve, trim, ih]
    by_cases hi : i.lo < i.hi <;> simp [hi]

/-- The turns of a loop over both lists. -/
theorem carve_cons : carve (i :: is) (r :: rs) = if r.lo = r.hi then carve (i :: is) rs
      else if i.hi ≤ i.lo then carve is (r :: rs)
      else if r.hi ≤ i.lo then carve (i :: is) rs
      else if i.hi ≤ r.lo then i :: carve is (r :: rs)
      else if r.lo ≤ i.lo then carve (⟨if i.hi < r.hi then i.hi else r.hi, i.hi⟩ :: is) rs
      else if r.hi < i.hi then ⟨i.lo, r.lo⟩ :: carve (⟨r.hi, i.hi⟩ :: is) rs
      else ⟨i.lo, r.lo⟩ :: carve is (r :: rs) := by
  simp only [carve, trim]
  split_ifs <;> rfl

/-- Every piece comes from one of the intervals. -/
theorem carve_within (h : Ordered rs) (hf : f ∈ carve is rs) : ∃ i ∈ is, ∀ p, f.Has p → i.Has p := by
  induction is generalizing rs with
  | nil => cases hf
  | cons i is ih =>
    rcases List.mem_append.mp hf with hf | hf
    · exact ⟨i, mem_cons_self, fun p hp => ((has_trim h).mp ⟨f, hf, hp⟩).1⟩
    · obtain ⟨j, hj, hin⟩ := ih (h.suffix trim_suffix) hf
      exact ⟨j, List.mem_cons_of_mem _ hj, hin⟩

/-- What no interval of `rs` has is not lost. -/
theorem carve_covers (h : Ordered rs) (hi : i ∈ is) (hp : i.Has p) (hr : ∀ r ∈ rs, ¬r.Has p) :
    ∃ f ∈ carve is rs, f.Has p := by
  induction is generalizing rs with
  | nil => cases hi
  | cons j is ih =>
    rcases mem_cons.mp hi with rfl | hi
    · obtain ⟨f, hf, hfp⟩ := (has_trim h).mpr ⟨hp, hr⟩
      exact ⟨f, List.mem_append_left _ hf, hfp⟩
    · obtain ⟨f, hf, hfp⟩ :=
        ih (h.suffix trim_suffix) hi fun r hmem => hr r (trim_suffix.subset hmem)
      exact ⟨f, List.mem_append_right _ hf, hfp⟩

/-- The intervals `is` come so that `carve` misses nothing of `rs` in them: what it is through
with at one of them has nothing in common with the later ones, and what two of them have in
common is in `rs`. -/
structure Clean (is rs : List (Span α)) : Prop where
  passed : is.Pairwise fun i j => ∀ r ∈ rs, Passed i rs r → r.Apart j
  overlaps : is.Pairwise fun i j => ∀ p, i.Has p → j.Has p → ∃ r ∈ rs, r.Has p

/-- Intervals in their order, where nothing of `rs` reaches from one to the next. -/
theorem Clean.of_ordered
    (h : is.Pairwise fun i j => i.hi ≤ j.lo ∧ ∀ r ∈ rs, r.hi ≤ j.lo ∨ i.hi ≤ r.lo) :
    Clean is rs := by
  refine ⟨h.imp fun {i j} hij r hr hpass p hp hjp => ?_, h.imp fun {i j} hij p hip hjp => ?_⟩
  · obtain ⟨-, hlo, -⟩ := hpass
    rcases hij.2 r hr with hle | hle
    · exact absurd (hle.trans hjp.1) (not_le.mpr hp.2)
    · exact absurd hle (not_le.mpr hlo)
  · exact absurd (hij.1.trans hjp.1) (not_le.mpr hip.2)

section

variable {all : List (Span α)}

/-- None of the intervals that are no longer in `rs` meets `i`. -/
def NoneMissed (all rs : List (Span α)) (i : Span α) : Prop :=
  ∀ r ∈ all, r ∉ rs → r.Apart i

section

variable (h : Ordered all) (hs : rs <:+ all)
include h hs

theorem trim_apart_iff : (∀ f ∈ (trim i rs).1, ∀ r ∈ all, f.Apart r) ↔ NoneMissed all rs i := by
  have hrs := h.suffix hs
  constructor
  · intro hf r hr hout p hp hip
    -- only `r` has `p`, so that `p` is in a piece
    obtain ⟨f, hmem, hfp⟩ := (has_trim hrs).mpr ⟨hip, fun r' hr' hp' => by
      rw [h.eq_of_has hr (hs.subset hr') hp hp'] at hout
      exact hout hr'⟩
    exact hf f hmem r hr p hfp hp
  · intro hm f hf r hr p hfp hp
    obtain ⟨hip, hout⟩ := (has_trim hrs).mp ⟨f, hf, hfp⟩
    by_cases hin : r ∈ rs
    · exact hout r hin hp
    · exact hm r hr hin p hp hip

omit h hs in
/-- A region that `i` is apart from does not help to pass another. -/
theorem Passed.of_noneMissed (hi : NoneMissed all rs i) (h : Passed i all r) : Passed i rs r := by
  obtain ⟨hne, hlo, hend | hfront | ⟨r', hr', hr'ne, hmeet⟩⟩ := h
  · exact ⟨hne, hlo, .inl hend⟩
  · exact ⟨hne, hlo, .inr (.inl hfront)⟩
  by_cases hin : r' ∈ rs
  · exact ⟨hne, hlo, .inr (.inr ⟨r', hin, hr'ne, hmeet⟩)⟩
  refine ⟨hne, hlo, .inr (.inl (le_of_not_gt fun hlt => ?_))⟩
  have hap := hi r' hr' hin
  rcases le_total r'.lo i.lo with hle | hle
  · exact hap i.lo ⟨hle, by order⟩ ⟨le_rfl, hne⟩
  · exact hap r'.lo ⟨le_rfl, hr'ne⟩ ⟨hle, by order⟩

/-- What is missed at a later interval was missed there before or is passed at `i`. -/
theorem noneMissed_trim_iff (hi : NoneMissed all rs i) :
    NoneMissed all (trim i rs).2 j ↔
      NoneMissed all rs j ∧ ∀ r ∈ all, Passed i all r → r.Apart j := by
  have hrs := h.suffix hs
  constructor
  · intro hm
    refine ⟨fun r hr hout => hm r hr fun hin => hout (trim_suffix.subset hin), ?_⟩
    intro r hr hpass p hp hjp
    refine hm r hr (fun hin => ?_) p hp hjp
    have hmem := trim_suffix.subset hin
    exact (not_mem_trim_iff hrs hmem (lo_lt_hi hp)).mpr (hpass.of_noneMissed hi) hin
  · rintro ⟨hm, hpass⟩ r hr hout p hp hjp
    by_cases hin : r ∈ rs
    · have hpassed := (not_mem_trim_iff hrs hin (lo_lt_hi hp)).mp hout
      exact hpass r hr (hpassed.mono hs.subset) p hp hjp
    · exact hm r hr hin p hp hjp

theorem carve_apart_iff :
    (∀ f ∈ carve is rs, ∀ r ∈ all, f.Apart r) ↔
      (∀ i ∈ is, NoneMissed all rs i) ∧
        is.Pairwise fun i j => ∀ r ∈ all, Passed i all r → r.Apart j := by
  induction is generalizing rs with
  | nil => simp [carve]
  | cons i is ih =>
    rw [carve, List.forall_mem_append, trim_apart_iff h hs, ih (trim_suffix.trans hs),
      forall_mem_cons, pairwise_cons, and_assoc, and_congr_right_iff]
    intro hi
    simp only [noneMissed_trim_iff h hs hi, forall_and, and_assoc]

/-- Pieces that keep clear of `all` have in common what their intervals have in common outside
of `all`. -/
theorem carve_pairwise_iff (hap : ∀ f ∈ carve is rs, ∀ r ∈ all, f.Apart r) :
    (carve is rs).Pairwise Apart ↔
      is.Pairwise fun i j => ∀ p, i.Has p → j.Has p → ∃ r ∈ all, r.Has p := by
  induction is generalizing rs with
  | nil => simp [carve]
  | cons i is ih =>
    have hrs := h.suffix hs
    obtain ⟨hapi, hapis⟩ := List.forall_mem_append.mp hap
    rw [carve, List.pairwise_append, pairwise_cons, ih (trim_suffix.trans hs) hapis,
      and_iff_right (trim_pairwise hrs), and_comm, and_congr_left_iff]
    intro _
    constructor
    · intro hcross j hj p hip hjp
      by_contra hno
      have hout : ∀ r ∈ all, ¬r.Has p := fun r hr hp => hno ⟨r, hr, hp⟩
      obtain ⟨f, hf, hfp⟩ := (has_trim hrs).mpr ⟨hip, fun r hr => hout r (hs.subset hr)⟩
      obtain ⟨g, hg, hgp⟩ := carve_covers (hrs.suffix trim_suffix) hj hjp fun r hr =>
        hout r (hs.subset (trim_suffix.subset hr))
      exact hcross f hf g hg p hfp hgp
    · intro hover f hf g hg p hfp hgp
      obtain ⟨j, hj, hin⟩ := carve_within (hrs.suffix trim_suffix) hg
      obtain ⟨r, hr, hp⟩ := hover j hj p ((has_trim hrs).mp ⟨f, hf, hfp⟩).1 (hin p hgp)
      exact hapi f hf r hr p hfp hp

end

end

/-- The pieces have nothing in common with each other and with `rs` if the intervals come in
such a way, and only then. -/
theorem carve_exact_iff (h : Ordered rs) :
    (carve is rs).Pairwise Apart ∧ (∀ f ∈ carve is rs, ∀ r ∈ rs, f.Apart r) ↔ Clean is rs := by
  have hnone : ∀ i ∈ is, NoneMissed rs rs i := fun i _ r hr hout => absurd hr hout
  constructor
  · rintro ⟨hpair, hap⟩
    exact ⟨((carve_apart_iff h suffix_rfl).mp hap).2,
      (carve_pairwise_iff h suffix_rfl hap).mp hpair⟩
  · intro hc
    have hap := (carve_apart_iff h suffix_rfl).mpr ⟨hnone, hc.passed⟩
    exact ⟨(carve_pairwise_iff h suffix_rfl hap).mpr hc.overlaps, hap⟩

end Rel4.Lib.Carve
