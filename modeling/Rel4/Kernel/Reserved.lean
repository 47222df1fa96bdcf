import Rel4.Kernel.Freemem

/-!
The list of reserved regions (`reserve_region` and `merge_regions` in
`kernel/src/boot/mm.rs`).

Whatever the order of the calls, the entries of `ndks_boot.reserved` stand in
ascending order with a gap between any two, and hold the addresses that were
reserved. Where a new region touches an entry, the entry grows, and this can
close one gap; `merge_regions` joins the two entries.
-/

namespace Rel4.Kernel
open Lib.Bitfield Common
open List (mem_cons mem_append mem_cons_of_mem pairwise_cons mem_cons_self mem_singleton
  pairwise_append append_nil)

variable {nb : NdksBoot} {regs rs : List Region} {x y r : Region} {xs done : List Region}
  {p : Word}

/-! ## Lists of regions -/

/-- The address is in one of the regions. -/
def InRegions (xs : List Region) (p : Word) : Prop := ∃ x ∈ xs, x.Has p

theorem inRegions_cons : InRegions (x :: xs) p ↔ x.Has p ∨ InRegions xs p := by
  simp only [InRegions, mem_cons, exists_eq_or_imp]

theorem inRegions_append : InRegions (xs ++ ys) p ↔ InRegions xs p ∨ InRegions ys p := by
  simp only [InRegions, mem_append, or_and_right, exists_or]

theorem not_inRegions_nil : ¬InRegions [] p := by
  rintro ⟨x, hx, -⟩
  cases hx

def Region.Nonempty (r : Region) : Prop := r.start < r.stop

/-- Regions in ascending order, which may touch. -/
structure Ascending (xs : List Region) : Prop where
  nonempty : ∀ x ∈ xs, x.Nonempty
  order : xs.Pairwise fun x y => x.stop ≤ y.start

/-- Regions in ascending order with gaps. -/
structure Canonical (xs : List Region) : Prop where
  nonempty : ∀ x ∈ xs, x.Nonempty
  gaps : xs.Pairwise fun x y => x.stop < y.start

theorem canonical_nil : Canonical [] := ⟨nofun, .nil⟩

theorem Ascending.tail (h : Ascending (x :: xs)) : Ascending xs :=
  ⟨fun y hy => h.nonempty y (mem_cons_of_mem _ hy), (pairwise_cons.mp h.order).2⟩

theorem Ascending.head_le (h : Ascending (x :: xs)) (hy : y ∈ xs) : x.stop ≤ y.start :=
  (pairwise_cons.mp h.order).1 y hy

/-- Two regions that touch are one region. -/
theorem has_join (hx : x.Nonempty) (hy : y.Nonempty) (h : x.stop = y.start) :
    (Region.mk x.start y.stop).Has p ↔ x.Has p ∨ y.Has p := by
  unfold Region.Nonempty at hx hy
  unfold Region.Has
  simp only [BitVec.le_def, BitVec.lt_def, h] at hx hy ⊢
  omega

theorem Ascending.join (h : Ascending (x :: y :: ys)) : Ascending (⟨x.start, y.stop⟩ :: ys) := by
  have hx : x.start < x.stop := h.nonempty x mem_cons_self
  have hy : y.start < y.stop := h.nonempty y (mem_cons_of_mem _ mem_cons_self)
  have hxy : x.stop ≤ y.start := h.head_le mem_cons_self
  refine ⟨?_, pairwise_cons.mpr ⟨fun z hz => h.tail.head_le hz, h.tail.tail.order⟩⟩
  rintro z hz
  rcases mem_cons.mp hz with rfl | hz
  · show x.start < y.stop
    bv_omega
  · exact h.tail.tail.nonempty z hz

/-- `merge_regions` closes up what touches. -/
theorem mergeFrom_canonical (h : Ascending (x :: xs)) :
    Canonical (mergeFrom x xs) ∧ (∀ p, InRegions (mergeFrom x xs) p ↔ InRegions (x :: xs) p) ∧
      ∀ y ∈ mergeFrom x xs, x.start ≤ y.start := by
  fun_induction mergeFrom x xs with
  | case1 x =>
    refine ⟨⟨h.nonempty, List.pairwise_singleton _ _⟩, fun _ => Iff.rfl, fun y hy => ?_⟩
    rw [mem_singleton.mp hy]
    exact Nat.le_refl _
  | case2 x y ys heq ih =>
    obtain ⟨hcan, hcov, hle⟩ := ih h.join
    refine ⟨hcan, fun p => ?_, hle⟩
    rw [hcov, inRegions_cons, inRegions_cons, inRegions_cons, ← or_assoc,
      has_join (h.nonempty x mem_cons_self)
        (h.nonempty y (mem_cons_of_mem _ mem_cons_self)) heq]
  | case3 x y ys hne ih =>
    obtain ⟨hcan, hcov, hle⟩ := ih h.tail
    have hx : x.start < x.stop := h.nonempty x mem_cons_self
    have hxy : x.stop ≤ y.start := h.head_le mem_cons_self
    have hgap : x.stop < y.start := by bv_omega
    refine ⟨⟨?_, pairwise_cons.mpr ⟨fun z hz => ?_, hcan.gaps⟩⟩, fun p => ?_, fun z hz => ?_⟩
    · exact List.forall_mem_cons.mpr ⟨hx, hcan.nonempty⟩
    · exact Nat.lt_of_lt_of_le hgap (hle z hz)
    · rw [inRegions_cons, hcov]
      exact inRegions_cons.symm
    · rcases mem_cons.mp hz with rfl | hz
      · exact Nat.le_refl _
      · have hz := hle z hz
        bv_omega

theorem mergeRegions_canonical (h : Ascending xs) :
    Canonical (mergeRegions xs) ∧ ∀ p, InRegions (mergeRegions xs) p ↔ InRegions xs p := by
  cases xs with
  | nil => exact ⟨canonical_nil, fun _ => Iff.rfl⟩
  | cons x xs =>
    obtain ⟨hcan, hcov, -⟩ := mergeFrom_canonical h
    exact ⟨hcan, hcov⟩

/-! ## Reserving a region -/

/-- The regions have no address in common. -/
def Region.Disjoint (x y : Region) : Prop := ∀ p, x.Has p → ¬y.Has p

theorem Region.Disjoint.cases (h : x.Disjoint y) (hx : x.Nonempty) (hy : y.Nonempty) :
    x.stop ≤ y.start ∨ y.stop ≤ x.start := by
  unfold Region.Nonempty at hx hy
  -- the larger of the two starts is in one region and so not in the other
  by_cases hle : x.start ≤ y.start
  · have hstart := h y.start
    unfold Region.Has at hstart
    bv_omega
  · have hstart := h x.start
    unfold Region.Has at hstart
    bv_omega

/-- No entry touches the region. -/
def Loose (xs : List Region) (r : Region) : Prop := ∀ x ∈ xs, x.start ≠ r.stop ∧ x.stop ≠ r.start

/-- A region between those before it and those behind it. -/
theorem ascending_insert (hdone : Canonical done) (hxs : Canonical xs) (hr : r.Nonempty)
    (hbefore : ∀ x ∈ done, x.stop ≤ r.start) (hbehind : ∀ y ∈ xs, r.stop ≤ y.start) :
    Ascending (done ++ r :: xs) := by
  have hle : ∀ {l : List Region}, Canonical l → l.Pairwise fun x y => x.stop ≤ y.start :=
    fun hl => hl.gaps.imp fun hlt => Nat.le_of_lt hlt
  refine ⟨?_, pairwise_append.mpr ⟨hle hdone, pairwise_cons.mpr ⟨hbehind, hle hxs⟩, ?_⟩⟩
  · intro x hx
    rcases mem_append.mp hx with hx | hx
    · exact hdone.nonempty x hx
    · rcases mem_cons.mp hx with rfl | hx
      · exact hr
      · exact hxs.nonempty x hx
  · intro x hx y hy
    rcases mem_cons.mp hy with rfl | hy
    · exact hbefore x hx
    have hxr := hbefore x hx
    have hry := hbehind y hy
    unfold Region.Nonempty at hr
    bv_omega

/-- With gaps on both sides nothing has to be merged. -/
theorem canonical_insert (hdone : Canonical done) (hxs : Canonical xs) (hr : r.Nonempty)
    (hbefore : ∀ x ∈ done, x.stop < r.start) (hbehind : ∀ y ∈ xs, r.stop < y.start) :
    Canonical (done ++ r :: xs) := by
  refine ⟨(ascending_insert hdone hxs hr (fun x hx => Nat.le_of_lt (hbefore x hx))
    fun y hy => Nat.le_of_lt (hbehind y hy)).nonempty, pairwise_append.mpr
      ⟨hdone.gaps, pairwise_cons.mpr ⟨hbehind, hxs.gaps⟩, ?_⟩⟩
  intro x hx y hy
  rcases mem_cons.mp hy with rfl | hy
  · exact hbefore x hx
  have hxr := hbefore x hx
  have hry := hbehind y hy
  unfold Region.Nonempty at hr
  bv_omega

theorem Canonical.tail (h : Canonical (x :: xs)) : Canonical xs :=
  ⟨fun y hy => h.nonempty y (mem_cons_of_mem _ hy), (pairwise_cons.mp h.gaps).2⟩

/-- What ends before the first region, ends before them all. -/
theorem Canonical.behind (h : Canonical (x :: xs)) (hlt : r.stop < x.start) :
    ∀ y ∈ x :: xs, r.stop < y.start := by
  intro y hy
  rcases mem_cons.mp hy with rfl | hy
  · exact hlt
  · have hx : x.start < x.stop := h.nonempty x mem_cons_self
    have hgap := (pairwise_cons.mp h.gaps).1 y hy
    bv_omega

theorem Canonical.append_left (h : Canonical (done ++ xs)) : Canonical done :=
  ⟨fun x hx => h.nonempty x (List.mem_append_left _ hx), (pairwise_append.mp h.gaps).1⟩

theorem Canonical.append_right (h : Canonical (done ++ xs)) : Canonical xs :=
  ⟨fun x hx => h.nonempty x (List.mem_append_right _ hx), (pairwise_append.mp h.gaps).2.1⟩

theorem length_mergeFrom : (mergeFrom x xs).length ≤ xs.length + 1 := by
  fun_induction mergeFrom x xs with
  | case1 => exact Nat.le_refl _
  | case2 x y ys _ ih => exact Nat.le_succ_of_le ih
  | case3 x y ys _ ih => exact Nat.succ_le_succ ih

theorem length_mergeRegions : (mergeRegions xs).length ≤ xs.length := by
  cases xs with
  | nil => exact Nat.le_refl _
  | cons x xs => exact length_mergeFrom

/-- There is no room for the region: the list is full and no entry can take it. -/
structure Full (xs : List Region) (r : Region) : Prop where
  length : xs.length + 1 = maxNumResvReg
  loose : Loose xs r

/-- `l` is the list `xs` with the region `r`. -/
structure Reserves (xs : List Region) (r : Region) (l : List Region) : Prop where
  canonical : Canonical l
  covers : ∀ p, InRegions l p ↔ InRegions xs p ∨ r.Has p
  room : l.length < maxNumResvReg

/-- An entry that has grown is joined with its neighbours. -/
theorem reserves_grown (hroom : (done ++ x :: xs).length < maxNumResvReg)
    (hy : ∀ p, y.Has p ↔ x.Has p ∨ r.Has p) (h : Ascending (done ++ y :: xs)) :
    Reserves (done ++ x :: xs) r (mergeRegions (done ++ y :: xs)) := by
  obtain ⟨hcan, hcov⟩ := mergeRegions_canonical h
  refine ⟨hcan, fun p => ?_, Nat.lt_of_le_of_lt length_mergeRegions ?_⟩
  · rw [hcov, inRegions_append, inRegions_append, inRegions_cons, inRegions_cons, hy]
    tauto
  · simpa using hroom

theorem reserves_inserted (hroom : (done ++ xs).length + 1 < maxNumResvReg)
    (h : Canonical (done ++ r :: xs)) : Reserves (done ++ xs) r (done ++ r :: xs) := by
  refine ⟨h, fun p => ?_, ?_⟩
  · rw [inRegions_append, inRegions_append, inRegions_cons]
    tauto
  · simpa [Nat.add_assoc] using hroom

/-- The loop of `reserve_region`: those before the current entry end before the region. -/
theorem reserveFrom_spec (hxs : Canonical (done ++ xs)) (hr : r.Nonempty)
    (hdis : ∀ x ∈ done ++ xs, r.Disjoint x) (hbefore : ∀ x ∈ done, x.stop < r.start)
    (hroom : (done ++ xs).length < maxNumResvReg) :
    (∃ l, reserveFrom r done xs = some l ∧ Reserves (done ++ xs) r l ∧ ¬Full (done ++ xs) r) ∨
      reserveFrom r done xs = none ∧ Full (done ++ xs) r := by
  have hloose : ∀ x ∈ done, x.start ≠ r.stop ∧ x.stop ≠ r.start := by
    intro x hx
    have hlt := hbefore x hx
    have hne : x.start < x.stop := hxs.nonempty x (List.mem_append_left _ hx)
    unfold Region.Nonempty at hr
    constructor <;> bv_omega
  fun_induction reserveFrom r done xs with
  | case1 done hfull =>
    rw [append_nil]
    exact .inr ⟨rfl, hfull, hloose⟩
  | case2 done hfree =>
    rw [append_nil] at hxs hroom ⊢
    refine .inl ⟨_, rfl, ?_, fun hfull => hfree hfull.length⟩
    have hlength : (done ++ []).length + 1 < maxNumResvReg := by
      rw [append_nil]
      omega
    have h := reserves_inserted hlength (canonical_insert hxs canonical_nil hr hbefore nofun)
    rwa [append_nil] at h
  | case3 done x xs htouch =>
    have hx : x.start < x.stop := hxs.nonempty x (by simp)
    have hbehind : ∀ y ∈ xs, x.stop < y.start := (pairwise_cons.mp hxs.append_right.gaps).1
    have hxs' : Canonical xs := hxs.append_right.tail
    unfold Region.Nonempty at hr
    refine .inl ⟨_, rfl, reserves_grown hroom (fun p => ?_) ?_, fun hfull => ?_⟩
    · rw [has_join hr hx htouch.symm, or_comm]
    · refine ascending_insert hxs.append_left hxs' ?_
        (fun y hy => Nat.le_of_lt (hbefore y hy)) fun y hy => Nat.le_of_lt (hbehind y hy)
      show r.start < x.stop
      bv_omega
    · exact (hfull.loose x (by simp)).1 htouch
  | case4 done x xs hnext htouch =>
    have hx : x.start < x.stop := hxs.nonempty x (by simp)
    have hbehind : ∀ y ∈ xs, x.stop < y.start := (pairwise_cons.mp hxs.append_right.gaps).1
    have hbehind' : ∀ y ∈ xs, r.stop ≤ y.start := by
      intro y hy
      have hlt := hbehind y hy
      have hcases := (hdis y (by simp [hy])).cases hr (hxs.nonempty y (by simp [hy]))
      have hy : y.start < y.stop := hxs.nonempty y (by simp [hy])
      bv_omega
    have hxs' : Canonical xs := hxs.append_right.tail
    have hdone : ∀ y ∈ done, y.stop < x.start := fun y hy =>
      (pairwise_append.mp hxs.gaps).2.2 y hy x mem_cons_self
    unfold Region.Nonempty at hr
    refine .inl ⟨_, rfl, reserves_grown hroom (fun p => ?_) ?_, fun hfull => ?_⟩
    · exact has_join hx hr htouch
    · refine ascending_insert hxs.append_left hxs' ?_
        (fun y hy => Nat.le_of_lt (hdone y hy)) hbehind'
      show x.start < r.stop
      bv_omega
    · exact (hfull.loose x (by simp)).2 htouch
  | case5 done x xs hnext htouch hlt hfull =>
    refine .inr ⟨rfl, by omega, fun y hy => ?_⟩
    rcases mem_append.mp hy with hy | hy
    · exact hloose y hy
    have hgap := hxs.append_right.behind hlt y hy
    have hne : y.start < y.stop := hxs.append_right.nonempty y hy
    unfold Region.Nonempty at hr
    constructor <;> bv_omega
  | case6 done x xs _ _ hlt hfree =>
    refine .inl ⟨_, rfl, reserves_inserted (by omega) ?_, fun hfull => ?_⟩
    · exact canonical_insert hxs.append_left hxs.append_right hr hbefore
        (hxs.append_right.behind hlt)
    · have := hfull.length
      omega
  | case7 done x xs hnext htouch hlt ih =>
    have hx : x.start < x.stop := hxs.nonempty x (by simp)
    have hcases := (hdis x (by simp)).cases hr hx
    have hbefore' : ∀ y ∈ done ++ [x], y.stop < r.start := by
      intro y hy
      rcases mem_append.mp hy with hy | hy
      · exact hbefore y hy
      · rw [mem_singleton.mp hy]
        bv_omega
    have hlist : done ++ [x] ++ xs = done ++ x :: xs := by simp
    rw [hlist] at ih
    refine ih hxs hdis hbefore' hroom fun y hy => ?_
    rcases mem_append.mp hy with hy | hy
    · exact hloose y hy
    · rw [mem_singleton.mp hy]
      exact ⟨hnext, htouch⟩

/-! ## Sequences of calls -/

/-- The calls of `reserve_region` for the regions one after the other; the second result
is the list of those that were accepted. -/
def reserveAll (nb : NdksBoot) : List Region → Exec (NdksBoot × List Region)
  | [] => .ok (nb, [])
  | r :: rs => do
    let (nb, ok) ← reserveRegion nb r
    let (nb, accepted) ← reserveAll nb rs
    return (nb, if ok then r :: accepted else accepted)

/-- `nb.reserved` is canonical, fits the array, and holds what the regions `rs` hold. -/
structure HoldsRegions (nb : NdksBoot) (rs : List Region) : Prop where
  canonical : Canonical nb.reserved
  covers : ∀ p, InRegions nb.reserved p ↔ InRegions rs p
  room : nb.reserved.length < maxNumResvReg

/-- One call with a region that is disjoint from those before: it is accepted, or
refused for lack of room and then changes nothing. -/
theorem reserveRegion_holdsRegions (h : HoldsRegions nb rs) (hr : r.start ≤ r.stop)
    (hdis : ∀ x ∈ rs, r.Disjoint x) :
    (∃ nb', reserveRegion nb r = .ok (nb', true) ∧ HoldsRegions nb' (rs ++ [r]) ∧
        ¬(r.Nonempty ∧ Full nb.reserved r)) ∨
      reserveRegion nb r = .ok (nb, false) ∧ r.Nonempty ∧ Full nb.reserved r := by
  have hentries : ∀ x ∈ [] ++ nb.reserved, r.Disjoint x := by
    intro x hx p hp hxp
    obtain ⟨y, hy, hyp⟩ := (h.covers p).mp ⟨x, hx, hxp⟩
    exact hdis y hy p hp hyp
  unfold reserveRegion
  rw [ensure, if_pos hr]
  by_cases hempty : r.start = r.stop
  · have hnone : ¬r.Nonempty := by
      unfold Region.Nonempty
      bv_omega
    refine .inl ⟨nb, if_pos hempty, ⟨h.canonical, fun p => ?_, h.room⟩, fun hfull => hnone hfull.1⟩
    have hhas : ¬InRegions [r] p := by
      rintro ⟨x, hx, hxp⟩
      rw [mem_singleton.mp hx] at hxp
      unfold Region.Has at hxp
      bv_omega
    rw [inRegions_append, or_iff_left hhas, h.covers]
  · have hne : r.Nonempty := by
      unfold Region.Nonempty
      bv_omega
    have hcan : Canonical ([] ++ nb.reserved) := h.canonical
    rcases reserveFrom_spec hcan hne hentries (by simp) h.room with
      ⟨l, hl, hreserves, hfree⟩ | ⟨hnone, hfull⟩
    · refine .inl ⟨{ nb with reserved := l }, ?_, ⟨hreserves.canonical, fun p => ?_,
        hreserves.room⟩, fun hfull => hfree hfull.2⟩
      · rw [if_neg hempty, hl]
        rfl
      · rw [hreserves.covers, List.nil_append, h.covers, inRegions_append, inRegions_cons,
          or_iff_left not_inRegions_nil]
    · refine .inr ⟨?_, hne, hfull⟩
      rw [if_neg hempty, hnone]
      rfl

theorem Region.Disjoint.symm (h : x.Disjoint y) : y.Disjoint x := fun p hy hx => h p hx hy

/-- At some point of the sequence there is no room for the next region. -/
def Exceeds (nb : NdksBoot) (regs : List Region) : Prop :=
  ∃ pre r post nb' accepted, regs = pre ++ r :: post ∧ reserveAll nb pre = .ok (nb', accepted) ∧
    r.Nonempty ∧ Full nb'.reserved r

theorem reserveAll_cons (hcall : reserveRegion nb r = .ok (nb₁, true))
    (hrun : reserveAll nb₁ regs = .ok (nb', accepted)) :
    reserveAll nb (r :: regs) = .ok (nb', r :: accepted) := by
  simp only [reserveAll, hcall, bind, Except.bind, hrun]
  rfl

theorem Exceeds.cons (hcall : reserveRegion nb r = .ok (nb₁, true)) (h : Exceeds nb₁ regs) :
    Exceeds nb (r :: regs) := by
  obtain ⟨pre, r', post, nb', accepted, rfl, hrun, hfull⟩ := h
  exact ⟨r :: pre, r', post, nb', r :: accepted, rfl, reserveAll_cons hcall hrun, hfull⟩

theorem reserveAll_holdsRegions (h : HoldsRegions nb rs) (hle : ∀ r ∈ regs, r.start ≤ r.stop)
    (hrs : ∀ r ∈ regs, ∀ x ∈ rs, r.Disjoint x) (hdis : regs.Pairwise Region.Disjoint) :
    ∃ nb' accepted, reserveAll nb regs = .ok (nb', accepted) ∧ accepted.Sublist regs ∧
      (¬Exceeds nb regs → accepted = regs) ∧ HoldsRegions nb' (rs ++ accepted) := by
  induction regs generalizing nb rs with
  | nil => exact ⟨nb, [], rfl, .slnil, fun _ => rfl, by rwa [append_nil]⟩
  | cons r regs ih =>
    obtain ⟨hr, hdis⟩ := pairwise_cons.mp hdis
    have hle' : ∀ r ∈ regs, r.start ≤ r.stop := fun r hr => hle r (mem_cons_of_mem _ hr)
    have hrs' : ∀ r ∈ regs, ∀ x ∈ rs, r.Disjoint x := fun r hr => hrs r (mem_cons_of_mem _ hr)
    rcases reserveRegion_holdsRegions h (hle r mem_cons_self) (hrs r mem_cons_self) with
      ⟨nb₁, hcall, hholds, -⟩ | ⟨hcall, hfull⟩
    · have hnext : ∀ r' ∈ regs, ∀ x ∈ rs ++ [r], r'.Disjoint x := by
        intro r' hr' x hx
        rcases mem_append.mp hx with hx | hx
        · exact hrs' r' hr' x hx
        · rw [mem_singleton.mp hx]
          exact (hr r' hr').symm
      obtain ⟨nb', accepted, hrun, hsub, hall, hend⟩ := ih hholds hle' hnext hdis
      refine ⟨nb', r :: accepted, reserveAll_cons hcall hrun, hsub.cons_cons r, fun hex => ?_,
        by simpa using hend⟩
      rw [hall fun hex' => hex (hex'.cons hcall)]
    · obtain ⟨nb', accepted, hrun, hsub, -, hend⟩ := ih h hle' hrs' hdis
      have hexceeds : Exceeds nb (r :: regs) := ⟨[], r, regs, nb, [], rfl, rfl, hfull⟩
      refine ⟨nb', accepted, ?_, hsub.cons r, fun hex => absurd hexceeds hex, hend⟩
      simp only [reserveAll, hcall, bind, Except.bind, hrun]
      rfl

/-- Any sequence of calls with disjoint regions, and one call more. -/
theorem reserveAll_canonical {nb : NdksBoot} {regs : List Region} (hnb : nb.reserved = [])
    (hle : ∀ r ∈ regs, r.start ≤ r.stop) (hdis : regs.Pairwise Region.Disjoint) :
    ∃ nb' accepted, reserveAll nb regs = .ok (nb', accepted) ∧ accepted.Sublist regs ∧
      (¬Exceeds nb regs → accepted = regs) ∧ Canonical nb'.reserved ∧
      (∀ p, InRegions nb'.reserved p ↔ InRegions accepted p) ∧
      ∀ r : Region, r.start ≤ r.stop → (∀ x ∈ regs, r.Disjoint x) →
        (∃ nb'', reserveRegion nb' r = .ok (nb'', true) ∧
            ¬(r.Nonempty ∧ Full nb'.reserved r)) ∨
          reserveRegion nb' r = .ok (nb', false) ∧ r.Nonempty ∧ Full nb'.reserved r := by
  have hstart : HoldsRegions nb [] := by
    refine ⟨?_, fun p => ?_, ?_⟩
    · rw [hnb]
      exact canonical_nil
    · rw [hnb]
    · rw [hnb]
      decide
  obtain ⟨nb', accepted, hrun, hsub, hall, hend⟩ :=
    reserveAll_holdsRegions hstart hle (fun _ _ => nofun) hdis
  rw [List.nil_append] at hend
  refine ⟨nb', accepted, hrun, hsub, hall, hend.canonical, hend.covers, fun r hr hrdis => ?_⟩
  rcases reserveRegion_holdsRegions hend hr fun x hx => hrdis x (hsub.subset hx) with
    ⟨nb'', hcall, -, hfree⟩ | hfull
  · exact .inl ⟨nb'', hcall, hfree⟩
  · exact .inr hfull

/-- Three regions, the last of which closes the gap between the others. -/
theorem reserveAll_canonical_gap : ∃ nb accepted,
    reserveAll ⟨[], []⟩ [⟨0x3000, 0x4000⟩, ⟨0x1000, 0x2000⟩, ⟨0x2000, 0x3000⟩] =
        .ok (nb, accepted) ∧ nb.reserved = [⟨0x1000, 0x4000⟩] ∧ Canonical nb.reserved := by
  have hregs : [(⟨0x3000, 0x4000⟩ : Region), ⟨0x1000, 0x2000⟩, ⟨0x2000, 0x3000⟩].Pairwise
      Region.Disjoint := by
    unfold Region.Disjoint Region.Has
    simp only [pairwise_cons, mem_cons, List.not_mem_nil, or_false, forall_eq_or_imp, forall_eq]
    refine ⟨⟨?_, ?_⟩, ?_, nofun, .nil⟩ <;> intro p <;> bv_omega
  have hstart : (⟨[], []⟩ : NdksBoot).reserved = [] := rfl
  obtain ⟨nb, accepted, hrun, -, -, hcan, -⟩ := reserveAll_canonical hstart (by decide) hregs
  have hresult : reserveAll ⟨[], []⟩ [⟨0x3000, 0x4000⟩, ⟨0x1000, 0x2000⟩, ⟨0x2000, 0x3000⟩] =
      .ok (⟨[⟨0x1000, 0x4000⟩], []⟩, [⟨0x3000, 0x4000⟩, ⟨0x1000, 0x2000⟩, ⟨0x2000, 0x3000⟩]) := by
    rfl
  cases hrun.symm.trans hresult
  exact ⟨_, _, hrun, rfl, hcan⟩

end Rel4.Kernel
