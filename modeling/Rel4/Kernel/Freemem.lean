import Rel4.VSpace.Paging
import Rel4.Lib.Carve

/-!
The memory that is free at boot (`kernel/src/boot/mm.rs`, `boot/utils.rs`).

`rust_init_freemem` goes through the available and the reserved regions at the
same time and puts what is left of the available ones into
`ndks_boot.freemem`. The loop is `carve` on the regions as intervals of
numbers. Nothing that is available is lost and nothing else is given away, but
the parts that are kept are apart from each other and from the reserved regions
only for lists on which one pass is enough: the order of the available regions
is not checked, and a reserved region that reaches over the start of one
available region is not cut out of the next.
-/

namespace Rel4.Kernel
open Lib.Bitfield Lib.Carve Common VSpace

variable (a : Arch)

/-! ## Regions -/

/-- `region_t`, `p_region_t` -/
structure Region where
  start : Word
  stop : Word
  deriving DecidableEq, Repr

/-- `MAX_NUM_FREEMEM_REG` -/
def maxNumFreememReg : Nat := 16

/-- `NUM_RESERVED_REGIONS` -/
def numReservedRegions : Nat := 3

/-- `MAX_NUM_RESV_REG` -/
def maxNumResvReg : Nat := maxNumFreememReg + numReservedRegions

/-- `PADDR_TOP` -/
def paddrTop : Word := pptrTop a - pptrBase a

/-- `ndks_boot`: the first `resv_count` entries of `reserved`, and `freemem`. -/
structure NdksBoot where
  reserved : List Region
  freemem : List Region
  deriving DecidableEq, Repr

/-- `is_reg_empty` -/
def isRegEmpty (reg : Region) : Bool := reg.start == reg.stop

/-- `paddr_to_pptr_reg` -/
def paddrToPptrReg (reg : Region) : Region := ⟨paddrToPptr a reg.start, paddrToPptr a reg.stop⟩

/-- `pptr_to_paddr_reg` -/
def pptrToPaddrReg (reg : Region) : Region := ⟨pptrToPaddr a reg.start, pptrToPaddr a reg.stop⟩

/-- `ceiling_kernel_window` -/
def ceilingKernelWindow (p : Word) : Word :=
  if paddrTop a < pptrToPaddr a p then pptrTop a else p

/-- What `rust_init_freemem` stores of an available region in `avail_reg`. -/
def availReg (reg : Region) : Region :=
  ⟨ceilingKernelWindow a (paddrToPptrReg a reg).start,
    ceilingKernelWindow a (paddrToPptrReg a reg).stop⟩

/-! ## The reserved regions of `ndks_boot` -/

/-- The loop of `merge_regions` at the entry `x`, which is not yet joined with the next. -/
def mergeFrom (x : Region) : List Region → List Region
  | [] => [x]
  | y :: ys => if x.stop = y.start then mergeFrom ⟨x.start, y.stop⟩ ys else x :: mergeFrom y ys

/-- `merge_regions` -/
def mergeRegions : List Region → List Region
  | [] => []
  | x :: xs => mergeFrom x xs

/-- The loop of `reserve_region`, with the entries before the current one in `done`. There is
no result where the region finds no room. -/
def reserveFrom (reg : Region) (done : List Region) : List Region → Option (List Region)
  | [] => if done.length + 1 = maxNumResvReg then none else some (done ++ [reg])
  | x :: xs =>
    if x.start = reg.stop then some (mergeRegions (done ++ ⟨reg.start, x.stop⟩ :: xs))
    else if x.stop = reg.start then some (mergeRegions (done ++ ⟨x.start, reg.stop⟩ :: xs))
    else if reg.stop < x.start then
      if maxNumResvReg ≤ (done ++ x :: xs).length + 1 then none
      else some (done ++ reg :: x :: xs)
    else reserveFrom reg (done ++ [x]) xs

/-- `reserve_region` -/
def reserveRegion (nb : NdksBoot) (reg : Region) : Exec (NdksBoot × Bool) := do
  ensure (reg.start ≤ reg.stop)
  if reg.start = reg.stop then pure (nb, true)
  else
    match reserveFrom reg [] nb.reserved with
    | some reserved => pure ({ nb with reserved := reserved }, true)
    | none => pure (nb, false)

/-! ## The free regions -/

/-- The loop of `insert_region`: the first empty entry gets the region. -/
def insertFrom (reg : Region) : List Region → Option (List Region)
  | [] => none
  | x :: xs => if isRegEmpty x then some (reg :: xs) else (insertFrom reg xs).map (x :: ·)

/-- `insert_region` -/
def insertRegion (nb : NdksBoot) (reg : Region) : Exec (NdksBoot × Bool) := do
  ensure (reg.start ≤ reg.stop)
  if isRegEmpty reg then pure (nb, true)
  else
    match insertFrom reg nb.freemem with
    | some freemem => do
      let r ← reserveRegion nb (pptrToPaddrReg a reg)
      pure ({ r.1 with freemem := freemem }, true)
    | none => .error .assertFailed

/-- `check_available_memory`: a region that begins before the end of the last one is reported
and accepted. -/
def checkAvailableMemory (available : List Region) : Bool :=
  !available.isEmpty && available.all fun r => !(r.stop < r.start) && !(r.start == r.stop)

/-- The loop of `check_reserved_memory` from the entry `i` on. The array has
`NUM_RESERVED_REGIONS` entries. -/
def checkReservedFrom : Nat → Region → List Region → Exec Bool
  | _, _, [] => pure true
  | i, last, r :: rs =>
    if numReservedRegions ≤ i then .error .outOfRange
    else if r.stop < r.start then pure false
    else if 0 < i ∧ r.start < last.stop then pure false
    else checkReservedFrom (i + 1) r rs

/-- `check_reserved_memory` -/
def checkReservedMemory (reserved : List Region) : Exec Bool :=
  checkReservedFrom 0 ⟨0, 0⟩ reserved

/-- One turn of the loop of `rust_init_freemem` over `avail_reg`, from `x` on, and `reserved`,
from `r` on. -/
def sweepStep (x : Region) (as : List Region) (r : Region) (rs : List Region) (nb : NdksBoot) :
    Exec (List Region × List Region × NdksBoot) :=
  if r.start = r.stop then pure (x :: as, rs, nb)
  else if x.stop ≤ x.start then pure (as, r :: rs, nb)
  else if r.stop ≤ x.start then do
    let res ← reserveRegion nb (pptrToPaddrReg a r)
    pure (x :: as, rs, res.1)
  else if x.stop ≤ r.start then do
    let res ← insertRegion a nb x
    pure (as, r :: rs, res.1)
  else if r.start ≤ x.start then do
    let res ← reserveRegion nb (pptrToPaddrReg a r)
    pure (⟨if x.stop < r.stop then x.stop else r.stop, x.stop⟩ :: as, rs, res.1)
  else do
    ensure (r.start < x.stop)
    let res ← insertRegion a nb ⟨x.start, r.start⟩
    if r.stop < x.stop then do
      let res ← reserveRegion res.1 (pptrToPaddrReg a r)
      pure (⟨r.stop, x.stop⟩ :: as, rs, res.1)
    else pure (as, r :: rs, res.1)

/-- The loop of `rust_init_freemem`, which ends with one of the two lists. -/
def sweep : Nat → List Region → List Region → NdksBoot →
    Exec (List Region × List Region × NdksBoot)
  | _, [], rs, nb => pure ([], rs, nb)
  | _, x :: as, [], nb => pure (x :: as, [], nb)
  | 0, _ :: _, _ :: _, _ => .error .outOfFuel
  | n + 1, x :: as, r :: rs, nb => do
    let s ← sweepStep a x as r rs nb
    sweep n s.1 s.2.1 s.2.2

/-- What is left of `reserved` after the loop. -/
def reserveRest : List Region → NdksBoot → Exec NdksBoot
  | [], nb => pure nb
  | r :: rs, nb =>
    if r.start < r.stop then do
      let res ← reserveRegion nb (pptrToPaddrReg a r)
      reserveRest rs res.1
    else reserveRest rs nb

/-- What is left of `avail_reg` after the loop. -/
def insertRest : List Region → NdksBoot → Exec NdksBoot
  | [], nb => pure nb
  | x :: as, nb =>
    if x.start < x.stop then do
      let res ← insertRegion a nb x
      insertRest as res.1
    else insertRest as nb

/-- `rust_init_freemem`, with the regions at `available` and the first `n_reserved` entries of
`reserved` as lists. -/
def rustInitFreemem (available reserved : List Region) (nb : NdksBoot) :
    Exec (NdksBoot × Bool) := do
  if !checkAvailableMemory available then pure (nb, false)
  else
    let ok ← checkReservedMemory reserved
    if !ok then pure (nb, false)
    else if maxNumFreememReg < available.length then .error .outOfRange
    else
      let nb := { nb with freemem := List.replicate maxNumFreememReg ⟨0, 0⟩ }
      let s ← sweep a (available.length + reserved.length) (available.map (availReg a)) reserved nb
      let nb ← reserveRest a s.2.1 s.2.2
      let nb ← insertRest a s.1 nb
      pure (nb, isRegEmpty (nb.freemem.getLastD ⟨0, 0⟩))

/-! ## The window -/

def Region.Has (r : Region) (x : Word) : Prop := r.start ≤ x ∧ x < r.stop

instance (r : Region) (x : Word) : Decidable (r.Has x) :=
  inferInstanceAs (Decidable (_ ∧ _))

variable {f r : Region} {n : Nat} {available reserved : List Region}
  {s : List Region × List Region × NdksBoot}

theorem pptrTop_eq : (pptrTop a).toNat = (paddrTop a).toNat + (pptrBase a).toNat := by
  cases a <;> decide

theorem toNat_ceilingKernelWindow (x : Word) : (ceilingKernelWindow a (paddrToPptr a x)).toNat =
      min x.toNat (paddrTop a).toNat + (pptrBase a).toNat := by
  have hback : pptrToPaddr a (paddrToPptr a x) = x := BitVec.add_sub_cancel x _
  have htop := pptrTop_eq a
  rw [ceilingKernelWindow, hback]
  by_cases hx : paddrTop a < x
  · rw [if_pos hx, htop, min_eq_right (Nat.le_of_lt hx)]
  · have hle : x.toNat ≤ (paddrTop a).toNat := Nat.le_of_not_lt hx
    have hlt : x.toNat + (pptrBase a).toNat < 2 ^ 64 := by
      have := (pptrTop a).isLt
      omega
    rw [if_neg hx, min_eq_left hle, paddrToPptr, BitVec.toNat_add, Nat.mod_eq_of_lt hlt]

/-! ## The regions as intervals -/

def Region.span (r : Region) : Span Nat := ⟨r.start.toNat, r.stop.toNat⟩

/-- Every number in a region is an address. -/
theorem Region.exists_of_has (h : r.span.Has p) : ∃ x : Word, x.toNat = p := by
  have hlt : p < 2 ^ 64 := h.2.trans r.stop.isLt
  exact ⟨BitVec.ofNat 64 p, Nat.mod_eq_of_lt hlt⟩

theorem Region.span_apart {r' : Region} : r.span.Apart r'.span ↔ ∀ x, r.Has x → ¬r'.Has x := by
  constructor
  · intro h x
    exact h x.toNat
  · intro h p hp hp'
    obtain ⟨x, rfl⟩ := Region.exists_of_has hp
    exact h x hp hp'

/-- The regions that pass the loop of the check after `last` stand behind it in their order. -/
theorem checkReservedFrom_ordered (hi : 0 < i) (hlast : last.start ≤ last.stop)
    (h : checkReservedFrom i last rs = .ok true) : Ordered ((last :: rs).map Region.span) := by
  induction rs generalizing i last with
  | nil => exact ⟨List.forall_mem_singleton.mpr hlast, List.pairwise_singleton _ _⟩
  | cons r rs ih =>
    rw [checkReservedFrom] at h
    split at h
    · cases h
    split at h
    · cases h
    split at h
    · cases h
    rename_i hle hstart
    have hr : r.start ≤ r.stop := Nat.le_of_not_lt hle
    have hnext : last.stop ≤ r.start := Nat.le_of_not_lt fun hlt => hstart ⟨hi, hlt⟩
    have ho := ih (Nat.succ_pos i) hr h
    refine ⟨List.forall_mem_cons.mpr ⟨hlast, ho.le⟩, List.pairwise_cons.mpr ⟨?_, ho.pairwise⟩⟩
    intro r' hr'
    rcases List.mem_cons.mp hr' with rfl | hr'
    · exact hnext
    · exact (Nat.le_trans hnext hr).trans (ho.head_le hr')

/-- The reserved regions that pass the check stand in their order. -/
theorem checkReservedMemory_ordered (h : checkReservedMemory reserved = .ok true) :
    Ordered (reserved.map Region.span) := by
  cases reserved with
  | nil => exact ⟨nofun, .nil⟩
  | cons r rs =>
    rw [checkReservedMemory, checkReservedFrom, if_neg (by decide)] at h
    split at h
    · cases h
    · rename_i hle
      rw [if_neg (fun hlt => absurd hlt.1 (Nat.lt_irrefl 0))] at h
      exact checkReservedFrom_ordered Nat.one_pos (Nat.le_of_not_lt hle) h

/-! ## The free regions -/

/-- The first entries of `freemem` are `fs` and the others are empty. -/
structure Filled (fs : List Region) (nb : NdksBoot) : Prop where
  nonempty : ∀ f ∈ fs, isRegEmpty f = false
  rest : ∃ n, nb.freemem = fs ++ List.replicate n ⟨0, 0⟩

variable {a} {nb nb' : NdksBoot} {reg : Region} {fs : List Region}

theorem reserveRegion_freemem (h : reserveRegion nb reg = .ok (nb', b)) :
    nb'.freemem = nb.freemem := by
  obtain ⟨u, -, h⟩ := bind_eq_ok.mp h
  split at h
  · cases h
    rfl
  · split at h <;> cases h <;> rfl

theorem insertFrom_filled (hfs : ∀ f ∈ fs, isRegEmpty f = false) (n : Nat) (xs : List Region)
    (h : insertFrom reg (fs ++ List.replicate n ⟨0, 0⟩) = some xs) :
    ∃ m, xs = fs ++ reg :: List.replicate m ⟨0, 0⟩ := by
  induction fs generalizing xs with
  | nil =>
    cases n with
    | zero => cases h
    | succ m =>
      cases h
      exact ⟨m, rfl⟩
  | cons f fs ih =>
    rw [List.cons_append, insertFrom, hfs f List.mem_cons_self] at h
    obtain ⟨ys, hys, rfl⟩ := Option.map_eq_some_iff.mp h
    obtain ⟨m, rfl⟩ := ih (fun f hf => hfs f (List.mem_cons_of_mem _ hf)) ys hys
    exact ⟨m, rfl⟩

/-- A region that is not empty is added to the others. -/
theorem insertRegion_filled (hf : Filled fs nb) (hne : isRegEmpty reg = false)
    (h : insertRegion a nb reg = .ok (nb', b)) : Filled (fs ++ [reg]) nb' := by
  obtain ⟨n, hfree⟩ := hf.rest
  obtain ⟨u, -, h⟩ := bind_eq_ok.mp h
  rw [hne, if_neg Bool.false_ne_true, hfree] at h
  split at h
  · rename_i xs hxs
    obtain ⟨res, -, h⟩ := bind_eq_ok.mp h
    obtain ⟨m, rfl⟩ := insertFrom_filled hf.nonempty n xs hxs
    cases h
    refine ⟨?_, m, by simp⟩
    intro f hmem
    rcases List.mem_append.mp hmem with hmem | hmem
    · exact hf.nonempty f hmem
    · rw [List.mem_singleton.mp hmem]
      exact hne
  · cases h

/-- `freemem` holds the first of the pieces `fs`, and the rest is what is still to be carved out
of the regions `as`. -/
def Carved (pieces : List (Span Nat)) (as rs : List Region) (nb : NdksBoot) : Prop :=
  ∃ fs, Filled fs nb ∧
    fs.map Region.span ++ carve (as.map Region.span) (rs.map Region.span) = pieces

variable {x r : Region} {as rs : List Region} {pieces : List (Span Nat)}

theorem Carved.reserveRegion (hc : Carved pieces as rs nb)
    (h : Kernel.reserveRegion nb reg = .ok (nb', b)) : Carved pieces as rs nb' := by
  obtain ⟨fs, hf, hp⟩ := hc
  exact ⟨fs, ⟨hf.nonempty, reserveRegion_freemem h ▸ hf.rest⟩, hp⟩

/-- The next piece is put into `freemem`. -/
theorem Carved.insertRegion (hc : Carved pieces as rs nb) (hlt : reg.start < reg.stop)
    (hnext : carve (as.map Region.span) (rs.map Region.span) =
      reg.span :: carve (as'.map Region.span) (rs'.map Region.span))
    (h : Kernel.insertRegion a nb reg = .ok (nb', b)) : Carved pieces as' rs' nb' := by
  obtain ⟨fs, hf, hp⟩ := hc
  have hne : isRegEmpty reg = false := beq_false_of_ne fun he => by
    rw [he] at hlt
    exact absurd hlt (Nat.lt_irrefl _)
  refine ⟨fs ++ [reg], insertRegion_filled hf hne h, ?_⟩
  rw [← hp, hnext]
  simp

/-- Regions that leave the same to be carved. -/
theorem Carved.of_eq (hc : Carved pieces as rs nb)
    (hnext : carve (as.map Region.span) (rs.map Region.span) =
      carve (as'.map Region.span) (rs'.map Region.span)) : Carved pieces as' rs' nb := by
  obtain ⟨fs, hf, hp⟩ := hc
  exact ⟨fs, hf, hnext ▸ hp⟩

theorem sweepStep_carved (hc : Carved pieces (x :: as) (r :: rs) nb)
    (h : sweepStep a x as r rs nb = .ok s) : Carved pieces s.1 s.2.1 s.2.2 := by
  have hcarve : carve (x.span :: as.map Region.span) (r.span :: rs.map Region.span) = _ := carve_cons
  simp only [Region.span, BitVec.toNat_inj, ← BitVec.le_def, ← BitVec.lt_def,
    ← apply_ite BitVec.toNat] at hcarve
  unfold sweepStep at h
  split at h
  · rename_i h0
    cases h
    exact hc.of_eq (hcarve.trans (if_pos h0))
  rename_i h0
  rw [if_neg h0] at hcarve
  split at h
  · rename_i h1
    cases h
    exact hc.of_eq (hcarve.trans (if_pos h1))
  rename_i h1
  rw [if_neg h1] at hcarve
  split at h
  · rename_i h2
    obtain ⟨res, hres, h⟩ := bind_eq_ok.mp h
    cases h
    exact (hc.reserveRegion hres).of_eq (hcarve.trans (if_pos h2))
  rename_i h2
  rw [if_neg h2] at hcarve
  split at h
  · rename_i h3
    obtain ⟨res, hres, h⟩ := bind_eq_ok.mp h
    cases h
    exact hc.insertRegion (Nat.lt_of_not_le h1) (hcarve.trans (if_pos h3)) hres
  rename_i h3
  rw [if_neg h3] at hcarve
  split at h
  · rename_i h4
    obtain ⟨res, hres, h⟩ := bind_eq_ok.mp h
    cases h
    exact (hc.reserveRegion hres).of_eq (hcarve.trans (if_pos h4))
  rename_i h4
  rw [if_neg h4] at hcarve
  obtain ⟨u, -, h⟩ := bind_eq_ok.mp h
  obtain ⟨res, hres, h⟩ := bind_eq_ok.mp h
  split at h
  · rename_i h5
    obtain ⟨res', hres', h⟩ := bind_eq_ok.mp h
    cases h
    have hc' : Carved pieces (⟨r.stop, x.stop⟩ :: as) rs res.1 :=
      hc.insertRegion (Nat.lt_of_not_le h4) (hcarve.trans (if_pos h5)) hres
    exact hc'.reserveRegion hres'
  · rename_i h5
    cases h
    exact hc.insertRegion (Nat.lt_of_not_le h4) (hcarve.trans (if_neg h5)) hres

/-- The loop ends with one of the lists, and then nothing is to be cut out any more. -/
theorem sweep_carved (hc : Carved pieces as rs nb) (h : sweep a n as rs nb = .ok s) :
    Carved pieces s.1 [] s.2.2 := by
  fun_induction sweep a n as rs nb with
  | case1 n rs nb =>
    cases h
    exact hc.of_eq rfl
  | case2 n nb x as =>
    cases h
    exact hc
  | case3 nb => cases h
  | case4 nb n x as r rs ih =>
    obtain ⟨s', hs', h⟩ := bind_eq_ok.mp h
    exact ih s' (sweepStep_carved hc hs') h

theorem reserveRest_carved (hc : Carved pieces as [] nb) (h : reserveRest a rs nb = .ok nb') :
    Carved pieces as [] nb' := by
  induction rs generalizing nb with
  | nil =>
    cases h
    exact hc
  | cons r rs ih =>
    rw [reserveRest] at h
    split at h
    · obtain ⟨res, hres, h⟩ := bind_eq_ok.mp h
      exact ih (hc.reserveRegion hres) h
    · exact ih hc h

theorem insertRest_carved (hc : Carved pieces as [] nb) (h : insertRest a as nb = .ok nb') :
    Carved pieces [] [] nb' := by
  induction as generalizing nb with
  | nil =>
    cases h
    exact hc
  | cons x as ih =>
    rw [insertRest] at h
    split at h
    · rename_i hlt
      obtain ⟨res, hres, h⟩ := bind_eq_ok.mp h
      refine ih (hc.insertRegion hlt ?_ hres) h
      simp only [List.map_nil, carve_nil, List.map_cons]
      exact List.filter_cons_of_pos (decide_eq_true hlt)
    · rename_i hlt
      refine ih (hc.of_eq ?_) h
      simp only [List.map_nil, carve_nil, List.map_cons]
      exact List.filter_cons_of_neg (fun hp => hlt (of_decide_eq_true hp))

/-! The loop never runs out of turns: each of them is through with one of the regions. -/

/-- The computation ends before its fuel does, and with a value for which `p` holds. -/
def InTime {α : Type} (p : α → Prop) : Exec α → Prop
  | .ok v => p v
  | .error e => e ≠ .outOfFuel

theorem InTime.bind {α β : Type} {p : α → Prop} {q : β → Prop} {c : Exec α} {f : α → Exec β}
    (hc : InTime p c) (hf : ∀ v, p v → InTime q (f v)) : InTime q (c >>= f) := by
  cases c with
  | ok v => exact hf v hc
  | error e => exact hc

theorem inTime_ensure (p : Prop) [Decidable p] : InTime (fun _ => True) (ensure p) := by
  unfold ensure
  split
  · trivial
  · exact nofun

theorem inTime_reserveRegion : InTime (fun _ => True) (reserveRegion nb reg) := by
  refine (inTime_ensure _).bind fun _ _ => ?_
  split
  · trivial
  · split <;> trivial

theorem inTime_insertRegion : InTime (fun _ => True) (insertRegion a nb reg) := by
  refine (inTime_ensure _).bind fun _ _ => ?_
  split
  · trivial
  · split
    · exact inTime_reserveRegion.bind fun _ _ => trivial
    · exact nofun

theorem inTime_sweepStep :
    InTime (fun s => s.1.length + s.2.1.length + 1 = (x :: as).length + (r :: rs).length)
      (sweepStep a x as r rs nb) := by
  have hright : (x :: as).length + rs.length + 1 = (x :: as).length + (r :: rs).length := rfl
  have hleft : as.length + (r :: rs).length + 1 = (x :: as).length + (r :: rs).length := by
    simp only [List.length_cons]
    omega
  unfold sweepStep
  split
  · exact hright
  split
  · exact hleft
  split
  · exact inTime_reserveRegion.bind fun _ _ => hright
  split
  · exact inTime_insertRegion.bind fun _ _ => hleft
  split
  · exact inTime_reserveRegion.bind fun _ _ => hright
  refine (inTime_ensure _).bind fun _ _ => inTime_insertRegion.bind fun _ _ => ?_
  split
  · exact inTime_reserveRegion.bind fun _ _ => hright
  · exact hleft

theorem inTime_sweep (hn : as.length + rs.length ≤ n) :
    InTime (fun _ => True) (sweep a n as rs nb) := by
  fun_induction sweep a n as rs nb with
  | case1 n rs nb => trivial
  | case2 n nb x as => trivial
  | case3 nb x as r rs =>
    simp only [List.length_cons] at hn
    omega
  | case4 nb n x as r rs ih =>
    refine inTime_sweepStep.bind fun s hs => ih s ?_
    omega

theorem inTime_reserveRest : InTime (fun _ => True) (reserveRest a rs nb) := by
  induction rs generalizing nb with
  | nil => trivial
  | cons r rs ih =>
    rw [reserveRest]
    split
    · exact inTime_reserveRegion.bind fun _ _ => ih
    · exact ih

theorem inTime_insertRest : InTime (fun _ => True) (insertRest a as nb) := by
  induction as generalizing nb with
  | nil => trivial
  | cons x as ih =>
    rw [insertRest]
    split
    · exact inTime_insertRegion.bind fun _ _ => ih
    · exact ih

theorem inTime_checkReservedFrom : InTime (fun _ => True) (checkReservedFrom i last rs) := by
  induction rs generalizing i last with
  | nil => trivial
  | cons r rs ih =>
    rw [checkReservedFrom]
    split
    · exact nofun
    split
    · trivial
    split
    · trivial
    · exact ih

theorem rustInitFreemem_ne_outOfFuel :
    rustInitFreemem a available reserved nb ≠ .error .outOfFuel := by
  suffices h : InTime (fun _ => True) (rustInitFreemem a available reserved nb) by
    intro he
    rw [he] at h
    exact h rfl
  unfold rustInitFreemem
  split
  · trivial
  refine inTime_checkReservedFrom.bind fun _ _ => ?_
  split
  · trivial
  split
  · exact nofun
  refine (inTime_sweep ?_).bind fun _ _ => inTime_reserveRest.bind fun _ _ =>
    inTime_insertRest.bind fun _ _ => trivial
  rw [List.length_map]

/-! ## What is free -/

/-- What is left of the available regions without the reserved ones. -/
def freePieces (a : Arch) (available reserved : List Region) : List (Span Nat) :=
  carve ((available.map (availReg a)).map Region.span) (reserved.map Region.span)

/-- After a success the entries that are not empty are the pieces. -/
theorem rustInitFreemem_carved (h : rustInitFreemem a available reserved nb = .ok (nb', true)) :
    Ordered (reserved.map Region.span) ∧
      ∃ fs, Filled fs nb' ∧ fs.map Region.span = freePieces a available reserved := by
  unfold rustInitFreemem at h
  split at h
  · cases h
  obtain ⟨ok, hok, h⟩ := bind_eq_ok.mp h
  split at h
  · cases h
  rename_i hnot
  obtain rfl : ok = true := by simpa using hnot
  split at h
  · cases h
  obtain ⟨s, hs, h⟩ := bind_eq_ok.mp h
  obtain ⟨nb₁, h₁, h⟩ := bind_eq_ok.mp h
  obtain ⟨nb₂, h₂, h⟩ := bind_eq_ok.mp h
  obtain ⟨rfl, -⟩ := Prod.mk.inj (pure_eq_ok.mp h)
  have hinit : Carved (freePieces a available reserved) (available.map (availReg a)) reserved
      { nb with freemem := List.replicate maxNumFreememReg ⟨0, 0⟩ } :=
    ⟨[], ⟨nofun, maxNumFreememReg, rfl⟩, rfl⟩
  obtain ⟨fs, hf, hfs⟩ := insertRest_carved (reserveRest_carved (sweep_carved hinit hs) h₁) h₂
  refine ⟨checkReservedMemory_ordered hok, fs, hf, ?_⟩
  rw [← hfs]
  exact (List.append_nil _).symm

/-- Memory is given away once: the regions in `freemem` are apart, they come from the available
regions, they keep clear of the reserved ones, and nothing that is available is lost. -/
structure FreememOk (a : Arch) (available reserved : List Region) (nb : NdksBoot) : Prop where
  apart : (nb.freemem.filter fun f => !isRegEmpty f).Pairwise fun f g => ∀ x, f.Has x → ¬g.Has x
  inside : ∀ f ∈ nb.freemem, isRegEmpty f = false →
    ∃ r ∈ available, ∀ x, f.Has x → (availReg a r).Has x
  unreserved : ∀ f ∈ nb.freemem, ∀ r ∈ reserved, ∀ x, f.Has x → ¬r.Has x
  covers : ∀ r ∈ available, ∀ x, (availReg a r).Has x →
    (∃ f ∈ nb.freemem, f.Has x) ∨ ∃ r ∈ reserved, r.Has x

/-- One pass is enough for these lists. -/
def OnePass (a : Arch) (available reserved : List Region) : Prop :=
  Clean ((available.map (availReg a)).map Region.span) (reserved.map Region.span)

theorem not_has_of_isRegEmpty {x : Word} (h : isRegEmpty reg = true) : ¬reg.Has x := by
  rintro ⟨hlo, hhi⟩
  rw [of_decide_eq_true h] at hlo
  exact absurd hhi (Nat.not_lt.mpr hlo)

namespace Filled

variable (hf : Filled fs nb)

include hf

theorem filter_eq : (nb.freemem.filter fun f => !isRegEmpty f) = fs := by
  obtain ⟨n, hn⟩ := hf.rest
  have hfs : (fs.filter fun f => !isRegEmpty f) = fs :=
    List.filter_eq_self.mpr fun f hmem => by simp [hf.nonempty f hmem]
  have hrest : ((List.replicate n (⟨0, 0⟩ : Region)).filter fun f => !isRegEmpty f) = [] := by
    simp [isRegEmpty]
  rw [hn, List.filter_append, hfs, hrest, List.append_nil]

theorem mem_iff : f ∈ fs ↔ f ∈ nb.freemem ∧ isRegEmpty f = false := by
  rw [← hf.filter_eq, List.mem_filter, Bool.not_eq_eq_eq_not, Bool.not_true]

theorem mem_of_has {x : Word} (hmem : f ∈ nb.freemem) (hx : f.Has x) : f ∈ fs :=
  hf.mem_iff.mpr ⟨hmem, by
    cases he : isRegEmpty f
    · rfl
    · exact absurd hx (not_has_of_isRegEmpty he)⟩

theorem unreserved_iff : (∀ f ∈ nb.freemem, ∀ r ∈ rs, ∀ x, f.Has x → ¬r.Has x) ↔
      ∀ f ∈ fs.map Region.span, ∀ r ∈ rs.map Region.span, f.Apart r := by
  simp only [List.forall_mem_map, Region.span_apart]
  constructor
  · intro h f hmem
    exact h f (hf.mem_iff.mp hmem).1
  · intro h f hmem r hr x hx
    exact h f (hf.mem_of_has hmem hx) r hr x hx

end Filled

section

variable (ho : Ordered (reserved.map Region.span)) (hf : Filled fs nb)
  (hfs : fs.map Region.span = freePieces a available reserved)
include ho hf hfs

/-- The free regions always come from the available ones. -/
theorem freemem_inside (hmem : f ∈ nb.freemem) (hne : isRegEmpty f = false) :
    ∃ r ∈ available, ∀ x, f.Has x → (availReg a r).Has x := by
  have hp : f.span ∈ freePieces a available reserved :=
    hfs ▸ List.mem_map_of_mem (hf.mem_iff.mpr ⟨hmem, hne⟩)
  obtain ⟨i, hi, hin⟩ := carve_within ho hp
  rw [List.map_map] at hi
  obtain ⟨r, hr, rfl⟩ := List.mem_map.mp hi
  exact ⟨r, hr, fun x hx => hin x.toNat hx⟩

/-- Whatever is available and not reserved is free. -/
theorem freemem_covers {x : Word} (hr : r ∈ available) (hx : (availReg a r).Has x) :
    (∃ f ∈ nb.freemem, f.Has x) ∨ ∃ r ∈ reserved, r.Has x := by
  by_cases hres : ∃ r ∈ reserved, r.Has x
  · exact .inr hres
  have hi : (availReg a r).span ∈ (available.map (availReg a)).map Region.span :=
    List.mem_map_of_mem (List.mem_map_of_mem hr)
  have hout : ∀ r' ∈ reserved.map Region.span, ¬r'.Has x.toNat :=
    List.forall_mem_map.mpr fun r' hr' hx' => hres ⟨r', hr', hx'⟩
  obtain ⟨i, hpiece, hix⟩ := carve_covers ho hi hx hout
  rw [← freePieces, ← hfs] at hpiece
  obtain ⟨f, hmem, rfl⟩ := List.mem_map.mp hpiece
  exact .inl ⟨f, (hf.mem_iff.mp hmem).1, hix⟩

end

/-- Memory is given away once exactly where one pass over the lists is enough. -/
theorem rustInitFreemem_ok_iff (a : Arch) (available reserved : List Region) (nb nb' : NdksBoot)
    (h : rustInitFreemem a available reserved nb = .ok (nb', true)) :
    FreememOk a available reserved nb' ↔ OnePass a available reserved := by
  obtain ⟨ho, fs, hf, hfs⟩ := rustInitFreemem_carved h
  rw [OnePass, ← carve_exact_iff ho, ← freePieces, ← hfs, List.pairwise_map, ← hf.unreserved_iff]
  simp only [Region.span_apart]
  rw [← hf.filter_eq]
  constructor
  · intro hok
    exact ⟨hok.apart, hok.unreserved⟩
  · rintro ⟨hapart, hres⟩
    exact ⟨hapart, fun f => freemem_inside ho hf hfs, hres, fun r hr x => freemem_covers ho hf hfs hr⟩

/-- Available regions in their order, where no reserved region reaches from one to the next. -/
theorem onePass_of_ordered (h : available.Pairwise fun x y => x.stop ≤ y.start ∧
      ∀ r ∈ reserved, r.stop ≤ (availReg a y).start ∨ (availReg a x).stop ≤ r.start) :
    OnePass a available reserved := by
  refine Clean.of_ordered ?_
  rw [List.map_map, List.pairwise_map]
  refine h.imp fun {x y} hxy => ⟨?_, List.forall_mem_map.mpr hxy.2⟩
  have hle : x.stop.toNat ≤ y.start.toNat := hxy.1
  show (ceilingKernelWindow a (paddrToPptr a x.stop)).toNat ≤
    (ceilingKernelWindow a (paddrToPptr a y.start)).toNat
  rw [toNat_ceilingKernelWindow, toNat_ceilingKernelWindow]
  omega

/-- `ndks_boot` before the boot. -/
def emptyBoot : NdksBoot := ⟨[], List.replicate maxNumFreememReg ⟨0, 0⟩⟩

/-- A reserved region in the middle of an available one is left out. -/
theorem rustInitFreemem_ok_middle :
    ∃ nb', rustInitFreemem .riscv64 [⟨0x80000000, 0x80003000⟩, ⟨0x80005000, 0x80008000⟩]
        [⟨0xFFFFFFC080001000, 0xFFFFFFC080002000⟩] emptyBoot = .ok (nb', true) ∧
      FreememOk .riscv64 [⟨0x80000000, 0x80003000⟩, ⟨0x80005000, 0x80008000⟩]
        [⟨0xFFFFFFC080001000, 0xFFFFFFC080002000⟩] nb' :=
  ⟨_, rfl, (rustInitFreemem_ok_iff .riscv64 _ _ emptyBoot _ rfl).mpr
    (onePass_of_ordered (by decide))⟩

/-- Two available regions that overlap are accepted, and their common memory is free twice. Of two
that touch, the second is free as a whole although a reserved region reaches into it from the
first. -/
theorem freemem_given_twice :
    (∃ nb', rustInitFreemem .riscv64 [⟨0x80000000, 0x80003000⟩, ⟨0x80001000, 0x80004000⟩] []
        emptyBoot = .ok (nb', true) ∧
      ¬FreememOk .riscv64 [⟨0x80000000, 0x80003000⟩, ⟨0x80001000, 0x80004000⟩] [] nb') ∧
    ∃ nb', rustInitFreemem .riscv64 [⟨0x80000000, 0x80003000⟩, ⟨0x80003000, 0x80006000⟩]
        [⟨0xFFFFFFC080000000, 0xFFFFFFC080004000⟩] emptyBoot = .ok (nb', true) ∧
      ¬FreememOk .riscv64 [⟨0x80000000, 0x80003000⟩, ⟨0x80003000, 0x80006000⟩]
        [⟨0xFFFFFFC080000000, 0xFFFFFFC080004000⟩] nb' := by
  refine ⟨⟨⟨_, _⟩, rfl, fun h => ?_⟩, ⟨⟨_, _⟩, rfl, fun h => ?_⟩⟩
  · have hpair : List.Pairwise (fun f g => ∀ x, Region.Has f x → ¬Region.Has g x)
        [⟨0xFFFFFFC080000000, 0xFFFFFFC080003000⟩, ⟨0xFFFFFFC080001000, 0xFFFFFFC080004000⟩] :=
      h.apart
    exact (List.pairwise_cons.mp hpair).1 _ (List.mem_singleton_self _) 0xFFFFFFC080001000
      (by decide) (by decide)
  · exact h.unreserved ⟨0xFFFFFFC080003000, 0xFFFFFFC080006000⟩ List.mem_cons_self
      ⟨0xFFFFFFC080000000, 0xFFFFFFC080004000⟩ List.mem_cons_self 0xFFFFFFC080003000
      (by decide) (by decide)

end Rel4.Kernel
