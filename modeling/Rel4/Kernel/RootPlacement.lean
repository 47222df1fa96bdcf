import Rel4.Kernel.RootServer
import Rel4.Kernel.Reserved

/-!
Where the objects of the initial thread go (`kernel/src/boot/root_server.rs`).

`root_server_mem_init` looks for a free region from the highest entry of `freemem`
downwards. A region that is too small moves up by one entry, into the entry that is
known to be empty, and the region that is taken is cut in two. A failed search has
no result: `root_server_init` goes on and writes the first slot of the root CNode at
whatever `rootserver.cnode` holds.
-/

namespace Rel4.Kernel
open Lib.Bitfield Common CSpace
open List (append_cons mem_append mem_append_left mem_cons length_append length_singleton)

variable {e p : Word} {f itVReg : Region} {b : RootBoot} (a : Arch)

/-! ## The search -/

/-- `seL4_CapInitThreadCNode` -/
def capInitThreadCNode : Word := 2

/-- The loop of `root_server_mem_init` that skips empty regions. The index is one less than the
number here, so 0 is the index `usize::MAX` that it wraps around to. -/
def skipEmpty (freemem : List Region) : Nat → Nat
  | 0 => 0
  | i + 1 => if isRegEmpty (freemem.getD i ⟨0, 0⟩) then skipEmpty freemem i else i + 1

/-- The loop of `root_server_mem_init` over the candidates, with the index as in `skipEmpty`. -/
def placeFrom (itVReg : Region) (extraBiSizeBits : Word) (r : Rootserver) :
    Nat → List Region → Exec (List Region × Rootserver)
  | 0, freemem => .ok (freemem, r)
  | i + 1, freemem => do
    let size := calculateRootserverSize a itVReg extraBiSizeBits
    let max := rootserverMaxSizeBits extraBiSizeBits
    ensure (i < freemem.length - 1)
    ensure (isRegEmpty (freemem.getD (i + 1) ⟨0, 0⟩))
    let emptyIndex := i + 1
    let reg := freemem.getD i ⟨0, 0⟩
    let unalignedStart := reg.stop - size
    let start := Common.roundDown unalignedStart max.toNat
    if unalignedStart ≤ reg.stop ∧ start ≥ reg.start then
      let r ← createRootserverObjects a start itVReg extraBiSizeBits r
      return ((freemem.set emptyIndex ⟨start + size, reg.stop⟩).set i ⟨reg.start, start⟩, r)
    else
      placeFrom itVReg extraBiSizeBits r i ((freemem.set emptyIndex reg).set i ⟨0, 0⟩)

/-- What `root_server_init` works on. -/
structure RootBoot extends BootSlots where
  ndksBoot : NdksBoot
  rootserver : Rootserver

/-- `root_server_mem_init` -/
def rootServerMemInit (itVReg : Region) (extraBiSizeBits : Word) (b : RootBoot) :
    Exec RootBoot := do
  let freemem := b.ndksBoot.freemem
  let (freemem, r) ← placeFrom a itVReg extraBiSizeBits b.rootserver
    (skipEmpty freemem freemem.length) freemem
  return { b with ndksBoot := { b.ndksBoot with freemem := freemem }, rootserver := r }

/-- `create_root_cnode` -/
def createRootCnode (b : RootBoot) : RootBoot × CapT :=
  let cnode := b.rootserver.objects.cnode
  let cap := newCNodeCap a rootCnodeSizeBits (wordBits - rootCnodeSizeBits) 0 cnode
  ({ b with slots := writeSlot b.slots (offsetSlot cnode capInitThreadCNode) cap }, cap)

/-- `root_server_init` up to the check of the root CNode, the first object that is used. -/
def rootServerInitCnode (itVReg : Region) (extraBiSizeBits : Word) (b : RootBoot) :
    Exec (Option (RootBoot × CapT)) := do
  let b ← rootServerMemInit a itVReg extraBiSizeBits b
  let (b, rootCnodeCap) := createRootCnode a b
  if getCapType rootCnodeCap = .nullCap then return none else return some (b, rootCnodeCap)

/-! ## Regions with room -/

/-- The region has room for `size` bytes from a multiple of `2 ^ bits` on. -/
def Region.CanHold (reg : Region) (size bits : Nat) : Prop :=
  ∃ start, 2 ^ bits ∣ start ∧ reg.start.toNat ≤ start ∧ start + size ≤ reg.stop.toNat

section Room

variable {reg z : Region} {size : Word}

theorem not_canHold_of_isRegEmpty (hsize : 0 < size.toNat) (hz : isRegEmpty z = true) :
    ¬z.CanHold size.toNat bits := by
  rintro ⟨start, -, hlo, hhi⟩
  have heq : z.start = z.stop := beq_iff_eq.mp hz
  rw [heq] at hlo
  omega

/-- The highest aligned start in front of the end leaves room for the objects. -/
theorem taken_room (h : reg.stop - size ≤ reg.stop) :
    (Common.roundDown (reg.stop - size) bits).toNat + size.toNat ≤ reg.stop.toNat := by
  have hle : size.toNat ≤ reg.stop.toNat := by
    rw [BitVec.le_def, BitVec.toNat_sub] at h
    have := size.isLt
    omega
  have hdown := Nat.div_mul_le_self (reg.stop - size).toNat (2 ^ bits)
  rw [Common.toNat_roundDown]
  rw [BitVec.toNat_sub_of_le hle] at hdown ⊢
  omega

/-- The test of `root_server_mem_init` finds the regions that can hold the objects. -/
theorem taken_iff (hsize : 0 < size.toNat) :
    (reg.stop - size ≤ reg.stop ∧ Common.roundDown (reg.stop - size) bits ≥ reg.start) ↔
      reg.CanHold size.toNat bits := by
  constructor
  · rintro ⟨hle, hge⟩
    refine ⟨_, ?_, hge, taken_room hle⟩
    rw [Common.toNat_roundDown]
    exact Nat.dvd_mul_left _ _
  · rintro ⟨start, ⟨q, rfl⟩, hlo, hhi⟩
    have hle : size.toNat ≤ reg.stop.toNat := by omega
    have hsub : (reg.stop - size).toNat = reg.stop.toNat - size.toNat := BitVec.toNat_sub_of_le hle
    refine ⟨?_, ?_⟩
    · rw [BitVec.le_def, hsub]
      omega
    · have hq : q ≤ (reg.stop.toNat - size.toNat) / 2 ^ bits := by
        rw [Nat.le_div_iff_mul_le (Nat.two_pow_pos bits), Nat.mul_comm]
        omega
      rw [ge_iff_le, BitVec.le_def, Common.toNat_roundDown, hsub]
      calc reg.start.toNat ≤ 2 ^ bits * q := hlo
        _ = q * 2 ^ bits := Nat.mul_comm _ _
        _ ≤ _ := Nat.mul_le_mul_right _ hq

end Room

/-! ## What the search leaves free -/

/-- The free regions after `size` bytes at `start` have been taken from one of them. -/
structure Cut (fs fs' : List Region) (start size : Word) : Prop where
  free : ∀ p, InRegions fs' p ↔ InRegions fs p ∧ ¬(Region.mk start (start + size)).Has p
  apart : fs'.Pairwise Region.Disjoint

section Cut

variable {xs ys fs fs' : List Region} {f z : Region} {start size : Word}

theorem pairwise_disjoint_middle : (xs ++ f :: ys).Pairwise Region.Disjoint ↔
      (∀ x ∈ xs ++ ys, f.Disjoint x) ∧ (xs ++ ys).Pairwise Region.Disjoint := by
  rw [List.pairwise_middle fun h => h.symm, List.pairwise_cons]

section

variable (hz : isRegEmpty z = true)
include hz

theorem pairwise_disjoint_empty :
    (xs ++ z :: ys).Pairwise Region.Disjoint ↔ (xs ++ ys).Pairwise Region.Disjoint := by
  rw [pairwise_disjoint_middle]
  exact and_iff_right fun x _ p hp => absurd hp (not_has_of_isRegEmpty hz)

omit hz in
theorem inRegions_middle : InRegions (xs ++ f :: ys) p ↔ f.Has p ∨ InRegions (xs ++ ys) p := by
  rw [inRegions_append, inRegions_cons, inRegions_append]
  exact or_left_comm

theorem inRegions_empty : InRegions (xs ++ z :: ys) p ↔ InRegions (xs ++ ys) p := by
  rw [inRegions_middle]
  exact or_iff_right (not_has_of_isRegEmpty hz)

theorem Cut.of_moved (h : Cut (xs ++ ⟨0, 0⟩ :: f :: ys) fs' start size) :
    Cut (xs ++ f :: z :: ys) fs' start size := by
  have hnull : isRegEmpty ⟨0, 0⟩ = true := rfl
  refine ⟨fun p => ?_, h.apart⟩
  rw [h.free, inRegions_empty hnull, append_cons _ f (z :: ys), inRegions_empty hz, ← append_cons]

/-- The region that is taken is cut in two. -/
theorem cut_split (h : (xs ++ f :: z :: ys).Pairwise Region.Disjoint) (hlo : f.start ≤ start)
    (hhi : start.toNat + size.toNat ≤ f.stop.toNat) :
    Cut (xs ++ f :: z :: ys) (xs ++ ⟨f.start, start⟩ :: ⟨start + size, f.stop⟩ :: ys) start
      size := by
  have hend : (start + size).toNat = start.toNat + size.toNat := by
    rw [BitVec.toNat_add]
    exact Nat.mod_eq_of_lt (hhi.trans_lt f.stop.isLt)
  have hstart : f.start.toNat ≤ start.toNat := hlo
  rw [append_cons, pairwise_disjoint_empty hz, ← append_cons, pairwise_disjoint_middle] at h
  obtain ⟨hf, hrest⟩ := h
  have hparts : ∀ p : Word, f.Has p ↔ (Region.mk f.start start).Has p ∨
      (Region.mk start (start + size)).Has p ∨ (Region.mk (start + size) f.stop).Has p := by
    intro p
    simp only [Region.Has, BitVec.le_def, BitVec.lt_def, hend]
    omega
  have hleft : ∀ p, (Region.mk f.start start).Has p →
      ¬(Region.mk start (start + size)).Has p ∧ ¬(Region.mk (start + size) f.stop).Has p := by
    intro p
    simp only [Region.Has, BitVec.le_def, BitVec.lt_def, hend]
    omega
  have hright : ∀ p, (Region.mk (start + size) f.stop).Has p →
      ¬(Region.mk start (start + size)).Has p := by
    intro p
    simp only [Region.Has, BitVec.le_def, BitVec.lt_def, hend]
    omega
  refine ⟨fun p => ?_, ?_⟩
  · have hother : InRegions (xs ++ ys) p → ¬(Region.mk start (start + size)).Has p := by
      rintro ⟨x, hx, hp⟩ htaken
      exact hf x hx p ((hparts p).mpr (.inr (.inl htaken))) hp
    rw [inRegions_middle, inRegions_middle, append_cons _ f (z :: ys), inRegions_empty hz,
      ← append_cons, inRegions_middle, hparts]
    constructor
    · rintro (hp | hp | hp)
      · exact ⟨.inl (.inl hp), (hleft p hp).1⟩
      · exact ⟨.inl (.inr (.inr hp)), hright p hp⟩
      · exact ⟨.inr hp, hother hp⟩
    · rintro ⟨(hp | hp | hp) | hp, hfree⟩
      · exact .inl hp
      · exact absurd hp hfree
      · exact .inr (.inl hp)
      · exact .inr (.inr hp)
  · rw [pairwise_disjoint_middle, pairwise_disjoint_middle]
    refine ⟨?_, fun x hx p hp => hf x hx p ((hparts p).mpr (.inr (.inr hp))), hrest⟩
    intro x hx p hp
    rcases mem_append.mp hx with hx | hx
    · exact hf x (mem_append_left _ hx) p ((hparts p).mpr (.inl hp))
    · rcases mem_cons.mp hx with rfl | hx
      · exact (hleft p hp).2
      · exact hf x (List.mem_append_right _ hx) p ((hparts p).mpr (.inl hp))

end

end Cut

/-! ## The loops -/

section Loops

variable {a} {itVReg : Region} {e : Word} {r : Rootserver} {xs ys : List Region} {f z : Region}

/-- The room for the objects and its alignment. -/
def CanHoldObjects (a : Arch) (itVReg : Region) (e : Word) (f : Region) : Prop :=
  f.CanHold (calculateRootserverSize a itVReg e).toNat (rootserverMaxSizeBits e).toNat

/-- Where the objects go in a region that can hold them. -/
def takenStart (a : Arch) (itVReg : Region) (e : Word) (f : Region) : Word :=
  Common.roundDown (f.stop - calculateRootserverSize a itVReg e) (rootserverMaxSizeBits e).toNat

section

variable (hsize : 0 < (calculateRootserverSize a itVReg e).toNat)
include hsize

theorem takenStart_iff :
    (f.stop - calculateRootserverSize a itVReg e ≤ f.stop ∧ takenStart a itVReg e f ≥ f.start) ↔
      CanHoldObjects a itVReg e f := taken_iff hsize

omit hsize in
/-- One turn of the loop. -/
theorem placeFrom_step (hz : isRegEmpty z = true) :
    placeFrom a itVReg e r (xs.length + 1) (xs ++ f :: z :: ys) =
      if f.stop - calculateRootserverSize a itVReg e ≤ f.stop ∧
          takenStart a itVReg e f ≥ f.start then do
        let r ← createRootserverObjects a (takenStart a itVReg e f) itVReg e r
        return (xs ++ ⟨f.start, takenStart a itVReg e f⟩ ::
          ⟨takenStart a itVReg e f + calculateRootserverSize a itVReg e, f.stop⟩ :: ys, r)
      else placeFrom a itVReg e r xs.length (xs ++ ⟨0, 0⟩ :: f :: ys) := by
  have hlen : xs.length < (xs ++ f :: z :: ys).length - 1 := by simp
  have hget : (xs ++ f :: z :: ys).getD xs.length ⟨0, 0⟩ = f := by simp
  have hnext : (xs ++ f :: z :: ys).getD (xs.length + 1) ⟨0, 0⟩ = z := by simp
  have hset : ∀ x y, ((xs ++ f :: z :: ys).set (xs.length + 1) y).set xs.length x =
      xs ++ x :: y :: ys := by simp
  simp only [placeFrom, hget, hnext, ensure_of hlen, ensure_of hz, hset]
  rfl

/-- The search ends at the last candidate that can hold the objects. -/
theorem placeFrom_found (hz : isRegEmpty z = true)
    (hfree : (xs ++ z :: ys).Pairwise Region.Disjoint)
    (hfound : ∃ f ∈ xs, CanHoldObjects a itVReg e f) :
    ∃ f ∈ xs, ∃ fs', CanHoldObjects a itVReg e f ∧
      Cut (xs ++ z :: ys) fs' (takenStart a itVReg e f) (calculateRootserverSize a itVReg e) ∧
      placeFrom a itVReg e r xs.length (xs ++ z :: ys) = do
        let r ← createRootserverObjects a (takenStart a itVReg e f) itVReg e r
        return (fs', r) := by
  induction xs using List.reverseRecOn generalizing z ys with
  | nil =>
    obtain ⟨f, hf, -⟩ := hfound
    exact absurd hf List.not_mem_nil
  | append_singleton xs f ih =>
    rw [← append_cons] at hfree ⊢
    rw [length_append, length_singleton, placeFrom_step hz]
    by_cases hf : CanHoldObjects a itVReg e f
    · have htest := (takenStart_iff hsize).mpr hf
      refine ⟨f, by simp, _, hf, cut_split hz hfree htest.2 (taken_room htest.1), if_pos htest⟩
    rw [if_neg ((takenStart_iff hsize).not.mpr hf)]
    have hbefore : ∃ g ∈ xs, CanHoldObjects a itVReg e g := by
      obtain ⟨g, hg, hhold⟩ := hfound
      refine ⟨g, (mem_append.mp hg).resolve_right fun hlast => ?_, hhold⟩
      rw [List.mem_singleton.mp hlast] at hhold
      exact hf hhold
    have hmoved : (xs ++ ⟨0, 0⟩ :: f :: ys).Pairwise Region.Disjoint := by
      rw [append_cons, pairwise_disjoint_empty hz] at hfree
      rw [pairwise_disjoint_empty rfl, append_cons]
      exact hfree
    obtain ⟨g, hg, fs', hhold, hcut, hplace⟩ := ih rfl hmoved hbefore
    exact ⟨g, mem_append_left _ hg, fs', hhold, hcut.of_moved hz, hplace⟩

/-- Where no candidate can hold the objects, the search ends without them. -/
theorem placeFrom_not_found (hz : isRegEmpty z = true)
    (hnone : ∀ f ∈ xs, ¬CanHoldObjects a itVReg e f) :
    ∃ fs', placeFrom a itVReg e r xs.length (xs ++ z :: ys) = .ok (fs', r) := by
  induction xs using List.reverseRecOn generalizing z ys with
  | nil => exact ⟨_, rfl⟩
  | append_singleton xs f ih =>
    have hlast := hnone f (by simp)
    rw [← append_cons, length_append, length_singleton, placeFrom_step hz,
      if_neg ((takenStart_iff hsize).not.mpr hlast)]
    exact ih rfl fun g hg => hnone g (mem_append_left _ hg)

end

/-- The entries behind the one that the first loop stops at are empty. -/
theorem skipEmpty_spec (fs : List Region) (n : Nat) :
    skipEmpty fs n ≤ n ∧ ∀ i, skipEmpty fs n ≤ i → i < n → isRegEmpty (fs.getD i ⟨0, 0⟩) = true := by
  induction n with
  | zero => exact ⟨le_rfl, fun i _ hi => absurd hi (Nat.not_lt_zero i)⟩
  | succ n ih =>
    unfold skipEmpty
    split
    · rename_i hempty
      refine ⟨ih.1.trans (Nat.le_succ n), fun i hlo hhi => ?_⟩
      rcases Nat.lt_succ_iff_lt_or_eq.mp hhi with hlt | rfl
      · exact ih.2 i hlo hlt
      · exact hempty
    · exact ⟨le_rfl, fun i hlo hhi => absurd hhi (Nat.not_lt_of_le hlo)⟩

end Loops

/-! ## The placement -/

/-- What `root_server_init` starts from: the last entry of the free memory is empty, the entries
are apart and hold no null pointer, and no object has been allocated. The extra boot information is
absent or a page or more. -/
structure PlacementCall (itVReg : Region) (e : Word) (b : RootBoot) : Prop where
  image : UserRegion itVReg
  extra : e = 0 ∨ 12 ≤ e.toNat
  small : e.toNat < 64
  last : ∃ z, b.ndksBoot.freemem.getLast? = some z ∧ isRegEmpty z = true
  apart : b.ndksBoot.freemem.Pairwise Region.Disjoint
  notNull : ∀ f ∈ b.ndksBoot.freemem, ¬f.Has 0
  fresh : b.rootserver.objects.extraBi = 0

/-- The objects have been put into one of the free regions, which have lost what the objects take
and nothing else. -/
structure PlacedAt (itVReg : Region) (e : Word) (fs : List Region) (b : RootBoot) (start : Word) :
    Prop where
  aligned : 2 ^ (rootserverMaxSizeBits e).toNat ∣ start.toNat
  inside : ∃ f ∈ fs, f.start ≤ start ∧
    start.toNat + (calculateRootserverSize a itVReg e).toNat ≤ f.stop.toNat
  placed : Placed a start (calculateRootserverSize a itVReg e) b.rootserver.objects e.toNat
    (archGetNPaging a itVReg).toNat
  cut : Cut fs b.ndksBoot.freemem start (calculateRootserverSize a itVReg e)

/-- The root CNode is used where the objects have been placed, and boot has stopped before it only
where no free region can hold them. -/
def PlacementSound (itVReg : Region) (e : Word) (fs : List Region) :
    Exec (Option (RootBoot × CapT)) → Prop
  | .ok (some (b, _)) => ∃ start, PlacedAt a itVReg e fs b start
  | _ => ∀ f ∈ fs, ¬CanHoldObjects a itVReg e f

section Call

theorem rootServerMemInit_of_placeFrom {a : Arch} {fs' : List Region} {r' : Rootserver}
    (h : placeFrom a itVReg e b.rootserver
      (skipEmpty b.ndksBoot.freemem b.ndksBoot.freemem.length) b.ndksBoot.freemem = .ok (fs', r')) :
    rootServerMemInit a itVReg e b =
      .ok { b with ndksBoot := { b.ndksBoot with freemem := fs' }, rootserver := r' } := by
  simp only [rootServerMemInit, h, bind, Except.bind]
  rfl

variable {a} {itVReg : Region} {e : Word} {b : RootBoot} (h : PlacementCall itVReg e b)

include h

theorem PlacementCall.size_pos : 0 < (calculateRootserverSize a itVReg e).toNat := by
  have hsmall := h.small
  have htcb : 0 < 2 ^ (tcbBits a).toNat := Nat.two_pow_pos _
  rw [toNat_calculateRootserverSize a h.image (by omega)]
  unfold rootserverRoom
  omega

/-- The first loop leaves the candidates in front of an empty entry. -/
theorem PlacementCall.skipEmpty_eq : ∃ xs z ys, b.ndksBoot.freemem = xs ++ z :: ys ∧
    isRegEmpty z = true ∧ (∀ y ∈ ys, isRegEmpty y = true) ∧
    skipEmpty b.ndksBoot.freemem b.ndksBoot.freemem.length = xs.length := by
  obtain ⟨w, hw, hempty⟩ := h.last
  generalize b.ndksBoot.freemem = fs at hw ⊢
  obtain ⟨hle, hskip⟩ := skipEmpty_spec fs fs.length
  have hbehind : ∀ y ∈ fs.drop (skipEmpty fs fs.length), isRegEmpty y = true := by
    intro y hy
    obtain ⟨i, hi, rfl⟩ := List.getElem_of_mem hy
    have hlt : skipEmpty fs fs.length + i < fs.length := by
      rw [List.length_drop] at hi
      omega
    rw [List.getElem_drop, ← List.getD_eq_getElem fs ⟨0, 0⟩ hlt]
    exact hskip _ (Nat.le_add_right _ _) hlt
  have hsplit := List.take_append_drop (skipEmpty fs fs.length) fs
  have hlen : (fs.take (skipEmpty fs fs.length)).length = skipEmpty fs fs.length :=
    List.length_take_of_le hle
  cases hdrop : fs.drop (skipEmpty fs fs.length) with
  | nil =>
    -- the loop starts at the last entry, which is empty
    obtain ⟨ws, rfl⟩ := List.getLast?_eq_some_iff.mp hw
    have hlast : (ws ++ [w]).getD ws.length ⟨0, 0⟩ = w := by simp
    have hnext : skipEmpty (ws ++ [w]) (ws ++ [w]).length ≤ ws.length := by
      rw [length_append, length_singleton, skipEmpty, hlast, if_pos hempty]
      exact (skipEmpty_spec _ _).1
    have hdone := List.drop_eq_nil_iff.mp hdrop
    rw [length_append, length_singleton] at hdone hnext
    omega
  | cons z ys =>
    rw [hdrop] at hsplit hbehind
    exact ⟨_, z, ys, hsplit.symm, hbehind z List.mem_cons_self,
      fun y hy => hbehind y (List.mem_cons_of_mem z hy), hlen.symm⟩

theorem PlacementCall.fits (hf : f ∈ b.ndksBoot.freemem) (hhold : CanHoldObjects a itVReg e f) :
    Fits a (takenStart a itVReg e f) itVReg e b.rootserver := by
  have hsmall := h.small
  obtain ⟨hle, hge⟩ := (takenStart_iff h.size_pos).mpr hhold
  have hroom : (takenStart a itVReg e f).toNat + (calculateRootserverSize a itVReg e).toNat ≤
      f.stop.toNat := taken_room hle
  have hsize := h.size_pos (a := a)
  refine ⟨h.extra, h.small, ?_, fun hzero => h.notNull f hf ⟨hzero ▸ hge, ?_⟩, ?_, h.fresh⟩
  · rw [takenStart, Common.toNat_roundDown]
    exact Nat.dvd_mul_left _ _
  · rw [BitVec.lt_def]
    show 0 < f.stop.toNat
    omega
  · rw [← toNat_calculateRootserverSize a h.image (by omega)]
    exact hroom.trans_lt f.stop.isLt

theorem PlacementCall.memInit_found (hf : f ∈ b.ndksBoot.freemem)
    (hhold : CanHoldObjects a itVReg e f) :
    ∃ b' start, rootServerMemInit a itVReg e b = .ok b' ∧
      PlacedAt a itVReg e b.ndksBoot.freemem b' start := by
  obtain ⟨xs, z, ys, hfs, hz, hys, hskip⟩ := h.skipEmpty_eq
  have hxs : f ∈ xs := by
    rw [hfs] at hf
    refine (mem_append.mp hf).resolve_right fun hbehind => ?_
    have hempty : isRegEmpty f = true := by
      rcases mem_cons.mp hbehind with rfl | hmem
      · exact hz
      · exact hys f hmem
    exact not_canHold_of_isRegEmpty h.size_pos hempty hhold
  have hapart := h.apart
  rw [hfs] at hapart
  obtain ⟨g, hg, fs', hghold, hcut, hplace⟩ := placeFrom_found h.size_pos hz hapart ⟨f, hxs, hhold⟩
  have hmem : g ∈ b.ndksBoot.freemem := by
    rw [hfs]
    exact mem_append_left _ hg
  have hfits := h.fits hmem hghold
  obtain ⟨hle, hge⟩ := (takenStart_iff h.size_pos).mpr hghold
  rw [← hfs, ← hskip, hfits.create_eq] at hplace
  rw [← hfs] at hcut
  exact ⟨_, _, rootServerMemInit_of_placeFrom hplace, hfits.aligned, ⟨g, hmem, hge, taken_room hle⟩,
    hfits.placed, hcut⟩

theorem PlacementCall.memInit_not_found
    (hnone : ∀ f ∈ b.ndksBoot.freemem, ¬CanHoldObjects a itVReg e f) :
    ∃ b', rootServerMemInit a itVReg e b = .ok b' := by
  obtain ⟨xs, z, ys, hfs, hz, -, hskip⟩ := h.skipEmpty_eq
  have hxs : ∀ f ∈ xs, ¬CanHoldObjects a itVReg e f := by
    intro f hf
    apply hnone
    rw [hfs]
    exact mem_append_left _ hf
  obtain ⟨fs', hplace⟩ : ∃ fs', placeFrom a itVReg e _ _ (xs ++ z :: ys) = .ok (fs', _) :=
    placeFrom_not_found h.size_pos hz hxs
  rw [← hfs, ← hskip] at hplace
  exact ⟨_, rootServerMemInit_of_placeFrom hplace⟩

end Call

/-- The root CNode never looks as if it could not be made. -/
theorem rootServerInitCnode_of_memInit (h : rootServerMemInit a itVReg e b = .ok b') :
    rootServerInitCnode a itVReg e b = .ok (some (createRootCnode a b')) := by
  have htype : getCapType (createRootCnode a b').2 ≠ .nullCap := by
    rw [getCapType, createRootCnode, newCNodeCap, stored_build (i := 4) rfl rfl]
    decide
  simp only [rootServerInitCnode, h, bind, Except.bind, if_neg htype]
  rfl

theorem PlacementCall.not_sound (h : PlacementCall itVReg e b)
    (hnone : ∀ f ∈ b.ndksBoot.freemem, ¬CanHoldObjects a itVReg e f) :
    ¬PlacementSound a itVReg e b.ndksBoot.freemem (rootServerInitCnode a itVReg e b) := by
  intro hsound
  obtain ⟨b', hinit⟩ := h.memInit_not_found hnone
  rw [rootServerInitCnode_of_memInit a hinit] at hsound
  obtain ⟨start, hplaced⟩ := hsound
  obtain ⟨f, hf, hlo, hhi⟩ := hplaced.inside
  exact hnone f hf ⟨start.toNat, hplaced.aligned, hlo, hhi⟩

/-- The objects are placed, or the failure is reported, exactly where a free region can hold the
objects. -/
theorem rootServerInitCnode_sound_iff {itVReg : Region} {e : Word} {b : RootBoot}
    (h : PlacementCall itVReg e b) :
    PlacementSound a itVReg e b.ndksBoot.freemem (rootServerInitCnode a itVReg e b) ↔
      ∃ f ∈ b.ndksBoot.freemem, CanHoldObjects a itVReg e f := by
  constructor
  · intro hsound
    by_contra hnone
    exact h.not_sound a (fun f hf hhold => hnone ⟨f, hf, hhold⟩) hsound
  · rintro ⟨f, hf, hhold⟩
    obtain ⟨b', start, hinit, hplaced⟩ := h.memInit_found hf hhold
    rw [rootServerInitCnode_of_memInit a hinit]
    exact ⟨start, hplaced.aligned, hplaced.inside, hplaced.placed, hplaced.cut⟩

/-- Boot with one free region. -/
def bootWith (f : Region) : RootBoot where
  slotPosCur := 0
  slots := fun _ => ⟨newNullCap, defaultMdbNode⟩
  ndksBoot := ⟨[], f :: List.replicate (maxNumFreememReg - 1) ⟨0, 0⟩⟩
  rootserver := emptyRootserver

theorem bootWith_call (hf : ¬f.Has 0) : PlacementCall ⟨0x10000, 0x410000⟩ 0 (bootWith f) := by
  have hnull : ∀ x ∈ List.replicate (maxNumFreememReg - 1) (Region.mk 0 0), ∀ p, ¬x.Has p := by
    intro x hx p
    rw [List.eq_of_mem_replicate hx]
    exact not_has_of_isRegEmpty rfl
  refine ⟨⟨by decide, by decide⟩, .inl rfl, by decide, ⟨⟨0, 0⟩, rfl, rfl⟩, ?_, ?_, rfl⟩
  · refine List.pairwise_cons.mpr ⟨fun x hx p _ => hnull x hx p, List.pairwise_replicate.mpr ?_⟩
    exact .inr fun p _ => not_has_of_isRegEmpty rfl
  · intro x hx
    rcases mem_cons.mp hx with rfl | hx
    · exact hf
    · exact hnull x hx 0

/-- 64 MiB of free memory. -/
theorem rootServerInitCnode_sound_large : let b := bootWith ⟨0xFFFFFFC084000000, 0xFFFFFFC088000000⟩
    PlacementCall ⟨0x10000, 0x410000⟩ 0 b ∧
      PlacementSound .riscv64 ⟨0x10000, 0x410000⟩ 0 b.ndksBoot.freemem
        (rootServerInitCnode .riscv64 ⟨0x10000, 0x410000⟩ 0 b) := by
  intro b
  have hcall : PlacementCall ⟨0x10000, 0x410000⟩ 0 b := bootWith_call fun h => absurd h.1 (by decide)
  refine ⟨hcall, (rootServerInitCnode_sound_iff .riscv64 hcall).mpr
    ⟨_, List.mem_cons_self, (takenStart_iff hcall.size_pos).mp ?_⟩⟩
  exact ⟨by decide +kernel, by decide +kernel⟩

/-- With one free page the objects get no room, and boot writes the cap of the root CNode into slot 2
of a CNode at address 0. -/
theorem rootServerInitCnode_no_room : let b := bootWith ⟨0xFFFFFFC084000000, 0xFFFFFFC084001000⟩
    PlacementCall ⟨0x10000, 0x410000⟩ 0 b ∧
      (∀ f ∈ b.ndksBoot.freemem, ¬CanHoldObjects .riscv64 ⟨0x10000, 0x410000⟩ 0 f) ∧
      (rootServerInitCnode .riscv64 ⟨0x10000, 0x410000⟩ 0 b).satisfies (fun r => r.any fun r =>
        r.1.rootserver == emptyRootserver && getCapType (r.1.slots 0x40).cap == .cnodeCap) = true ∧
      ¬PlacementSound .riscv64 ⟨0x10000, 0x410000⟩ 0 b.ndksBoot.freemem
        (rootServerInitCnode .riscv64 ⟨0x10000, 0x410000⟩ 0 b) := by
  intro b
  have hcall : PlacementCall ⟨0x10000, 0x410000⟩ 0 b := bootWith_call fun h => absurd h.1 (by decide)
  have hnone : ∀ f ∈ b.ndksBoot.freemem, ¬CanHoldObjects .riscv64 ⟨0x10000, 0x410000⟩ 0 f := by
    intro f hf hhold
    have htest : ∀ f ∈ b.ndksBoot.freemem,
        ¬(f.stop - calculateRootserverSize .riscv64 ⟨0x10000, 0x410000⟩ 0 ≤ f.stop ∧
          takenStart .riscv64 ⟨0x10000, 0x410000⟩ 0 f ≥ f.start) := by decide +kernel
    exact htest f hf ((takenStart_iff hcall.size_pos).mpr hhold)
  exact ⟨hcall, hnone, by decide +kernel, hcall.not_sound .riscv64 hnone⟩

end Rel4.Kernel
