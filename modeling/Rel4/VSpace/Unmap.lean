import Rel4.VSpace.Asid

/-!
Unmapping a page table.

`WalksBy` is the walk of an address through the tables of an address space,
with the test for the entries that lead on as a parameter: the hardware goes on
at entries that point to a table, and so should `unmap_page_table`. `MappedBy`
says which entry leads such a walk to a table, and `Unmapped` what must have
become of that entry, and of all others, when the table is unmapped.
-/

namespace Rel4.VSpace
open Lib.Bitfield Common Rel4.Task Function

variable {pt q r slot : Word} {left n : Nat} {s : KernelState}
  (a : Arch)

/-! ## Walks -/

/-- From `root` the walk of `vptr` comes to the table `pt` of level `n`. -/
inductive WalksBy (d : Word → Bool) (m : Word → Word) (vptr root : Word) : Nat → Word → Prop where
  | root : WalksBy d m vptr root 0 root
  | step {n : Nat} {pt : Word} (walk : WalksBy d m vptr root n pt) (level : n + 1 < ptLevels a)
      (leads : d (m (ptSlot a pt vptr n)) = true) :
      WalksBy d m vptr root (n + 1) (nextTable a (m (ptSlot a pt vptr n)))

/-- The walk of `vptr` comes to the table `pt` for the first time through the
entry `slot`. -/
def MappedBy (d : Word → Bool) (m : Word → Word) (root vptr pt slot : Word) : Prop :=
  ∃ n q, WalksBy a d m vptr root n q ∧ n + 1 < ptLevels a ∧ slot = ptSlot a q vptr n ∧
    d (m slot) = true ∧ nextTable a (m slot) = pt ∧
    ∀ k r, k ≤ n → WalksBy a d m vptr root k r → r ≠ pt

/-- The table `pt` is mapped at `vptr` by the entry `slot`. -/
def MappedAt (m : Word → Word) (root vptr pt slot : Word) : Prop :=
  MappedBy a (isPteTable a) m root vptr pt slot

/-- What unmapping the table `pt` at `vptr` has to do to the memory. -/
structure Unmapped (m m' : Word → Word) (root vptr pt : Word) : Prop where
  clears : ∀ slot, MappedAt a m root vptr pt slot → m' slot = 0
  others : ∀ slot, MappedAt a m root vptr pt slot → ∀ x, x ≠ slot → m' x = m x
  unreachable : ∀ slot, MappedAt a m root vptr pt slot →
    (∀ x, isPteTable a (m x) = true → nextTable a (m x) = pt → x = slot) →
    ∀ vptr' n, ¬WalksBy a (isPteTable a) m' vptr' root n pt
  keeps : (∀ slot, ¬MappedAt a m root vptr pt slot) → m' = m

variable {a} {d : Word → Bool} {m : Word → Word} {vptr root target : Word}

theorem WalksBy.unique (hq : WalksBy a d m vptr root n q) (hr : WalksBy a d m vptr root n r) :
    q = r := by
  induction hq generalizing r with
  | root =>
    cases hr
    rfl
  | step _ _ _ ih =>
    cases hr with
    | step walk _ _ => rw [ih walk]

/-- A walk to level `n` passed through every level above. -/
theorem WalksBy.step_of_lt (hq : WalksBy a d m vptr root n q) (hr : WalksBy a d m vptr root k r)
    (hk : k < n) : d (m (ptSlot a r vptr k)) = true := by
  induction hq with
  | root => omega
  | @step n pt walk _ leads ih =>
    rcases Nat.lt_succ_iff_lt_or_eq.mp hk with hlt | rfl
    · exact ih hlt
    · rw [hr.unique walk]
      exact leads

/-- The walk ends at an entry of a table that it comes to. -/
theorem walkFrom_walks (left : Nat) :
    ∀ {n pt}, WalksBy a (isPteTable a) m vptr root n pt → n + left + 1 = ptLevels a →
      ∃ q, WalksBy a (isPteTable a) m vptr root (walkFrom a m vptr left n pt).2 q ∧
        (walkFrom a m vptr left n pt).1 = ptSlot a q vptr (walkFrom a m vptr left n pt).2 := by
  induction left with
  | zero =>
    intro n pt hwalk _
    exact ⟨pt, hwalk, rfl⟩
  | succ left ih =>
    intro n pt hwalk hlevel
    by_cases ht : isPteTable a (m (ptSlot a pt vptr n)) = true
    · simp only [walkFrom, if_pos ht]
      exact ih (.step hwalk (by omega) ht) (by omega)
    · simp only [walkFrom, if_neg ht]
      exact ⟨pt, hwalk, rfl⟩

theorem walkEnd_walks (m : Word → Word) (vptr root : Word) :
    ∃ q, WalksBy a (isPteTable a) m vptr root (walkEnd a m root vptr).2 q ∧
      (walkEnd a m root vptr).1 = ptSlot a q vptr (walkEnd a m root vptr).2 :=
  walkFrom_walks (ptLevels a - 1) .root (by cases a <;> rfl)

theorem le_walkFrom_level (left : Nat) :
    ∀ {n pt}, n ≤ (walkFrom a m vptr left n pt).2 := by
  induction left with
  | zero => exact fun {n} _ => Nat.le_refl n
  | succ left ih =>
    intro n pt
    simp only [walkFrom]
    split
    · exact Nat.le_of_succ_le ih
    · exact Nat.le_refl n

/-- Two addresses with the same indices down to the level where the walk ends are
walked alike. -/
theorem walkFrom_congr (left : Nat) :
    ∀ {n pt}, (∀ k, k ≤ (walkFrom a m vptr left n pt).2 → ptIndex a w k = ptIndex a vptr k) →
      walkFrom a m w left n pt = walkFrom a m vptr left n pt := by
  induction left with
  | zero =>
    intro n pt h
    have hslot : ptSlot a pt w n = ptSlot a pt vptr n := by
      rw [ptSlot, ptSlot, h n (Nat.le_refl n)]
    rw [walkFrom, walkFrom, hslot]
  | succ left ih =>
    intro n pt h
    have hslot : ptSlot a pt w n = ptSlot a pt vptr n := by
      rw [ptSlot, ptSlot, h n (le_walkFrom_level (left + 1))]
    rw [walkFrom] at h
    rw [walkFrom, walkFrom]
    simp only [hslot] at h ⊢
    split at h
    next ht =>
      rw [if_pos ht, if_pos ht]
      exact ih h
    next ht => rw [if_neg ht, if_neg ht]

theorem WalksBy.level_lt (hq : WalksBy a d m vptr root n q) : n < ptLevels a := by
  cases hq with
  | root => cases a <;> decide
  | step _ level _ => exact level

/-! ## The loop finds the entry -/

/-- The loop can read the entry, and go on from it: riscv64 not to the null pointer. -/
structure PointerOk (a : Arch) (d : Word → Bool) (m : Word → Word) (slot : Word) : Prop where
  window : pptrBase a ≤ slot
  next : a = .riscv64 → d (m slot) = true → nextTable a (m slot) ≠ 0

/-- All pointers that the loop follows before it comes to `target` are the kernel's. -/
def PointersOk (a : Arch) (d : Word → Bool) (m : Word → Word) (root vptr target : Word) : Prop :=
  ∀ n q, WalksBy a d m vptr root n q → n + 1 < ptLevels a →
    (∀ k r, k ≤ n → WalksBy a d m vptr root k r → r ≠ target) →
    PointerOk a d m (ptSlot a q vptr n)

/-- The tables above level `n + 1` are other than the target if the one of level `n` is and those
above it are. -/
theorem WalksBy.early_succ (hw : WalksBy a d m vptr root n pt) (hne : pt ≠ target)
    (hearly : ∀ k r, k < n → WalksBy a d m vptr root k r → r ≠ target) :
    ∀ k r, k ≤ n → WalksBy a d m vptr root k r → r ≠ target := by
  intro k r hk hr
  rcases Nat.lt_or_eq_of_le hk with hlt | rfl
  · exact hearly k r hlt hr
  · rw [hr.unique hw]
    exact hne

/-- Where all its pointers are right the loop returns. -/
theorem PointersOk.findParent_ok (h : PointersOk a d m root vptr target)
    (hleft : left + n + 1 = ptLevels a) (hw : WalksBy a d m vptr root n pt)
    (hearly : ∀ k r, k < n → WalksBy a d m vptr root k r → r ≠ target) :
    ∃ found, findParent a d m vptr target left n pt slot₀ = .ok found := by
  induction left generalizing n pt slot₀ with
  | zero => exact ⟨_, rfl⟩
  | succ left ih =>
    rw [findParent]
    split
    · exact ⟨_, rfl⟩
    next hne =>
      have hearly' := hw.early_succ hne hearly
      have hok := h n pt hw (by omega) hearly'
      simp only [readPte_eq_ok.mpr ⟨rfl, hok.window⟩, bind, Except.bind]
      split
      next hd =>
        simp only [followPte_eq_ok.mpr ⟨rfl, fun ha => hok.next ha hd⟩]
        exact ih (by omega) (hw.step (by omega) hd) fun k r hk hr => hearly' k r (by omega) hr
      next => exact ⟨_, rfl⟩

/-- What the loop has read where it returns. -/
theorem findParent_cases {found : Option Word} (h : findParent a d m vptr target (left + 1) n pt slot₀ = .ok found) :
    pt = target ∧ found = some slot₀ ∨
    pt ≠ target ∧ pptrBase a ≤ ptSlot a pt vptr n ∧
      ((d (m (ptSlot a pt vptr n)) = false ∧ found = none) ∨
        d (m (ptSlot a pt vptr n)) = true ∧
          (a = .riscv64 → nextTable a (m (ptSlot a pt vptr n)) ≠ 0) ∧
          findParent a d m vptr target left (n + 1) (nextTable a (m (ptSlot a pt vptr n)))
            (ptSlot a pt vptr n) = .ok found) := by
  rw [findParent] at h
  split at h
  next he =>
    cases h
    exact .inl ⟨he, rfl⟩
  next hne =>
    obtain ⟨pte, hpte, h⟩ := bind_eq_ok.mp h
    obtain ⟨rfl, hslot⟩ := readPte_eq_ok.mp hpte
    refine .inr ⟨hne, hslot, ?_⟩
    split at h
    next hd =>
      obtain ⟨next, hnext, h⟩ := bind_eq_ok.mp h
      obtain ⟨rfl, hnull⟩ := followPte_eq_ok.mp hnext
      exact .inr ⟨hd, hnull, h⟩
    next hd => exact .inl ⟨by simpa using hd, (pure_eq_ok.mp h).symm⟩

theorem pointersOk_of_findParent {found : Option Word} (hw : WalksBy a d m vptr root n pt)
    (hleft : left + n + 1 = ptLevels a)
    (h : findParent a d m vptr target left n pt slot₀ = .ok found) (N : Nat) (q : Word)
    (hq : WalksBy a d m vptr root N q) (hn : n ≤ N) (hN : N + 1 < ptLevels a)
    (hearly : ∀ k r, k ≤ N → WalksBy a d m vptr root k r → r ≠ target) :
    PointerOk a d m (ptSlot a q vptr N) := by
  induction left generalizing n pt slot₀ with
  | zero => omega
  | succ left ih =>
    rcases findParent_cases h with ⟨he, -⟩ | ⟨-, hslot, hnext⟩
    · exact absurd he (hearly n pt hn hw)
    rcases Nat.lt_or_eq_of_le hn with hlt | rfl
    · have hstep := hq.step_of_lt hw hlt
      rcases hnext with ⟨hd, -⟩ | ⟨-, -, h⟩
      · rw [hstep] at hd
        cases hd
      · exact ih (hw.step (by omega) hstep) (by omega) h hlt
    · obtain rfl := hq.unique hw
      refine ⟨hslot, fun ha hd => ?_⟩
      rcases hnext with ⟨hd', -⟩ | ⟨-, hnull, -⟩
      · rw [hd] at hd'
        cases hd'
      · exact hnull ha

theorem mappedBy_of_findParent (hleft : left + n + 1 = ptLevels a)
    (hw : WalksBy a d m vptr root n pt)
    (hearly : ∀ k r, k < n → WalksBy a d m vptr root k r → r ≠ target)
    (hslot : pt = target → MappedBy a d m root vptr target slot₀)
    (h : findParent a d m vptr target left n pt slot₀ = .ok (some slot)) :
    MappedBy a d m root vptr target slot := by
  induction left generalizing n pt slot₀ with
  | zero =>
    rw [findParent, Except.ok.injEq] at h
    split at h
    · cases h
      exact hslot ‹_›
    · cases h
  | succ left ih =>
    rcases findParent_cases h with ⟨he, hr⟩ | ⟨hne, -, ⟨-, hr⟩ | ⟨hd, -, h⟩⟩
    · cases hr
      exact hslot he
    · cases hr
    · have hearly' := hw.early_succ hne hearly
      refine ih (by omega) (hw.step (by omega) hd)
        (fun k r hk hr => hearly' k r (by omega) hr) (fun e => ?_) h
      exact ⟨n, pt, hw, by omega, rfl, hd, e, hearly'⟩

theorem findParent_of_walksBy {found : Option Word} (hq : WalksBy a d m vptr root N q) (hN : N + 1 < ptLevels a)
    (hd : d (m (ptSlot a q vptr N)) = true) (hnext : nextTable a (m (ptSlot a q vptr N)) = target)
    (hearly : ∀ k r, k ≤ N → WalksBy a d m vptr root k r → r ≠ target)
    (hleft : left + n + 1 = ptLevels a) (hn : n ≤ N) (hw : WalksBy a d m vptr root n pt)
    (h : findParent a d m vptr target left n pt slot₀ = .ok found) :
    found = some (ptSlot a q vptr N) := by
  induction left generalizing n pt slot₀ with
  | zero => omega
  | succ left ih =>
    have hstep : d (m (ptSlot a pt vptr n)) = true := by
      rcases Nat.lt_or_eq_of_le hn with hlt | rfl
      · exact hq.step_of_lt hw hlt
      · rwa [hw.unique hq]
    rcases findParent_cases h with ⟨he, -⟩ | ⟨-, -, ⟨hd', -⟩ | ⟨-, -, h⟩⟩
    · exact absurd he (hearly n pt hn hw)
    · rw [hstep] at hd'
      cases hd'
    · rcases Nat.lt_or_eq_of_le hn with hlt | rfl
      · exact ih (by omega) hlt (hw.step (by omega) hstep) h
      · obtain rfl := hq.unique hw
        rw [hnext] at h
        cases left with
        | zero =>
          rw [findParent, if_pos rfl] at h
          exact (Except.ok.inj h).symm
        | succ left =>
          rw [findParent, if_pos rfl] at h
          exact (Except.ok.inj h).symm

theorem levels_left (a : Arch) : ptLevels a - 1 + 0 + 1 = ptLevels a := by
  cases a <;> rfl

/-- The loop returns just where all its pointers are right. -/
theorem findParent_ok_iff (first : Word) :
    (∃ found, findParent a d m vptr target (ptLevels a - 1) 0 root first = .ok found) ↔
      PointersOk a d m root vptr target := by
  constructor
  · rintro ⟨found, h⟩ n q hq hn hearly
    exact pointersOk_of_findParent .root (levels_left a) h n q hq (Nat.zero_le n) hn hearly
  · intro h
    refine h.findParent_ok (levels_left a) .root fun k r hk => ?_
    omega

/-- The loop finds the entry through which its walk comes to the table. -/
theorem findParent_spec {found : Option Word} (hne : root ≠ target)
    (h : findParent a d m vptr target (ptLevels a - 1) 0 root first = .ok found) :
    found = some slot ↔ MappedBy a d m root vptr target slot := by
  constructor
  · rintro rfl
    apply mappedBy_of_findParent (levels_left a) .root _ (fun e => absurd e hne) h
    intro k r hk
    omega
  · rintro ⟨N, q, hq, hN, rfl, hd, hnext, hearly⟩
    exact findParent_of_walksBy hq hN hd hnext hearly (levels_left a) (Nat.zero_le _) .root h

theorem MappedBy.level_le (h : WalksBy a d m vptr root N q) (hN : N + 1 < ptLevels a)
    (hd : d (m (ptSlot a q vptr N)) = true) (hnext : nextTable a (m (ptSlot a q vptr N)) = target)
    (hearly : ∀ k r, k ≤ n → WalksBy a d m vptr root k r → r ≠ target) : n ≤ N := by
  by_contra hlt
  exact hearly (N + 1) _ (by omega) (.step h hN hd) hnext

theorem MappedBy.unique (h : MappedBy a d m root vptr target slot)
    (h' : MappedBy a d m root vptr target slot') : slot = slot' := by
  obtain ⟨n, q, hq, hn, rfl, hd, hnext, hearly⟩ := h
  obtain ⟨n', q', hq', hn', rfl, hd', hnext', hearly'⟩ := h'
  obtain rfl : n = n' := Nat.le_antisymm (level_le hq' hn' hd' hnext' hearly)
    (level_le hq hn hd hnext hearly')
  rw [hq.unique hq']

/-! ## What the call does to the memory -/

theorem isPteTable_zero : isPteTable a 0 = false := by
  cases a <;> rfl

/-- A table whose only entry was cleared is on no walk any more. -/
theorem not_walksBy_of_cleared (hne : root ≠ pt) (hclear : m' slot = 0)
    (hothers : ∀ x, x ≠ slot → m' x = m x)
    (honly : ∀ x, isPteTable a (m x) = true → nextTable a (m x) = pt → x = slot) (vptr' : Word)
    (n : Nat) : ¬WalksBy a (isPteTable a) m' vptr' root n pt := by
  intro h
  cases h with
  | root => exact hne rfl
  | @step k q walk level leads =>
    by_cases hx : ptSlot a q vptr' k = slot
    · rw [hx, hclear, isPteTable_zero] at leads
      cases leads
    · rw [hothers _ hx] at leads honly
      exact hx (honly _ leads rfl)

/-- Clearing the entry that maps the table is all that unmapping it has to do. -/
theorem unmapped_iff_of_mappedAt (hne : root ≠ pt) (hmap : MappedAt a m root vptr pt slot) :
    Unmapped a m m' root vptr pt ↔ m' slot = 0 ∧ ∀ x, x ≠ slot → m' x = m x := by
  constructor
  · intro h
    exact ⟨h.clears slot hmap, h.others slot hmap⟩
  · rintro ⟨hclear, hothers⟩
    refine ⟨fun slot' h' => ?_, fun slot' h' => ?_, fun slot' h' => ?_, fun h => ?_⟩
    · rw [h'.unique hmap]
      exact hclear
    · rw [h'.unique hmap]
      exact hothers
    · rw [h'.unique hmap]
      exact not_walksBy_of_cleared hne hclear hothers
    · exact absurd hmap (h slot)

theorem unmapped_iff_of_not_mappedAt (hmap : ∀ slot, ¬MappedAt a m root vptr pt slot) :
    Unmapped a m m' root vptr pt ↔ m' = m := by
  constructor
  · intro h
    exact h.keeps hmap
  · rintro rfl
    exact ⟨fun slot h => absurd h (hmap slot), fun slot h => absurd h (hmap slot),
      fun slot h => absurd h (hmap slot), fun _ => rfl⟩

/-- The walk to a mapped table goes on at the root. -/
theorem MappedBy.leads_root (h : MappedBy a d m root vptr pt slot) :
    d (m (ptSlot a root vptr 0)) = true := by
  obtain ⟨n, q, hq, -, rfl, hd, -, -⟩ := h
  rcases Nat.eq_zero_or_pos n with rfl | hn
  · rw [WalksBy.root.unique hq]
    exact hd
  · exact hq.step_of_lt .root hn

theorem mappedBy_unmapDescends_aarch64 :
    MappedBy .aarch64 (unmapDescends .aarch64) m root vptr pt slot ↔
      MappedAt .aarch64 m root vptr pt slot := by
  have hdesc : unmapDescends .aarch64 = isPteTable .aarch64 := by
    funext pte
    simp only [unmapDescends]
  rw [hdesc, MappedAt]

section Call

variable {s : KernelState} {pt : Word} (hroot : findVspaceForAsid a s asid = some root)
  (hne : root ≠ pt)

include hroot hne

omit hne in
theorem pointersOk_of_unmapPageTable (h : unmapPageTable a s asid vptr pt = .ok s') :
    PointersOk a (unmapDescends a) s.userMemory root vptr pt := by
  simp only [unmapPageTable, hroot] at h
  obtain ⟨_, -, h⟩ := bind_eq_ok.mp h
  obtain ⟨found, hr, -⟩ := bind_eq_ok.mp h
  exact (findParent_ok_iff _).mp ⟨found, hr⟩

variable (hptrs : PointersOk a (unmapDescends a) s.userMemory root vptr pt)
include hptrs

theorem unmapPageTable_of_not_mappedBy
    (h : ∀ slot, ¬MappedBy a (unmapDescends a) s.userMemory root vptr pt slot) :
    unmapPageTable a s asid vptr pt = .ok s := by
  simp only [unmapPageTable, hroot]
  rw [ensure_of fun _ => hne]
  obtain ⟨found, hr⟩ := (findParent_ok_iff (if a = .riscv64 then ptSlot a root vptr 0 else 0)).mpr hptrs
  obtain rfl : found = none :=
    Option.eq_none_iff_forall_ne_some.mpr fun slot e => h slot ((findParent_spec hne hr).mp e)
  simp only [bind, Except.bind, hr]
  rfl

theorem unmapPageTable_of_mappedBy (h : MappedBy a (unmapDescends a) s.userMemory root vptr pt slot) :
    unmapPageTable a s asid vptr pt =
      if a = .aarch64 → slot ≠ 0 then .ok (setMemory s (clearParent a s.userMemory slot pt))
      else .error .assertFailed := by
  simp only [unmapPageTable, hroot]
  rw [ensure_of fun _ => hne]
  obtain ⟨found, hr⟩ := (findParent_ok_iff (if a = .riscv64 then ptSlot a root vptr 0 else 0)).mpr hptrs
  obtain rfl := (findParent_spec hne hr).mpr h
  simp only [bind, Except.bind, hr]
  by_cases hs : a = .aarch64 → slot ≠ 0
  · rw [if_pos hs, ensure_of hs]
    rfl
  · rw [if_neg hs, ensure, if_neg hs]

end Call

/-- What the stores of `unmap_page_table` need to unmap the table `pt`. On riscv64 only a table
that is not mapped will do, and the walk through the other entries must not come to
it either, unless by an entry that is zero. On aarch64 a table that is mapped
must have zero for its first entry. -/
def StoresZero (a : Arch) (m : Word → Word) (root vptr pt : Word) : Prop :=
  match a with
  | .riscv64 => (∀ slot, ¬MappedAt .riscv64 m root vptr pt slot) ∧
    ∀ slot, MappedBy .riscv64 (unmapDescends .riscv64) m root vptr pt slot → m slot = 0
  | .aarch64 => ∀ slot, MappedAt .aarch64 m root vptr pt slot → slot ≠ 0 ∧ (pt = slot ∨ m pt = 0)

/-- Where `unmap_page_table` unmaps the table `pt`: its loop follows the kernel's pointers
only, and its stores are right. -/
def Unmappable (a : Arch) (m : Word → Word) (root vptr pt : Word) : Prop :=
  PointersOk a (unmapDescends a) m root vptr pt ∧ StoresZero a m root vptr pt

theorem MappedAt.isPteTable (h : MappedAt a m root vptr pt slot) :
    isPteTable a (m slot) = true := by
  obtain ⟨-, -, -, -, -, htable, -⟩ := h
  exact htable

/-- A memory in which the table is mapped is not yet one where it is unmapped. -/
theorem not_unmapped_self (h : MappedAt a m root vptr pt slot) : ¬Unmapped a m m root vptr pt := by
  intro hun
  have htable := h.isPteTable
  rw [hun.clears slot h, isPteTable_zero] at htable
  cases htable

theorem clearParent_riscv64_eq_self_iff : clearParent .riscv64 m slot pt = m ↔ m slot = 0 := by
  simp only [clearParent, update_eq_self_iff]
  exact eq_comm

/-- The two stores of aarch64 put the first entry of `pt` into the entry that
was to be cleared. -/
theorem unmapped_clearParent_aarch64_iff (hne : root ≠ pt)
    (h : MappedAt .aarch64 m root vptr pt slot) :
    Unmapped .aarch64 m (clearParent .aarch64 m slot pt) root vptr pt ↔ pt = slot ∨ m pt = 0 := by
  rw [unmapped_iff_of_mappedAt hne h]
  have hothers : ∀ x, x ≠ slot → clearParent .aarch64 m slot pt x = m x := by
    intro x hx
    simp only [clearParent, update_of_ne hx]
  have hslot : clearParent .aarch64 m slot pt slot = if pt = slot then 0 else m pt := by
    simp only [clearParent, update_self, update_apply]
  rw [and_iff_left hothers, hslot]
  split
  · simp [*]
  · simp [*]

theorem unmapPageTable_riscv64_iff (hroot : findVspaceForAsid .riscv64 s asid = some root)
    (hne : root ≠ pt)
    (hptrs : PointersOk .riscv64 (unmapDescends .riscv64) s.userMemory root vptr pt) :
    (∃ s', unmapPageTable .riscv64 s asid vptr pt = .ok s' ∧
      Unmapped .riscv64 s.userMemory s'.userMemory root vptr pt) ↔
      StoresZero .riscv64 s.userMemory root vptr pt := by
  by_cases hmap : ∃ slot, MappedAt .riscv64 s.userMemory root vptr pt slot
  · obtain ⟨slot, hmap⟩ := hmap
    have hno : ∀ slot', ¬MappedBy .riscv64 (unmapDescends .riscv64) s.userMemory root vptr pt
        slot' := by
      intro slot' hdesc
      have hleads := hdesc.leads_root
      simp only [unmapDescends, decide_eq_true_eq, hmap.leads_root] at hleads
      cases hleads
    rw [exists_ok_iff (unmapPageTable_of_not_mappedBy hroot hne hptrs hno)]
    exact iff_of_false (not_unmapped_self hmap) fun h => h.1 slot hmap
  rw [not_exists] at hmap
  by_cases hdesc : ∃ slot,
      MappedBy .riscv64 (unmapDescends .riscv64) s.userMemory root vptr pt slot
  · obtain ⟨slot, hdesc⟩ := hdesc
    have hcall := unmapPageTable_of_mappedBy hroot hne hptrs hdesc
    rw [if_pos (fun e => by cases e)] at hcall
    rw [exists_ok_iff hcall, unmapped_iff_of_not_mappedAt hmap]
    rw [setMemory, clearParent_riscv64_eq_self_iff]
    constructor
    · intro h
      refine ⟨hmap, fun slot' h' => ?_⟩
      rw [h'.unique hdesc]
      exact h
    · intro h
      exact h.2 slot hdesc
  · rw [not_exists] at hdesc
    rw [exists_ok_iff (unmapPageTable_of_not_mappedBy hroot hne hptrs hdesc),
      unmapped_iff_of_not_mappedAt hmap]
    exact iff_of_true rfl ⟨hmap, fun slot h => absurd h (hdesc slot)⟩

theorem unmapPageTable_aarch64_iff (hroot : findVspaceForAsid .aarch64 s asid = some root)
    (hne : root ≠ pt)
    (hptrs : PointersOk .aarch64 (unmapDescends .aarch64) s.userMemory root vptr pt) :
    (∃ s', unmapPageTable .aarch64 s asid vptr pt = .ok s' ∧
      Unmapped .aarch64 s.userMemory s'.userMemory root vptr pt) ↔
      StoresZero .aarch64 s.userMemory root vptr pt := by
  by_cases hmap : ∃ slot, MappedAt .aarch64 s.userMemory root vptr pt slot
  · obtain ⟨slot, hmap⟩ := hmap
    have hcall := unmapPageTable_of_mappedBy hroot hne hptrs (mappedBy_unmapDescends_aarch64.mpr hmap)
    have hunique : StoresZero .aarch64 s.userMemory root vptr pt ↔
        slot ≠ 0 ∧ (pt = slot ∨ s.userMemory pt = 0) := by
      constructor
      · intro h
        exact h slot hmap
      · intro h slot' h'
        rw [h'.unique hmap]
        exact h
    rw [hunique]
    by_cases hzero : slot = 0
    · rw [if_neg (fun h => h rfl hzero)] at hcall
      simp [hcall, hzero]
    · rw [if_pos (fun _ => hzero)] at hcall
      rw [exists_ok_iff hcall, and_iff_right hzero]
      exact unmapped_clearParent_aarch64_iff hne hmap
  · rw [not_exists] at hmap
    rw [exists_ok_iff (unmapPageTable_of_not_mappedBy hroot hne hptrs fun slot h =>
        hmap slot (mappedBy_unmapDescends_aarch64.mp h)),
      unmapped_iff_of_not_mappedAt hmap]
    exact iff_of_true rfl fun slot h => absurd h (hmap slot)

/-! ## One mapped table -/

def oneTableRoot (a : Arch) : Word := pptrBase a + 0x2000
def oneTablePt (a : Arch) : Word := pptrBase a + 0x3000

/-- An address space under ASID 1 with one table, which is mapped at address 0
and has `first` for its first entry. -/
def oneTable (a : Arch) (first : Word) : KernelState :=
  let pool := pptrBase a + 0x1000
  { KernelState.zero with
    asidTable := fun i => if i = 0 then pool else 0
    userMemory := fun x =>
      if x = pool + 8 then
        (if a = .riscv64 then oneTableRoot a else newAsidMapVspace (oneTableRoot a))
      else if x = oneTableRoot a then
        (if a = .riscv64 then (0x3000 >>> 2) ||| 1 else 0x3000 ||| 3)
      else if x = oneTablePt a then first
      else 0 }

theorem oneTableRoot_ne (a : Arch) : oneTableRoot a ≠ oneTablePt a := by
  cases a <;> decide

theorem oneTable_mappedAt (a : Arch) (first : Word) :
    MappedAt a (oneTable a first).userMemory (oneTableRoot a) 0 (oneTablePt a) (oneTableRoot a) := by
  have hentry : (oneTable a first).userMemory (oneTableRoot a) =
      if a = .riscv64 then 0xc01 else 0x3003 := by
    cases a <;> rfl
  refine ⟨0, oneTableRoot a, .root, by cases a <;> decide, by cases a <;> rfl, ?_, ?_, ?_⟩
  · rw [hentry]
    cases a <;> decide
  · rw [hentry]
    cases a <;> decide
  · intro k r hk hr
    obtain rfl := Nat.le_zero.mp hk
    rw [hr.unique .root]
    exact oneTableRoot_ne a

/-- `unmap_page_table` returns and leaves the table unmapped, and nothing else
changed, just where `Unmappable` says so. -/
theorem unmapPageTable_unmapped_iff (a : Arch) (s : KernelState) (asid vptr pt root : Word)
    (hroot : findVspaceForAsid a s asid = some root) (hne : root ≠ pt) :
    (∃ s', unmapPageTable a s asid vptr pt = .ok s' ∧
      Unmapped a s.userMemory s'.userMemory root vptr pt) ↔
      Unmappable a s.userMemory root vptr pt := by
  have hiff : PointersOk a (unmapDescends a) s.userMemory root vptr pt →
      ((∃ s', unmapPageTable a s asid vptr pt = .ok s' ∧
        Unmapped a s.userMemory s'.userMemory root vptr pt) ↔
        StoresZero a s.userMemory root vptr pt) := by
    cases a with
    | riscv64 => exact unmapPageTable_riscv64_iff hroot hne
    | aarch64 => exact unmapPageTable_aarch64_iff hroot hne
  constructor
  · rintro ⟨s', h, hun⟩
    have hptrs := pointersOk_of_unmapPageTable hroot h
    exact ⟨hptrs, (hiff hptrs).mp ⟨s', h, hun⟩⟩
  · rintro ⟨hptrs, hzero⟩
    exact (hiff hptrs).mpr hzero

theorem unmapPageTable_unmapped_iff_zeroed :
    ∃ s', unmapPageTable .aarch64 (oneTable .aarch64 0) 1 0 (oneTablePt .aarch64) = .ok s' ∧
      Unmapped .aarch64 (oneTable .aarch64 0).userMemory s'.userMemory (oneTableRoot .aarch64) 0
        (oneTablePt .aarch64) := by
  have hne := oneTableRoot_ne .aarch64
  apply (unmapPageTable_unmapped_iff .aarch64 _ 1 0 _ _ (by decide +kernel) hne).mpr
  refine ⟨fun n q hq _ hearly => ?_, fun slot h => ?_⟩
  · -- the loop stops at the table, which is at level 1
    have hzero : n = 0 := Nat.le_zero.mp (MappedBy.level_le .root (by decide) (by decide +kernel)
      (by decide +kernel) hearly)
    subst hzero
    rw [hq.unique .root]
    exact ⟨by decide, nofun⟩
  · rw [h.unique (oneTable_mappedAt .aarch64 0)]
    exact ⟨by decide, .inr (by decide +kernel)⟩

/-- Neither build unmaps a table whose first entry is 7: on riscv64 the entry
that maps it stays, on aarch64 it becomes 7. -/
theorem unmapPageTable_dangling :
    (∃ s', unmapPageTable .riscv64 (oneTable .riscv64 7) 1 0 (oneTablePt .riscv64) = .ok s' ∧
      s'.userMemory (oneTableRoot .riscv64) = 0xc01 ∧
      ¬Unmapped .riscv64 (oneTable .riscv64 7).userMemory s'.userMemory (oneTableRoot .riscv64) 0
        (oneTablePt .riscv64)) ∧
    ∃ s', unmapPageTable .aarch64 (oneTable .aarch64 7) 1 0 (oneTablePt .aarch64) = .ok s' ∧
      s'.userMemory (oneTableRoot .aarch64) = 7 ∧
      ¬Unmapped .aarch64 (oneTable .aarch64 7).userMemory s'.userMemory (oneTableRoot .aarch64) 0
        (oneTablePt .aarch64) := by
  have hrun : ∀ a w, w ≠ 0 → (unmapPageTable a (oneTable a 7) 1 0 (oneTablePt a)).satisfies
      (fun s' => s'.userMemory (oneTableRoot a) = w) = true →
      ∃ s', unmapPageTable a (oneTable a 7) 1 0 (oneTablePt a) = .ok s' ∧
        s'.userMemory (oneTableRoot a) = w ∧ ¬Unmapped a (oneTable a 7).userMemory s'.userMemory
          (oneTableRoot a) 0 (oneTablePt a) := by
    intro a w hw hsat
    obtain ⟨s', hs', h⟩ := Exec.satisfies_iff.mp hsat
    have h := of_decide_eq_true h
    refine ⟨s', hs', h, fun hun => hw ?_⟩
    rw [← h]
    exact hun.clears _ (oneTable_mappedAt a 7)
  exact ⟨hrun .riscv64 _ (by decide) (by decide +kernel),
    hrun .aarch64 _ (by decide) (by decide +kernel)⟩

end Rel4.VSpace
