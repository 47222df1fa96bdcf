import Rel4.Task.State

/-!
Page tables (`sel4_vspace/src/arch/*/pte.rs`, `pagetable.rs`, `interface.rs`,
`utils.rs`).

A table is 512 words; riscv64 has three levels of tables (Sv39), aarch64 has
four. TLB and cache maintenance has no effect on the state.
-/

namespace Rel4.VSpace
open Lib.Bitfield Common Function

variable (a : Arch)

/-! ## Addresses -/

/-- `pptr_to_paddr` -/
def pptrToPaddr (x : Word) : Word := x - pptrBase a

/-- `paddr_to_pptr` -/
def paddrToPptr (x : Word) : Word := x + pptrBase a

/-- `KERNEL_ELF_BASE_OFFSET` -/
def kernelElfBaseOffset : Arch → Word
  | .riscv64 => 0xFFFFFFFF00000000
  | .aarch64 => pptrBase .aarch64

/-- `kpptr_to_paddr` -/
def kpptrToPaddr (x : Word) : Word := x - kernelElfBaseOffset a

/-! ## Entries -/

def ptIndexBits : Nat := 9

/-- `CONFIG_PT_LEVELS`, `UPT_LEVELS` -/
def ptLevels : Arch → Nat
  | .riscv64 => 3
  | .aarch64 => 4

/-- `get_ppn` of riscv64 -/
def getPpn (pte : Word) : Word := (pte &&& 0x3ffffffffffc00) >>> 10

/-- `get_type` of aarch64 -/
def getPteType (pte : Word) : Word := (pte &&& 3) ||| ((pte &&& bit 58) >>> 56)

/-- The entry points to a table: `is_pte_table` on riscv64, the type
`pte_table` on aarch64. -/
def isPteTable (pte : Word) : Bool :=
  match a with
  | .riscv64 => pte &&& 1 ≠ 0 ∧ pte &&& 0xe = 0
  | .aarch64 => getPteType pte = 3

/-- The entry maps something: `get_valid`. -/
def isPteValid (pte : Word) : Bool :=
  match a with
  | .riscv64 => pte &&& 1 ≠ 0
  | .aarch64 => getPteType pte ≠ 0

/-- The address of the table that the entry points to: `get_pte_from_ppn_mut`
on riscv64, `next_level_paddr` on aarch64. -/
def nextTable (pte : Word) : Word :=
  match a with
  | .riscv64 => paddrToPptr a (getPpn pte <<< 12)
  | .aarch64 => paddrToPptr a (pte &&& 0xfffffffff000)

/-- The entry maps the frame at the address, as the tests of `unmapPage` have it. -/
def mapsFrame (pte pptr : Word) : Bool :=
  match a with
  | .riscv64 =>
    isPteValid a pte ∧ isPteTable a pte = false ∧ getPpn pte <<< 12 = pptrToPaddr a pptr
  | .aarch64 =>
    (getPteType pte = 7 ∨ getPteType pte = 1) ∧ pte &&& 0xfffffffff000 = pptrToPaddr a pptr

/-! ## Walks -/

/-- The bits of the address below level `n`, the root being level 0:
`RISCV_GET_LVL_PGSIZE_BITS`, `UPT_LEVEL_SHIFT`. -/
def levelBits (n : Nat) : Nat := ptIndexBits * (ptLevels a - 1 - n) + 12

/-- `RISCV_GET_PT_INDEX`, `GET_UPT_INDEX` -/
def ptIndex (vptr : Word) (n : Nat) : Word := (vptr >>> levelBits a n) &&& 511

/-- The entry for the address in a table of level `n`. -/
def ptSlot (pt vptr : Word) (n : Nat) : Word := pt + 8 * ptIndex a vptr n

/-- With `left` levels below level `n`: the entry at which the walk of the address ends, and its
level. -/
def walkFrom (m : Word → Word) (vptr : Word) : Nat → Nat → Word → Word × Nat
  | 0, n, pt => (ptSlot a pt vptr n, n)
  | left + 1, n, pt =>
    let slot := ptSlot a pt vptr n
    if isPteTable a (m slot) then walkFrom m vptr left (n + 1) (nextTable a (m slot))
    else (slot, n)

/-- The entry at which the walk of the address from the root ends, and its level. -/
def walkEnd (m : Word → Word) (root vptr : Word) : Word × Nat :=
  walkFrom a m vptr (ptLevels a - 1) 0 root

/-- How the loops come from the pointer to an entry to the entry: riscv64 as it is, aarch64 by
`ptr_to_mut`, which unwraps it. -/
def entryRef (slot : Word) : Exec Unit :=
  match a with
  | .riscv64 => .ok ()
  | .aarch64 => convertToTypeRef slot

/-- What a read outside of the kernel window gives is not defined; the model stops there. -/
def kernelRead (slot : Word) : Exec Unit :=
  if pptrBase a ≤ slot then .ok () else .error .wildPointer

/-- The entry at `slot`, as the loops read it. -/
def readPte (m : Word → Word) (slot : Word) : Exec Word := do
  entryRef a slot
  kernelRead a slot
  return m slot

/-- The table that the entry points to, as the loops go there: riscv64 by
`get_pte_from_ppn_mut`, which asserts that it is not null. -/
def followPte (pte : Word) : Exec Word :=
  match a with
  | .riscv64 => do
    convertToTypeRef (nextTable a pte)
    return nextTable a pte
  | .aarch64 => .ok (nextTable a pte)

/-- The loop of `lookup_pt_slot`. Its test reads the entry of the last level too. -/
def lookupFrom (m : Word → Word) (vptr : Word) : Nat → Nat → Word → Exec (Word × Nat)
  | 0, n, pt => do
    let _ ← readPte a m (ptSlot a pt vptr n)
    return (ptSlot a pt vptr n, n)
  | left + 1, n, pt => do
    let slot := ptSlot a pt vptr n
    let pte ← readPte a m slot
    if isPteTable a pte then
      let next ← followPte a pte
      lookupFrom m vptr left (n + 1) next
    else return (slot, n)

/-- `lookup_pt_slot`: `ptSlot`, and the level whose `levelBits` are `ptBitsLeft`. -/
def lookupPtSlot (m : Word → Word) (root vptr : Word) : Exec (Word × Nat) :=
  lookupFrom a m vptr (ptLevels a - 1) 0 root

/-- The loop of `unmap_page_table` with `left` levels to go: the entry to be
cleared, if the walk comes to the table `target`. `descend` says which entries
the walk passes through. -/
def findParent (descend : Word → Bool) (m : Word → Word) (vptr target : Word) :
    Nat → Nat → Word → Word → Exec (Option Word)
  | 0, _, pt, slot => .ok (if pt = target then some slot else none)
  | left + 1, n, pt, slot =>
    if pt = target then .ok (some slot)
    else do
      let slot := ptSlot a pt vptr n
      let pte ← readPte a m slot
      if descend pte then
        let next ← followPte a pte
        findParent descend m vptr target left (n + 1) next slot
      else return none

variable {a}

theorem readPte_eq_ok {m : Word → Word} {slot pte : Word} :
    readPte a m slot = .ok pte ↔ pte = m slot ∧ pptrBase a ≤ slot := by
  constructor
  · intro h
    obtain ⟨_, -, h⟩ := bind_eq_ok.mp h
    obtain ⟨_, hread, h⟩ := bind_eq_ok.mp h
    unfold kernelRead at hread
    split at hread
    next hw => exact ⟨(pure_eq_ok.mp h).symm, hw⟩
    next => cases hread
  · rintro ⟨rfl, hw⟩
    have hne : slot ≠ 0 := by
      rintro rfl
      revert hw
      cases a <;> decide
    refine bind_eq_ok.mpr ⟨(), ?_, bind_eq_ok.mpr ⟨(), if_pos hw, rfl⟩⟩
    cases a with
    | riscv64 => rfl
    | aarch64 => exact convertToTypeRef_of hne

theorem followPte_eq_ok {pte pt : Word} :
    followPte a pte = .ok pt ↔ pt = nextTable a pte ∧ (a = .riscv64 → pt ≠ 0) := by
  cases a with
  | riscv64 =>
    refine checked_eq_ok.trans (and_congr_right fun h => ?_)
    rw [h]
    exact ⟨fun hne _ => hne, fun hne => hne rfl⟩
  | aarch64 =>
    rw [followPte, Except.ok.injEq, eq_comm]
    exact (and_iff_left fun h => by cases h).symm

/-- Where `lookup_pt_slot` returns, it is at the end of the walk. -/
theorem lookupFrom_eq_ok {m : Word → Word} {vptr : Word} {r : Word × Nat} (left : Nat) :
    ∀ {n pt}, lookupFrom a m vptr left n pt = .ok r → r = walkFrom a m vptr left n pt := by
  induction left with
  | zero =>
    intro n pt h
    obtain ⟨-, -, h⟩ := bind_eq_ok.mp h
    exact (pure_eq_ok.mp h).symm
  | succ left ih =>
    intro n pt h
    obtain ⟨pte, hpte, h⟩ := bind_eq_ok.mp h
    obtain ⟨rfl, -⟩ := readPte_eq_ok.mp hpte
    rw [walkFrom]
    split at h
    next ht =>
      obtain ⟨next, hnext, h⟩ := bind_eq_ok.mp h
      obtain ⟨rfl, -⟩ := followPte_eq_ok.mp hnext
      rw [if_pos ht]
      exact ih h
    next ht =>
      rw [if_neg ht]
      exact (pure_eq_ok.mp h).symm

theorem lookupPtSlot_eq_ok {m : Word → Word} {root vptr : Word} {r : Word × Nat}
    (h : lookupPtSlot a m root vptr = .ok r) : r = walkEnd a m root vptr :=
  lookupFrom_eq_ok _ h

variable (a)

/-- The test in the loop of `unmap_page_table`: riscv64 returns at an entry that
points to a table, aarch64 at one that does not. -/
def unmapDescends (pte : Word) : Bool :=
  match a with
  | .riscv64 => isPteTable a pte = false
  | .aarch64 => isPteTable a pte

/-- The stores of `unmap_page_table` to the entry of the table `pt`. On aarch64
the entry is cleared and then written once more, with the first entry of `pt`. -/
def clearParent (m : Word → Word) (slot pt : Word) : Word → Word :=
  match a with
  | .riscv64 => update m slot 0
  | .aarch64 =>
    let m := update m slot 0
    update m slot (m pt)

end Rel4.VSpace
