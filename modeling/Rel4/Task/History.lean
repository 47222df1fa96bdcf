import Rel4.Task.State

/-!
The operations of `cte.rs` on the kernel state, with the history of the caps.

No code reads the history. A cap that `cte_insert` makes has the source cap as
its parent and names the same object, unless it is the cap of an ASID pool that
is made from an untyped cap; a cap that `insert_new_cap` makes has the untyped cap
as its parent and names a new object; a moved cap stays what it is.
-/

namespace Rel4.Task.KernelState
open Lib.Bitfield Common CSpace Function

variable (a : Arch)

/-- The origin of a cap with parent `src`. -/
def childOrigin (s : KernelState) (src : Word) (object : Nat) : Origin :=
  ⟨s.fresh, (s.origin src).id :: (s.origin src).ancestors, object⟩

/-- `cte_insert` -/
def insertCap (s : KernelState) (newCap : CapT) (src dest : Word) : Exec KernelState := do
  let σ ← cteInsert a s.ctes newCap src dest
  return { s with
    ctes := σ
    origin := update s.origin dest (s.childOrigin src (s.origin src).object)
    fresh := s.fresh + 1 }

/-- `cte_insert` of the first cap to an object. -/
def insertMade (s : KernelState) (newCap : CapT) (src dest : Word) : Exec KernelState := do
  let σ ← cteInsert a s.ctes newCap src dest
  return { s with
    ctes := σ
    origin := update s.origin dest (s.childOrigin src s.fresh)
    fresh := s.fresh + 1 }

/-- `insert_new_cap` -/
def insertObject (s : KernelState) (parent slot : Word) (cap : CapT) : KernelState :=
  { s with
    ctes := insertNewCap a s.ctes parent slot cap
    origin := update s.origin slot (s.childOrigin parent s.fresh)
    fresh := s.fresh + 1 }

/-- `cte_move` -/
def moveCap (s : KernelState) (newCap : CapT) (src dest : Word) : Exec KernelState := do
  let σ ← cteMove a s.ctes newCap src dest
  return { s with
    ctes := σ
    origin := update s.origin dest (s.origin src) }

/-- `cte_swap` -/
def swapSlots (s : KernelState) (cap1 : CapT) (slot1 : Word) (cap2 : CapT) (slot2 : Word) :
    KernelState :=
  { s with
    ctes := cteSwap a s.ctes cap1 slot1 cap2 slot2
    origin := update (update s.origin slot1 (s.origin slot2)) slot2
      (s.origin slot1) }

end Rel4.Task.KernelState
