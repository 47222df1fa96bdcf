import Rel4.CSpace.CapOps

/-!
Slots and the mapping database (`sel4_cspace/src/cte.rs`, `mdb.rs`).

`Slots` is the memory seen as capability slots, by address. The source reads
and writes slots through raw addresses taken from the mapping-database words;
each such access is a read or an update of `Slots` here, in the order of the
source, so slots that alias behave as they do in memory.
-/

namespace Rel4.CSpace
open Lib.Bitfield Common Function

abbrev MdbNode := Words 2

namespace Field

def mdbNext : Arch → Field 2
  | .riscv64 => ⟨1, 2, 37, 2, true⟩
  | .aarch64 => ⟨1, 2, 46, 2, true⟩
def mdbRevocable : Field 2 := ⟨1, 1, 1, 0, false⟩
def mdbFirstBadged : Field 2 := ⟨1, 0, 1, 0, false⟩
def mdbPrev : Field 2 := ⟨0, 0, 64, 0, false⟩

end Field

def Layout.mdbNode (a : Arch) : Layout 2 where
  fields := [Field.mdbNext a, Field.mdbRevocable, Field.mdbFirstBadged, Field.mdbPrev]
  fits := by cases a <;> decide
  disjoint := by cases a <;> decide

/-- `mdb_node_t::new` -/
def newMdbNode (a : Arch) (next revocable firstBadged prev : Word) : MdbNode :=
  (Layout.mdbNode a).build [next, revocable, firstBadged, prev]

/-- `mdb_node_t::default()` -/
def defaultMdbNode : MdbNode := fun _ => 0

structure CteT where
  cap : CapT
  cteMDBNode : MdbNode

abbrev Slots := Word → CteT

/-- A slot of zeroed memory: a null cap outside every list. -/
def emptyCte : CteT := ⟨newNullCap, defaultMdbNode⟩

variable (a : Arch)

def getNext (n : MdbNode) : Word := (Field.mdbNext a).get (signExt a) n
def getRevocable (n : MdbNode) : Word := Field.mdbRevocable.get (signExt a) n
def getFirstBadged (n : MdbNode) : Word := Field.mdbFirstBadged.get (signExt a) n
def getPrev (n : MdbNode) : Word := Field.mdbPrev.get (signExt a) n

namespace Slots

/-- The next and previous slot of the list, `0` at its ends. -/
def next (σ : Slots) (p : Word) : Word := getNext a (σ p).cteMDBNode
def prev (σ : Slots) (p : Word) : Word := getPrev a (σ p).cteMDBNode
def revocable (σ : Slots) (p : Word) : Word := getRevocable a (σ p).cteMDBNode
def firstBadged (σ : Slots) (p : Word) : Word := getFirstBadged a (σ p).cteMDBNode

def capType (σ : Slots) (p : Word) : CapTag := getCapType (σ p).cap

def setCap (σ : Slots) (p : Word) (c : CapT) : Slots :=
  update σ p { σ p with cap := c }

def setMdb (σ : Slots) (p : Word) (n : MdbNode) : Slots :=
  update σ p { σ p with cteMDBNode := n }

def setNext (σ : Slots) (p v : Word) : Slots :=
  σ.setMdb p ((Field.mdbNext a).set (σ p).cteMDBNode v)

def setPrev (σ : Slots) (p v : Word) : Slots :=
  σ.setMdb p (Field.mdbPrev.set (σ p).cteMDBNode v)

def setFirstBadged (σ : Slots) (p v : Word) : Slots :=
  σ.setMdb p (Field.mdbFirstBadged.set (σ p).cteMDBNode v)

/-- `if p != 0 { p.set_next(v) }`, the source's write to a neighbour. -/
def patchNext (σ : Slots) (p v : Word) : Slots := if p ≠ 0 then σ.setNext a p v else σ

/-- `if p != 0 { p.set_prev(v) }` -/
def patchPrev (σ : Slots) (p v : Word) : Slots := if p ≠ 0 then σ.setPrev p v else σ

end Slots

/-! ## Questions about a slot -/

/-- `is_mdb_parent_of`. The two `assert_eq!`s of the source repeat what
`same_region_as` has already found, that the types agree
(`sameRegionAs_endpoint`, `sameRegionAs_notification`). -/
def isMdbParentOf (self next : CteT) : Bool :=
  if getRevocable a self.cteMDBNode = 0 then false
  else if sameRegionAs a self.cap next.cap = false then false
  else match getCapType self.cap with
  | .endpointCap =>
    let badge := getEpBadge a self.cap
    badge = 0 ∨ (badge = getEpBadge a next.cap ∧ getFirstBadged a next.cteMDBNode = 0)
  | .notificationCap =>
    let badge := getNfBadge a self.cap
    badge = 0 ∨ (badge = getNfBadge a next.cap ∧ getFirstBadged a next.cteMDBNode = 0)
  | _ => true

/-- `ensure_no_children` -/
def ensureNoChildren (σ : Slots) (slot : Word) : ExceptionT :=
  if σ.next a slot ≠ 0 ∧ isMdbParentOf a (σ slot) (σ (σ.next a slot)) then .syscallError
  else .none

/-- `is_final_cap` -/
def isFinalCap (σ : Slots) (slot : Word) : Bool :=
  let prevIsSameObj :=
    σ.prev a slot ≠ 0 ∧ sameObjectAs a (σ (σ.prev a slot)).cap (σ slot).cap
  if prevIsSameObj then false
  else if σ.next a slot = 0 then true
  else !sameObjectAs a (σ slot).cap (σ (σ.next a slot)).cap

/-- `derive_cap` with `arch_derive_cap`: the status and the derived cap. -/
def deriveCap (σ : Slots) (slot : Word) (c : CapT) : Exec (ExceptionT × CapT) :=
  match getCapType c with
  | .zombieCap | .replyCap | .irqControlCap => .ok (.none, newNullCap)
  | .untypedCap =>
    match ensureNoChildren a σ slot with
    | .none => .ok (.none, c)
    | e => .ok (e, newNullCap)
  | .pageTableCap =>
    if getPtIsMapped a c ≠ 0 then .ok (.none, c) else .ok (.syscallError, newNullCap)
  | .vspaceCap =>
    -- only the aarch64 build has this case
    match a with
    | .riscv64 => .error .panicked
    | .aarch64 =>
      if getVsIsMapped a c ≠ 0 then .ok (.none, c) else .ok (.syscallError, newNullCap)
  | .frameCap =>
    match a with
    | .riscv64 =>
      .ok (.none, Field.frameMappedAsid.set ((Field.frameMappedAddress a).set c 0) 0)
    | .aarch64 => .ok (.none, Field.frameMappedAsid.set c 0)
  | .undefined => .error .panicked
  | _ => .ok (.none, c)

/-! ## Operations on the list -/

/-- `setUntypedCapAsFull` -/
def setUntypedCapAsFull (σ : Slots) (srcCap newCap : CapT) (srcSlot : Word) : Exec Slots :=
  if getCapType srcCap = .untypedCap ∧ getCapType newCap = .untypedCap then do
    ensure (σ.capType srcSlot = .untypedCap)
    if getUntypedPtr a srcCap = getUntypedPtr a newCap ∧
        getUntypedBlockSize a srcCap = getUntypedBlockSize a newCap then
      return σ.setCap srcSlot
        (setUntypedFreeIndex a (σ srcSlot).cap (maxFreeIndex (getUntypedBlockSize a srcCap)))
    else return σ
  else .ok σ

/-- `cte_insert` -/
def cteInsert (σ : Slots) (newCap : CapT) (srcSlot destSlot : Word) : Exec Slots := do
  let srcMDB := (σ srcSlot).cteMDBNode
  let srcCap := (σ srcSlot).cap
  let newCapIsRevocable ← isCapRevocable a newCap srcCap
  let newMDB := Field.mdbPrev.set srcMDB srcSlot
  let newMDB := Field.mdbRevocable.set newMDB (flag newCapIsRevocable)
  let newMDB := Field.mdbFirstBadged.set newMDB (flag newCapIsRevocable)
  ensure (σ.capType destSlot = .nullCap)
  ensure (σ.next a destSlot = 0 ∧ σ.prev a destSlot = 0)
  let σ ← setUntypedCapAsFull a σ srcCap newCap srcSlot
  let σ := (σ.setCap destSlot newCap).setMdb destSlot newMDB
  let σ := σ.setNext a srcSlot destSlot
  return σ.patchPrev (getNext a newMDB) destSlot

/-- `insert_new_cap` -/
def insertNewCap (σ : Slots) (parent slot : Word) (cap : CapT) : Slots :=
  let next := σ.next a parent
  let σ := (σ.setCap slot cap).setMdb slot (newMdbNode a next 1 1 parent)
  let σ := σ.patchPrev next slot
  σ.setNext a parent slot

/-- `cte_move` -/
def cteMove (σ : Slots) (newCap : CapT) (srcSlot destSlot : Word) : Exec Slots := do
  ensure (σ.capType destSlot = .nullCap)
  ensure (σ.next a destSlot = 0 ∧ σ.prev a destSlot = 0)
  let mdb := (σ srcSlot).cteMDBNode
  let σ := σ.setCap destSlot newCap
  let σ := σ.setCap srcSlot newNullCap
  let σ := σ.setMdb destSlot mdb
  let σ := σ.setMdb srcSlot (newMdbNode a 0 0 0 0)
  let σ := σ.patchNext a (getPrev a mdb) destSlot
  return σ.patchPrev (getNext a mdb) destSlot

/-- `cte_swap`. Both nodes are saved before any neighbour is patched. -/
def cteSwap (σ : Slots) (cap1 : CapT) (slot1 : Word) (cap2 : CapT) (slot2 : Word) : Slots :=
  let mdb1 := (σ slot1).cteMDBNode
  let mdb2 := (σ slot2).cteMDBNode
  let σ := σ.patchNext a (getPrev a mdb1) slot2
  let σ := σ.patchPrev (getNext a mdb1) slot2
  let σ := σ.setCap slot1 cap2
  let σ := σ.setCap slot2 cap1
  let σ := σ.setMdb slot1 mdb2
  let σ := σ.setMdb slot2 mdb1
  let σ := σ.patchNext a (getPrev a mdb2) slot1
  σ.patchPrev (getNext a mdb2) slot1

/-- `set_empty` up to its call of `post_cap_deletion`. -/
def setEmpty (σ : Slots) (slot : Word) : Slots :=
  if σ.capType slot ≠ .nullCap then
    let mdb := (σ slot).cteMDBNode
    let prevAddr := getPrev a mdb
    let nextAddr := getNext a mdb
    let σ := σ.patchNext a prevAddr nextAddr
    let σ :=
      if nextAddr ≠ 0 then
        let σ := σ.setPrev nextAddr prevAddr
        σ.setFirstBadged nextAddr
          (flag (σ.firstBadged a nextAddr ≠ 0 ∨ getFirstBadged a mdb ≠ 0))
      else σ
    (σ.setCap slot newNullCap).setMdb slot defaultMdbNode
  else σ

end Rel4.CSpace
