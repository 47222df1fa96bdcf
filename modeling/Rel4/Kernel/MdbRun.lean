import Rel4.Kernel.DeleteRule
import Mathlib.Data.Finset.Basic

/-!
Runs of the operations on the mapping database.

From an empty database, any sequence of `write_slot`, `cte_insert`,
`insert_new_cap`, `cte_move`, `delete_one` and `set_empty`, each under the
checks its callers make, keeps the slots with a cap linked as one family of
lists, and that family is computed from the operations alone.
-/

namespace Rel4.Kernel
open Lib.Bitfield Lib.DList Common CSpace Rel4.Task

/-- `write_slot`, which boot uses for the caps that have no parent. -/
def writeSlot (σ : Slots) (slot : Word) (cap : CapT) : Slots :=
  (σ.setCap slot cap).setMdb slot
    (Field.mdbFirstBadged.set (Field.mdbRevocable.set defaultMdbNode 1) 1)

inductive MdbOp where
  | writeSlot (slot : Word) (cap : CapT)
  | cteInsert (newCap : CapT) (src dest : Word)
  | insertNewCap (parent slot : Word) (cap : CapT)
  | cteMove (newCap : CapT) (src dest : Word)
  | deleteOne (slot : Word)
  | setEmpty (slot : Word) (cleanupInfo : CapT)

namespace MdbOp

variable (a : Arch)

def exec (s : KernelState) : MdbOp → Exec KernelState
  | .writeSlot slot cap => .ok (s.setCtes (Kernel.writeSlot s.ctes slot cap))
  | .cteInsert newCap src dest => do
    let σ ← CSpace.cteInsert a s.ctes newCap src dest
    return s.setCtes σ
  | .insertNewCap parent slot cap => .ok (s.setCtes (CSpace.insertNewCap a s.ctes parent slot cap))
  | .cteMove newCap src dest => do
    let σ ← CSpace.cteMove a s.ctes newCap src dest
    return s.setCtes σ
  | .deleteOne slot => Kernel.deleteOne a s slot
  | .setEmpty slot cleanupInfo => .ok (setEmptySlot a s slot cleanupInfo)

/-- What the callers check: the destination is an empty slot, the source and
the new cap are not null. -/
def Pre (s : KernelState) : MdbOp → Prop
  | .writeSlot slot cap =>
    SlotAddr a slot ∧ s.ctes.capType slot = .nullCap ∧ getCapType cap ≠ .nullCap
  | .cteInsert newCap src dest | .cteMove newCap src dest | .insertNewCap src dest newCap =>
    SlotAddr a dest ∧ s.ctes.capType dest = .nullCap ∧ s.ctes.capType src ≠ .nullCap ∧
      getCapType newCap ≠ .nullCap
  | .deleteOne _ | .setEmpty _ _ => True

instance (s : KernelState) : (op : MdbOp) → Decidable (op.Pre a s)
  | .writeSlot _ _ => inferInstanceAs (Decidable (_ ∧ _ ∧ _))
  | .cteInsert _ _ _ => inferInstanceAs (Decidable (_ ∧ _ ∧ _ ∧ _))
  | .cteMove _ _ _ => inferInstanceAs (Decidable (_ ∧ _ ∧ _ ∧ _))
  | .insertNewCap _ _ _ => inferInstanceAs (Decidable (_ ∧ _ ∧ _ ∧ _))
  | .deleteOne _ => inferInstanceAs (Decidable True)
  | .setEmpty _ _ => inferInstanceAs (Decidable True)

/-- The change of the lists. -/
def onLists (ls : List (List Word)) : MdbOp → List (List Word)
  | .writeSlot slot _ => [slot] :: ls
  | .cteInsert _ src dest | .insertNewCap src dest _ => ls.map (insertAfter src dest)
  | .cteMove _ src dest => ls.map (·.map (Equiv.swap src dest))
  | .deleteOne slot | .setEmpty slot _ => ls.map (·.erase slot)

/-- The change of the set of slots that were inserted and not removed. -/
def onSlots (S : Finset Word) : MdbOp → Finset Word
  | .writeSlot slot _ => insert slot S
  | .cteInsert _ _ dest | .insertNewCap _ dest _ => insert dest S
  | .cteMove _ src dest => insert dest (S.erase src)
  | .deleteOne slot | .setEmpty slot _ => S.erase slot

end MdbOp

/-- `s` is reached from `s₀` by the operations `ops`. -/
inductive MdbRun (a : Arch) (s₀ : KernelState) : List MdbOp → KernelState → Prop
  | nil : MdbRun a s₀ [] s₀
  | snoc {ops : List MdbOp} {s s' : KernelState} {op : MdbOp} :
    MdbRun a s₀ ops s → op.Pre a s → op.exec a s = .ok s' → MdbRun a s₀ (ops ++ [op]) s'

/-- The lists that a sequence of operations builds. -/
def mdbLists (ops : List MdbOp) : List (List Word) := ops.foldl MdbOp.onLists []

/-- The slots that a sequence of operations inserts and does not remove. -/
def insertedSlots (ops : List MdbOp) : Finset Word := ops.foldl MdbOp.onSlots ∅

def EmptyMdb (a : Arch) (s : KernelState) : Prop :=
  ∀ x, s.ctes.capType x = .nullCap ∧ s.ctes.next a x = 0 ∧ s.ctes.prev a x = 0

variable {a : Arch} {s : KernelState}

/-! ## One operation -/

theorem ctes_setEmptySlot (slot : Word) (c : CapT) :
    (setEmptySlot a s slot c).ctes = setEmpty a s.ctes slot :=
  congrArg CSpaceView.ctes (view_setEmptySlot a s slot c)

theorem ctes_deleteOne (h : deleteOne a s slot = .ok s') : s'.ctes = setEmpty a s.ctes slot :=
  congrArg CSpaceView.ctes (deleteOne_view h).2

theorem mdbInv_writeSlot (h : MdbInv a σ ls) (haddr : SlotAddr a d) (hd : σ.capType d = .nullCap)
    (hc : getCapType c ≠ .nullCap) : MdbInv a (Kernel.writeSlot σ d c) ([d] :: ls) := by
  obtain ⟨hn, hp⟩ := h.unlinked d hd
  refine h.singleton hd haddr hc ?_ ?_ ?_
  · intro x
    simp only [Kernel.writeSlot, Slots.next_setMdb, Slots.next_setCap, getNext_setFirstBadged,
      getNext_setRevocable, getNext_default]
    split
    next hx => rw [hx, hn]
    next => rfl
  · intro x
    simp only [Kernel.writeSlot, Slots.prev_setMdb, Slots.prev_setCap, getPrev_setFirstBadged,
      getPrev_setRevocable, getPrev_default]
    split
    next hx => rw [hx, hp]
    next => rfl
  · intro x
    rw [Kernel.writeSlot, Slots.capType_setMdb, Slots.capType_setCap]

/-- Every operation changes the lists as `onLists` says. -/
theorem mdbInv_exec (h : MdbInv a s.ctes ls) {op : MdbOp} (hpre : op.Pre a s)
    (hex : op.exec a s = .ok s') : MdbInv a s'.ctes (op.onLists ls) := by
  cases op with
  | writeSlot slot cap =>
    obtain ⟨haddr, hd, hc⟩ := hpre
    cases hex
    exact mdbInv_writeSlot h haddr hd hc
  | cteInsert newCap src dest =>
    obtain ⟨haddr, hd, hs, hc⟩ := hpre
    obtain ⟨σ', hσ, hex⟩ := bind_eq_ok.mp hex
    obtain rfl := pure_eq_ok.mp hex
    obtain ⟨r, -, -, e⟩ := cteInsert_effect hσ haddr.2
    exact h.of_insertEffect e hs hd haddr getCapType_sourceCapAfter hc
  | insertNewCap parent slot cap =>
    obtain ⟨haddr, hd, hs, hc⟩ := hpre
    cases hex
    exact h.of_insertEffect (insertNewCap_effect haddr.2) hs hd haddr rfl hc
  | cteMove newCap src dest =>
    obtain ⟨haddr, hd, hs, hc⟩ := hpre
    obtain ⟨σ', hσ, hex⟩ := bind_eq_ok.mp hex
    obtain rfl := pure_eq_ok.mp hex
    exact h.of_moveEffect (cteMove_effect hσ haddr.2).2 hs hd haddr hc
  | deleteOne slot =>
    rw [ctes_deleteOne hex]
    exact h.setEmpty slot
  | setEmpty slot cleanupInfo =>
    cases hex
    rw [ctes_setEmptySlot]
    exact h.setEmpty slot

/-- The lists hold the slots that `onSlots` computes. -/
theorem mem_onLists_iff (h : MdbInv a s.ctes ls) {op : MdbOp} (hpre : op.Pre a s)
    {S : Finset Word} (hS : ∀ x, x ∈ ls.flatten ↔ x ∈ S) (x : Word) :
    x ∈ (op.onLists ls).flatten ↔ x ∈ op.onSlots S := by
  cases op with
  | writeSlot slot cap => simp [MdbOp.onLists, MdbOp.onSlots, hS]
  | cteInsert newCap src dest =>
    obtain ⟨-, -, hs, -⟩ := hpre
    rw [MdbOp.onLists, mem_flatten_map_insertAfter ((h.live src).mpr hs), hS, MdbOp.onSlots,
      Finset.mem_insert]
  | insertNewCap parent slot cap =>
    obtain ⟨-, -, hs, -⟩ := hpre
    rw [MdbOp.onLists, mem_flatten_map_insertAfter ((h.live parent).mpr hs), hS, MdbOp.onSlots,
      Finset.mem_insert]
  | cteMove newCap src dest =>
    obtain ⟨-, hd, hs, -⟩ := hpre
    rw [MdbOp.onLists, mem_flatten_map_swap ((h.live src).mpr hs) (h.not_mem hd), hS,
      MdbOp.onSlots, Finset.mem_insert, Finset.mem_erase]
  | deleteOne slot =>
    rw [MdbOp.onLists, mem_flatten_map_erase h.rep.nodup, hS, MdbOp.onSlots, Finset.mem_erase]
  | setEmpty slot cleanupInfo =>
    rw [MdbOp.onLists, mem_flatten_map_erase h.rep.nodup, hS, MdbOp.onSlots, Finset.mem_erase]

/-! ## Runs -/

theorem mdbInv_empty (h : EmptyMdb a s) : MdbInv a s.ctes [] where
  rep := ⟨List.nodup_nil, by simp, by simp, by simp⟩
  addr := by simp
  live x := by simp [(h x).1]
  unlinked x _ := (h x).2

/-- The invariant of a run: the lists and their slots are the computed ones. -/
theorem mdbInv_run {ops : List MdbOp} (h : MdbRun a s₀ ops s) (h₀ : EmptyMdb a s₀) :
    MdbInv a s.ctes (mdbLists ops) ∧
      ∀ x, x ∈ (mdbLists ops).flatten ↔ x ∈ insertedSlots ops := by
  induction h with
  | nil => exact ⟨mdbInv_empty h₀, fun x => by simp [mdbLists, insertedSlots]⟩
  | snoc _ hpre hex ih =>
    obtain ⟨hinv, hslots⟩ := ih
    rw [mdbLists, insertedSlots, List.foldl_append, List.foldl_append]
    exact ⟨mdbInv_exec hinv hpre hex, mem_onLists_iff hinv hpre hslots⟩

/-- In every state of every run the mapping database is well formed: the links
are mutually inverse and acyclic, null slots are not linked, and the linked
slots are the inserted ones, in the sequences that the operations define. -/
theorem mdbRun_wellFormed {ops : List MdbOp} (h : MdbRun a s₀ ops s) (h₀ : EmptyMdb a s₀) :
    MdbWF a s.ctes ∧
      (∀ x, s.ctes.capType x = .nullCap → s.ctes.next a x = 0 ∧ s.ctes.prev a x = 0) ∧
      Represents 0 (s.ctes.links a) (mdbLists ops) ∧
      (∀ x, x ∈ (mdbLists ops).flatten ↔ x ∈ insertedSlots ops) ∧
      ∀ x, x ∈ insertedSlots ops ↔ s.ctes.capType x ≠ .nullCap := by
  obtain ⟨hinv, hslots⟩ := mdbInv_run h h₀
  exact ⟨hinv.mdbWF, hinv.unlinked, hinv.rep, hslots, fun x => (hslots x).symm.trans (hinv.live x)⟩

theorem emptyMdb_zero : EmptyMdb a KernelState.zero := by
  intro x
  exact ⟨capType_newNullCap, getNext_default, getPrev_default⟩

/-- An untyped cap at boot, an endpoint retyped from it and moved. -/
theorem mdbRun_wellFormed_move : ∃ s, MdbRun .riscv64 .zero
        [.writeSlot 0xffffffc000001000 (newUntypedCap .riscv64 0 0 12 0xffffffc000400000),
          .insertNewCap 0xffffffc000001000 0xffffffc000001020
            (newEndpointCap .riscv64 0 1 1 1 1 0xffffffc000400000),
          .cteMove (newEndpointCap .riscv64 0 1 1 1 1 0xffffffc000400000) 0xffffffc000001020
            0xffffffc000001040] s ∧
      Represents 0 (s.ctes.links .riscv64) [[0xffffffc000001000, 0xffffffc000001040]] := by
  have hroot : MdbRun .riscv64 .zero ([] ++
      [.writeSlot 0xffffffc000001000 (newUntypedCap .riscv64 0 0 12 0xffffffc000400000)]) _ :=
    .snoc .nil (by decide) rfl
  have hretype : MdbRun .riscv64 .zero (_ ++ [.insertNewCap 0xffffffc000001000 0xffffffc000001020
      (newEndpointCap .riscv64 0 1 1 1 1 0xffffffc000400000)]) _ :=
    .snoc hroot (by decide) rfl
  have hmove : MdbRun .riscv64 .zero
      (_ ++ [.cteMove (newEndpointCap .riscv64 0 1 1 1 1 0xffffffc000400000) 0xffffffc000001020
        0xffffffc000001040]) _ :=
    .snoc hretype (by decide) rfl
  exact ⟨_, hmove, (mdbRun_wellFormed hmove emptyMdb_zero).2.2.1⟩

end Rel4.Kernel
