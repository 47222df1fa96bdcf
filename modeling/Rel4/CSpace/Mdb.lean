import Rel4.CSpace.Cte
import Rel4.Lib.DList

/-!
The mapping database as linked lists.

A slot address survives the packing of `mdbNext` when its two low bits are
clear and its high bits repeat the sign bit (`SlotAddr`). On such addresses
each write of the source to a node is a pointer update of `Lib.DList`, and the
reads that follow are rewriting steps.
-/

namespace Rel4.CSpace
open Lib.Bitfield Lib.DList Common Function

variable {a : Arch}

/-- An address that `mdbNext` can store. -/
def Storable (a : Arch) (p : Word) : Prop := (Field.mdbNext a).Canonical (signExt a) p

instance (p : Word) : Decidable (Storable a p) := inferInstanceAs (Decidable (_ = _))

/-- The address of a slot. -/
def SlotAddr (a : Arch) (p : Word) : Prop := p ≠ 0 ∧ Storable a p

instance (p : Word) : Decidable (SlotAddr a p) := inferInstanceAs (Decidable (_ ∧ _))

theorem storable_zero : Storable a 0 := by
  cases a <;> decide

/-! ## One node -/

section Node

variable {n : MdbNode} {v : Word}

private theorem fits_mdbNext : (Field.mdbNext a).Fits := by cases a <;> decide

theorem storable_getNext : Storable a (getNext a n) := canonical_get (by cases a <;> decide)

@[simp] theorem getNext_setNext (hv : Storable a v) : getNext a ((Field.mdbNext a).set n v) = v :=
  get_set_self fits_mdbNext hv

@[simp] theorem getNext_setPrev : getNext a (Field.mdbPrev.set n v) = getNext a n :=
  get_set_of_disjoint (by cases a <;> decide)

@[simp] theorem getNext_setRevocable : getNext a (Field.mdbRevocable.set n v) = getNext a n :=
  get_set_of_disjoint (by cases a <;> decide)

@[simp] theorem getNext_setFirstBadged : getNext a (Field.mdbFirstBadged.set n v) = getNext a n :=
  get_set_of_disjoint (by cases a <;> decide)

@[simp] theorem getPrev_setPrev : getPrev a (Field.mdbPrev.set n v) = v :=
  get_set_self (by decide) (canonical_of_full rfl rfl rfl)

@[simp] theorem getPrev_setNext : getPrev a ((Field.mdbNext a).set n v) = getPrev a n :=
  get_set_of_disjoint (by cases a <;> decide)

@[simp] theorem getPrev_setRevocable : getPrev a (Field.mdbRevocable.set n v) = getPrev a n :=
  get_set_of_disjoint (by cases a <;> decide)

@[simp] theorem getPrev_setFirstBadged : getPrev a (Field.mdbFirstBadged.set n v) = getPrev a n :=
  get_set_of_disjoint (by cases a <;> decide)

@[simp] theorem getRevocable_setNext :
    getRevocable a ((Field.mdbNext a).set n v) = getRevocable a n :=
  get_set_of_disjoint (by cases a <;> decide)

@[simp] theorem getRevocable_setPrev : getRevocable a (Field.mdbPrev.set n v) = getRevocable a n :=
  get_set_of_disjoint (by cases a <;> decide)

@[simp] theorem getRevocable_setFirstBadged :
    getRevocable a (Field.mdbFirstBadged.set n v) = getRevocable a n :=
  get_set_of_disjoint (by cases a <;> decide)

@[simp] theorem getFirstBadged_setNext :
    getFirstBadged a ((Field.mdbNext a).set n v) = getFirstBadged a n :=
  get_set_of_disjoint (by cases a <;> decide)

@[simp] theorem getFirstBadged_setPrev :
    getFirstBadged a (Field.mdbPrev.set n v) = getFirstBadged a n :=
  get_set_of_disjoint (by cases a <;> decide)

theorem getRevocable_setRevocable (h : v = 0 ∨ v = 1) :
    getRevocable a (Field.mdbRevocable.set n v) = v := by
  refine get_set_self (by decide) ?_
  rcases h with rfl | rfl <;> cases a <;> decide

theorem getFirstBadged_setFirstBadged (h : v = 0 ∨ v = 1) :
    getFirstBadged a (Field.mdbFirstBadged.set n v) = v := by
  refine get_set_self (by decide) ?_
  rcases h with rfl | rfl <;> cases a <;> decide

@[simp] theorem getNext_default : getNext a defaultMdbNode = 0 := by
  cases a <;> decide

@[simp] theorem getPrev_default : getPrev a defaultMdbNode = 0 := by
  cases a <;> decide

@[simp] theorem getRevocable_default : getRevocable a defaultMdbNode = 0 := by
  cases a <;> decide

@[simp] theorem getFirstBadged_default : getFirstBadged a defaultMdbNode = 0 := by
  cases a <;> decide

variable {next revocable firstBadged prev : Word}

theorem getNext_newMdbNode (h : Storable a next) :
    getNext a (newMdbNode a next revocable firstBadged prev) = next :=
  get_build (i := 0) rfl rfl h

theorem getPrev_newMdbNode : getPrev a (newMdbNode a next revocable firstBadged prev) = prev :=
  get_build (i := 3) rfl rfl (canonical_of_full rfl rfl rfl)

theorem getRevocable_newMdbNode (h : revocable = 0 ∨ revocable = 1) :
    getRevocable a (newMdbNode a next revocable firstBadged prev) = revocable := by
  refine get_build (i := 1) rfl rfl ?_
  rcases h with rfl | rfl <;> cases a <;> decide

theorem getFirstBadged_newMdbNode (h : firstBadged = 0 ∨ firstBadged = 1) :
    getFirstBadged a (newMdbNode a next revocable firstBadged prev) = firstBadged := by
  refine get_build (i := 2) rfl rfl ?_
  rcases h with rfl | rfl <;> cases a <;> decide

end Node

/-! ## Reads after writes -/

namespace Slots

variable {σ : Slots} {p q v : Word} {n : MdbNode}

theorem cap_setCap : (σ.setCap p c q).cap = if q = p then c else (σ q).cap := by
  rw [setCap, update_apply]
  split <;> rfl

@[simp] theorem mdb_setCap : (σ.setCap p c q).cteMDBNode = (σ q).cteMDBNode := by
  rw [setCap, update_apply]
  split
  next h => rw [h]
  next => rfl

@[simp] theorem cap_setMdb : (σ.setMdb p n q).cap = (σ q).cap := by
  rw [setMdb, update_apply]
  split
  next h => rw [h]
  next => rfl

theorem mdb_setMdb : (σ.setMdb p n q).cteMDBNode = if q = p then n else (σ q).cteMDBNode := by
  rw [setMdb, update_apply]
  split <;> rfl

@[simp] theorem cap_setNext : (σ.setNext a p v q).cap = (σ q).cap := cap_setMdb
@[simp] theorem cap_setPrev : (σ.setPrev p v q).cap = (σ q).cap := cap_setMdb
@[simp] theorem cap_setFirstBadged : (σ.setFirstBadged p v q).cap = (σ q).cap := cap_setMdb

@[simp] theorem next_setCap : (σ.setCap p c).next a q = σ.next a q := by
  rw [next, next, mdb_setCap]

@[simp] theorem prev_setCap : (σ.setCap p c).prev a q = σ.prev a q := by
  rw [prev, prev, mdb_setCap]

theorem next_setMdb : (σ.setMdb p n).next a q = if q = p then getNext a n else σ.next a q := by
  rw [next, mdb_setMdb, apply_ite (getNext a)]
  rfl

theorem prev_setMdb : (σ.setMdb p n).prev a q = if q = p then getPrev a n else σ.prev a q := by
  rw [prev, mdb_setMdb, apply_ite (getPrev a)]
  rfl

theorem next_setNext (hv : Storable a v) :
    (σ.setNext a p v).next a q = if q = p then v else σ.next a q := by
  rw [setNext, next_setMdb, getNext_setNext hv]

@[simp] theorem prev_setNext : (σ.setNext a p v).prev a q = σ.prev a q := by
  rw [setNext, prev_setMdb, getPrev_setNext]
  split
  next h => rw [h, prev]
  next => rfl

theorem prev_setPrev : (σ.setPrev p v).prev a q = if q = p then v else σ.prev a q := by
  rw [setPrev, prev_setMdb, getPrev_setPrev]

@[simp] theorem next_setPrev : (σ.setPrev p v).next a q = σ.next a q := by
  rw [setPrev, next_setMdb, getNext_setPrev]
  split
  next h => rw [h, next]
  next => rfl

@[simp] theorem next_setFirstBadged : (σ.setFirstBadged p v).next a q = σ.next a q := by
  rw [setFirstBadged, next_setMdb, getNext_setFirstBadged]
  split
  next h => rw [h, next]
  next => rfl

@[simp] theorem prev_setFirstBadged : (σ.setFirstBadged p v).prev a q = σ.prev a q := by
  rw [setFirstBadged, prev_setMdb, getPrev_setFirstBadged]
  split
  next h => rw [h, prev]
  next => rfl

@[simp] theorem cap_patchNext : (σ.patchNext a p v q).cap = (σ q).cap := by
  unfold patchNext
  split <;> simp

@[simp] theorem cap_patchPrev : (σ.patchPrev p v q).cap = (σ q).cap := by
  unfold patchPrev
  split <;> simp

theorem next_patchNext (hv : Storable a v) :
    (σ.patchNext a p v).next a q = if p ≠ 0 ∧ q = p then v else σ.next a q := by
  by_cases hp : p ≠ 0
  · rw [patchNext, if_pos hp, next_setNext hv]
    simp only [ne_eq, hp, not_false_eq_true, true_and]
  · rw [patchNext, if_neg hp, if_neg (fun h => hp h.1)]

@[simp] theorem prev_patchNext : (σ.patchNext a p v).prev a q = σ.prev a q := by
  unfold patchNext
  split <;> simp

theorem prev_patchPrev : (σ.patchPrev p v).prev a q = if p ≠ 0 ∧ q = p then v else σ.prev a q := by
  by_cases hp : p ≠ 0
  · rw [patchPrev, if_pos hp, prev_setPrev]
    simp only [ne_eq, hp, not_false_eq_true, true_and]
  · rw [patchPrev, if_neg hp, if_neg (fun h => hp h.1)]

@[simp] theorem next_patchPrev : (σ.patchPrev p v).next a q = σ.next a q := by
  unfold patchPrev
  split <;> simp

/-! The flags, which no write to a pointer touches. -/

/-- The two flags of a slot. -/
def flags (a : Arch) (σ : Slots) (p : Word) : Word × Word :=
  (σ.revocable a p, σ.firstBadged a p)

@[simp] theorem flags_setCap : (σ.setCap p c).flags a q = σ.flags a q := by
  simp [flags, revocable, firstBadged]

theorem flags_setMdb : (σ.setMdb p n).flags a q =
    if q = p then (getRevocable a n, getFirstBadged a n) else σ.flags a q := by
  simp only [flags, revocable, firstBadged, mdb_setMdb]
  split <;> rfl

@[simp] theorem flags_setNext : (σ.setNext a p v).flags a q = σ.flags a q := by
  rw [setNext, flags_setMdb, getRevocable_setNext, getFirstBadged_setNext]
  split
  next h => rw [h, flags, revocable, firstBadged]
  next => rfl

@[simp] theorem flags_setPrev : (σ.setPrev p v).flags a q = σ.flags a q := by
  rw [setPrev, flags_setMdb, getRevocable_setPrev, getFirstBadged_setPrev]
  split
  next h => rw [h, flags, revocable, firstBadged]
  next => rfl

@[simp] theorem flags_patchNext : (σ.patchNext a p v).flags a q = σ.flags a q := by
  unfold patchNext
  split <;> simp

@[simp] theorem flags_patchPrev : (σ.patchPrev p v).flags a q = σ.flags a q := by
  unfold patchPrev
  split <;> simp

@[simp] theorem firstBadged_setPrev : (σ.setPrev p v).firstBadged a q = σ.firstBadged a q :=
  congrArg Prod.snd (flags_setPrev (a := a))

@[simp] theorem revocable_setPrev : (σ.setPrev p v).revocable a q = σ.revocable a q :=
  congrArg Prod.fst (flags_setPrev (a := a))

@[simp] theorem firstBadged_patchNext : (σ.patchNext a p v).firstBadged a q = σ.firstBadged a q :=
  congrArg Prod.snd (flags_patchNext)

@[simp] theorem revocable_patchNext : (σ.patchNext a p v).revocable a q = σ.revocable a q :=
  congrArg Prod.fst (flags_patchNext)

/-- The pointers of all slots. -/
def links (a : Arch) (σ : Slots) : Links Word := ⟨σ.next a, σ.prev a⟩

theorem storable_next : Storable a (σ.next a p) := storable_getNext

end Slots

/-- A cap is final if neither neighbour names its object. -/
theorem isFinalCap_eq_true_iff : isFinalCap a σ x = true ↔
      (σ.prev a x ≠ 0 → sameObjectAs a (σ (σ.prev a x)).cap (σ x).cap = false) ∧
        (σ.next a x ≠ 0 → sameObjectAs a (σ x).cap (σ (σ.next a x)).cap = false) := by
  unfold isFinalCap
  simp only
  split
  next hp =>
    have hp : σ.prev a x ≠ 0 ∧ sameObjectAs a (σ (σ.prev a x)).cap (σ x).cap = true := hp
    refine iff_of_false (by decide) fun h => ?_
    have hs := h.1 hp.1
    rw [hp.2] at hs
    cases hs
  next hp =>
    have hp' : σ.prev a x ≠ 0 → sameObjectAs a (σ (σ.prev a x)).cap (σ x).cap = false :=
      fun h0 => Bool.eq_false_iff.mpr fun hs => hp ⟨h0, hs⟩
    split
    next hn => exact iff_of_true rfl ⟨hp', fun h => absurd hn h⟩
    next hn =>
      rw [Bool.not_eq_true']
      exact ⟨fun hs => ⟨hp', fun _ => hs⟩, fun h => h.2 hn⟩

end Rel4.CSpace
