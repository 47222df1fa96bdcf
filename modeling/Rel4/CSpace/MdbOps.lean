import Rel4.CSpace.Swap

/-!
What each operation of `cte.rs` does to the lists of the mapping database.

`MdbInv a σ ls` says that the slots with a cap are linked as the lists `ls`.
`cte_insert` and `insert_new_cap` put the new slot directly behind its parent,
`cte_move` renames one slot, and `set_empty` takes one out.
-/

namespace Rel4.CSpace
open Lib.Bitfield Lib.DList Common
open Equiv (swap swap_apply_left swap_apply_of_ne_of_ne swap_apply_right)

variable {d x : Word} {a : Arch} {σ σ' : Slots} {ls : List (List Word)}

/-- The slots that hold a cap are linked as the lists `ls`, and the other slots
are not linked at all. -/
structure MdbInv (a : Arch) (σ : Slots) (ls : List (List Word)) : Prop where
  rep : Represents 0 (σ.links a) ls
  addr : ∀ x ∈ ls.flatten, SlotAddr a x
  live : ∀ x, x ∈ ls.flatten ↔ σ.capType x ≠ .nullCap
  unlinked : ∀ x, σ.capType x = .nullCap → σ.next a x = 0 ∧ σ.prev a x = 0

theorem capType_newNullCap : getCapType newNullCap = .nullCap := by decide

theorem getCapType_setUntypedFreeIndex (c : CapT) (v : Word) :
    getCapType (setUntypedFreeIndex a c v) = getCapType c := by
  rw [getCapType, setUntypedFreeIndex, stored_set_of_disjoint (by cases a <;> decide), getCapType]

namespace Slots

variable {p x : Word} {c : CapT} {v : Word}

theorem capType_setCap :
    (σ.setCap p c).capType x = if x = p then getCapType c else σ.capType x := by
  rw [capType, cap_setCap, apply_ite getCapType, capType]

@[simp] theorem capType_setMdb : (σ.setMdb p n).capType x = σ.capType x := by
  rw [capType, cap_setMdb, capType]

end Slots

namespace MdbInv

variable {p s d x y : Word}

section

variable (h : MdbInv a σ ls)
include h

theorem ne_zero (hx : σ.capType x ≠ .nullCap) : x ≠ 0 := (h.addr x ((h.live x).mpr hx)).1

theorem slotAddr (hx : σ.capType x ≠ .nullCap) : SlotAddr a x := h.addr x ((h.live x).mpr hx)

theorem not_mem (hx : σ.capType x = .nullCap) : x ∉ ls.flatten := fun hm => (h.live x).mp hm hx

theorem next_live (hn : σ.next a x ≠ 0) :
    σ.capType x ≠ .nullCap ∧ σ.capType (σ.next a x) ≠ .nullCap := by
  have hx : σ.capType x ≠ .nullCap := fun e => hn (h.unlinked x e).1
  refine ⟨hx, (h.live _).mp ?_⟩
  exact (h.rep.next_mem_or ((h.live x).mpr hx)).resolve_left hn

theorem prev_live (hp : σ.prev a x ≠ 0) :
    σ.capType x ≠ .nullCap ∧ σ.capType (σ.prev a x) ≠ .nullCap := by
  have hx : σ.capType x ≠ .nullCap := fun e => hp (h.unlinked x e).2
  refine ⟨hx, (h.live _).mp ?_⟩
  exact (h.rep.prev_mem_or ((h.live x).mpr hx)).resolve_left hp

theorem next_eq_iff (hx : x ≠ 0) (hy : y ≠ 0) : σ.next a x = y ↔ σ.prev a y = x := by
  constructor
  · intro e
    obtain ⟨hxl, hyl⟩ := h.next_live (e ▸ hy)
    exact (h.rep.next_eq_iff ((h.live x).mpr hxl) ((h.live y).mpr (e ▸ hyl))).mp e
  · intro e
    obtain ⟨hyl, hxl⟩ := h.prev_live (e ▸ hx)
    exact (h.rep.next_eq_iff ((h.live x).mpr (e ▸ hxl)) ((h.live y).mpr hyl)).mpr e

/-- Along a chain the position grows, so no slot leads back to itself. -/
theorem not_follows_cycle : ¬ Relation.TransGen (σ.Follows a) x x := by
  have hstep : ∀ {u v}, σ.Follows a u v → ∃ l ∈ ls, u ∈ l ∧ v ∈ l ∧ l.idxOf u < l.idxOf v := by
    rintro u v ⟨-, hv, rfl⟩
    obtain ⟨hul, hvl⟩ := h.next_live hv.1
    obtain ⟨l, hl, hu⟩ := List.mem_flatten.mp ((h.live u).mpr hul)
    have hnext : σ.next a u = succIn 0 l u := h.rep.next_eq l hl u hu
    have hnd := h.rep.chain_nodup hl
    obtain ⟨l₁, l₂, rfl, hu₁, -⟩ := exists_split hu hnd
    rw [succIn_append_cons hu₁] at hnext
    cases l₂ with
    | nil => exact absurd hnext hv.1
    | cons w l₂ =>
      rw [List.headD_cons] at hnext
      rw [hnext]
      have hw : w ∉ l₁ ∧ w ≠ u := by
        have := List.nodup_append.mp hnd
        grind
      refine ⟨_, hl, by simp, by simp, ?_⟩
      rw [List.idxOf_append_of_notMem hu₁, List.idxOf_append_of_notMem hw.1]
      simp [List.idxOf_cons_ne _ hw.2.symm]
  have hrun : ∀ {u v}, Relation.TransGen (σ.Follows a) u v →
      ∃ l ∈ ls, u ∈ l ∧ v ∈ l ∧ l.idxOf u < l.idxOf v := by
    intro u v huv
    induction huv with
    | single h1 => exact hstep h1
    | tail _ h1 ih =>
      obtain ⟨l, hl, hu, hv, hlt⟩ := ih
      obtain ⟨k, hk, hv', hw, hlt'⟩ := hstep h1
      obtain rfl := chain_unique h.rep.nodup hl hk hv hv'
      exact ⟨l, hl, hu, hw, Nat.lt_trans hlt hlt'⟩
  intro hx
  obtain ⟨l, -, -, -, hlt⟩ := hrun hx
  exact Nat.lt_irrefl _ hlt

theorem mdbWF : MdbWF a σ where
  prev_storable s _ := by
    by_cases hp : σ.prev a s = 0
    · rw [hp]
      exact storable_zero
    · exact (h.slotAddr (h.prev_live hp).2).2
  inverse s n hs hn := h.next_eq_iff hs.1 hn.1
  acyclic _ := h.not_follows_cycle

end

/-! ### Changes of the lists -/

section

variable (h : MdbInv a σ ls)
include h

theorem congr (hnext : ∀ x, σ'.next a x = σ.next a x) (hprev : ∀ x, σ'.prev a x = σ.prev a x)
    (hnull : ∀ x, σ'.capType x = .nullCap ↔ σ.capType x = .nullCap) : MdbInv a σ' ls where
  rep := h.rep.congr (fun x _ => hnext x) (fun x _ => hprev x)
  addr := h.addr
  live x := by rw [h.live, ne_eq, ne_eq, hnull]
  unlinked x hx := by
    rw [hnext, hprev]
    exact h.unlinked x ((hnull x).mp hx)

/-- Slots without caps may be cleared. -/
theorem clear (hσ : ∀ x, σ' x = σ x ∨ (σ' x = emptyCte ∧ σ.capType x = .nullCap)) :
    MdbInv a σ' ls := by
  refine h.congr (fun x => ?_) (fun x => ?_) fun x => ?_
  · rcases hσ x with e | ⟨e, hx⟩
    · rw [Slots.next, e, Slots.next]
    · rw [Slots.next, e, (h.unlinked x hx).1]
      exact getNext_default
  · rcases hσ x with e | ⟨e, hx⟩
    · rw [Slots.prev, e, Slots.prev]
    · rw [Slots.prev, e, (h.unlinked x hx).2]
      exact getPrev_default
  · rcases hσ x with e | ⟨e, hx⟩
    · rw [Slots.capType, e, Slots.capType]
    · rw [Slots.capType, e]
      exact ⟨fun _ => hx, fun _ => capType_newNullCap⟩

theorem insertAfter (hp : σ.capType p ≠ .nullCap) (hd : σ.capType d = .nullCap)
    (haddr : SlotAddr a d) (hk : k ≠ .nullCap)
    (hnext : ∀ x, σ'.next a x = if x = p then d else if x = d then σ.next a p else σ.next a x)
    (hprev : ∀ x, σ'.prev a x =
      if σ.next a p ≠ 0 ∧ x = σ.next a p then d else if x = d then p else σ.prev a x)
    (htype : ∀ x, σ'.capType x = if x = d then k else σ.capType x) :
    MdbInv a σ' (ls.map (Lib.DList.insertAfter p d)) := by
  have hpm := (h.live p).mpr hp
  have hdm := h.not_mem hd
  have hmem : ∀ x, x ∈ (ls.map (Lib.DList.insertAfter p d)).flatten ↔ x = d ∨ x ∈ ls.flatten :=
    fun _ => mem_flatten_map_insertAfter hpm
  have hnd : σ.next a p ≠ d := by
    rintro rfl
    exact (h.next_live haddr.1).2 hd
  refine ⟨?_, ?_, ?_, ?_⟩
  · refine (h.rep.insertAfter hpm hdm haddr.1).congr (fun x _ => hnext x) ?_
    intro x hx
    have hx0 : x ≠ 0 := by
      rcases (hmem x).mp hx with rfl | hx
      · exact haddr.1
      · exact (h.addr x hx).1
    show σ'.prev a x = if x = d then p else if x = σ.next a p then d else σ.prev a x
    rw [hprev]
    grind
  · intro x hx
    rcases (hmem x).mp hx with rfl | hx
    · exact haddr
    · exact h.addr x hx
  · intro x
    rw [hmem, htype, h.live]
    grind
  · intro x hx
    rw [htype] at hx
    have hxd : x ≠ d := by
      rintro rfl
      rw [if_pos rfl] at hx
      exact hk hx
    rw [if_neg hxd] at hx
    have hxp : x ≠ p := by
      rintro rfl
      exact hp hx
    have hxn : ¬ (σ.next a p ≠ 0 ∧ x = σ.next a p) := by
      rintro ⟨hn, rfl⟩
      exact (h.next_live hn).2 hx
    rw [hnext, hprev, if_neg hxp, if_neg hxd, if_neg hxn, if_neg hxd]
    exact h.unlinked x hx

theorem unlink (hs : σ.capType s ≠ .nullCap) (hnext : ∀ x, σ'.next a x =
      if x = s then 0 else if σ.prev a s ≠ 0 ∧ x = σ.prev a s then σ.next a s else σ.next a x)
    (hprev : ∀ x, σ'.prev a x =
      if x = s then 0 else if σ.next a s ≠ 0 ∧ x = σ.next a s then σ.prev a s else σ.prev a x)
    (htype : ∀ x, σ'.capType x = if x = s then .nullCap else σ.capType x) :
    MdbInv a σ' (ls.map (·.erase s)) := by
  have hmem : ∀ x, x ∈ (ls.map (·.erase s)).flatten ↔ x ≠ s ∧ x ∈ ls.flatten :=
    fun _ => mem_flatten_map_erase h.rep.nodup
  refine ⟨?_, ?_, ?_, ?_⟩
  · refine (h.rep.unlink ((h.live s).mpr hs)).congr ?_ ?_
    · intro x hx
      have hx0 := (h.addr x ((hmem x).mp hx).2).1
      show σ'.next a x = if x = s then 0 else if x = σ.prev a s then σ.next a s else σ.next a x
      rw [hnext]
      grind
    · intro x hx
      have hx0 := (h.addr x ((hmem x).mp hx).2).1
      show σ'.prev a x = if x = s then 0 else if x = σ.next a s then σ.prev a s else σ.prev a x
      rw [hprev]
      grind
  · intro x hx
    exact h.addr x ((hmem x).mp hx).2
  · intro x
    rw [hmem, htype, h.live]
    grind
  · intro x hx
    rw [hnext, hprev]
    by_cases hxs : x = s
    · rw [if_pos hxs, if_pos hxs]
      exact ⟨rfl, rfl⟩
    rw [htype, if_neg hxs] at hx
    have hxp : ¬ (σ.prev a s ≠ 0 ∧ x = σ.prev a s) := by
      rintro ⟨hp, rfl⟩
      exact (h.prev_live hp).2 hx
    have hxn : ¬ (σ.next a s ≠ 0 ∧ x = σ.next a s) := by
      rintro ⟨hn, rfl⟩
      exact (h.next_live hn).2 hx
    rw [if_neg hxs, if_neg hxs, if_neg hxp, if_neg hxn]
    exact h.unlinked x hx

theorem rename (f : Equiv.Perm Word) (hf0 : f 0 = 0)
    (haddr : ∀ x, σ.capType x ≠ .nullCap → SlotAddr a (f x))
    (hnext : ∀ x, σ.capType x ≠ .nullCap → σ'.next a (f x) = f (σ.next a x))
    (hprev : ∀ x, σ.capType x ≠ .nullCap → σ'.prev a (f x) = f (σ.prev a x))
    (htype : ∀ x, σ'.capType (f x) ≠ .nullCap ↔ σ.capType x ≠ .nullCap)
    (hunlinked : ∀ x, σ.capType x = .nullCap → σ'.next a (f x) = 0 ∧ σ'.prev a (f x) = 0) :
    MdbInv a σ' (ls.map (·.map f)) := by
  have hmem : ∀ x, f x ∈ (ls.map (·.map f)).flatten ↔ x ∈ ls.flatten := by
    intro x
    rw [← List.map_flatten, List.mem_map_of_injective f.injective]
  have hall : ∀ {P : Word → Prop}, (∀ x, P (f x)) → ∀ y, P y := by
    intro P hP y
    rw [← f.apply_symm_apply y]
    exact hP _
  refine ⟨?_, ?_, ?_, ?_⟩
  · refine (h.rep.rename f hf0).congr ?_ ?_
    · refine hall fun x hx => ?_
      show σ'.next a (f x) = f (σ.next a (f.symm (f x)))
      rw [f.symm_apply_apply, hnext x ((h.live x).mp ((hmem x).mp hx))]
    · refine hall fun x hx => ?_
      show σ'.prev a (f x) = f (σ.prev a (f.symm (f x)))
      rw [f.symm_apply_apply, hprev x ((h.live x).mp ((hmem x).mp hx))]
  · refine hall fun x hx => ?_
    exact haddr x ((h.live x).mp ((hmem x).mp hx))
  · refine hall fun x => ?_
    rw [hmem, htype, h.live]
  · refine hall fun x hx => ?_
    exact hunlinked x (by_contra fun hne => (htype x).mpr hne hx)

theorem singleton (hd : σ.capType d = .nullCap) (haddr : SlotAddr a d) (hk : k ≠ .nullCap)
    (hnext : ∀ x, σ'.next a x = σ.next a x) (hprev : ∀ x, σ'.prev a x = σ.prev a x)
    (htype : ∀ x, σ'.capType x = if x = d then k else σ.capType x) : MdbInv a σ' ([d] :: ls) := by
  obtain ⟨hn, hp⟩ := h.unlinked d hd
  refine ⟨?_, ?_, ?_, ?_⟩
  · refine (h.rep.singleton (h.not_mem hd) haddr.1 hn hp).congr ?_ ?_
    · exact fun x _ => hnext x
    · exact fun x _ => hprev x
  · intro x hx
    rw [List.flatten_cons, List.singleton_append, List.mem_cons] at hx
    rcases hx with rfl | hx
    · exact haddr
    · exact h.addr x hx
  · intro x
    rw [List.flatten_cons, List.singleton_append, List.mem_cons, htype, h.live]
    grind
  · intro x hx
    rw [htype] at hx
    have hxd : x ≠ d := by
      rintro rfl
      rw [if_pos rfl] at hx
      exact hk hx
    rw [if_neg hxd] at hx
    rw [hnext, hprev]
    exact h.unlinked x hx

end

end MdbInv

/-! ## The operations -/

/-- What linking a new slot behind `src` writes. -/
structure InsertEffect (a : Arch) (σ σ' : Slots) (srcCap newCap : CapT) (src dest : Word)
    (newFlags : Word × Word) : Prop where
  next : ∀ x, σ'.next a x =
    if x = src then dest else if x = dest then σ.next a src else σ.next a x
  prev : ∀ x, σ'.prev a x =
    if σ.next a src ≠ 0 ∧ x = σ.next a src then dest else if x = dest then src else σ.prev a x
  cap : ∀ x, (σ' x).cap = if x = dest then newCap else if x = src then srcCap else (σ x).cap
  flags : ∀ x, σ'.flags a x = if x = dest then newFlags else σ.flags a x

/-- The cap that `setUntypedCapAsFull` leaves in the source slot. -/
def sourceCapAfter (a : Arch) (srcCap newCap : CapT) : CapT :=
  if getCapType srcCap = .untypedCap ∧ getCapType newCap = .untypedCap ∧
      getUntypedPtr a srcCap = getUntypedPtr a newCap ∧
      getUntypedBlockSize a srcCap = getUntypedBlockSize a newCap then
    setUntypedFreeIndex a srcCap (maxFreeIndex (getUntypedBlockSize a srcCap))
  else srcCap

variable {c : CapT} {src dest s : Word}

/-- Where the source keeps its cap, only the new slot has another one. -/
theorem InsertEffect.cap_eq (e : InsertEffect a σ σ' (σ src).cap c src dest fl) (x : Word) :
    (σ' x).cap = if x = dest then c else (σ x).cap := by
  rw [e.cap]
  split
  · rfl
  · split
    next hx => rw [hx]
    next => rfl

theorem getCapType_sourceCapAfter : getCapType (sourceCapAfter a srcCap c) = getCapType srcCap := by
  unfold sourceCapAfter
  split
  · exact getCapType_setUntypedFreeIndex _ _
  · rfl

theorem Slots.setCap_self : σ.setCap s (σ s).cap = σ := Function.update_eq_self s σ

/-- `setUntypedCapAsFull` does not fail: the slot it asserts about is the one
the cap was read from. -/
theorem setUntypedCapAsFull_eq : setUntypedCapAsFull a σ (σ s).cap c s =
      .ok (σ.setCap s (sourceCapAfter a (σ s).cap c)) := by
  unfold setUntypedCapAsFull sourceCapAfter
  split
  next h =>
    have hs : σ.capType s = .untypedCap := h.1
    simp only [hs, ensure, if_true, h.1, h.2, true_and]
    split
    · rfl
    · rw [Slots.setCap_self]
      rfl
  next h =>
    rw [if_neg (fun h' => h ⟨h'.1, h'.2.1⟩), Slots.setCap_self]

theorem cap_cteInsert (h : cteInsert a σ c src dest = .ok σ') (x : Word) :
    (σ' x).cap = if x = dest then c
      else if x = src then sourceCapAfter a (σ src).cap c else (σ x).cap := by
  obtain ⟨_, -, h⟩ := bind_eq_ok.mp h
  obtain ⟨_, -, h⟩ := bind_eq_ok.mp h
  obtain ⟨_, -, h⟩ := bind_eq_ok.mp h
  obtain ⟨σ₁, hfull, h⟩ := bind_eq_ok.mp h
  rw [setUntypedCapAsFull_eq] at hfull
  cases hfull
  obtain rfl := pure_eq_ok.mp h
  simp only [Slots.cap_patchPrev, Slots.cap_setNext, Slots.cap_setMdb, Slots.cap_setCap]

theorem cteInsert_effect (h : cteInsert a σ c src dest = .ok σ') (hdest : Storable a dest) :
    ∃ r, isCapRevocable a c (σ src).cap = .ok r ∧ σ.capType dest = .nullCap ∧
      InsertEffect a σ σ' (sourceCapAfter a (σ src).cap c) c src dest (flag r, flag r) := by
  have hcap := cap_cteInsert h
  obtain ⟨r, hr, h⟩ := bind_eq_ok.mp h
  obtain ⟨_, hnull, h⟩ := bind_eq_ok.mp h
  obtain ⟨_, -, h⟩ := bind_eq_ok.mp h
  obtain ⟨σ₁, hfull, h⟩ := bind_eq_ok.mp h
  rw [setUntypedCapAsFull_eq] at hfull
  cases hfull
  obtain rfl := pure_eq_ok.mp h
  refine ⟨r, hr, ensure_eq_ok.mp hnull, ?_, ?_, hcap, ?_⟩
  · intro x
    simp only [Slots.next_patchPrev, Slots.next_setNext hdest, Slots.next_setMdb,
      Slots.next_setCap, getNext_setFirstBadged, getNext_setRevocable, getNext_setPrev]
    rfl
  · intro x
    simp only [Slots.prev_patchPrev, Slots.prev_setNext, Slots.prev_setMdb, Slots.prev_setCap,
      getNext_setFirstBadged, getNext_setRevocable, getNext_setPrev, getPrev_setFirstBadged,
      getPrev_setRevocable, getPrev_setPrev]
    rfl
  · intro x
    simp only [Slots.flags_patchPrev, Slots.flags_setNext, Slots.flags_setMdb,
      Slots.flags_setCap, getRevocable_setFirstBadged,
      getRevocable_setRevocable (flag_zero_or_one r),
      getFirstBadged_setFirstBadged (flag_zero_or_one r)]

theorem insertNewCap_effect (hdest : Storable a dest) :
    InsertEffect a σ (insertNewCap a σ src dest c) (σ src).cap c src dest (1, 1) := by
  refine ⟨?_, ?_, ?_, ?_⟩
  · intro x
    simp only [insertNewCap, Slots.next_patchPrev, Slots.next_setNext hdest, Slots.next_setMdb,
      Slots.next_setCap, getNext_newMdbNode Slots.storable_next]
  · intro x
    simp only [insertNewCap, Slots.prev_patchPrev, Slots.prev_setNext, Slots.prev_setMdb,
      Slots.prev_setCap, getPrev_newMdbNode]
  · intro x
    simp only [insertNewCap, Slots.cap_patchPrev, Slots.cap_setNext, Slots.cap_setMdb,
      Slots.cap_setCap]
    grind
  · intro x
    simp only [insertNewCap, Slots.flags_patchPrev, Slots.flags_setNext, Slots.flags_setMdb,
      Slots.flags_setCap, getRevocable_newMdbNode (.inr rfl), getFirstBadged_newMdbNode (.inr rfl)]

/-- What moving the cap of `src` to `dest` writes. -/
structure MoveEffect (a : Arch) (σ σ' : Slots) (newCap : CapT) (src dest : Word) : Prop where
  next : ∀ x, σ'.next a x =
    if σ.prev a src ≠ 0 ∧ x = σ.prev a src then dest
    else if x = src then 0 else if x = dest then σ.next a src else σ.next a x
  prev : ∀ x, σ'.prev a x =
    if σ.next a src ≠ 0 ∧ x = σ.next a src then dest
    else if x = src then 0 else if x = dest then σ.prev a src else σ.prev a x
  cap : ∀ x, (σ' x).cap =
    if x = src then newNullCap else if x = dest then newCap else (σ x).cap
  flags : ∀ x, σ'.flags a x =
    if x = src then (0, 0) else if x = dest then σ.flags a src else σ.flags a x

theorem cteMove_effect (h : cteMove a σ c src dest = .ok σ') (hdest : Storable a dest) :
    σ.capType dest = .nullCap ∧ MoveEffect a σ σ' c src dest := by
  obtain ⟨_, hnull, h⟩ := bind_eq_ok.mp h
  obtain ⟨_, -, h⟩ := bind_eq_ok.mp h
  obtain rfl := pure_eq_ok.mp h
  refine ⟨ensure_eq_ok.mp hnull, ?_, ?_, ?_, ?_⟩
  · intro x
    simp only [Slots.next_patchPrev, Slots.next_patchNext hdest, Slots.next_setMdb,
      Slots.next_setCap, getNext_newMdbNode storable_zero]
    rfl
  · intro x
    simp only [Slots.prev_patchPrev, Slots.prev_patchNext, Slots.prev_setMdb,
      Slots.prev_setCap, getPrev_newMdbNode]
    rfl
  · intro x
    simp only [Slots.cap_patchPrev, Slots.cap_patchNext, Slots.cap_setMdb, Slots.cap_setCap]
  · intro x
    simp only [Slots.flags_patchPrev, Slots.flags_patchNext, Slots.flags_setMdb,
      Slots.flags_setCap, getRevocable_newMdbNode (.inl rfl), getFirstBadged_newMdbNode (.inl rfl)]
    rfl

/-- What taking the slot `s` out of its list writes. -/
structure EmptyEffect (a : Arch) (σ σ' : Slots) (s : Word) : Prop where
  next : ∀ x, σ'.next a x =
    if x = s then 0 else if σ.prev a s ≠ 0 ∧ x = σ.prev a s then σ.next a s else σ.next a x
  prev : ∀ x, σ'.prev a x =
    if x = s then 0 else if σ.next a s ≠ 0 ∧ x = σ.next a s then σ.prev a s else σ.prev a x
  cap : ∀ x, (σ' x).cap = if x = s then newNullCap else (σ x).cap
  flags : ∀ x, σ'.flags a x =
    if x = s then (0, 0)
    else if σ.next a s ≠ 0 ∧ x = σ.next a s then
      (σ.revocable a x, flag (σ.firstBadged a x ≠ 0 ∨ σ.firstBadged a s ≠ 0))
    else σ.flags a x

theorem setEmpty_of_null (hs : σ.capType s = .nullCap) : setEmpty a σ s = σ := by
  rw [setEmpty, if_neg (not_not.mpr hs)]

/-- The write of `set_empty` to the slot behind the removed one. -/
private theorem flags_mergeFirstBadged (hw : w = 0 ∨ w = 1) :
    ((σ.setPrev p v).setFirstBadged p w).flags a x =
      if x = p then (σ.revocable a x, w) else σ.flags a x := by
  rw [Slots.setFirstBadged, Slots.flags_setMdb, getRevocable_setFirstBadged,
    getFirstBadged_setFirstBadged hw, Slots.flags_setPrev]
  split
  next h =>
    subst h
    exact congrArg (·, w) Slots.revocable_setPrev
  next => rfl

theorem setEmpty_effect (hs : σ.capType s ≠ .nullCap) : EmptyEffect a σ (setEmpty a σ s) s := by
  have hnext : getNext a (σ s).cteMDBNode = σ.next a s := rfl
  have hprev : getPrev a (σ s).cteMDBNode = σ.prev a s := rfl
  have hfb : getFirstBadged a (σ s).cteMDBNode = σ.firstBadged a s := rfl
  unfold setEmpty
  simp only [if_pos hs, hnext, hprev, hfb]
  by_cases hn : σ.next a s ≠ 0
  · simp only [if_pos hn]
    refine ⟨?_, ?_, ?_, ?_⟩
    · intro x
      simp only [Slots.next_setMdb, Slots.next_setCap, Slots.next_setFirstBadged,
        Slots.next_setPrev, Slots.next_patchNext Slots.storable_next, getNext_default]
    · intro x
      simp only [Slots.prev_setMdb, Slots.prev_setCap, Slots.prev_setFirstBadged,
        Slots.prev_setPrev, Slots.prev_patchNext, getPrev_default, ne_eq, hn, not_false_eq_true,
        true_and]
    · intro x
      simp only [Slots.cap_setMdb, Slots.cap_setCap, Slots.cap_setFirstBadged, Slots.cap_setPrev,
        Slots.cap_patchNext]
    · intro x
      simp only [Slots.flags_setMdb, Slots.flags_setCap, getRevocable_default,
        getFirstBadged_default, flags_mergeFirstBadged (flag_zero_or_one _),
        Slots.flags_patchNext, Slots.revocable_patchNext, Slots.firstBadged_setPrev,
        Slots.firstBadged_patchNext, ne_eq, hn, not_false_eq_true, true_and]
      grind
  · simp only [if_neg hn]
    have hno : ∀ x, ¬ (σ.next a s ≠ 0 ∧ x = σ.next a s) := fun x h => hn h.1
    refine ⟨?_, ?_, ?_, ?_⟩
    · intro x
      simp only [Slots.next_setMdb, Slots.next_setCap, Slots.next_patchNext Slots.storable_next,
        getNext_default]
    · intro x
      simp only [Slots.prev_setMdb, Slots.prev_setCap, Slots.prev_patchNext, getPrev_default,
        if_neg (hno x)]
    · intro x
      simp only [Slots.cap_setMdb, Slots.cap_setCap, Slots.cap_patchNext]
    · intro x
      simp only [Slots.flags_setMdb, Slots.flags_setCap, Slots.flags_patchNext,
        getRevocable_default, getFirstBadged_default, if_neg (hno x)]

theorem capType_setEmpty (x : Word) :
    (setEmpty a σ s).capType x = if x = s then .nullCap else σ.capType x := by
  by_cases hs : σ.capType s = .nullCap
  · rw [setEmpty_of_null hs]
    split
    next hx => rw [hx, hs]
    next => rfl
  show getCapType _ = _
  rw [(setEmpty_effect hs).cap]
  split
  · exact capType_newNullCap
  · rfl

/-! ### Their effect on the lists -/

namespace MdbInv

theorem of_insertEffect (h : MdbInv a σ ls) (e : InsertEffect a σ σ' srcCap c src dest newFlags)
    (hsrc : σ.capType src ≠ .nullCap) (hdest : σ.capType dest = .nullCap)
    (haddr : SlotAddr a dest) (hsame : getCapType srcCap = σ.capType src)
    (hc : getCapType c ≠ .nullCap) :
    MdbInv a σ' (ls.map (Lib.DList.insertAfter src dest)) := by
  refine h.insertAfter hsrc hdest haddr hc e.next e.prev fun x => ?_
  show getCapType (σ' x).cap = _
  rw [e.cap]
  split
  · rfl
  · split
    next hx => rw [hx, hsame]
    next => rfl

/-- One direction of the pointers after a move, the other being its inverse `g`. -/
private theorem moved_pointer {f g f' : Word → Word} (hne : src ≠ dest)
    (hf' : ∀ x, f' x = if g src ≠ 0 ∧ x = g src then dest
      else if x = src then 0 else if x = dest then f src else f x)
    (hinv : ∀ x, x ≠ 0 → (f x = src ↔ g src = x)) (hfd : ∀ x, f x ≠ dest) (hgd : g src ≠ dest)
    (hself : f src ≠ src) (hx0 : x ≠ 0) (hxd : x ≠ dest) :
    f' (swap src dest x) = swap src dest (f x) := by
  by_cases hxs : x = src
  · subst hxs
    rw [swap_apply_left, hf', if_neg (fun h => hgd h.2.symm), if_neg hne.symm, if_pos rfl,
      swap_apply_of_ne_of_ne hself (hfd _)]
  rw [swap_apply_of_ne_of_ne hxs hxd, hf']
  by_cases hg : g src = x
  · rw [if_pos ⟨fun h0 => hx0 (hg ▸ h0), hg.symm⟩, (hinv x hx0).mpr hg, swap_apply_left]
  · rw [if_neg (fun h => hg h.2.symm), if_neg hxs, if_neg hxd,
      swap_apply_of_ne_of_ne (fun h => hg ((hinv x hx0).mp h)) (hfd _)]

section

variable (h : MdbInv a σ ls)
include h

theorem next_ne_of_null (hd : σ.capType d = .nullCap) (hd0 : d ≠ 0) (x : Word) :
    σ.next a x ≠ d := by
  rintro rfl
  exact (h.next_live hd0).2 hd

theorem prev_ne_of_null (hd : σ.capType d = .nullCap) (hd0 : d ≠ 0) (x : Word) :
    σ.prev a x ≠ d := by
  rintro rfl
  exact (h.prev_live hd0).2 hd

theorem of_moveEffect (e : MoveEffect a σ σ' c src dest) (hsrc : σ.capType src ≠ .nullCap)
    (hdest : σ.capType dest = .nullCap) (haddr : SlotAddr a dest) (hc : getCapType c ≠ .nullCap) :
    MdbInv a σ' (ls.map (·.map (swap src dest))) := by
  have hne : src ≠ dest := by
    rintro rfl
    exact hsrc hdest
  have hsaddr := h.slotAddr hsrc
  have hnself := h.mdbWF.next_ne_self hsaddr
  have hpself := h.mdbWF.prev_ne_self hsaddr
  have hxd : ∀ {x}, σ.capType x ≠ .nullCap → x ≠ dest := by
    rintro x hx rfl
    exact hx hdest
  have htype : ∀ x, σ'.capType x =
      if x = src then .nullCap else if x = dest then getCapType c else σ.capType x := by
    intro x
    show getCapType (σ' x).cap = _
    rw [e.cap]
    split
    · exact capType_newNullCap
    · split <;> rfl
  refine h.rename (swap src dest) ?_ ?_ ?_ ?_ ?_ ?_
  · exact swap_apply_of_ne_of_ne hsaddr.1.symm haddr.1.symm
  · intro x hx
    by_cases hxs : x = src
    · rw [hxs, swap_apply_left]
      exact haddr
    · rw [swap_apply_of_ne_of_ne hxs (hxd hx)]
      exact h.slotAddr hx
  · intro x hx
    exact moved_pointer hne e.next (fun x hx => h.next_eq_iff hx hsaddr.1)
      (h.next_ne_of_null hdest haddr.1) (h.prev_ne_of_null hdest haddr.1 src) hnself
      (h.ne_zero hx) (hxd hx)
  · intro x hx
    exact moved_pointer hne e.prev (fun x hx => (h.next_eq_iff hsaddr.1 hx).symm)
      (h.prev_ne_of_null hdest haddr.1) (h.next_ne_of_null hdest haddr.1 src) hpself
      (h.ne_zero hx) (hxd hx)
  · intro x
    rw [htype]
    by_cases hxs : x = src
    · rw [hxs, swap_apply_left, if_neg hne.symm, if_pos rfl]
      exact ⟨fun _ => hsrc, fun _ => hc⟩
    · by_cases hxd : x = dest
      · rw [hxd, swap_apply_right, if_pos rfl, hdest]
      · rw [swap_apply_of_ne_of_ne hxs hxd, if_neg hxs, if_neg hxd]
  · intro x hx
    by_cases hxd : x = dest
    · rw [hxd, swap_apply_right, e.next, e.prev, if_neg (fun h => hpself h.2.symm),
        if_pos rfl, if_neg (fun h => hnself h.2.symm), if_pos rfl]
      exact ⟨rfl, rfl⟩
    have hxs : x ≠ src := by
      rintro rfl
      exact hsrc hx
    have hxp : ¬ (σ.prev a src ≠ 0 ∧ x = σ.prev a src) := by
      rintro ⟨hp, rfl⟩
      exact (h.prev_live hp).2 hx
    have hxn : ¬ (σ.next a src ≠ 0 ∧ x = σ.next a src) := by
      rintro ⟨hn, rfl⟩
      exact (h.next_live hn).2 hx
    rw [swap_apply_of_ne_of_ne hxs hxd, e.next, e.prev, if_neg hxp, if_neg hxs,
      if_neg hxd, if_neg hxn, if_neg hxs, if_neg hxd]
    exact h.unlinked x hx

theorem setEmpty (s : Word) : MdbInv a (CSpace.setEmpty a σ s) (ls.map (·.erase s)) := by
  by_cases hs : σ.capType s = .nullCap
  · have hid : ls.map (·.erase s) = ls.map id := List.map_congr_left fun l hl =>
      List.erase_of_not_mem fun hm => h.not_mem hs (List.mem_flatten_of_mem hl hm)
    rw [setEmpty_of_null hs, hid, List.map_id]
    exact h
  · have e := setEmpty_effect (a := a) hs
    exact h.unlink hs e.next e.prev capType_setEmpty

/-- `cte_swap` of two slots that are not neighbours renames them. -/
theorem cteSwap (hs : SlotAddr a s) (ht : SlotAddr a t) (hne : s ≠ t) (hn : ¬ Neighbours a σ s t) :
    MdbInv a (CSpace.cteSwap a σ (σ s).cap s (σ t).cap t) (ls.map (·.map (swap s t))) := by
  have hwf := h.mdbWF
  have hzero : swap s t 0 = 0 := swap_apply_of_ne_of_ne hs.1.symm ht.1.symm
  have haddr : ∀ {x}, SlotAddr a x → SlotAddr a (swap s t x) := by
    intro x hx
    rw [Equiv.swap_apply_def]
    split
    · exact ht
    · split
      · exact hs
      · exact hx
  have hnext : ∀ {x}, SlotAddr a x →
      (CSpace.cteSwap a σ (σ s).cap s (σ t).cap t).next a (swap s t x) =
        swap s t (σ.next a x) := by
    intro x hx
    rw [next_cteSwap_eq_rename hwf hs ht hne hn (haddr hx), Equiv.swap_apply_self]
  have hprev : ∀ {x}, SlotAddr a x →
      (CSpace.cteSwap a σ (σ s).cap s (σ t).cap t).prev a (swap s t x) =
        swap s t (σ.prev a x) := by
    intro x hx
    rw [prev_cteSwap_eq_rename hwf hs ht hne hn (haddr hx), Equiv.swap_apply_self]
  have hcap : ∀ x, (CSpace.cteSwap a σ (σ s).cap s (σ t).cap t (swap s t x)).cap = (σ x).cap := by
    intro x
    by_cases hxs : x = s
    · rw [hxs, swap_apply_left, cap_cteSwap, if_pos rfl]
    · by_cases hxt : x = t
      · rw [hxt, swap_apply_right, cap_cteSwap, if_neg hne, if_pos rfl]
      · rw [swap_apply_of_ne_of_ne hxs hxt, cap_cteSwap, if_neg hxt, if_neg hxs]
  refine h.rename (swap s t) hzero (fun x hx => haddr (h.slotAddr hx))
    (fun x hx => hnext (h.slotAddr hx)) (fun x hx => hprev (h.slotAddr hx)) (fun x => ?_) ?_
  · show getCapType (CSpace.cteSwap a σ _ s _ t _).cap ≠ .nullCap ↔ getCapType (σ x).cap ≠ .nullCap
    rw [hcap]
  · intro x hx
    obtain ⟨hxn, hxp⟩ := h.unlinked x hx
    by_cases hxa : SlotAddr a x
    · rw [hnext hxa, hprev hxa, hxn, hxp, hzero]
      exact ⟨rfl, rfl⟩
    -- no pointer leads to an address that is no slot
    have hxs : x ≠ s := by
      rintro rfl
      exact hxa hs
    have hxt : x ≠ t := by
      rintro rfl
      exact hxa ht
    have hp : ∀ y, ¬ (σ.prev a y ≠ 0 ∧ x = σ.prev a y) := by
      rintro y ⟨h0, rfl⟩
      exact (h.prev_live h0).2 hx
    have hq : ∀ y, ¬ (σ.next a y ≠ 0 ∧ x = σ.next a y) := by
      rintro y ⟨h0, rfl⟩
      exact (h.next_live h0).2 hx
    rw [swap_apply_of_ne_of_ne hxs hxt, next_cteSwap hs.2 ht.2, prev_cteSwap,
      if_neg (hp t), if_neg hxt, if_neg hxs, if_neg (hp s), if_neg (hq t), if_neg hxt,
      if_neg hxs, if_neg (hq s)]
    exact ⟨hxn, hxp⟩

/-- Under the preconditions of its callers `cte_insert` fails only where
`is_cap_revocable` does. -/
theorem cteInsert_ok (hdest : σ.capType dest = .nullCap)
    (hr : isCapRevocable a c (σ src).cap = .ok r) : ∃ σ', cteInsert a σ c src dest = .ok σ' := by
  rw [cteInsert, hr, ensure_of hdest, ensure_of (h.unlinked dest hdest)]
  simp only [setUntypedCapAsFull_eq]
  exact ⟨_, rfl⟩

end

end MdbInv

end Rel4.CSpace
