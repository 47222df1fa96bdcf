import Rel4.CSpace.Mdb
import Mathlib.Logic.Relation

/-!
Exchanging two slots of the mapping database (`cte_swap`).

`cte_swap` copies both nodes before it patches their neighbours. When the two
slots are neighbours of each other, the copies still hold the links between
them, and writing them back links a slot to itself. For all other pairs the
pointers after the call are the old ones renamed by the transposition of the
two slots.
-/

namespace Rel4.CSpace
open Lib.Bitfield Lib.DList Common
open Equiv (swap swap_apply_of_ne_of_ne symm_swap)

variable {a : Arch} {σ σ' : Slots} {slot1 slot2 : Word} {cap1 cap2 : CapT}

/-- One link of the list. -/
def Slots.Follows (a : Arch) (σ : Slots) (x y : Word) : Prop :=
  SlotAddr a x ∧ SlotAddr a y ∧ σ.next a x = y

/-- The links of slots are mutually inverse, lead to slots, and have no cycle. -/
structure MdbWF (a : Arch) (σ : Slots) : Prop where
  prev_storable : ∀ s, SlotAddr a s → Storable a (σ.prev a s)
  inverse : ∀ s n, SlotAddr a s → SlotAddr a n → (σ.next a s = n ↔ σ.prev a n = s)
  acyclic : ∀ s, ¬ Relation.TransGen (σ.Follows a) s s

/-- The two slots stand next to each other in the list. -/
def Neighbours (a : Arch) (σ : Slots) (slot1 slot2 : Word) : Prop :=
  σ.next a slot1 = slot2 ∨ σ.next a slot2 = slot1

instance : Decidable (Neighbours a σ slot1 slot2) := inferInstanceAs (Decidable (_ ∨ _))

/-- `l` is one complete list of the mapping database. -/
def IsMdbList (a : Arch) (σ : Slots) (l : List Word) : Prop :=
  (∀ x ∈ l, SlotAddr a x) ∧ Represents 0 (σ.links a) [l]

/-- What exchanging the positions of two slots means. -/
structure Exchanged (a : Arch) (σ σ' : Slots) (cap1 : CapT) (slot1 : Word) (cap2 : CapT)
    (slot2 : Word) : Prop where
  wf : MdbWF a σ'
  lists : ∀ l, IsMdbList a σ l ↔ IsMdbList a σ' (l.map (swap slot1 slot2))
  cap_slot1 : (σ' slot1).cap = cap2
  cap_slot2 : (σ' slot2).cap = cap1
  flags_slot1 : σ'.flags a slot1 = σ.flags a slot2
  flags_slot2 : σ'.flags a slot2 = σ.flags a slot1
  other : ∀ s, s ≠ slot1 → s ≠ slot2 →
    (σ' s).cap = (σ s).cap ∧ σ'.flags a s = σ.flags a s

/-! ## What `cte_swap` writes -/

theorem next_cteSwap (h1 : Storable a slot1) (h2 : Storable a slot2) (x : Word) :
    (cteSwap a σ cap1 slot1 cap2 slot2).next a x =
      if σ.prev a slot2 ≠ 0 ∧ x = σ.prev a slot2 then slot1
      else if x = slot2 then σ.next a slot1
      else if x = slot1 then σ.next a slot2
      else if σ.prev a slot1 ≠ 0 ∧ x = σ.prev a slot1 then slot2
      else σ.next a x := by
  simp only [cteSwap, Slots.next_patchPrev, Slots.next_patchNext h1, Slots.next_patchNext h2,
    Slots.next_setMdb, Slots.next_setCap]
  rfl

theorem prev_cteSwap (x : Word) : (cteSwap a σ cap1 slot1 cap2 slot2).prev a x =
      if σ.next a slot2 ≠ 0 ∧ x = σ.next a slot2 then slot1
      else if x = slot2 then σ.prev a slot1
      else if x = slot1 then σ.prev a slot2
      else if σ.next a slot1 ≠ 0 ∧ x = σ.next a slot1 then slot2
      else σ.prev a x := by
  simp only [cteSwap, Slots.prev_patchNext, Slots.prev_patchPrev, Slots.prev_setMdb,
    Slots.prev_setCap]
  rfl

theorem cap_cteSwap (x : Word) : (cteSwap a σ cap1 slot1 cap2 slot2 x).cap =
      if x = slot2 then cap1 else if x = slot1 then cap2 else (σ x).cap := by
  simp only [cteSwap, Slots.cap_patchPrev, Slots.cap_patchNext, Slots.cap_setMdb, Slots.cap_setCap]

theorem flags_cteSwap (x : Word) : (cteSwap a σ cap1 slot1 cap2 slot2).flags a x =
      if x = slot2 then σ.flags a slot1 else if x = slot1 then σ.flags a slot2
      else σ.flags a x := by
  simp only [cteSwap, Slots.flags_patchPrev, Slots.flags_patchNext, Slots.flags_setMdb,
    Slots.flags_setCap]
  rfl

/-! ## Slots that are not neighbours -/

namespace MdbWF

variable {s n : Word}

theorem next_ne_self (h : MdbWF a σ) (hs : SlotAddr a s) : σ.next a s ≠ s :=
  fun e => h.acyclic s (.single ⟨hs, hs, e⟩)

theorem prev_ne_self (h : MdbWF a σ) (hs : SlotAddr a s) : σ.prev a s ≠ s :=
  fun e => h.next_ne_self hs ((h.inverse s s hs hs).mpr e)

end MdbWF

section

variable (h1 : SlotAddr a slot1) (h2 : SlotAddr a slot2)
include h1 h2

private theorem slotAddr_swap (hx : SlotAddr a x) : SlotAddr a (swap slot1 slot2 x) := by
  rw [Equiv.swap_apply_def]
  split
  · exact h2
  · split
    · exact h1
    · exact hx

private theorem swap_zero : swap slot1 slot2 0 = 0 := swap_apply_of_ne_of_ne h1.1.symm h2.1.symm

/-- The six writes of `cte_swap` to one kind of pointer `f`, whose inverse is
`g`, rename `f` when the two slots are not neighbours. -/
private theorem patched_eq_rename {f g : Word → Word} (hne : slot1 ≠ slot2)
    (hinv : ∀ s n, SlotAddr a s → SlotAddr a n → (f s = n ↔ g n = s))
    (hself : ∀ s, SlotAddr a s → f s ≠ s) (h12 : f slot1 ≠ slot2) (h21 : f slot2 ≠ slot1) {x : Word}
    (hx : SlotAddr a x) :
    (if g slot2 ≠ 0 ∧ x = g slot2 then slot1
      else if x = slot2 then f slot1
      else if x = slot1 then f slot2
      else if g slot1 ≠ 0 ∧ x = g slot1 then slot2
      else f x) = swap slot1 slot2 (f (swap slot1 slot2 x)) := by
  have hg : ∀ s, SlotAddr a s → ((g s ≠ 0 ∧ x = g s) ↔ f x = s) := by
    intro s hs
    rw [hinv x s hx hs]
    exact ⟨fun h => h.2.symm, fun e => ⟨e ▸ hx.1, e.symm⟩⟩
  simp only [hg slot1 h1, hg slot2 h2]
  by_cases hx1 : x = slot1
  · subst hx1
    rw [if_neg h12, if_neg hne, if_pos rfl, Equiv.swap_apply_left,
      swap_apply_of_ne_of_ne h21 (hself _ h2)]
  by_cases hx2 : x = slot2
  · subst hx2
    rw [if_neg (hself _ h2), if_pos rfl, Equiv.swap_apply_right,
      swap_apply_of_ne_of_ne (hself _ h1) h12]
  rw [swap_apply_of_ne_of_ne hx1 hx2, if_neg hx1, if_neg hx2, Equiv.swap_apply_def]
  by_cases hs1 : f x = slot1
  · rw [if_pos hs1, if_pos hs1, if_neg (hs1 ▸ hne)]
  · rw [if_neg hs1, if_neg hs1]

end

section

variable {x : Word} (h : MdbWF a σ) (h1 : SlotAddr a slot1) (h2 : SlotAddr a slot2)
  (hne : slot1 ≠ slot2) (hn : ¬ Neighbours a σ slot1 slot2) (hx : SlotAddr a x)
include h h1 h2 hne hn hx

/-- The pointers after `cte_swap` are the old ones, renamed. -/
theorem next_cteSwap_eq_rename : (cteSwap a σ cap1 slot1 cap2 slot2).next a x =
      swap slot1 slot2 (σ.next a (swap slot1 slot2 x)) := by
  rw [next_cteSwap h1.2 h2.2]
  exact patched_eq_rename h1 h2 hne h.inverse (fun s hs => h.next_ne_self hs)
    (fun e => hn (.inl e)) (fun e => hn (.inr e)) hx

theorem prev_cteSwap_eq_rename : (cteSwap a σ cap1 slot1 cap2 slot2).prev a x =
      swap slot1 slot2 (σ.prev a (swap slot1 slot2 x)) := by
  rw [prev_cteSwap]
  exact patched_eq_rename h1 h2 hne (fun s n hs hn => (h.inverse n s hn hs).symm)
    (fun s hs => h.prev_ne_self hs) (fun e => hn (.inr ((h.inverse _ _ h2 h1).mpr e)))
    (fun e => hn (.inl ((h.inverse _ _ h1 h2).mpr e))) hx

end

section Renamed

/- Two memories whose pointers differ by the transposition of two slots. -/
variable (h1 : SlotAddr a slot1) (h2 : SlotAddr a slot2)
  (hnext : ∀ x, SlotAddr a x →
    σ'.next a x = swap slot1 slot2 (σ.next a (swap slot1 slot2 x)))
  (hprev : ∀ x, SlotAddr a x →
    σ'.prev a x = swap slot1 slot2 (σ.prev a (swap slot1 slot2 x)))

include h1 h2 hnext hprev

theorem MdbWF.of_renamed (h : MdbWF a σ) : MdbWF a σ' where
  prev_storable s hs := by
    rw [hprev s hs]
    have hold := h.prev_storable _ (slotAddr_swap h1 h2 hs)
    by_cases h0 : σ.prev a (swap slot1 slot2 s) = 0
    · rw [h0, swap_zero h1 h2]
      exact storable_zero
    · exact (slotAddr_swap h1 h2 ⟨h0, hold⟩).2
  inverse s n hs hn := by
    rw [hnext s hs, hprev n hn, Equiv.swap_apply_eq_iff, Equiv.swap_apply_eq_iff]
    exact h.inverse _ _ (slotAddr_swap h1 h2 hs) (slotAddr_swap h1 h2 hn)
  acyclic s hcycle := by
    refine h.acyclic (swap slot1 slot2 s) (hcycle.lift (swap slot1 slot2) ?_)
    rintro x y ⟨hx, hy, hxy⟩
    rw [hnext x hx, Equiv.swap_apply_eq_iff] at hxy
    exact ⟨slotAddr_swap h1 h2 hx, slotAddr_swap h1 h2 hy, hxy⟩

theorem isMdbList_of_renamed (h : IsMdbList a σ l) : IsMdbList a σ' (l.map (swap slot1 slot2)) := by
  have haddr : ∀ x ∈ l.map (swap slot1 slot2), SlotAddr a x := by
    intro x hx
    obtain ⟨y, hy, rfl⟩ := List.mem_map.mp hx
    exact slotAddr_swap h1 h2 (h.1 y hy)
  refine ⟨haddr, (h.2.rename (swap slot1 slot2) (swap_zero h1 h2)).congr ?_ ?_⟩
  · intro x hx
    rw [Links.rename, symm_swap]
    exact hnext x (haddr x (by simpa using hx))
  · intro x hx
    rw [Links.rename, symm_swap]
    exact hprev x (haddr x (by simpa using hx))

end Renamed

theorem cteSwap_exchanged (h : MdbWF a σ) (h1 : SlotAddr a slot1) (h2 : SlotAddr a slot2)
    (hne : slot1 ≠ slot2) (hn : ¬ Neighbours a σ slot1 slot2) :
    Exchanged a σ (cteSwap a σ cap1 slot1 cap2 slot2) cap1 slot1 cap2 slot2 := by
  have hnext : ∀ x, SlotAddr a x → (cteSwap a σ cap1 slot1 cap2 slot2).next a x =
      swap slot1 slot2 (σ.next a (swap slot1 slot2 x)) :=
    fun x hx => next_cteSwap_eq_rename h h1 h2 hne hn hx
  have hprev : ∀ x, SlotAddr a x → (cteSwap a σ cap1 slot1 cap2 slot2).prev a x =
      swap slot1 slot2 (σ.prev a (swap slot1 slot2 x)) :=
    fun x hx => prev_cteSwap_eq_rename h h1 h2 hne hn hx
  refine ⟨h.of_renamed h1 h2 hnext hprev, ?_, ?_, ?_, ?_, ?_, ?_⟩
  · intro l
    refine ⟨isMdbList_of_renamed h1 h2 hnext hprev, fun hl => ?_⟩
    -- the transposition undoes itself
    have hback : IsMdbList a σ ((l.map (swap slot1 slot2)).map (swap slot1 slot2)) :=
      isMdbList_of_renamed h1 h2 ?_ ?_ hl
    · simpa [Function.comp_def] using hback
    · intro x hx
      rw [hnext _ (slotAddr_swap h1 h2 hx)]
      simp
    · intro x hx
      rw [hprev _ (slotAddr_swap h1 h2 hx)]
      simp
  · rw [cap_cteSwap, if_neg hne, if_pos rfl]
  · rw [cap_cteSwap, if_pos rfl]
  · rw [flags_cteSwap, if_neg hne, if_pos rfl]
  · rw [flags_cteSwap, if_pos rfl]
  · intro s hs1 hs2
    rw [cap_cteSwap, flags_cteSwap, if_neg hs2, if_neg hs1, if_neg hs2, if_neg hs1]
    exact ⟨rfl, rfl⟩

/-! ## Neighbours -/

/-- After exchanging neighbours, `slot1` is its own neighbour. -/
theorem not_mdbWF_cteSwap_of_neighbours (h : MdbWF a σ) (h1 : SlotAddr a slot1)
    (h2 : SlotAddr a slot2) (hn : Neighbours a σ slot1 slot2) :
    ¬ MdbWF a (cteSwap a σ cap1 slot1 cap2 slot2) := by
  intro hwf
  rcases hn with hn | hn
  · refine hwf.next_ne_self h1 ?_
    have hp : σ.prev a slot2 = slot1 := (h.inverse _ _ h1 h2).mp hn
    rw [next_cteSwap h1.2 h2.2, if_pos ⟨hp ▸ h1.1, hp.symm⟩]
  · refine hwf.prev_ne_self h1 ?_
    rw [prev_cteSwap, if_pos ⟨hn ▸ h1.1, hn.symm⟩]

/-- `cte_swap` exchanges two slots exactly when they are not neighbours. -/
theorem cteSwap_exchanged_iff (h : MdbWF a σ) (h1 : SlotAddr a slot1) (h2 : SlotAddr a slot2)
    (hne : slot1 ≠ slot2) :
    Exchanged a σ (cteSwap a σ cap1 slot1 cap2 slot2) cap1 slot1 cap2 slot2 ↔
      ¬ Neighbours a σ slot1 slot2 :=
  ⟨fun he hn => not_mdbWF_cteSwap_of_neighbours h h1 h2 hn he.wf, cteSwap_exchanged h h1 h2 hne⟩

/-- Memory with one list of two slots, `s` before `t`. -/
def pairSlots (a : Arch) (s t : Word) : Slots :=
  let cap := newEndpointCap a 0 1 1 1 1 (pptrBase a)
  (((Slots.setCap (fun _ => emptyCte) s cap).setCap t cap).setMdb t (newMdbNode a 0 0 0 s)).setMdb s
    (newMdbNode a t 1 1 0)

section Pair

variable {s t : Word}

private theorem next_pairSlots (ht : Storable a t) (p : Word) :
    (pairSlots a s t).next a p = if p = s then t else 0 := by
  have hempty : Slots.next a (fun _ => emptyCte) p = 0 := getNext_default
  simp only [pairSlots, Slots.next_setMdb, Slots.next_setCap, getNext_newMdbNode ht,
    getNext_newMdbNode storable_zero, hempty, ite_self]

private theorem prev_pairSlots (hst : s ≠ t) (p : Word) :
    (pairSlots a s t).prev a p = if p = t then s else 0 := by
  have hempty : Slots.prev a (fun _ => emptyCte) p = 0 := getPrev_default
  simp only [pairSlots, Slots.prev_setMdb, Slots.prev_setCap, getPrev_newMdbNode, hempty]
  by_cases hs : p = s
  · rw [if_pos hs, if_neg (hs ▸ hst)]
  · rw [if_neg hs]

theorem mdbWF_pairSlots (hs : SlotAddr a s) (ht : SlotAddr a t) (hst : s ≠ t) :
    MdbWF a (pairSlots a s t) where
  prev_storable p _ := by
    rw [prev_pairSlots hst]
    split
    · exact hs.2
    · exact storable_zero
  inverse p n hp hn := by
    rw [next_pairSlots ht.2, prev_pairSlots hst]
    by_cases hps : p = s <;> by_cases hnt : n = t
    · simp [hps, hnt]
    · rw [if_pos hps, if_neg hnt]
      exact ⟨fun e => absurd e.symm hnt, fun e => absurd e.symm hp.1⟩
    · rw [if_neg hps, if_pos hnt]
      exact ⟨fun e => absurd e.symm hn.1, fun e => absurd e.symm hps⟩
    · rw [if_neg hps, if_neg hnt]
      exact ⟨fun e => absurd e.symm hn.1, fun e => absurd e.symm hp.1⟩
  acyclic p hcycle := by
    -- the only link leads from `s` to `t`, and none leaves `t`
    have hlink : ∀ x y, (pairSlots a s t).Follows a x y → x = s ∧ y = t := by
      rintro x y ⟨-, hy, hxy⟩
      rw [next_pairSlots ht.2] at hxy
      by_cases hx : x = s
      · rw [if_pos hx] at hxy
        exact ⟨hx, hxy.symm⟩
      · rw [if_neg hx] at hxy
        exact absurd hxy.symm hy.1
    obtain ⟨y, hpy, -⟩ := Relation.TransGen.head'_iff.mp hcycle
    obtain ⟨z, -, hzp⟩ := Relation.TransGen.tail'_iff.mp hcycle
    exact hst ((hlink p y hpy).1.symm.trans (hlink z p hzp).2)

end Pair

theorem cteSwap_exchanged_iff_pair :
    MdbWF .riscv64 (pairSlots .riscv64 0xffffffc000001000 0xffffffc000001020) ∧
      Exchanged .riscv64 (pairSlots .riscv64 0xffffffc000001000 0xffffffc000001020)
        (cteSwap .riscv64 (pairSlots .riscv64 0xffffffc000001000 0xffffffc000001020)
          newDomainCap 0xffffffc000001000 newNullCap 0xffffffc000001040)
        newDomainCap 0xffffffc000001000 newNullCap 0xffffffc000001040 := by
  have hwf : MdbWF .riscv64 (pairSlots .riscv64 0xffffffc000001000 0xffffffc000001020) :=
    mdbWF_pairSlots (by decide) (by decide) (by decide)
  exact ⟨hwf, (cteSwap_exchanged_iff hwf (by decide) (by decide) (by decide)).mpr (by decide)⟩

/-- Two slots that follow each other in a list of two. -/
theorem cteSwap_neighbours_not_exchanged :
    MdbWF .riscv64 (pairSlots .riscv64 0xffffffc000001000 0xffffffc000001020) ∧
      SlotAddr .riscv64 0xffffffc000001000 ∧ SlotAddr .riscv64 0xffffffc000001020 ∧
      ¬ Exchanged .riscv64 (pairSlots .riscv64 0xffffffc000001000 0xffffffc000001020)
        (cteSwap .riscv64 (pairSlots .riscv64 0xffffffc000001000 0xffffffc000001020)
          newDomainCap 0xffffffc000001000 newNullCap 0xffffffc000001020)
        newDomainCap 0xffffffc000001000 newNullCap 0xffffffc000001020 := by
  have hwf : MdbWF .riscv64 (pairSlots .riscv64 0xffffffc000001000 0xffffffc000001020) :=
    mdbWF_pairSlots (by decide) (by decide) (by decide)
  exact ⟨hwf, by decide, by decide, fun he =>
    not_mdbWF_cteSwap_of_neighbours hwf (by decide) (by decide) (by decide) he.wf⟩

end Rel4.CSpace
