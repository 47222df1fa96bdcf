import Rel4.Kernel.Binding
import Rel4.Kernel.DeleteSteps

/-!
Zombies (`sel4_cspace/src/cap/zombie.rs`, `reduce_zombie` and `finalise` in `cte.rs`).

A zombie keeps the address of its object and the number of slots that are left in
one word. The number takes one bit more than the radix, since all slots of a CNode
can be left; the bits below the alignment of the object are enough for that. During
a deletion a zombie is made from the last cap to its object, counts down, and moves
when slots change places. `TableStep` says this of the caps alone: what happens to
the mapping database on the way has no part in it.

The second half of a notification is not part of its object. A zombie that lies there
is overwritten when the notification is deleted.
-/

namespace Rel4.Kernel
open Lib.Bitfield Common CSpace Rel4.Task Ipc Function
open Task.KernelState

variable {a : Arch} {n ptr type : Word} {s s' : KernelState}

/-! ## The encoding -/

/-- The slots of the object of a zombie: a thread, or a CNode whose radix is the type. -/
def zombieSlots (type : Word) : Nat :=
  if type = zombieTcb then tcbCNodeEntries.toNat else 2 ^ type.toNat

/-- The size of the object. -/
def zombieObjBits (a : Arch) (type : Word) : Nat :=
  if type = zombieTcb then (tcbBits a).toNat else type.toNat + 5

/-- A thread, or a CNode. The largest radix that a cap can hold, 63, is left out: its CNode would be
larger than the address space. -/
structure ZombieObject (a : Arch) (type ptr : Word) : Prop where
  kind : type = zombieTcb ∨ type.toNat < 63
  aligned : 2 ^ zombieObjBits a type ∣ ptr.toNat

/-- The zombie stands for `n` slots of the object. -/
structure Encodes (a : Arch) (c : CapT) (type ptr n : Word) : Prop where
  isZombie : getCapType c = .zombieCap
  type_eq : getZombieType a c = type
  ptr_eq : getZombiePtr a c = ptr
  number_eq : getZombieNumber a c = n

section Encoding

variable {a : Arch} {type ptr n m : Word} {c : CapT}

theorem lt_of_le_zombieSlots (hn : n.toNat ≤ zombieSlots type) :
    n.toNat < 2 ^ ((zombieBits type).toNat + 1) := by
  unfold zombieSlots at hn
  unfold zombieBits
  split at hn
  · rename_i htcb
    rw [if_pos htcb]
    exact hn.trans_lt (by decide)
  · rename_i htcb
    rw [if_neg htcb]
    exact hn.trans_lt (Nat.pow_lt_pow_right (by decide) (Nat.lt_succ_self _))

theorem ZombieObject.ptr_mod (h : ZombieObject a type ptr) :
    ptr.toNat % 2 ^ ((zombieBits type).toNat + 1) = 0 := by
  refine Nat.mod_eq_zero_of_dvd ((Nat.pow_dvd_pow 2 ?_).trans h.aligned)
  unfold zombieBits zombieObjBits
  split
  · cases a <;> decide
  · omega

/-- All slots of the object lie inside it. -/
theorem zombieSlots_le (a : Arch) (type : Word) :
    32 * zombieSlots type ≤ 2 ^ zombieObjBits a type := by
  unfold zombieSlots zombieObjBits
  split
  · cases a <;> decide
  · rw [Nat.pow_add]
    omega

theorem ZombieObject.encodes_new (h : ZombieObject a type ptr)
    (hn : n.toNat < 2 ^ ((zombieBits type).toNat + 1)) :
    Encodes a (zombieNew n type ptr) type ptr n := by
  obtain ⟨h1, -, h3, h4⟩ := zombieNew_fields h.kind h.ptr_mod hn
  exact ⟨capType_zombieNew, h1, h3, h4⟩

section

variable (hc : Encodes a c type ptr n) (h : ZombieObject a type ptr)
include hc h

theorem Encodes.getZombieBit : getZombieBit a c = zombieBits type :=
  getZombieBit_eq (h.kind.imp_right fun hlt => by omega) hc.type_eq

theorem Encodes.number_lt : n.toNat < 2 ^ ((zombieBits type).toNat + 1) := by
  obtain ⟨hlt, hsucc⟩ := zombieBits_lt h.kind
  rw [← hsucc, ← hc.number_eq, ← hc.getZombieBit h]
  refine toNat_getZombieNumber_lt ?_
  rwa [hc.getZombieBit h]

theorem Encodes.set (hm : m.toNat < 2 ^ ((zombieBits type).toNat + 1)) :
    Encodes a (setZombieNumber a c m) type ptr m := by
  obtain ⟨hlt, hsucc⟩ := zombieBits_lt h.kind
  refine ⟨capType_setZombieNumber.trans hc.isZombie, getZombieType_setZombieNumber.trans hc.type_eq,
    getZombiePtr_setZombieNumber.trans hc.ptr_eq, ?_⟩
  rw [getZombieNumber_setZombieNumber, hc.getZombieBit h]
  exact and_mask_of_lt hlt (hsucc ▸ hm)

/-- The last number that is set is the one that is read. -/
theorem Encodes.sets {ms : List Word} (hms : ∀ m ∈ ms, m.toNat ≤ zombieSlots type) :
    Encodes a (ms.foldl (setZombieNumber a) c) type ptr (ms.getLastD n) := by
  induction ms generalizing c n with
  | nil => exact hc
  | cons m ms ih =>
    rw [List.foldl_cons, List.getLastD_cons]
    exact ih (hc.set h (lt_of_le_zombieSlots (hms m List.mem_cons_self))) fun k hk =>
      hms k (List.mem_cons_of_mem m hk)

end

end Encoding

/-! ## The caps of a run -/

/-- The cap in each slot, with its identity. -/
abbrev CapTable := Word → CapT × Nat

def capTable (s : KernelState) : CapTable := fun x => ((s.ctes x).cap, (s.origin x).id)

def CapTable.caps (m : CapTable) (x : Word) : CapT := (m x).1

/-- What a deletion does to the caps, one slot or two at a time. -/
inductive TableStep (a : Arch) (m : CapTable) : CapTable → Prop where
  | erase (x : Word) : TableStep a m (update m x (newNullCap, (m x).2))
  | zombify (x : Word) (z : CapT) (hz : zombieFor a (m x).1 = some z) :
    TableStep a m (update m x (z, (m x).2))
  | shrink (x : Word) (hx : getCapType (m x).1 = .zombieCap)
    (hn : 0 < getZombieNumber a (m x).1) :
    TableStep a m (update m x
      (setZombieNumber a (m x).1 (getZombieNumber a (m x).1 - 1), (m x).2))
  | swap (x y : Word) (hx : IsSlot a m.caps x) (hy : IsSlot a m.caps y) :
    TableStep a m (update (update m x (m y)) y (m x))

def TableRun (a : Arch) : CapTable → CapTable → Prop := Relation.ReflTransGen (TableStep a)

section Parts

variable {a : Arch} {s s' : KernelState} {slot : Word} {c : CapT}

theorem capTable_of_capSpace (h : capSpace s' = capSpace s) : capTable s' = capTable s := by
  have hslots : s'.ctes = s.ctes := congrArg CapSpace.slots h
  have horigin : s'.origin = s.origin := congrArg CapSpace.origin h
  unfold capTable
  rw [hslots, horigin]

theorem capTable_setCap : capTable (s.setCtes (s.ctes.setCap slot c)) =
      update (capTable s) slot (c, (capTable s slot).2) := by
  funext x
  rw [update_apply]
  show (((s.ctes.setCap slot c) x).cap, (s.origin x).id) = _
  rw [Slots.cap_setCap]
  split
  next h =>
    subst h
    rfl
  next => rfl

theorem tableRun_setEmpty (h : capSpace s' = { capSpace s with slots := setEmpty a s.ctes slot }) :
    TableRun a (capTable s) (capTable s') := by
  have hslots : s'.ctes = setEmpty a s.ctes slot := congrArg CapSpace.slots h
  have horigin : s'.origin = s.origin := congrArg CapSpace.origin h
  by_cases hnull : s.ctes.capType slot = .nullCap
  · have heq : capTable s' = capTable s := by
      unfold capTable
      rw [hslots, setEmpty_of_null hnull, horigin]
    rw [heq]
    exact .refl
  · have heq : capTable s' = update (capTable s) slot (newNullCap, (capTable s slot).2) := by
      funext x
      rw [update_apply]
      show ((s'.ctes x).cap, (s'.origin x).id) = _
      rw [hslots, horigin, cap_setEmpty]
      by_cases hx : x = slot
      · rw [if_pos ⟨hx, hnull⟩, if_pos hx, hx]
        rfl
      · rw [if_neg fun h => hx h.1, if_neg hx]
        rfl
    rw [heq]
    exact .single (.erase slot)

theorem RemovesOne.tableRun (h : RemovesOne a (capSpace s) (capSpace s')) :
    TableRun a (capTable s) (capTable s') := by
  rcases h with h | ⟨x, -, h⟩
  · rw [capTable_of_capSpace h]
    exact .refl
  · exact tableRun_setEmpty h

theorem capTable_swapSlots :
    capTable (s.swapSlots a (s.ctes x).cap x (s.ctes y).cap y) =
      update (update (capTable s) x (capTable s y)) y (capTable s x) := by
  funext z
  simp only [capTable, swapSlots, cap_cteSwap, update_apply]
  split
  · rfl
  · split <;> rfl

/-- What is left of a cap after `finaliseCap`: nothing, the zombie of its object, or the zombie that
it was. -/
inductive Remains (a : Arch) (c : CapT) (remainder : CapT) : Prop where
  | null (h : getCapType remainder = .nullCap)
  | object (h : zombieFor a c = some remainder)
  | zombie (hc : getCapType c = .zombieCap) (h : remainder = c)

/-- `finaliseCap` removes at most one cap, which is not the one that it finalises into a zombie. -/
theorem finaliseCap_table (h : finaliseCap a s (s.ctes slot).cap final = .ok (s', fc)) :
    TableRun a (capTable s) (capTable s') ∧ Remains a (s'.ctes slot).cap fc.remainder := by
  obtain ⟨hrun, hrem⟩ := finaliseCap_cases h
  refine ⟨hrun.tableRun, ?_⟩
  have hsame : finalisedAtOnce (getCapType (s.ctes slot).cap) = false →
      (s'.ctes slot).cap = (s.ctes slot).cap := hrun.cap_eq
  rcases hrem with ⟨hnull, -⟩ | ⟨-, hz⟩ | ⟨ht, hr⟩
  · exact .null hnull
  · rw [hsame (by rcases zombieFor_type hz with ht | ht <;> rw [ht] <;> rfl)]
    exact .object hz
  · rw [hsame (by rw [ht]; rfl)]
    exact .zombie ht hr

/-- What `finalise` writes back to the slot. -/
theorem Remains.run (h : Remains a (s.ctes slot).cap remainder)
    (hrem : capRemovable a remainder slot = .ok false) :
    TableRun a (capTable s) (capTable (s.setCtes (s.ctes.setCap slot remainder))) := by
  rw [capTable_setCap]
  cases h with
  | null h =>
    rw [capRemovable_null h] at hrem
    cases hrem
  | object h => exact .single (.zombify slot remainder h)
  | zombie hc h =>
    subst h
    have hself : update (capTable s) slot
        ((s.ctes slot).cap, (capTable s slot).2) = capTable s := update_eq_self slot _
    rw [hself]
    exact .refl

end Parts

/-- A deletion takes these steps only. -/
theorem table_rule (a : Arch) (strict : Bool) : RecursionRule a strict (fun _ => True)
    (fun s s' => TableRun a (capTable s) (capTable s')) fun _ _ => True where
  refl _ := .refl
  trans h h' := h.trans h'
  keeps _ _ := trivial
  null _ := trivial
  finaliseCap := by
    intro s s' slot fc removable _ _ hfc hrem
    obtain ⟨hrun, hremains⟩ := finaliseCap_table hfc
    refine ⟨hrun, ?_⟩
    cases removable with
    | true => trivial
    | false => exact hremains.run hrem
  setEmptySlot _ _ := tableRun_setEmpty capSpace_setEmptySlot
  shrink := by
    intro s slot hz hn _
    rw [capTable_setCap]
    exact .single (.shrink slot hz hn)
  swapSlots := by
    rintro s slot _ hz hn rfl _ _
    rw [capTable_swapSlots]
    refine .single (.swap _ slot (.inr ⟨slot, hasSlot_zombiePtr hz hn⟩) (.inl ?_))
    show s.ctes.capType slot ≠ .nullCap
    rw [hz]
    decide
  preemptionPoint s := by
    rw [capTable_of_capSpace (capSpace_of_view (view_preemptionPoint s))]
    exact .refl

/-! ## Progress -/

/-- The zombie stands for slots inside its object. -/
structure ZombieOk (a : Arch) (z : CapT) : Prop where
  isZombie : getCapType z = .zombieCap
  object : ZombieObject a (getZombieType a z) (getZombiePtr a z)
  inside : 32 * (getZombieNumber a z).toNat ≤ 2 ^ zombieObjBits a (getZombieType a z)

/-- CNodes are aligned, zombies stand for slots of their objects, and no two caps have one
identity. -/
structure TableOk (a : Arch) (m : CapTable) : Prop where
  cnode : ∀ x, getCapType (m x).1 = .cnodeCap →
    ZombieObject a (getCNodeRadix a (m x).1) (getCNodePtr a (m x).1)
  zombie : ∀ x, getCapType (m x).1 = .zombieCap → ZombieOk a (m x).1
  unique : ∀ x y, getCapType (m x).1 ≠ .nullCap → getCapType (m y).1 ≠ .nullCap →
    (m x).2 = (m y).2 → x = y

/-- The zombie of a cap to a CNode or a thread, or the zombie itself. -/
def zombieView (a : Arch) (c : CapT) : Option CapT :=
  if getCapType c = .zombieCap then some c else zombieFor a c

/-- `z'` has come from `z`: it is a zombie of the same object and no further back. -/
structure Counts (a : Arch) (z z' : CapT) : Prop where
  type_eq : getZombieType a z' = getZombieType a z
  ptr_eq : getZombiePtr a z' = getZombiePtr a z
  number_le : (getZombieNumber a z').toNat ≤ (getZombieNumber a z).toNat

section Progress

variable {a : Arch} {m m' : CapTable} {x y : Word} {c z z' : CapT}

theorem Counts.refl (a : Arch) (z : CapT) : Counts a z z := ⟨rfl, rfl, le_rfl⟩

theorem Counts.trans (h : Counts a z z') (h' : Counts a z' z'') : Counts a z z'' :=
  ⟨h'.type_eq.trans h.type_eq, h'.ptr_eq.trans h.ptr_eq, h'.number_le.trans h.number_le⟩

theorem Encodes.ok (h : Encodes a z type ptr n) (ho : ZombieObject a type ptr)
    (hn : 32 * n.toNat ≤ 2 ^ zombieObjBits a type) : ZombieOk a z := by
  obtain ⟨hz, rfl, rfl, rfl⟩ := h
  exact ⟨hz, ho, hn⟩

/-- The zombie of a cap stands for slots of its object, all of them slots of the cap. -/
theorem zombieFor_new (hc : getCapType c = .cnodeCap →
    ZombieObject a (getCNodeRadix a c) (getCNodePtr a c)) (h : zombieFor a c = some z) :
    ∃ n type, z = zombieNew n type (objBase a c) ∧ ZombieObject a type (objBase a c) ∧
      n.toNat ≤ zombieSlots type ∧ n.toNat ≤ slotCount a c := by
  unfold zombieFor at h
  split at h
  next ht =>
    cases h
    have hcount : slotCount a c = 2 ^ (getCNodeRadix a c).toNat := by simp [slotCount, ht]
    refine ⟨_, _, by rw [objBase_cnode ht], by rw [objBase_cnode ht]; exact hc ht, ?_⟩
    rw [hcount, zombieSlots]
    split
    next htcb =>
      rw [htcb]
      decide
    next htcb =>
      have hlt := (hc ht).kind.resolve_left htcb
      have hbit := (toNat_bit (n := getCNodeRadix a c) (by omega)).le
      exact ⟨hbit, hbit⟩
  next ht =>
    cases h
    have hbase : getCspace a (getTcbPtr a c) tcbCTable = objBase a c := by
      rw [objBase_thread ht, getCspace, tcbCTable]
      simp
    have hobject : ZombieObject a zombieTcb (objBase a c) := by
      refine ⟨.inl rfl, ?_⟩
      have hbits : (tcbBits a).toNat < 64 := by cases a <;> decide
      rw [zombieObjBits, if_pos rfl, objBase_thread ht, toNat_and_not_mask hbits]
      exact Nat.dvd_sub_mod _
    refine ⟨_, _, by rw [hbase], hobject, by decide, ?_⟩
    simp [slotCount, ht]
  next => cases h

theorem hasSlot_of_le (hbase : objBase a z = objBase a c) (hcount : slotCount a z ≤ slotCount a c)
    (h : HasSlot a z x) : HasSlot a c x := by
  obtain ⟨i, hi, rfl⟩ := h
  exact ⟨i, hi.trans_le hcount, by rw [hbase]⟩

theorem hasSlot_of_zombieFor (hc : getCapType c = .cnodeCap →
    ZombieObject a (getCNodeRadix a c) (getCNodePtr a c)) (h : zombieFor a c = some z)
    (hx : HasSlot a z x) : HasSlot a c x := by
  obtain ⟨n, type, rfl, hobject, hn, hle⟩ := zombieFor_new hc h
  have henc := hobject.encodes_new (lt_of_le_zombieSlots hn)
  refine hasSlot_of_le ?_ ?_ hx
  · rw [objBase_zombie henc.isZombie, henc.ptr_eq]
  · rw [slotCount_zombie henc.isZombie, henc.number_eq]
    exact hle

/-- Counting down keeps the object. -/
theorem ZombieOk.pred (h : ZombieOk a z) (hn : 0 < getZombieNumber a z) :
    ZombieOk a (setZombieNumber a z (getZombieNumber a z - 1)) ∧
      Counts a z (setZombieNumber a z (getZombieNumber a z - 1)) := by
  have hle : (getZombieNumber a z - 1).toNat ≤ (getZombieNumber a z).toNat := by
    rw [BitVec.toNat_sub_of_le (by exact hn)]
    exact Nat.sub_le _ _
  have henc : Encodes a z _ _ _ := ⟨h.isZombie, rfl, rfl, rfl⟩
  have hset := henc.set h.object (hle.trans_lt (henc.number_lt h.object))
  have hinside := (Nat.mul_le_mul_left 32 hle).trans h.inside
  refine ⟨hset.ok h.object hinside, hset.type_eq, hset.ptr_eq, ?_⟩
  rw [hset.number_eq]
  exact hle

theorem zombieView_of_zombie (h : getCapType z = .zombieCap) : zombieView a z = some z := if_pos h

theorem zombieView_of_zombieFor (h : zombieFor a c = some z) : zombieView a c = some z := by
  unfold zombieView
  rw [if_neg, h]
  intro hz
  simp only [zombieFor, hz] at h
  cases h

theorem zombieView_ne_null (h : zombieView a c = some z) : getCapType c ≠ .nullCap := by
  intro hnull
  simp [zombieView, zombieFor, hnull] at h

/-- What a step makes of a cap that it does not erase: the same cap, or a zombie of its object with no
slot more. -/
def Became (a : Arch) (c c' : CapT) : Prop :=
  c' = c ∨ ZombieOk a c' ∧ (∀ w, HasSlot a c' w → HasSlot a c w) ∧
    ∃ z, zombieView a c = some z ∧ Counts a z c'

theorem Became.live (h : Became a c c') (hc : getCapType c' ≠ .nullCap) :
    getCapType c ≠ .nullCap := by
  rcases h with rfl | ⟨-, -, z, hz, -⟩
  · exact hc
  · exact zombieView_ne_null hz

theorem Became.hasSlot (h : Became a c c') {w : Word} (hw : HasSlot a c' w) : HasSlot a c w := by
  rcases h with rfl | ⟨-, hsub, -⟩
  · exact hw
  · exact hsub w hw

theorem Became.trans (h : Became a c c') (h' : Became a c' c'') : Became a c c'' := by
  rcases h with rfl | ⟨hok, hsub, z, hz, hcounts⟩
  · exact h'
  · rcases h' with rfl | ⟨hok', hsub', z', hz', hcounts'⟩
    · exact .inr ⟨hok, hsub, z, hz, hcounts⟩
    · rw [zombieView_of_zombie hok.isZombie] at hz'
      cases hz'
      exact .inr ⟨hok', fun w hw => hsub w (hsub' w hw), z, hz, hcounts.trans hcounts'⟩

/-- The contents of the slot `y` were in `x` before. -/
structure CameFrom (a : Arch) (m m' : CapTable) (x y : Word) : Prop where
  id_eq : (m x).2 = (m' y).2
  place : x = y ∨ IsSlot a m.caps y
  became : Became a (m x).1 (m' y).1

theorem cameFrom_update (hc : getCapType c ≠ .nullCap → Became a (m x).1 c) {y : Word}
    (hy : getCapType (update m x (c, (m x).2) y).1 ≠ .nullCap) :
    CameFrom a m (update m x (c, (m x).2)) y y := by
  by_cases hyx : y = x
  · subst hyx
    rw [update_self] at hy
    refine ⟨?_, .inl rfl, ?_⟩
    · rw [update_self]
    · rw [update_self]
      exact hc hy
  · refine ⟨?_, .inl rfl, .inl ?_⟩
    all_goals rw [update_of_ne hyx]

theorem swap_apply (z : Word) :
    update (update m x (m y)) y (m x) z = m (Equiv.swap y x z) := by
  rw [update_apply, update_apply, Equiv.swap_apply_def]
  split
  · rfl
  · split <;> rfl

/-- Each cap after a step came from a slot of its own. -/
theorem TableOk.moved (h : TableOk a m) (hs : TableStep a m m') :
    ∃ f : Word → Word, Function.Injective f ∧
      ∀ y, getCapType (m' y).1 ≠ .nullCap → CameFrom a m m' (f y) y := by
  cases hs with
  | erase x =>
    refine ⟨id, Function.injective_id, fun y hy => ?_⟩
    exact cameFrom_update (fun hc => absurd capType_newNullCap hc) hy
  | zombify x z hz =>
    refine ⟨id, Function.injective_id, fun y hy => cameFrom_update (fun _ => .inr ⟨?_, ?_, ?_⟩) hy⟩
    · obtain ⟨n, type, rfl, hobject, hn, -⟩ := zombieFor_new (h.cnode x) hz
      exact (hobject.encodes_new (lt_of_le_zombieSlots hn)).ok hobject
        ((Nat.mul_le_mul_left 32 hn).trans (zombieSlots_le a type))
    · exact fun _ => hasSlot_of_zombieFor (h.cnode x) hz
    · exact ⟨z, zombieView_of_zombieFor hz, .refl a z⟩
  | shrink x hx hn =>
    obtain ⟨hok, hcounts⟩ := (h.zombie x hx).pred hn
    refine ⟨id, Function.injective_id, fun y hy => cameFrom_update (fun _ => .inr ⟨hok, ?_, ?_⟩) hy⟩
    · refine fun _ => hasSlot_of_le ?_ ?_
      · rw [objBase_zombie hok.isZombie, objBase_zombie hx, hcounts.ptr_eq]
      · rw [slotCount_zombie hok.isZombie, slotCount_zombie hx]
        exact hcounts.number_le
    · exact ⟨_, zombieView_of_zombie hx, hcounts⟩
  | swap x x' hx hx' =>
    refine ⟨Equiv.swap x' x, (Equiv.swap x' x).injective, fun y _ => ⟨?_, ?_, .inl ?_⟩⟩
    · rw [swap_apply]
    · rw [Equiv.swap_apply_def]
      split_ifs with h₁ h₂
      · exact .inr (h₁ ▸ hx')
      · exact .inr (h₂ ▸ hx)
      · exact .inl rfl
    · rw [swap_apply]

theorem TableOk.step (h : TableOk a m) (hs : TableStep a m m') : TableOk a m' := by
  obtain ⟨f, hf, hfrom⟩ := h.moved hs
  refine ⟨fun y hy => ?_, fun y hy => ?_, fun y y' hy hy' heq => ?_⟩
  · rcases (hfrom y (by rw [hy]; decide)).became with e | ⟨hok, -⟩
    · rw [e] at hy ⊢
      exact h.cnode _ hy
    · rw [hok.isZombie] at hy
      cases hy
  · rcases (hfrom y (by rw [hy]; decide)).became with e | ⟨hok, -⟩
    · rw [e] at hy ⊢
      exact h.zombie _ hy
    · exact hok
  · have hy₀ := hfrom y hy
    have hy₀' := hfrom y' hy'
    exact hf (h.unique _ _ (hy₀.became.live hy) (hy₀'.became.live hy')
      (hy₀.id_eq.trans (heq.trans hy₀'.id_eq.symm)))

theorem TableOk.run (h : TableOk a m) (hr : TableRun a m m') : TableOk a m' := by
  induction hr with
  | refl => exact h
  | tail _ hs ih => exact ih.step hs

/-- No slot is new where each cap came from one. -/
theorem isSlot_of_cameFrom
    (h : ∀ y, getCapType (m' y).1 ≠ .nullCap → ∃ x, CameFrom a m m' x y)
    (hy : IsSlot a m'.caps y) : IsSlot a m.caps y := by
  rcases hy with hy | ⟨z, hz⟩
  · obtain ⟨x, hx⟩ := h y hy
    rcases hx.place with rfl | hslot
    · exact .inl (hx.became.live hy)
    · exact hslot
  · have hlive : getCapType (m' z).1 ≠ .nullCap := by
      intro hnull
      obtain ⟨i, hi, -⟩ := hz
      have hcount : slotCount a (m'.caps z) = 0 := by
        unfold slotCount CapTable.caps
        rw [hnull]
      rw [hcount] at hi
      exact absurd hi (Nat.not_lt_zero i)
    obtain ⟨x, hx⟩ := h z hlive
    exact .inr ⟨x, hx.became.hasSlot hz⟩

/-- Each cap at the end of a run came from a slot of its start. -/
theorem TableOk.run_from (h : TableOk a m) (hr : TableRun a m m')
    (hy : getCapType (m' y).1 ≠ .nullCap) : ∃ x, CameFrom a m m' x y := by
  induction hr generalizing y with
  | refl => exact ⟨y, rfl, .inl rfl, .inl rfl⟩
  | tail hr hs ih =>
    obtain ⟨f, -, hfrom⟩ := (h.run hr).moved hs
    have hlast := hfrom y hy
    obtain ⟨x, hx⟩ := ih (hlast.became.live hy)
    refine ⟨x, hx.id_eq.trans hlast.id_eq, ?_, hx.became.trans hlast.became⟩
    rcases hlast.place with e | hslot
    · rw [← e]
      exact hx.place
    · exact .inr (isSlot_of_cameFrom (fun _ => ih) hslot)

theorem CapOK.zombieObject (h : CapOK a c) (hc : getCapType c = .cnodeCap) :
    ZombieObject a (getCNodeRadix a c) (getCNodePtr a c) := by
  have hphys : getCapIsPhysical c = true := by simp [getCapIsPhysical, hc]
  have hbits : objBits a c = (getCNodeRadix a c).toNat + 5 := by simp only [objBits, hc]
  have hbase : objBase a c = getCNodePtr a c := by simp only [objBase, getCapPtr, hc]
  have hle := h.bits_le
  have hmod := h.aligned hphys
  rw [hbits] at hle hmod
  rw [hbase] at hmod
  have hne : getCNodeRadix a c ≠ zombieTcb := by
    intro heq
    rw [heq] at hle
    exact absurd hle (by decide)
  refine ⟨.inr (by omega), ?_⟩
  rw [zombieObjBits, if_neg hne]
  exact Nat.dvd_of_mod_eq_zero hmod

theorem CapOK.zombieOk (h : CapOK a z) (hz : getCapType z = .zombieCap) : ZombieOk a z := by
  have hphys : getCapIsPhysical z = true := by simp [getCapIsPhysical, hz]
  have hkind := h.zombie hz
  have hbits : objBits a z = zombieObjBits a (getZombieType a z) := by
    simp only [objBits, hz, zombieObjBits]
    split
    · rfl
    next htcb => rw [getZombieBit_eq hkind rfl, zombieBits, if_neg htcb]
  have hcount : slotCount a z = (getZombieNumber a z).toNat := by simp only [slotCount, hz]
  have hle := h.bits_le
  have hmod := h.aligned hphys
  have hslots := h.slots
  rw [hbits] at hle hmod hslots
  rw [objBase_zombie hz] at hmod
  rw [hcount] at hslots
  refine ⟨hz, ⟨?_, Nat.dvd_of_mod_eq_zero hmod⟩, hslots⟩
  by_cases htcb : getZombieType a z = zombieTcb
  · exact .inl htcb
  · rw [zombieObjBits, if_neg htcb] at hle
    exact .inr (by omega)

/-- The capability invariant says of the table what is needed here. -/
theorem CapInv.tableOk (h : CapInv a static (capSpace s) ls) : TableOk a (capTable s) := by
  have hok : ∀ x t, getCapType (s.ctes x).cap = t → t ≠ .nullCap → CapOK a (s.ctes x).cap := by
    rintro x t rfl hx
    exact h.capOK hx
  refine ⟨fun x hx => ?_, fun x hx => ?_, fun x y hx hy heq => h.inj hx hy heq⟩
  · exact CapOK.zombieObject (hok x _ hx (by decide)) hx
  · exact CapOK.zombieOk (hok x _ hx (by decide)) hx

/-- What a run makes of the zombies of `m`: each zombie at its end stands for slots inside its object,
and for no more slots of the same object than the zombie, or the cap to the object, that it was. -/
structure ZombieProgress (a : Arch) (m m' : CapTable) : Prop where
  ok : ∀ y, getCapType (m' y).1 = .zombieCap → ZombieOk a (m' y).1
  counts : ∀ x y z, zombieView a (m x).1 = some z → getCapType (m' y).1 = .zombieCap →
    (m x).2 = (m' y).2 → Counts a z (m' y).1

theorem TableOk.progress (h : TableOk a m) (hr : TableRun a m m') : ZombieProgress a m m' := by
  refine ⟨(h.run hr).zombie, fun x y z hz hy heq => ?_⟩
  have hlive : getCapType (m' y).1 ≠ .nullCap := by rw [hy]; decide
  obtain ⟨x', hx'⟩ := h.run_from hr hlive
  obtain rfl := h.unique x x' (zombieView_ne_null hz) (hx'.became.live hlive)
    (heq.trans hx'.id_eq.symm)
  rcases hx'.became with e | ⟨-, -, z', hz', hcounts⟩
  · rw [← e, zombieView_of_zombie hy] at hz
    cases hz
    exact .refl a _
  · rw [hz] at hz'
    cases hz'
    exact hcounts

end Progress

/-- One of the functions that take a zombie apart, called on some slot. -/
inductive ZombieCall (a : Arch) (s s' : KernelState) : Prop where
  | finalise (strict : Bool) (fuel : Nat) (slot : Word) (immediate : Bool) (r : FinaliseSlotRet)
    (h : finalise a strict fuel s slot immediate = .ok (s', r))
  | deleteAll (strict : Bool) (fuel : Nat) (slot : Word) (exposed : Bool) (e : ExceptionT)
    (h : deleteAll a strict fuel s slot exposed = .ok (s', e))
  | reduceZombie (strict : Bool) (fuel : Nat) (slot : Word) (immediate : Bool) (e : ExceptionT)
    (h : reduceZombie a strict fuel s slot immediate = .ok (s', e))

theorem ZombieCall.tableRun (h : ZombieCall a s s') : TableRun a (capTable s) (capTable s') := by
  cases h with
  | finalise strict fuel _ _ _ h => exact (((table_rule a strict).holds fuel).finalise trivial h).1
  | deleteAll strict fuel _ _ _ h => exact ((table_rule a strict).holds fuel).deleteAll trivial h
  | reduceZombie strict fuel _ _ _ h =>
    exact ((table_rule a strict).holds fuel).reduceZombie trivial h

theorem zombieCalls_tableRun (h : Relation.ReflTransGen (ZombieCall a) s s') :
    TableRun a (capTable s) (capTable s') := by
  induction h with
  | refl => exact .refl
  | tail _ hcall ih => exact ih.trans hcall.tableRun

theorem ZombieCall.unbinds (h : ZombieCall a s s') : Unbinds a s s' := by
  cases h with
  | finalise strict fuel _ _ _ h =>
    exact ((unbinds_rule.recursion.holds fuel).finalise trivial h).1
  | deleteAll strict fuel _ _ _ h => exact unbinds_rule.deleteAll h
  | reduceZombie strict fuel _ _ _ h =>
    exact (unbinds_rule.recursion.holds fuel).reduceZombie trivial h

theorem zombieCalls_unbinds (h : Relation.ReflTransGen (ZombieCall a) s s') : Unbinds a s s' := by
  induction h with
  | refl => exact .refl _
  | tail _ hcall ih => exact ih.trans hcall.unbinds

/-! ## Notifications -/

/-- The notifications that a deletion may write: those that a cap is to, and those that a thread
is bound to. -/
def Notifies (a : Arch) (s : KernelState) (n : Word) : Prop :=
  (∃ x, s.ctes.capType x = .notificationCap ∧ getNfPtr a (s.ctes x).cap = n) ∨
    n ≠ 0 ∧ ∃ t, boundNotification s t = n

/-- No slot lies in the 32 bytes of one of them. -/
def ClearOf (a : Arch) (N : Word → Prop) (m : CapTable) : Prop :=
  ∀ n, N n → ∀ x, IsSlot a m.caps x → Apart n 32 x 32

/-- Taking zombies apart makes no notification and binds none. -/
theorem zombieCalls_notifies (hok : TableOk a (capTable s))
    (h : Relation.ReflTransGen (ZombieCall a) s s') {n : Word} (hn : Notifies a s' n) :
    Notifies a s n := by
  rcases hn with ⟨x, ht, hn⟩ | ⟨hne, t, hn⟩
  · have htype : getCapType (capTable s' x).1 = .notificationCap := ht
    obtain ⟨y, hy⟩ := hok.run_from (zombieCalls_tableRun h) (by rw [htype]; decide)
    rcases hy.became with e | ⟨hzombie, -⟩
    · exact .inl ⟨y, (congrArg getCapType e.symm).trans htype,
        (congrArg (getNfPtr a) e.symm).trans hn⟩
    · rw [hzombie.isZombie] at htype
      cases htype
  · refine .inr ⟨hne, t, ?_⟩
    rcases (zombieCalls_unbinds h).tcb t with e | e
    · exact e.symm.trans hn
    · exact absurd (hn.symm.trans e) hne

/-- A zombie can be set to any number of slots of its object and gives back what was set last. Taking
zombies apart goes through `TableStep`s only. Where no slot lies in a notification and the table is in
order at first, as the capability invariant says, both stay so, and between any two points of the run
each zombie counts down within its object. -/
theorem zombie_faithful (a : Arch) :
    (∀ (type ptr n : Word) (ms : List Word), ZombieObject a type ptr →
      n.toNat ≤ zombieSlots type → (∀ m ∈ ms, m.toNat ≤ zombieSlots type) →
      Encodes a (ms.foldl (setZombieNumber a) (zombieNew n type ptr)) type ptr (ms.getLastD n)) ∧
    (∀ static s ls, CapInv a static (capSpace s) ls → TableOk a (capTable s)) ∧
    ∀ s s', TableOk a (capTable s) → ClearOf a (Notifies a s) (capTable s) →
      Relation.ReflTransGen (ZombieCall a) s s' →
      TableRun a (capTable s) (capTable s') ∧ (∀ n, Notifies a s' n → Notifies a s n) ∧
      ∀ m m', TableRun a (capTable s) m → TableRun a m m' →
        TableOk a m' ∧ ClearOf a (Notifies a s) m' ∧ ZombieProgress a m m' := by
  refine ⟨fun type ptr n ms hobject hn hms => ?_, fun static s ls h => h.tableOk,
    fun s s' hok hclear hcalls => ⟨zombieCalls_tableRun hcalls,
      fun n => zombieCalls_notifies hok hcalls, fun m m' hm hr => ?_⟩⟩
  · exact (hobject.encodes_new (lt_of_le_zombieSlots hn)).sets hobject hms
  · have hm' := hok.run hm
    refine ⟨hm'.run hr, fun n hn x hx => ?_, hm'.progress hr⟩
    exact hclear n hn x (isSlot_of_cameFrom (fun _ => hok.run_from (hm.trans hr)) hx)

/-! ### A CNode with a cap to a notification -/

def nodeA : Word := 0xffffffc000010080

def zombieA : CapT := zombieNew 2 1 nodeA

def ntfnP : Word := 0xffffffc000010030

/-- The zombie of `nodeA` is in the slot `z`, and the only cap to `ntfnP` is in the second slot of
`nodeA`. -/
def zombieIn (z : Word) : KernelState :=
  { zero with
    ctes := update (update zero.ctes z ⟨zombieA, fun _ => 0⟩) (nodeA + 32)
      ⟨newNotificationCap .riscv64 0 1 1 ntfnP, fun _ => 0⟩
    origin := fun x => ⟨x.toNat, [], 0⟩ }

theorem zombieIn_cap (z x : Word) : ((zombieIn z).ctes x).cap =
    if x = nodeA + 32 then newNotificationCap .riscv64 0 1 1 ntfnP else
      if x = z then zombieA else newNullCap := by
  unfold zombieIn
  simp only [update_apply]
  split
  · rfl
  · split <;> rfl

theorem tableOk_of_zombieIn (hcap : ∀ x, (s.ctes x).cap = ((zombieIn z).ctes x).cap)
    (hid : s.origin = (zombieIn z).origin) : TableOk .riscv64 (capTable s) := by
  have hcaps : ∀ x, (capTable s x).1 = _ := fun x => (hcap x).trans (zombieIn_cap z x)
  refine ⟨fun x hx => ?_, fun x hx => ?_, fun x y _ _ heq => ?_⟩
  · rw [hcaps] at hx
    split_ifs at hx <;> exact absurd hx (by decide)
  · rw [hcaps] at hx ⊢
    split_ifs at hx ⊢
    · exact absurd hx (by decide)
    · exact ⟨by decide, ⟨.inr (by decide), by decide⟩, by decide⟩
    · exact absurd hx (by decide)
  · simp only [capTable, hid] at heq
    exact BitVec.eq_of_toNat_eq heq

/-- A slot away from the notification. -/
def farSlot : Word := 0xffffffc000020000

theorem zombieIn_clear :
    ClearOf .riscv64 (Notifies .riscv64 (zombieIn farSlot)) (capTable (zombieIn farSlot)) := by
  have hcaps : ∀ x, (capTable (zombieIn farSlot)).caps x = _ := zombieIn_cap farSlot
  have hn : ∀ n, Notifies .riscv64 (zombieIn farSlot) n → n = ntfnP := by
    rintro n (⟨x, ht, rfl⟩ | ⟨hne, t, ht⟩)
    · rw [Slots.capType, zombieIn_cap] at ht
      rw [zombieIn_cap]
      split_ifs at ht ⊢
      · decide
      · exact absurd ht (by decide)
      · exact absurd ht (by decide)
    · exact absurd ht.symm hne
  intro n hntfn x hx
  obtain rfl := hn n hntfn
  rcases hx with hx | ⟨y, i, hi, rfl⟩
  · rw [hcaps] at hx
    split_ifs at hx with h₁ h₂
    · rw [h₁]
      decide
    · rw [h₂]
      decide
    · exact absurd capType_newNullCap hx
  · rw [hcaps] at hi ⊢
    -- only the zombie has slots, the two of the CNode
    split_ifs at hi ⊢
    · exact absurd hi (by decide +revert)
    · have hi : i < 2 := hi
      obtain rfl | rfl : i = 0 ∨ i = 1 := by omega
      · decide
      · decide
    · exact absurd hi (by decide +revert)

/-- The zombie counts down when the cap to the notification is deleted. -/
theorem zombie_faithful_reduced : ∃ s', ZombieCall .riscv64 (zombieIn farSlot) s' ∧
    getZombieNumber .riscv64 (s'.ctes farSlot).cap = 1 ∧
    ZombieProgress .riscv64 (capTable (zombieIn farSlot)) (capTable s') := by
  obtain ⟨⟨s', st⟩, hrun, hone⟩ := Exec.satisfies_iff.mp (by decide +kernel :
    (reduceZombie .riscv64 false 3 (zombieIn farSlot) farSlot true).satisfies
      (fun r => decide (getZombieNumber .riscv64 (r.1.ctes farSlot).cap = 1)) = true)
  have hcall : ZombieCall .riscv64 (zombieIn farSlot) s' := .reduceZombie false 3 farSlot true st hrun
  have hok : TableOk .riscv64 (capTable (zombieIn farSlot)) :=
    tableOk_of_zombieIn (fun _ => rfl) rfl
  obtain ⟨htable, -, hpoints⟩ :=
    (zombie_faithful .riscv64).2.2 _ s' hok zombieIn_clear (.single hcall)
  exact ⟨s', hcall, of_decide_eq_true hone, (hpoints _ _ .refl htable).2.2⟩

/-- The zombie lies right behind the notification: their words are the same. -/
def tightZombie : KernelState :=
  spill { zombieIn (ntfnP + 16) with
    notifications := update zero.notifications ntfnP fun i =>
      if i = 2 then zombieA 0 else if i = 3 then zombieA 1 else 0 } ntfnP

/-- Deleting the cap to the notification clears the word with its bound TCB, and with it the pointer
of the zombie. -/
theorem deleteAll_overwrites_zombie : spill tightZombie ntfnP = tightZombie ∧
    TableOk .riscv64 (capTable tightZombie) ∧
    ∃ s', ZombieCall .riscv64 tightZombie s' ∧
      ¬ ZombieProgress .riscv64 (capTable tightZombie) (capTable (spill s' ntfnP)) := by
  obtain ⟨⟨s', st⟩, hrun, hcap⟩ := Exec.satisfies_iff.mp (by decide +kernel :
    (deleteAll .riscv64 false 3 tightZombie (nodeA + 32) false).satisfies (fun r =>
      decide (getCapType ((spill r.1 ntfnP).ctes (ntfnP + 16)).cap = .zombieCap ∧
        getZombiePtr .riscv64 ((spill r.1 ntfnP).ctes (ntfnP + 16)).cap ≠ nodeA ∧
        (r.1.origin (ntfnP + 16)).id = (tightZombie.origin (ntfnP + 16)).id)) = true)
  obtain ⟨hz, hptr, hid⟩ := of_decide_eq_true hcap
  have hold : (tightZombie.ctes (ntfnP + 16)).cap = zombieA := by decide
  refine ⟨?_, tableOk_of_zombieIn (z := ntfnP + 16) (fun x => ?_) rfl, s',
    .deleteAll false 3 _ false st hrun, fun hprogress => hptr ?_⟩
  · unfold tightZombie spill
    simp
  · by_cases hx : x = ntfnP + 16
    · rw [hx, hold]
      decide
    · unfold tightZombie spill
      simp only [update_of_ne hx]
  · have hcounts := hprogress.counts (ntfnP + 16) (ntfnP + 16) zombieA
      (by rw [show (capTable tightZombie (ntfnP + 16)).1 = zombieA from hold]; decide) hz hid.symm
    exact hcounts.ptr_eq.trans (by decide)

end Rel4.Kernel
