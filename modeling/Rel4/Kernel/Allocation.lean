import Rel4.Kernel.CapRun

/-!
What a successful retype allocates.

`Allocated` says what the caller of a retype may rely on: where the objects lie,
which slots hold their caps, and where these slots are in the mapping database.
The loop of `create_new_objects` is followed by `Made`, which says what the
first `k` turns have written.
-/

namespace Rel4.Kernel
open Lib.Bitfield Lib.DList Common CSpace Rel4.Task Function
open Slots (capType setCap revocable)

variable {a : Arch} {s s' : KernelState} {σ σ' : Slots} {cap : CapT}
  {slot start buffer length : Word} {label : MessageLabel} {ls : List (List Word)} {k : Nat}
  {r : RetypeRequest}

/-! ## What a retype should do -/

/-- An untyped cap for an aligned block of the kernel window, of 256 bytes at
least. -/
structure Block (a : Arch) (cap : CapT) : Prop where
  kind : getCapType cap = .untypedCap
  window : pptrBase a ≤ getUntypedPtr a cap
  aligned : (getUntypedPtr a cap).toNat % 2 ^ (getUntypedBlockSize a cap).toNat = 0
  size : 8 ≤ (getUntypedBlockSize a cap).toNat ∧ (getUntypedBlockSize a cap).toNat ≤ 38
  free : 16 * (getUntypedFreeIndex a cap).toNat ≤ 2 ^ (getUntypedBlockSize a cap).toNat

/-- The free index that the retype goes on from: `0` if the reset branch is taken. -/
def firstFree (a : Arch) (s : KernelState) (slot : Word) : Word :=
  if ensureNoChildren a s.ctes slot = .none then 0 else getUntypedFreeIndex a (s.ctes slot).cap

namespace RetypeRequest

/-- The address of the first object. -/
def areaStart (a : Arch) (r : RetypeRequest) (s : KernelState) (slot : Word) : Word :=
  alignUp (getFreeRef (getUntypedPtr a (s.ctes slot).cap) (firstFree a s slot)) (r.bits a)

/-- The bytes that the objects take. -/
def bytes (a : Arch) (r : RetypeRequest) : Nat := r.nodeWindow.toNat * 2 ^ (r.bits a).toNat

/-- No slot lies in a TCB that the retype makes. The stores of `create_object` to a new TCB
would overwrite it, and the model keeps TCBs apart from the slots. -/
def TcbsClear (a : Arch) (r : RetypeRequest) (s : KernelState) (slot : Word) : Prop :=
  r.newType = .tcb → ∀ i < r.nodeWindow.toNat, ∀ x, IsSlot a (fun y => (s.ctes y).cap) x →
    Apart (r.objectBase a (r.areaStart a s slot) i + tcbOffset a)
      (2 ^ (tcbBits a).toNat - (tcbOffset a).toNat) x 32

/-- The sums and shifts that the retype computes do not wrap. -/
structure Exact (a : Arch) (s : KernelState) (slot : Word) (r : RetypeRequest) : Prop where
  ref : (getFreeRef (getUntypedPtr a (s.ctes slot).cap) (firstFree a s slot)).toNat =
    (getUntypedPtr a (s.ctes slot).cap).toNat + 16 * (firstFree a s slot).toNat
  align : (getFreeRef (getUntypedPtr a (s.ctes slot).cap) (firstFree a s slot)).toNat +
    2 ^ (r.bits a).toNat < 2 ^ 64
  total : (r.nodeWindow <<< (r.bits a &&& 63).toNat).toNat = r.bytes a
  areaEnd : (r.areaStart a s slot).toNat + r.bytes a < 2 ^ 64
  object : ∀ i < r.nodeWindow.toNat, (r.objectBase a (r.areaStart a s slot) i).toNat =
    (r.areaStart a s slot).toNat + i * 2 ^ (r.bits a).toNat

/-- The retype from `s` to `s'` has allocated the objects of `r`. -/
structure Allocated (a : Arch) (s s' : KernelState) (ls : List (List Word)) (slot : Word)
    (r : RetypeRequest) : Prop where
  aligned : (r.areaStart a s slot).toNat % 2 ^ (r.bits a).toNat = 0
  above : (getUntypedPtr a (s.ctes slot).cap).toNat + 16 * (firstFree a s slot).toNat ≤
    (r.areaStart a s slot).toNat
  inside : (r.areaStart a s slot).toNat + r.bytes a ≤
    (getUntypedPtr a (s.ctes slot).cap).toNat + 2 ^ (getUntypedBlockSize a (s.ctes slot).cap).toNat
  exact : r.Exact a s slot
  source : ∃ idx, (s'.ctes slot).cap = setUntypedFreeIndex a (s.ctes slot).cap idx
  free : (getUntypedPtr a (s.ctes slot).cap).toNat +
    16 * (getUntypedFreeIndex a (s'.ctes slot).cap).toNat = (r.areaStart a s slot).toNat + r.bytes a
  empty : ∀ i < r.nodeWindow.toNat,
    s.ctes.capType (r.dest a i) = .nullCap ∧ HasSlot a r.nodeCap (r.dest a i)
  made : ∀ i < r.nodeWindow.toNat, (s'.ctes (r.dest a i)).cap =
    r.newCap a (r.areaStart a s slot) (flag (deviceMem a (s.ctes slot).cap)) i
  range : ∀ i < r.nodeWindow.toNat, extent a (s'.ctes (r.dest a i)).cap =
    ⟨.memory, (r.areaStart a s slot).toNat + i * 2 ^ (r.bits a).toNat,
      (r.areaStart a s slot).toNat + (i + 1) * 2 ^ (r.bits a).toNat⟩
  child : ∀ i < r.nodeWindow.toNat,
    isMdbParentOf a (s'.ctes slot) (s'.ctes (r.dest a i)) = true
  placed : MdbInv a s'.ctes (ls.map (insertAllAfter slot
    ((List.range r.nodeWindow.toNat).map (r.dest a)).reverse))
  others : ∀ x, x ≠ slot → (∀ i < r.nodeWindow.toNat, x ≠ r.dest a i) →
    (s'.ctes x).cap = (s.ctes x).cap ∨
      s.ctes.capType x = .nullCap ∧ s'.ctes.capType x = .nullCap

end RetypeRequest

/-! ## The caps and the mapping database after the loop -/

theorem objectTag_ne_null (t : ObjectType) : objectTag t ≠ .nullCap := by
  cases t <;> decide

namespace RetypeRequest

/-- What the first `k` turns of the loop write; `u` holds the untyped cap. -/
structure Made (a : Arch) (r : RetypeRequest) (u start d : Word) (k : Nat) (σ σ' : Slots) :
    Prop where
  new : ∀ i < k, (σ' (r.dest a i)).cap = r.newCap a start d i
  old : ∀ x, (∀ i < k, x ≠ r.dest a i) →
    (σ' x).cap = (σ x).cap ∧ σ'.flags a x = σ.flags a x
  mdb : ∀ ls, MdbInv a σ ls → σ.capType u ≠ .nullCap →
    MdbInv a σ' (ls.map (insertAllAfter u ((List.range k).map (r.dest a)).reverse))

/-- The destinations are empty slots. -/
def Free (a : Arch) (r : RetypeRequest) (σ : Slots) : Prop :=
  ∀ i < r.nodeWindow.toNat, σ.capType (r.dest a i) = .nullCap ∧ SlotAddr a (r.dest a i)

theorem Made.refl : r.Made a slot start d 0 σ σ := by
  refine ⟨fun i hi => absurd hi (Nat.not_lt_zero i), fun x _ => ⟨rfl, rfl⟩, fun ls h _ => ?_⟩
  have hid : ls.map (insertAllAfter slot []) = ls := List.map_id'' (fun _ => insertAllAfter_nil) ls
  exact hid.symm ▸ h

theorem Made.step (h : r.Made a slot start d k σ σ') (hfree : r.Free a σ)
    (hwin : r.nodeWindow.toNat ≤ 256) (hk : k < r.nodeWindow.toNat) :
    r.Made a slot start d (k + 1) σ
      (insertNewCap a σ' slot (r.dest a k) (r.newCap a start d k)) := by
  obtain ⟨hnull, haddr⟩ := hfree k hk
  have e : InsertEffect a σ' (insertNewCap a σ' slot (r.dest a k) (r.newCap a start d k))
      _ _ _ _ _ := insertNewCap_effect haddr.2
  have hkd : ∀ i < k, r.dest a k ≠ r.dest a i := by
    intro i hi he
    have := dest_inj hwin hk (by omega) he
    omega
  refine ⟨fun i hi => ?_, fun x hx => ?_, fun ls hmdb hlive => ?_⟩
  · by_cases hik : i = k
    · rw [e.cap, hik, if_pos rfl]
    · rw [e.cap_eq, if_neg fun he => hkd i (by omega) he.symm]
      exact h.new i (by omega)
  · have hxk := hx k (Nat.lt_succ_self k)
    obtain ⟨h1, h2⟩ := h.old x fun i hi => hx i (by omega)
    exact ⟨by rw [e.cap_eq, if_neg hxk, h1], by rw [e.flags, if_neg hxk, h2]⟩
  · have hslot : σ'.capType slot ≠ .nullCap := by
      have hne : ∀ i < k, slot ≠ r.dest a i := fun i hi he =>
        hlive (he ▸ (hfree i (by omega)).1)
      rw [capType, (h.old slot hne).1]
      exact hlive
    have hdest : σ'.capType (r.dest a k) = .nullCap := by
      rw [capType, (h.old _ hkd).1]
      exact hnull
    have hins := (h.mdb ls hmdb hlive).of_insertEffect e hslot hdest haddr rfl
      (by rw [newCap, getCapType_objectCap]; exact objectTag_ne_null _)
    rw [List.map_map] at hins
    have hlist : ((List.range (k + 1)).map (r.dest a)).reverse =
        r.dest a k :: ((List.range k).map (r.dest a)).reverse := by
      rw [List.range_succ, List.map_append, List.reverse_append]
      rfl
    rw [hlist]
    have hfun : insertAfter slot (r.dest a k) ∘
        insertAllAfter slot ((List.range k).map (r.dest a)).reverse =
          insertAllAfter slot (r.dest a k :: ((List.range k).map (r.dest a)).reverse) :=
      funext fun l => insertAfter_insertAllAfter
    rwa [hfun] at hins

/-- The loop writes what all of its turns write. -/
theorem Made.createNewObjects (hfree : r.Free a σ) (hwin : r.nodeWindow.toNat ≤ 256) {n : Nat}
    (hn : n ≤ r.nodeWindow.toNat) :
    ∀ {s : KernelState}, r.Made a slot start d (r.nodeWindow.toNat - n) σ s.ctes →
      r.Made a slot start d r.nodeWindow.toNat σ (createNewObjects a r.newType slot
        (getCNodePtr a r.nodeCap) r.nodeOffset r.nodeWindow.toNat start r.userSize d n s).ctes := by
  induction n with
  | zero =>
    intro s h
    exact h
  | succ n ih =>
    intro s h
    rw [Kernel.createNewObjects]
    have hcs : (createObject a s r.newType (r.objectBase a start
        (r.nodeWindow.toNat - (n + 1))) r.userSize d).1.ctes = s.ctes :=
      congrArg CapSpace.slots capSpace_createObject
    have hstep := h.step hfree hwin (by omega)
    rw [show r.nodeWindow.toNat - (n + 1) + 1 = r.nodeWindow.toNat - n by omega] at hstep
    refine ih (by omega) ?_
    rw [← hcs] at hstep
    exact hstep

end RetypeRequest

/-! ## The slots before the loop -/

theorem Block.base_eq (h : Block a cap) : objBase a cap = getUntypedPtr a cap :=
  objBase_untyped h.kind

theorem Block.bits_eq (h : Block a cap) : objBits a cap = (getUntypedBlockSize a cap).toNat :=
  objBits_untyped h.kind

theorem Block.capOK (h : Block a cap) : CapOK a cap := by
  refine .of_block ?_ ?_ ?_ ?_ fun _ => ?_
  · rw [h.kind]
    decide
  · rw [h.base_eq]
    exact h.window
  · rw [h.base_eq, h.bits_eq]
    exact h.aligned
  · rw [h.bits_eq]
    exact ⟨Nat.le_trans (by decide) h.size.1, h.size.2⟩
  · rw [h.bits_eq]
    exact h.free

/-- The bytes from the start of the block that a reset clears. -/
def clearedBytes (a : Arch) (cap : CapT) : Nat :=
  let offset := freeIndexToOffset (getUntypedFreeIndex a cap)
  if offset = 0 then 0 else 256 * (((offset - 1) >>> 8).toNat + 1)

/-- A reset of `cap` clears the address. -/
def InCleared (a : Arch) (cap : CapT) (x : Word) : Prop :=
  (getUntypedPtr a cap).toNat ≤ x.toNat ∧
    x.toNat < (getUntypedPtr a cap).toNat + clearedBytes a cap

instance {x : Word} : Decidable (InCleared a cap x) := inferInstanceAs (Decidable (_ ∧ _))

/-- The slots after a reset of the cap in `slot`, but for its free index. -/
def resetSlots (a : Arch) (σ : Slots) (slot : Word) : Slots := fun x =>
  if InCleared a (σ slot).cap x then emptyCte else σ x

/-- The slots that the loop starts from: `index` is the new free index. -/
def slotsBeforeLoop (a : Arch) (σ : Slots) (slot index : Word) : Slots :=
  let σ := if ensureNoChildren a σ slot = .none then resetSlots a σ slot else σ
  σ.setCap slot (setUntypedFreeIndex a (σ slot).cap index)

theorem ctes_setFreeIndex (h : s.ctes = σ) : (setFreeIndex a s slot index).ctes =
    σ.setCap slot (setUntypedFreeIndex a (σ slot).cap index) := by
  rw [← h]
  rfl

/-- A reset of a block of whole chunks clears them up to the free index. -/
theorem resetUntypedCap_slots (hb : Block a (s.ctes slot).cap) :
    (setFreeIndex a (resetUntypedCap a s slot) slot index).ctes =
      (resetSlots a s.ctes slot).setCap slot
        (setUntypedFreeIndex a (resetSlots a s.ctes slot slot).cap index) := by
  have hoff := toNat_freeIndexToOffset hb.size.2 hb.free
  have hend := hb.capOK.end_le (physical_untyped hb.kind)
  rw [hb.base_eq, hb.bits_eq] at hend
  unfold resetUntypedCap
  simp only
  split
  next hzero =>
    refine ctes_setFreeIndex (funext fun x => ?_)
    rw [resetSlots, if_neg]
    rintro ⟨h1, h2⟩
    rw [clearedBytes, if_pos hzero] at h2
    omega
  next hne =>
    rw [if_neg (by rintro ⟨-, hsmall⟩; exact absurd hb.size.1 (Nat.not_le.mpr hsmall))]
    have hchunks := chunks_le hne hoff hb.size.1 hb.free
    have hclear : (clearChunks s (getUntypedPtr a (s.ctes slot).cap)
        (((freeIndexToOffset (getUntypedFreeIndex a (s.ctes slot).cap) - 1) >>> 8).toNat +
          1)).ctes = resetSlots a s.ctes slot := by
      funext x
      rw [clearChunks_ctes (Nat.le_trans (Nat.add_le_add_left hchunks _) hend), resetSlots]
      simp only [InCleared, clearedBytes, if_neg hne]
    rw [ctes_setFreeIndex rfl]
    exact Slots.setCap_setFreeIndex (ctes_setFreeIndex hclear)

/-- If the retype resets the cap, the memory that it clears holds no caps. -/
def Spared (a : Arch) (σ : Slots) (slot : Word) : Prop :=
  ensureNoChildren a σ slot = .none → ∀ x, σ.capType x ≠ .nullCap → ¬ InCleared a (σ slot).cap x

section BeforeLoop

variable {x index : Word}

theorem slotsBeforeLoop_of_ne (hx : x ≠ slot) : slotsBeforeLoop a σ slot index x =
    if ensureNoChildren a σ slot = .none ∧ InCleared a (σ slot).cap x then emptyCte else σ x := by
  rw [slotsBeforeLoop, setCap, update_of_ne hx, ite_and]
  split <;> rfl

theorem slotsBeforeLoop_self : slotsBeforeLoop a σ slot index slot =
    if ensureNoChildren a σ slot = .none ∧ InCleared a (σ slot).cap slot then
      ⟨setUntypedFreeIndex a newNullCap index, defaultMdbNode⟩
    else ⟨setUntypedFreeIndex a (σ slot).cap index, (σ slot).cteMDBNode⟩ := by
  rw [slotsBeforeLoop, setCap, update_self, ite_and]
  split
  · rw [resetSlots]
    split <;> rfl
  · rfl

theorem capType_slotsBeforeLoop (h : Spared a σ slot) :
    (slotsBeforeLoop a σ slot index).capType x = .nullCap ↔ σ.capType x = .nullCap := by
  by_cases hx : x = slot
  · rw [hx, capType, slotsBeforeLoop_self]
    split
    next hc =>
      have hnull : σ.capType slot = .nullCap := by
        by_contra hl
        exact h hc.1 slot hl hc.2
      rw [getCapType_setUntypedFreeIndex]
      exact ⟨fun _ => hnull, fun _ => capType_newNullCap⟩
    next => rw [getCapType_setUntypedFreeIndex, capType]
  · rw [capType, slotsBeforeLoop_of_ne hx]
    split
    next hc =>
      have hnull : σ.capType x = .nullCap := by
        by_contra hl
        exact h hc.1 x hl hc.2
      exact ⟨fun _ => hnull, fun _ => capType_newNullCap⟩
    next => rw [capType]

theorem mdbInv_slotsBeforeLoop (h : MdbInv a σ ls) (hs : Spared a σ slot) :
    MdbInv a (slotsBeforeLoop a σ slot index) ls := by
  have hclear : MdbInv a (if ensureNoChildren a σ slot = .none then resetSlots a σ slot else σ)
      ls := by
    refine h.clear fun x => ?_
    split
    next hn =>
      by_cases hc : InCleared a (σ slot).cap x
      · refine .inr ⟨if_pos hc, ?_⟩
        by_contra hl
        exact hs hn x hl hc
      · exact .inl (if_neg hc)
    next => exact .inl rfl
  have hcap : ∀ x, (slotsBeforeLoop a σ slot index).capType x =
      (if ensureNoChildren a σ slot = .none then resetSlots a σ slot else σ).capType x := by
    intro x
    rw [slotsBeforeLoop, Slots.capType_setCap, getCapType_setUntypedFreeIndex]
    split
    next hx => rw [hx, capType]
    next => rfl
  exact hclear.congr (fun x => Slots.next_setCap) (fun x => Slots.prev_setCap)
    fun x => by rw [hcap]

end BeforeLoop

/-! ## Decoding -/

/-- A successful retype has been checked and its loop has run. -/
theorem decodeUntypedInvocation_made (hb : Block a (s.ctes slot).cap)
    (hnodes : ∀ x, s.ctes.capType x = .cnodeCap → CapOK a (s.ctes x).cap)
    (h : decodeUntypedInvocation a s label length slot (s.ctes slot).cap buffer =
      .ok (s', .none)) :
    ∃ r : RetypeRequest, r.Asks a s buffer ∧ r.Checked a s.ctes ∧
      Area a (s.ctes slot).cap (16 * (firstFree a s slot).toNat) (r.areaStart a s slot)
        r.nodeWindow (r.bits a) ∧
      (∀ i < r.nodeWindow.toNat, SlotAddr a (r.dest a i)) ∧
      r.Made a slot (r.areaStart a s slot) (flag (deviceMem a (s.ctes slot).cap))
        r.nodeWindow.toNat (slotsBeforeLoop a s.ctes slot
          (getFreeIndex (getUntypedPtr a (s.ctes slot).cap)
            (r.areaStart a s slot + r.nodeWindow <<< (r.bits a &&& 63).toNat))) s'.ctes := by
  rcases decodeUntypedInvocation_retypes h with ⟨hst, -⟩ | ⟨-, r, s₂, reset, idx, hrun⟩
  · exact absurd rfl hst
  have hr := hrun.checked
  have hslots := hrun.slots
  have hreset := hrun.reset_iff
  obtain rfl : idx = firstFree a s slot := by
    rw [hrun.index, firstFree]
    simp only [hreset]
  have haddr : ∀ i < r.nodeWindow.toNat, SlotAddr a (r.dest a i) := by
    intro i hi
    obtain ⟨ht, y, hy⟩ := hr.node
    have hcap : CapOK a r.nodeCap := hy ▸ hnodes y (by rw [capType, hy]; exact ht)
    exact (hr.hasSlot hi).slotAddr hcap
  refine ⟨r, hrun.asks, hr, hrun.area hb.capOK hb.kind, haddr, ?_⟩
  have hne : ∀ i < r.nodeWindow.toNat, r.dest a i ≠ slot := by
    intro i hi e
    have := hr.empty i hi
    rw [e, capType, hb.kind] at this
    cases this
  have hfree : ∀ index, r.Free a (slotsBeforeLoop a s.ctes slot index) := by
    refine fun index i hi => ⟨?_, haddr i hi⟩
    rw [capType, slotsBeforeLoop_of_ne (hne i hi)]
    split
    · exact capType_newNullCap
    · exact hr.empty i hi
  have hbefore : ∀ index, (setFreeIndex a (if reset then resetUntypedCap a s₂ slot else s₂) slot
      index).ctes = slotsBeforeLoop a s.ctes slot index := by
    intro index
    rw [← hslots] at hb ⊢
    rw [slotsBeforeLoop]
    cases reset with
    | true =>
      rw [if_pos rfl, if_pos (by rw [hslots]; exact hreset.mp rfl)]
      exact resetUntypedCap_slots hb
    | false =>
      rw [if_neg Bool.false_ne_true, if_neg fun e => Bool.false_ne_true (hreset.mpr (hslots ▸ e))]
      exact ctes_setFreeIndex rfl
  rw [hrun.run, invokeUntypedRetype, hslots]
  refine RetypeRequest.Made.createNewObjects (hfree _) hr.window.2 (Nat.le_refl _) ?_
  rw [Nat.sub_self, hbefore]
  exact .refl

/-! ## The result -/

namespace RetypeRequest

/-- The area that has been found is the one the sums denote, unless it ends at
the end of the address space. -/
theorem exact_of_area (hb : Block a (s.ctes slot).cap) (hr : r.Checked a s.ctes)
    (har : Area a (s.ctes slot).cap (16 * (firstFree a s slot).toNat) (r.areaStart a s slot)
      r.nodeWindow (r.bits a))
    (hend : (r.areaStart a s slot).toNat + r.bytes a < 2 ^ 64) : r.Exact a s slot := by
  have habove := har.above
  have hbits := har.bits_le
  have hstart := (r.areaStart a s slot).isLt
  rw [hb.base_eq] at habove
  have hone : 2 ^ (r.bits a).toNat ≤ r.bytes a := Nat.le_mul_of_pos_left _ hr.window.1
  have hoff : (freeIndexToOffset (firstFree a s slot)).toNat = 16 * (firstFree a s slot).toNat := by
    rw [freeIndexToOffset, BitVec.toNat_shiftLeft, Nat.shiftLeft_eq]
    omega
  have href : (getFreeRef (getUntypedPtr a (s.ctes slot).cap) (firstFree a s slot)).toNat =
      (getUntypedPtr a (s.ctes slot).cap).toNat + 16 * (firstFree a s slot).toNat := by
    rw [getFreeRef, BitVec.toNat_add, hoff]
    omega
  refine ⟨href, ?_, ?_, hend, fun i hi => toNat_objectBase har hb.capOK hb.kind hi⟩
  · rw [href]
    omega
  · refine toNat_shiftLeft_and (by omega) ?_
    have : r.nodeWindow.toNat * 2 ^ (r.bits a).toNat = r.bytes a := rfl
    omega

/-- A VSpace is never recognised as a child. -/
theorem Allocated.type_ne (h : r.Allocated a s s' ls slot) (hpos : 1 ≤ r.nodeWindow.toNat)
    (hu : s.ctes.capType slot = .untypedCap) : r.newType ≠ .armVSpace := by
  intro e
  have hchild := h.child 0 hpos
  obtain ⟨idx, hsrc⟩ := h.source
  have htype : getCapType (s'.ctes slot).cap = .untypedCap := by
    rw [hsrc, getCapType_setUntypedFreeIndex]
    exact hu
  have hphys : getCapIsPhysical (s'.ctes (r.dest a 0)).cap = false := by
    rw [h.made 0 hpos, newCap, getCapIsPhysical, getCapType_objectCap, e]
    rfl
  have hregion : sameRegionAs a (s'.ctes slot).cap (s'.ctes (r.dest a 0)).cap = false := by
    simp [sameRegionAs, htype, hphys]
  simp [isMdbParentOf, hregion] at hchild

variable {index : Word}

/-- The slot of the untyped cap after the loop, if the reset has not cleared it. -/
theorem Made.source (h : r.Made a slot start d k (slotsBeforeLoop a σ slot index) σ')
    (hne : ∀ i < k, slot ≠ r.dest a i)
    (hself : ¬ (ensureNoChildren a σ slot = .none ∧ InCleared a (σ slot).cap slot)) :
    (σ' slot).cap = setUntypedFreeIndex a (σ slot).cap index ∧
      getRevocable a (σ' slot).cteMDBNode = σ.revocable a slot := by
  obtain ⟨hcap, hflags⟩ := h.old slot hne
  have hrev : σ'.revocable a slot = (slotsBeforeLoop a σ slot index).revocable a slot :=
    congrArg Prod.fst hflags
  rw [revocable, revocable, slotsBeforeLoop_self, if_neg hself] at hrev
  rw [slotsBeforeLoop_self, if_neg hself] at hcap
  exact ⟨hcap, hrev⟩

/-- What the allocation needs of the state before. -/
theorem Allocated.spared (h : r.Allocated a s s' ls slot) (hpos : 1 ≤ r.nodeWindow.toNat)
    (hu : s.ctes.capType slot = .untypedCap)
    (hm : r.Made a slot start d r.nodeWindow.toNat (slotsBeforeLoop a s.ctes slot index) s'.ctes) :
    Spared a s.ctes slot ∧ s.ctes.revocable a slot ≠ 0 := by
  have hul : s.ctes.capType slot ≠ .nullCap := by rw [hu]; decide
  have hne : ∀ x, s.ctes.capType x ≠ .nullCap → ∀ i < r.nodeWindow.toNat, x ≠ r.dest a i := by
    rintro x hx i hi rfl
    exact hx (h.empty i hi).1
  obtain ⟨idx, hsrc⟩ := h.source
  -- the untyped cap itself has not been cleared
  have hself : ¬ (ensureNoChildren a s.ctes slot = .none ∧ InCleared a (s.ctes slot).cap slot) := by
    intro hc
    have hcap := (hm.old slot (hne slot hul)).1
    rw [hsrc, slotsBeforeLoop_self, if_pos hc] at hcap
    have htype := congrArg getCapType hcap
    rw [getCapType_setUntypedFreeIndex, getCapType_setUntypedFreeIndex, capType_newNullCap] at htype
    exact hul htype
  refine ⟨fun hn x hx hc => ?_, fun hrev => ?_⟩
  · by_cases hxs : x = slot
    · rw [hxs] at hc
      exact hself ⟨hn, hc⟩
    · have hnull : s'.ctes.capType x = .nullCap := by
        rw [capType, (hm.old x (hne x hx)).1, slotsBeforeLoop_of_ne hxs, if_pos ⟨hn, hc⟩]
        exact capType_newNullCap
      rcases h.others x hxs (hne x hx) with he | ⟨he, -⟩
      · rw [capType, he] at hnull
        exact hx hnull
      · exact hx he
  · have hrev' := (hm.source (hne slot hul) hself).2.trans hrev
    have hchild := h.child 0 hpos
    rw [isMdbParentOf, if_pos hrev'] at hchild
    cases hchild

/-- A retype to other objects than VSpaces, whose reset clears no caps. -/
theorem allocated_of_made (hmdb : MdbInv a s.ctes ls) (hb : Block a (s.ctes slot).cap)
    (hr : r.Checked a s.ctes)
    (har : Area a (s.ctes slot).cap (16 * (firstFree a s slot).toNat) (r.areaStart a s slot)
      r.nodeWindow (r.bits a))
    (hidx : index = getFreeIndex (getUntypedPtr a (s.ctes slot).cap)
      (r.areaStart a s slot + r.nodeWindow <<< (r.bits a &&& 63).toNat))
    (hm : r.Made a slot (r.areaStart a s slot) (flag (deviceMem a (s.ctes slot).cap))
      r.nodeWindow.toNat (slotsBeforeLoop a s.ctes slot index) s'.ctes)
    (hvs : r.newType ≠ .armVSpace) (hrev : s.ctes.revocable a slot ≠ 0)
    (hspared : Spared a s.ctes slot)
    (hend : (r.areaStart a s slot).toNat + r.bytes a < 2 ^ 64) : r.Allocated a s s' ls slot := by
  have hul : s.ctes.capType slot ≠ .nullCap := by
    rw [capType, hb.kind]
    decide
  have hne : ∀ i < r.nodeWindow.toNat, slot ≠ r.dest a i := by
    rintro i hi rfl
    exact hul (hr.empty i hi)
  have hself : ¬ (ensureNoChildren a s.ctes slot = .none ∧ InCleared a (s.ctes slot).cap slot) :=
    fun hc => hspared hc.1 slot hul hc.2
  obtain ⟨hcap, hrev'⟩ := hm.source hne hself
  have hd : (flag (deviceMem a (s.ctes slot).cap)).toNat < 2 := by
    rcases flag_zero_or_one (deviceMem a (s.ctes slot).cap) with e | e <;> rw [e] <;> decide
  have hnew : ∀ i < r.nodeWindow.toNat, CapOK a (s'.ctes (r.dest a i)).cap ∧
      extent a (s'.ctes (r.dest a i)).cap =
        ⟨.memory, (r.areaStart a s slot).toNat + i * 2 ^ (r.bits a).toNat,
          (r.areaStart a s slot).toNat + (i + 1) * 2 ^ (r.bits a).toNat⟩ := by
    intro i hi
    rw [hm.new i hi]
    exact newCap_ok har hb.capOK hb.kind hr.size hvs hd hi
  have hfree := getUntypedFreeIndex_retyped hb.capOK hb.kind hr har hidx
  have habove := har.above
  have hbelow := har.below
  have hidx_le : 16 * index.toNat ≤ 2 ^ objBits a (s.ctes slot).cap := by
    have hraw := har.freeIndex hb.capOK hb.kind hr.size.four_le
    rw [← hidx] at hraw
    omega
  have hsrc := (CapOK.setFreeIndex hb.kind hb.capOK hidx_le).1
  rw [objBase_setFreeIndex hb.kind, hb.base_eq, ← hcap] at hfree
  refine ⟨har.aligned, ?_, ?_, exact_of_area hb hr har hend, ⟨index, hcap⟩, hfree,
    fun i hi => ⟨hr.empty i hi, hr.hasSlot hi⟩, hm.new, fun i hi => (hnew i hi).2, ?_, ?_, ?_⟩
  · rw [← hb.base_eq]
    exact habove
  · rw [← hb.base_eq, ← hb.bits_eq]
    exact hbelow
  · intro i hi
    obtain ⟨hok, hext⟩ := hnew i hi
    have hmul : (i + 1) * 2 ^ (r.bits a).toNat ≤ r.nodeWindow.toNat * 2 ^ (r.bits a).toNat :=
      Nat.mul_le_mul_right _ hi
    refine isMdbParentOf_of_within (hcap ▸ hsrc) ?_ (by rw [hrev']; exact hrev) hok ?_
    · rw [hcap, getCapType_setUntypedFreeIndex]
      exact hb.kind
    · rw [hcap, extent_setFreeIndex hb.kind, hext, extent_physical (physical_untyped hb.kind)]
      refine ⟨rfl, ?_, ?_⟩
      · show (objBase a (s.ctes slot).cap).toNat ≤ (r.areaStart a s slot).toNat + _
        omega
      · show (r.areaStart a s slot).toNat + _ ≤ (objBase a (s.ctes slot).cap).toNat + _
        omega
  · exact hm.mdb ls (mdbInv_slotsBeforeLoop hmdb hspared)
      fun e => hul ((capType_slotsBeforeLoop hspared).mp e)
  · intro x hxs hx
    rw [capType, capType, (hm.old x hx).1, slotsBeforeLoop_of_ne hxs]
    split
    next hc =>
      refine .inr ⟨?_, capType_newNullCap⟩
      by_contra hl
      exact hspared hc.1 x hl hc.2
    next => exact .inl rfl

end RetypeRequest

/-- A successful retype, which makes no TCB over a slot, allocates what it should, unless it
makes VSpaces, the untyped cap is not marked as revocable, its reset clears caps, or the
objects reach the end of the address space. -/
theorem retype_allocates_iff (hmdb : MdbInv a s.ctes ls) (hb : Block a (s.ctes slot).cap)
    (hnodes : ∀ x, s.ctes.capType x = .cnodeCap → CapOK a (s.ctes x).cap)
    (h : decodeUntypedInvocation a s label length slot (s.ctes slot).cap buffer =
      .ok (s', .none)) :
    ∃ r : RetypeRequest, r.Asks a s buffer ∧ (r.TcbsClear a s slot →
      (r.Allocated a s s' ls slot ↔ r.newType ≠ .armVSpace ∧ Spared a s.ctes slot ∧
        s.ctes.revocable a slot ≠ 0 ∧ (r.areaStart a s slot).toNat + r.bytes a ≠ 2 ^ 64)) := by
  obtain ⟨r, hasks, hr, har, -, hm⟩ := decodeUntypedInvocation_made hb hnodes h
  refine ⟨r, hasks, fun _ => ⟨fun hall => ?_, fun ⟨hvs, hspared, hrev, hend⟩ => ?_⟩⟩
  · obtain ⟨hspared, hrev⟩ := hall.spared hr.window.1 hb.kind hm
    exact ⟨hall.type_ne hr.window.1 hb.kind, hspared, hrev, Nat.ne_of_lt hall.exact.areaEnd⟩
  · have hle : (r.areaStart a s slot).toNat + r.bytes a ≤ 2 ^ 64 := har.end_le hb.capOK hb.kind
    exact RetypeRequest.allocated_of_made hmdb hb hr har rfl hm hvs hrev hspared
      (Nat.lt_of_le_of_ne hle hend)

theorem bootState_block : Block a ((bootState a device).ctes (bootSlot a 1)).cap := by
  cases a <;> cases device <;> constructor <;> decide

theorem bootState_nodes (hx : (bootState a device).ctes.capType x = .cnodeCap) :
    CapOK a ((bootState a device).ctes x).cap :=
  bootState_boot.ok x (by rw [hx]; decide)

/-- Two endpoints retyped from the boot untyped cap. -/
theorem retype_allocates_iff_endpoints : ∃ s s' ls, ∃ r : RetypeRequest,
    MdbInv .riscv64 s.ctes ls ∧ r.newType = .endpoint ∧ r.nodeWindow = 2 ∧
      r.Allocated .riscv64 s s' ls (bootSlot .riscv64 1) := by
  let s := withRetypeArgs .riscv64 (bootState .riscv64 false) 2 0 2 2
  obtain ⟨⟨s', st⟩, hretype, hs⟩ := Exec.satisfies_iff.mp (by decide +kernel :
    (decodeUntypedInvocation .riscv64 s .untypedRetype 6 (bootSlot .riscv64 1)
      (s.ctes (bootSlot .riscv64 1)).cap 0).satisfies (fun r => r.2 = .none) = true)
  obtain rfl : st = .none := of_decide_eq_true hs
  obtain ⟨ls, hinv⟩ := bootState_boot.capInv (a := .riscv64) (s := bootState .riscv64 false)
  have hmdb : MdbInv .riscv64 s.ctes ls := hinv.mdb
  obtain ⟨r, hasks, hiff⟩ := retype_allocates_iff hmdb bootState_block
    (fun x hx => bootState_nodes hx) hretype
  have htype : r.newType = .endpoint := Option.some.inj (hasks.type.symm.trans (by decide +kernel))
  have hsize : r.userSize = 0 := hasks.size.trans (by decide +kernel)
  have hwindow : r.nodeWindow = 2 := hasks.window.trans (by decide +kernel)
  have hclear : r.TcbsClear .riscv64 s (bootSlot .riscv64 1) := fun ht => nomatch htype.symm.trans ht
  refine ⟨s, s', ls, r, hmdb, htype, hwindow, (hiff hclear).mpr ⟨?_, ?_, by decide +kernel, ?_⟩⟩
  · rw [htype]
    decide
  · intro _ x _ hc
    have hzero : clearedBytes .riscv64 (s.ctes (bootSlot .riscv64 1)).cap = 0 := by decide +kernel
    have hlt := hc.2
    rw [hzero] at hlt
    exact absurd hc.1 (Nat.not_le.mpr hlt)
  · rw [RetypeRequest.areaStart, RetypeRequest.bytes, RetypeRequest.bits, htype, hsize, hwindow]
    decide +kernel

/-- A VSpace retyped from the boot untyped cap is not allocated as it should be. -/
theorem retype_vspace_not_allocated : ∃ s s' slot buffer,
    (∃ ls, MdbInv .aarch64 s.ctes ls) ∧ Block .aarch64 (s.ctes slot).cap ∧
      (∀ x, s.ctes.capType x = .cnodeCap → CapOK .aarch64 (s.ctes x).cap) ∧
      decodeUntypedInvocation .aarch64 s .untypedRetype 6 slot (s.ctes slot).cap buffer =
        .ok (s', .none) ∧
      ∀ (r : RetypeRequest) ls, r.Asks .aarch64 s buffer → ¬ r.Allocated .aarch64 s s' ls slot := by
  let s := withRetypeArgs .aarch64 (bootState .aarch64 false) 6 0 2 1
  obtain ⟨⟨s', st⟩, hretype, hs⟩ := Exec.satisfies_iff.mp (by decide +kernel :
    (decodeUntypedInvocation .aarch64 s .untypedRetype 6 (bootSlot .aarch64 1)
      (s.ctes (bootSlot .aarch64 1)).cap 0).satisfies (fun r => r.2 = .none) = true)
  obtain rfl : st = .none := of_decide_eq_true hs
  obtain ⟨ls, hinv⟩ := bootState_boot.capInv (a := .aarch64) (s := bootState .aarch64 false)
  have hb : Block .aarch64 (s.ctes (bootSlot .aarch64 1)).cap := bootState_block
  refine ⟨s, s', bootSlot .aarch64 1, 0, ⟨ls, hinv.mdb⟩, hb,
    fun x hx => bootState_nodes hx, hretype, fun r ls hasks hall => ?_⟩
  have htype : r.newType = .armVSpace := Option.some.inj (hasks.type.symm.trans (by decide +kernel))
  have hwindow : r.nodeWindow = 1 := hasks.window.trans (by decide +kernel)
  exact hall.type_ne (by rw [hwindow]; decide) hb.kind htype

end Rel4.Kernel
