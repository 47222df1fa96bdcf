import Rel4.Kernel.CNode
import Rel4.Kernel.DeleteSteps

/-!
Copy, Mint, Move and Mutate on the capability space.

The functions that change a cap before it is stored (`mask_cap_rights`,
`update_data`, `derive_cap`) give a cap to the same object or a null cap, and a
lookup in the CSpace ends at a slot of a CNode that a cap names.
-/

namespace Rel4.Kernel
open Lib.Bitfield Common CSpace Rel4.Task Function
open CSpace.Field (capType epPtr)

variable {f : Field 2} {st : ExceptionT} {dest src : Word}
  {a : Arch} {c c' : CapT} {σ : Slots} {slot : Word}
  {s s' : KernelState} {static : Word → Prop}

/-! ## Changed caps -/

theorem getCapType_set (h : capType.Disjoint f) (v : Word) :
    getCapType (f.set c v) = getCapType c := by
  rw [getCapType, stored_set_of_disjoint h, getCapType]

theorem sameTarget_set_endpoint (ht : getCapType c = .endpointCap) (v : Word)
    (h : capType.Disjoint f) (hp : (epPtr a).Disjoint f) :
    SameTarget a c (f.set c v) := by
  have ht' := (getCapType_set h v).trans ht
  have hptr : getEpPtr a (f.set c v) = getEpPtr a c := get_set_of_disjoint hp
  exact .inr ⟨by rw [ht]; rfl, by simp [objKey, ht, ht', getCapPtr, hptr]⟩

theorem sameTarget_set_notification (ht : getCapType c = .notificationCap) (v : Word)
    (h : capType.Disjoint f) (hp : (CSpace.Field.nfPtr a).Disjoint f) :
    SameTarget a c (f.set c v) := by
  have ht' := (getCapType_set h v).trans ht
  have hptr : getNfPtr a (f.set c v) = getNfPtr a c := get_set_of_disjoint hp
  exact .inr ⟨by rw [ht]; rfl, by simp [objKey, ht, ht', getCapPtr, hptr]⟩

theorem sameTarget_set_cnode (ht : getCapType c = .cnodeCap) (v : Word)
    (h : capType.Disjoint f) (hp : (CSpace.Field.cnodePtr a).Disjoint f)
    (hr : CSpace.Field.cnodeRadix.Disjoint f) : SameTarget a c (f.set c v) := by
  have ht' := (getCapType_set h v).trans ht
  have hptr : getCNodePtr a (f.set c v) = getCNodePtr a c := get_set_of_disjoint hp
  have hrad : getCNodeRadix a (f.set c v) = getCNodeRadix a c := get_set_of_disjoint hr
  exact .inr ⟨by rw [ht]; rfl, by simp [objKey, ht, ht', hptr, hrad]⟩

theorem sameTarget_set_frame (ht : getCapType c = .frameCap) (v : Word)
    (h : capType.Disjoint f) (hp : (CSpace.Field.frameBasePtr a).Disjoint f)
    (hs : CSpace.Field.frameSize.Disjoint f) (hd : (CSpace.Field.frameIsDevice a).Disjoint f) :
    SameTarget a c (f.set c v) := by
  have ht' := (getCapType_set h v).trans ht
  have hptr : getFrameBasePtr a (f.set c v) = getFrameBasePtr a c := get_set_of_disjoint hp
  have hsize : getFrameSize a (f.set c v) = getFrameSize a c := get_set_of_disjoint hs
  have hdev : getFrameIsDevice a (f.set c v) = getFrameIsDevice a c := get_set_of_disjoint hd
  exact .inr ⟨by rw [ht]; rfl, by simp [objKey, ht, ht', hptr, hsize, hdev]⟩

theorem sameTarget_maskCapRights (hr : getCapType c ≠ .replyCap) :
    SameTarget a c (maskCapRights a rights c) := by
  unfold maskCapRights
  cases ht : getCapType c <;> simp only <;> try exact .refl
  case endpointCap =>
    have step : ∀ {c' : CapT} {f : Field 2} (v : Word), SameTarget a c c' →
        capType.Disjoint f → (epPtr a).Disjoint f →
        SameTarget a c (f.set c' v) := fun v h h1 h2 =>
      h.trans (sameTarget_set_endpoint (h.capType_eq.trans ht) v h1 h2)
    refine step _ (step _ (step _ (step _ .refl ?_ ?_) ?_ ?_) ?_ ?_) ?_ ?_ <;>
      first
        | decide
        | (cases a <;> decide)
  case notificationCap =>
    have h1 : SameTarget a c (CSpace.Field.nfCanSend.set c (getNfCanSend a c &&&
        rights.getAllowWrite)) :=
      sameTarget_set_notification ht _ (by decide) (by cases a <;> decide)
    exact h1.trans (sameTarget_set_notification (h1.capType_eq.trans ht) _ (by decide)
      (by cases a <;> decide))
  case replyCap => exact absurd ht hr
  case frameCap =>
    refine sameTarget_set_frame ht _ ?_ ?_ ?_ ?_ <;> cases a <;> decide

theorem getCapType_maskCapRights : getCapType (maskCapRights a rights c) = getCapType c := by
  by_cases hr : getCapType c = .replyCap
  · unfold maskCapRights
    simp only [hr]
    exact (getCapType_set (by decide) _).trans hr
  · exact (sameTarget_maskCapRights hr).capType_eq

/-- `update_data` keeps the object or gives up. -/
theorem sameTarget_updateData (preserve : Bool) (newData : Word) :
    getCapType (updateData a c preserve newData) = .nullCap ∨
      SameTarget a c (updateData a c preserve newData) := by
  unfold updateData
  split
  · exact .inr .refl
  cases ht : getCapType c <;> simp only [ht] <;> try exact .inr .refl
  case endpointCap =>
    split
    · exact .inr (sameTarget_set_endpoint ht _ (by decide) (by cases a <;> decide))
    · exact .inl capType_newNullCap
  case notificationCap =>
    split
    · exact .inr (sameTarget_set_notification ht _ (by decide) (by cases a <;> decide))
    · exact .inl capType_newNullCap
  case cnodeCap =>
    split
    · exact .inl capType_newNullCap
    right
    refine SameTarget.trans (sameTarget_set_cnode ht _ (by decide) (by cases a <;> decide)
      (by decide)) (sameTarget_set_cnode ?_ _ (by decide) (by cases a <;> decide) (by decide))
    exact (getCapType_set (by decide) _).trans ht

/-- What a cap can be derived to: nothing, a cap to the same object, or the same
untyped cap if it has no children. -/
inductive DerivedTo (a : Arch) (σ : Slots) (slot : Word) (c c' : CapT) : Prop where
  | null (h : getCapType c' = .nullCap)
  | object (hn : (getCapType c).named) (h : SameTarget a c c')
  | untyped (hu : getCapType c = .untypedCap) (h : c' = c)
    (hc : ensureNoChildren a σ slot = .none)

theorem deriveCap_derivedTo (h : deriveCap a σ slot c = .ok (st, c')) :
    DerivedTo a σ slot c c' := by
  unfold deriveCap at h
  cases ht : getCapType c <;> simp only [ht] at h
  case nullCap =>
    cases h
    exact .null ht
  case untypedCap =>
    split at h
    next hc =>
      cases h
      exact .untyped ht rfl hc
    next =>
      cases h
      exact .null capType_newNullCap
  case frameCap =>
    have hn : (getCapType c).named := by
      rw [ht]
      rfl
    cases a with
    | riscv64 =>
      cases h
      have h1 : SameTarget .riscv64 c ((CSpace.Field.frameMappedAddress .riscv64).set c 0) :=
        sameTarget_set_frame ht _ (by decide) (by decide) (by decide) (by decide)
      exact .object hn (h1.trans (sameTarget_set_frame (h1.capType_eq.trans ht) _ (by decide)
        (by decide) (by decide) (by decide)))
    | aarch64 =>
      cases h
      exact .object hn (sameTarget_set_frame ht _ (by decide) (by decide) (by decide) (by decide))
  case pageTableCap =>
    split at h <;> cases h
    · exact .object (by rw [ht]; rfl) .refl
    · exact .null capType_newNullCap
  case vspaceCap =>
    cases a with
    | riscv64 => cases h
    | aarch64 =>
      simp only at h
      split at h <;> cases h
      · exact .object (by rw [ht]; rfl) .refl
      · exact .null capType_newNullCap
  all_goals first
    | (cases h; done)
    | (cases h; exact .null capType_newNullCap)
    | (cases h; exact .object (by rw [ht]; rfl) .refl)

/-! ## Storing caps -/

theorem capSpace_setRestart : capSpace (setRestart a s) = capSpace s :=
  capSpace_of_view (by simp [setRestart])

theorem ctes_setRestart : (setRestart a s).ctes = s.ctes :=
  congrArg CapSpace.slots capSpace_setRestart

theorem insertCap_effect (h : s.insertCap a c src dest = .ok s') :
    cteInsert a (capSpace s).slots c src dest = .ok s'.ctes ∧
      capSpace s' = (capSpace s).inserted s'.ctes src dest ((capSpace s).origin src).object := by
  obtain ⟨σ', hσ, h⟩ := bind_eq_ok.mp h
  cases h
  exact ⟨hσ, rfl⟩

theorem moveCap_effect (h : s.moveCap a c src dest = .ok s') :
    cteMove a (capSpace s).slots c src dest = .ok s'.ctes ∧ capSpace s' =
      ⟨s'.ctes, update (capSpace s).origin dest ((capSpace s).origin src), (capSpace s).fresh⟩ := by
  obtain ⟨σ', hσ, h⟩ := bind_eq_ok.mp h
  cases h
  exact ⟨hσ, rfl⟩

/-- What Copy and Mint start from: a cap to the object of the source, or one that
cannot be derived. -/
def Derivable (a : Arch) (srcCap c : CapT) : Prop :=
  SameTarget a srcCap c ∨ getCapType c = .nullCap ∨ getCapType c = .replyCap

theorem Derivable.derivedTo (hc : Derivable a srcCap c) (hd : deriveCap a σ slot c = .ok (st, c'))
    (hnull : getCapType c' ≠ .nullCap) : DerivedTo a σ slot srcCap c' := by
  have hto := deriveCap_derivedTo hd
  rcases hc with hst | hnd
  · have htype := hst.capType_eq
    cases hto with
    | null h => exact absurd h hnull
    | object hn h => exact .object (htype ▸ hn) (hst.trans h)
    | untyped hu h hc =>
      -- an untyped cap is not changed before it is derived
      have hc0 : c = srcCap := hst.resolve_right fun hk => by
        rw [← htype, hu] at hk
        cases hk.1
      exact .untyped (htype ▸ hu) (h.trans hc0) hc
  · exfalso
    cases hto with
    | null h => exact hnull h
    | object hn h => rcases hnd with e | e <;> rw [e] at hn <;> cases hn
    | untyped hu h hc => rcases hnd with e | e <;> rw [e] at hu <;> cases hu

/-- Copy and Mint fail, or they insert the derived cap. -/
theorem deriveAndInsert_cases (h : deriveAndInsert a s c src dest = .ok (s', st)) :
    (st ≠ .none ∧ capSpace s' = capSpace s) ∨ ∃ c', deriveCap a s.ctes src c = .ok (.none, c') ∧
      getCapType c' ≠ .nullCap ∧ cteInsert a s.ctes c' src dest = .ok s'.ctes ∧
      capSpace s' = (capSpace s).inserted s'.ctes src dest (s.origin src).object := by
  obtain ⟨⟨st₁, c'⟩, hd, h⟩ := bind_eq_ok.mp h
  simp only at h
  split at h
  next hst =>
    cases h
    exact .inl ⟨hst, rfl⟩
  rename_i hst
  obtain rfl := not_not.mp hst
  split at h
  · cases h
    exact .inl ⟨by decide, rfl⟩
  rename_i hnull
  obtain ⟨s₁, hins, h⟩ := bind_eq_ok.mp h
  cases h
  have heff := insertCap_effect hins
  rw [capSpace_setRestart] at heff
  exact .inr ⟨c', hd, hnull, heff⟩

/-- Move and Mutate fail, or they move the cap. -/
theorem moveUnlessNull_cases (h : moveUnlessNull a s c src dest = .ok (s', st)) :
    (st ≠ .none ∧ capSpace s' = capSpace s) ∨ (getCapType c ≠ .nullCap ∧
      cteMove a s.ctes c src dest = .ok s'.ctes ∧
      capSpace s' = ⟨s'.ctes, update s.origin dest (s.origin src), s.fresh⟩) := by
  unfold moveUnlessNull at h
  split at h
  · cases h
    exact .inl ⟨by decide, rfl⟩
  rename_i hnull
  obtain ⟨s₁, hm, h⟩ := bind_eq_ok.mp h
  cases h
  have heff := moveCap_effect hm
  rw [capSpace_setRestart] at heff
  exact .inr ⟨hnull, heff⟩

theorem derivable_mask : Derivable a c (maskCapRights a rights c) := by
  by_cases hr : getCapType c = .replyCap
  · exact .inr (.inr (getCapType_maskCapRights.trans hr))
  · exact .inl (sameTarget_maskCapRights hr)

theorem derivable_mint : Derivable a c (updateData a (maskCapRights a rights c) false data) := by
  rcases sameTarget_updateData false data with h | h
  · exact .inr (.inl h)
  have hmask : Derivable a c (maskCapRights a rights c) := derivable_mask
  rcases hmask with h' | h' | h'
  · exact .inl (h'.trans h)
  · exact .inr (.inl (h.capType_eq.trans h'))
  · exact .inr (.inr (h.capType_eq.trans h'))

/-! ## Lookups -/

/-- `nodeCap` is the cap of a CNode in some slot. -/
def NodeCap (σ : Slots) (nodeCap : CapT) : Prop :=
  getCapType nodeCap = .cnodeCap ∧ ∃ y, (σ y).cap = nodeCap

/-- `x` is a slot of a CNode that a cap names. -/
def NodeSlot (a : Arch) (σ : Slots) (x : Word) : Prop :=
  ∃ y, σ.capType y = .cnodeCap ∧ HasSlot a (σ y).cap x

theorem NodeSlot.reached (h : NodeSlot a s.ctes x) : (capSpace s).Reached a static x := by
  obtain ⟨y, hy, hs⟩ := h
  exact .inr ⟨y, by show s.ctes.capType y ≠ .nullCap; rw [hy]; decide, hs⟩

theorem nodeSlot_of_caps (hcap : ∀ y, σ'.capType y = .cnodeCap → (σ' y).cap = (σ y).cap)
    (h : NodeSlot a σ' x) : NodeSlot a σ x := by
  obtain ⟨y, hy, hs⟩ := h
  have hsame := hcap y hy
  refine ⟨y, ?_, hsame ▸ hs⟩
  show getCapType (σ y).cap = _
  rw [← hsame]
  exact hy

/-- The slot that one level of a lookup selects. -/
theorem nodeSlot_offset (h : NodeCap σ nodeCap) (v : Word) :
    NodeSlot a σ (offsetSlot (getCNodePtr a nodeCap) (v &&& mask (getCNodeRadix a nodeCap))) := by
  obtain ⟨ht, y, rfl⟩ := h
  have hradix : (getCNodeRadix a (σ y).cap).toNat < 2 ^ 6 := toNat_get_lt rfl rfl (by decide)
  refine ⟨y, ht, (v &&& mask (getCNodeRadix a (σ y).cap)).toNat, ?_, ?_⟩
  · have hcount : slotCount a (σ y).cap = 2 ^ (getCNodeRadix a (σ y).cap).toNat := by
      simp [slotCount, ht]
    rw [hcount, toNat_and_mask hradix]
    exact Nat.mod_lt _ (Nat.two_pow_pos _)
  · rw [objBase_cnode ht, BitVec.ofNat_toNat, BitVec.setWidth_eq]

theorem resolveLevels_nodeSlot (fuel : Nat) :
    ∀ {nodeCap nBits r}, NodeCap σ nodeCap →
      resolveLevels a σ capPtr total fuel nodeCap nBits = .ok r → r.status = .none →
      NodeSlot a σ r.slot := by
  induction fuel with
  | zero =>
    intro nodeCap nBits r _ h
    cases h
  | succ fuel ih =>
    intro nodeCap nBits r hn h hst
    rw [resolveLevels] at h
    obtain ⟨_, -, h⟩ := bind_eq_ok.mp h
    simp only at h
    split at h
    · cases h
      cases hst
    split at h
    · cases h
      cases hst
    split at h
    · cases h
      exact nodeSlot_offset hn _
    split at h
    · cases h
      exact nodeSlot_offset hn _
    next hnode => exact ih ⟨not_not.mp hnode, _, rfl⟩ h hst

theorem resolveAddressBits_nodeSlot (h : resolveAddressBits a σ (σ y).cap capPtr nBits = .ok r)
    (hst : r.status = .none) : NodeSlot a σ r.slot := by
  unfold resolveAddressBits at h
  split at h
  · cases h
    cases hst
  next hnode => exact resolveLevels_nodeSlot _ ⟨not_not.mp hnode, y, rfl⟩ h hst

/-- `lookup_slot_for_cnode_op` finds a slot of a CNode and changes no slots. -/
theorem lookupSlotForCNodeOp_effect
    (h : lookupSlotForCNodeOp a s isSource (s.ctes root).cap capPtr depth = .ok (s', st, slot)) :
    capSpace s' = capSpace s ∧ (st = .none → NodeSlot a s.ctes slot) := by
  rcases lookupSlotForCNodeOp_cases h with ⟨hst, hrep, -⟩ | ⟨-, rfl, hroot, res, hres, hst, rfl⟩
  · exact ⟨hrep.proj capSpace, fun e => absurd e hst⟩
  · exact ⟨rfl, fun _ => resolveAddressBits_nodeSlot hres hst⟩

/-! ## Steps of the capability space -/

/-- One step of the capability space: a derived cap, a move, a step of a
deletion, or a part of a retype. -/
inductive CapStep (a : Arch) (static : Word → Prop) (w : CapSpace) : CapSpace → Prop where
  | derive (src dest : Word) (c : CapT) (σ' : Slots)
    (hd : DerivedTo a w.slots src (w.slots src).cap c) (hc : getCapType c ≠ .nullCap)
    (hins : cteInsert a w.slots c src dest = .ok σ') (hdest : w.Reached a static dest) :
    CapStep a static w (w.inserted σ' src dest (w.origin src).object)
  | move (src dest : Word) (c : CapT) (σ' : Slots) (hsrc : w.slots.capType src ≠ .nullCap)
    (hst : SameTarget a (w.slots src).cap c) (hmove : cteMove a w.slots c src dest = .ok σ')
    (hdest : w.Reached a static dest) :
    CapStep a static w ⟨σ', update w.origin dest (w.origin src), w.fresh⟩
  | delete (w' : CapSpace) (h : DelStep a w w') : CapStep a static w w'
  | clear (σ' : Slots)
    (hσ : ∀ x, σ' x = w.slots x ∨ (σ' x = emptyCte ∧ w.slots.capType x = .nullCap)) :
    CapStep a static w { w with slots := σ' }
  | setFreeIndex (u idx : Word) (hu : w.slots.capType u = .untypedCap)
    (hidx : 16 * idx.toNat ≤ 2 ^ objBits a (w.slots u).cap)
    (hd : ∀ y, w.slots.capType y ≠ .nullCap → w.id u ∈ w.ancestors y →
      (extent a (w.slots y).cap).hi ≤ (objBase a (w.slots u).cap).toNat + 16 * idx.toNat) :
    CapStep a static w (w.setCap u (setUntypedFreeIndex a (w.slots u).cap idx))
  | object (u dest : Word) (t : ObjectType) (base userSize : Word) (c : CapT)
    (he : c = objectCap a t base userSize (flag (deviceMem a (w.slots u).cap)))
    (hu : w.slots.capType u = .untypedCap) (hnull : w.slots.capType dest = .nullCap)
    (hdest : w.Reached a static dest) (hc : CapOK a c) (hcz : getCapType c ≠ .zombieCap)
    (hw : (extent a c).Within (refOf a (w.slots u).cap (w.origin u)).usedExtent)
    (hfree : ∀ y, w.slots.capType y ≠ .nullCap → w.id u ∈ w.ancestors y →
      ¬ (extent a (w.slots y).cap).Overlaps (extent a c)) :
    CapStep a static w (w.inserted (insertNewCap a w.slots u dest c) u dest w.fresh)

/-- The steps that a call takes. -/
def CapSteps (a : Arch) (static : Word → Prop) : CapSpace → CapSpace → Prop :=
  Relation.ReflTransGen (CapStep a static)

variable {w : CapSpace}

theorem CapInv.capStep (h : CapInv a static w ls) (hstep : CapStep a static w w') :
    ∃ ls', CapInv a static w' ls' := by
  cases hstep with
  | derive src dest c σ' hd hc hins hdest =>
    cases hd with
    | null hn => exact absurd hn hc
    | object hn hst => exact ⟨_, h.insertCopy hins hn hdest hst⟩
    | untyped hu he hnone =>
      subst he
      exact ⟨_, h.insertUntyped hins hu hdest fun y hy => h.no_descendants hu hnone hy⟩
  | move src dest c σ' hsrc hst hmove hdest => exact ⟨_, h.move hmove hsrc hdest hst⟩
  | delete w' hdel => exact h.delStep hdel
  | clear σ' hσ => exact ⟨_, h.clear hσ⟩
  | setFreeIndex u idx hu hidx hd => exact ⟨_, h.setFreeIndex hu hidx hd⟩
  | object u dest t base userSize c he hu hnull hdest hc hcz hw hfree =>
    have heffect : InsertEffect a w.slots _ _ c u dest (1, 1) :=
      insertNewCap_effect (h.slotAddr_of_reached hdest).2
    exact ⟨_, h.insertFirst hu hnull heffect (fun _ => rfl) hdest hc hw hfree⟩

theorem CapInv.capSteps (h : CapInv a static w ls) (hrun : CapSteps a static w w') :
    ∃ ls', CapInv a static w' ls' := by
  induction hrun with
  | refl => exact ⟨ls, h⟩
  | tail _ hstep ih =>
    obtain ⟨ls', h'⟩ := ih
    exact h'.capStep hstep

theorem capSteps_of_delRun (h : DelRun a w w') : CapSteps a static w w' := by
  induction h with
  | refl => exact .refl
  | tail _ hstep ih => exact ih.tail (.delete _ hstep)

/-! ## CNode invocations -/

/-- What Copy, Mint, Move and Mutate can do to the capability space: nothing,
insert a derived cap, or move a cap to the same object. -/
inductive Stored (a : Arch) (w : CapSpace) (dest : Word) : CapSpace → Prop where
  | same : Stored a w dest w
  | derived (src : Word) (c : CapT) (σ' : Slots)
    (hd : DerivedTo a w.slots src (w.slots src).cap c) (hc : getCapType c ≠ .nullCap)
    (hins : cteInsert a w.slots c src dest = .ok σ') :
    Stored a w dest (w.inserted σ' src dest (w.origin src).object)
  | moved (src : Word) (c : CapT) (σ' : Slots) (hsrc : w.slots.capType src ≠ .nullCap)
    (hst : SameTarget a (w.slots src).cap c) (hmove : cteMove a w.slots c src dest = .ok σ') :
    Stored a w dest ⟨σ', update w.origin dest (w.origin src), w.fresh⟩

theorem Stored.steps (h : Stored a w dest w') (hdest : w.Reached a static dest) :
    CapSteps a static w w' := by
  cases h with
  | same => exact .refl
  | derived src c σ' hd hc hins => exact .single (.derive src dest c σ' hd hc hins hdest)
  | moved src c σ' hsrc hst hmove => exact .single (.move src dest c σ' hsrc hst hmove hdest)

/-- Copy and Mint -/
theorem deriveAndInsert_stored (hc : Derivable a (s.ctes src).cap c)
    (h : deriveAndInsert a s c src dest = .ok (s', st)) :
    Stored a (capSpace s) dest (capSpace s') := by
  rcases deriveAndInsert_cases h with ⟨-, he⟩ | ⟨c', hd, hn, hins, he⟩
  · rw [he]
    exact .same
  · rw [he]
    exact .derived src c' _ (hc.derivedTo hd hn) hn hins

/-- Move and Mutate -/
theorem moveUnlessNull_stored (hsrc : s.ctes.capType src ≠ .nullCap)
    (hc : getCapType c = .nullCap ∨ SameTarget a (s.ctes src).cap c)
    (h : moveUnlessNull a s c src dest = .ok (s', st)) :
    Stored a (capSpace s) dest (capSpace s') := by
  rcases moveUnlessNull_cases h with ⟨-, he⟩ | ⟨hn, hm, he⟩
  · rw [he]
    exact .same
  · rw [he]
    exact .moved src c _ hsrc (hc.resolve_left hn) hm

/-- The invocation that the message asks for, once the source is found. -/
theorem decodeCNodeInvokeWithTwoSlot_cases
    (h : decodeCNodeInvokeWithTwoSlot a s label dest length buffer = .ok (s', st)) :
    (st ≠ .none ∧ capSpace s' = capSpace s) ∨
      ∃ s₁ src, capSpace s₁ = capSpace s ∧ s₁.ctes.capType src ≠ .nullCap ∧
        ((∃ rights, label = .cnodeCopy ∧ invokeCNodeCopy a s₁ src dest rights = .ok (s', st)) ∨
          (∃ rights data, label = .cnodeMint ∧
            invokeCNodeMint a s₁ src dest rights data = .ok (s', st)) ∨
          (label = .cnodeMove ∧ invokeCNodeMove a s₁ src dest = .ok (s', st)) ∨
          ∃ data, label = .cnodeMutate ∧ invokeCNodeMutate a s₁ src dest data = .ok (s', st)) := by
  unfold decodeCNodeInvokeWithTwoSlot at h
  split at h
  · cases h
    exact .inl ⟨by decide, rfl⟩
  split at h
  · cases h
    exact .inl ⟨by decide, rfl⟩
  split at h
  · cases h
    exact .inl ⟨by decide, rfl⟩
  obtain ⟨⟨s₁, status, src⟩, hlook, h⟩ := bind_eq_ok.mp h
  obtain ⟨hcs, -⟩ := lookupSlotForCNodeOp_effect hlook
  simp only at h
  split at h
  next hst =>
    cases h
    exact .inl ⟨hst, hcs⟩
  split at h
  · cases h
    exact .inl ⟨by decide, hcs⟩
  rename_i hsrc
  cases label <;> simp only at h <;> try (cases h)
  case cnodeCopy =>
    split at h
    · cases h
      exact .inl ⟨by decide, hcs⟩
    · exact .inr ⟨s₁, src, hcs, hsrc, .inl ⟨_, rfl, h⟩⟩
  case cnodeMint =>
    split at h
    · cases h
      exact .inl ⟨by decide, hcs⟩
    · exact .inr ⟨s₁, src, hcs, hsrc, .inr (.inl ⟨_, _, rfl, h⟩)⟩
  case cnodeMove => exact .inr ⟨s₁, src, hcs, hsrc, .inr (.inr (.inl ⟨rfl, h⟩))⟩
  case cnodeMutate =>
    split at h
    · cases h
      exact .inl ⟨by decide, hcs⟩
    · exact .inr ⟨s₁, src, hcs, hsrc, .inr (.inr (.inr ⟨_, rfl, h⟩))⟩

/-- Copy, Mint, Move and Mutate, from the message on. -/
theorem decodeCNodeInvokeWithTwoSlot_stored
    (h : decodeCNodeInvokeWithTwoSlot a s label dest length buffer = .ok (s', st)) :
    Stored a (capSpace s) dest (capSpace s') := by
  rcases decodeCNodeInvokeWithTwoSlot_cases h with ⟨-, hcs⟩ | ⟨s₁, src, hcs, hsrc, hinv⟩
  · rw [hcs]
    exact .same
  rw [← hcs]
  rcases hinv with ⟨_, -, h⟩ | ⟨_, _, -, h⟩ | ⟨-, h⟩ | ⟨_, -, h⟩
  · exact deriveAndInsert_stored derivable_mask h
  · exact deriveAndInsert_stored derivable_mint h
  · exact moveUnlessNull_stored hsrc (.inr .refl) h
  · exact moveUnlessNull_stored hsrc (sameTarget_updateData true _) h

/-- The labels of CNode operations that derive, move or delete caps. -/
def derivesOrDeletes : MessageLabel → Bool
  | .cnodeCopy | .cnodeMint | .cnodeMove | .cnodeMutate | .cnodeDelete | .cnodeRevoke => true
  | _ => false

section

variable (hinv : CapInv a static (capSpace s) ls) (hl : derivesOrDeletes label)
  (h : decodeCNodeInvocation a true fuel s label length (s.ctes slot).cap buffer = .ok (s', st))
include hinv hl h

/-- Such an operation stores a cap in a slot of a CNode or deletes caps. -/
theorem decodeCNodeInvocation_cases :
    (∃ dest, NodeSlot a s.ctes dest ∧ Stored a (capSpace s) dest (capSpace s')) ∨
      DelRun a (capSpace s) (capSpace s') := by
  unfold decodeCNodeInvocation at h
  split at h
  · cases h
    exact .inr .refl
  split at h
  · cases h
    exact .inr .refl
  obtain ⟨⟨s₁, status, dest⟩, hlook, h⟩ := bind_eq_ok.mp h
  obtain ⟨hcs, hdest⟩ := lookupSlotForCNodeOp_effect hlook
  have hslots : s₁.ctes = s.ctes := congrArg CapSpace.slots hcs
  rw [← hslots] at hdest
  rw [← hcs] at hinv ⊢
  rw [← hslots]
  simp only at h
  split at h
  · cases h
    exact .inr .refl
  rename_i hst
  have hdest := hdest (not_not.mp hst)
  have hrs := capSpace_setRestart (a := a) (s := s₁)
  cases label <;> simp only at h <;> try exact absurd hl (by decide)
  case cnodeRevoke =>
    rw [← hrs] at hinv ⊢
    exact .inr (deletion_rule.revoke ⟨_, hinv⟩ h)
  case cnodeDelete =>
    rw [← hrs] at hinv ⊢
    exact .inr (deletion_rule.deleteAll ⟨_, hinv⟩ h)
  all_goals exact .inl ⟨dest, hdest, decodeCNodeInvokeWithTwoSlot_stored h⟩

theorem decodeCNodeInvocation_steps : CapSteps a static (capSpace s) (capSpace s') := by
  rcases decodeCNodeInvocation_cases hinv hl h with ⟨dest, hdest, hstored⟩ | hrun
  · exact hstored.steps hdest.reached
  · exact capSteps_of_delRun hrun

end

end Rel4.Kernel
