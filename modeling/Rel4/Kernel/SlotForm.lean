import Rel4.Kernel.CapRun

/-!
What every run keeps about the slots, whatever the calls.

The invariant of the capability space is lost when a call is not safe. Two
weaker facts are not: the caps of untyped memory and of CNodes are well formed,
and every untyped cap is marked as revocable. Each operation on slots is shown
to keep them on its own.
-/

namespace Rel4.Kernel
open Lib.Bitfield Common CSpace Rel4.Task Ipc Function
open CapSpace (slots)

variable {st : ExceptionT}
  {r : RetypeRequest}

/-- A slot that holds a cap to untyped memory or to a CNode. -/
structure CteOK (a : Arch) (e : CteT) : Prop where
  untyped : getCapType e.cap = .untypedCap → CapOK a e.cap ∧ getRevocable a e.cteMDBNode ≠ 0
  cnode : getCapType e.cap = .cnodeCap → CapOK a e.cap

def SlotsOK (a : Arch) (σ : Slots) : Prop := ∀ x, CteOK a (σ x)

variable {a : Arch} {s s' : KernelState} {σ σ' : Slots} {c : CapT} {e : CteT}
  {slot src dest x : Word}

theorem CteOK.congr (h : CteOK a e) (hcap : e'.cap = e.cap)
    (hrev : getRevocable a e'.cteMDBNode = getRevocable a e.cteMDBNode) : CteOK a e' :=
  ⟨fun ht => by rw [hcap, hrev]; exact h.untyped (hcap ▸ ht),
    fun ht => by rw [hcap]; exact h.cnode (hcap ▸ ht)⟩

theorem CteOK.of_kind (hu : getCapType e.cap ≠ .untypedCap) (hn : getCapType e.cap ≠ .cnodeCap) :
    CteOK a e :=
  ⟨fun ht => absurd ht hu, fun ht => absurd ht hn⟩

theorem CteOK.of_null (h : getCapType e.cap = .nullCap) : CteOK a e :=
  .of_kind (by rw [h]; decide) (by rw [h]; decide)

theorem CteOK.of_capOK (hc : CapOK a e.cap)
    (hrev : getCapType e.cap = .untypedCap → getRevocable a e.cteMDBNode ≠ 0) : CteOK a e :=
  ⟨fun ht => ⟨hc, hrev ht⟩, fun _ => hc⟩

/-- The kind of a cap that is moved may not change, and its object neither. -/
theorem CteOK.sameTarget (h : CteOK a e) (hst : SameTarget a e.cap e'.cap)
    (hrev : getRevocable a e'.cteMDBNode = getRevocable a e.cteMDBNode) : CteOK a e' := by
  have ht := hst.capType_eq
  refine ⟨fun hu => ?_, fun hn => hst.capOK (h.cnode (ht.symm.trans hn))⟩
  obtain ⟨hok, hr⟩ := h.untyped (ht.symm.trans hu)
  exact ⟨hst.capOK hok, by rw [hrev]; exact hr⟩

theorem revocable_of_flags (h : σ'.flags a x = σ.flags a y) :
    getRevocable a (σ' x).cteMDBNode = getRevocable a (σ y).cteMDBNode :=
  congrArg Prod.fst h

namespace SlotsOK

theorem nodeSlot (h : SlotsOK a σ) (hx : NodeSlot a σ x) : SlotAddr a x := by
  obtain ⟨y, hy, hs⟩ := hx
  exact hs.slotAddr ((h y).cnode hy)

/-! ## Operations on slots -/

section

variable (h : SlotsOK a σ)
include h

theorem setCap (hc : CteOK a ⟨c, (σ slot).cteMDBNode⟩) : SlotsOK a (σ.setCap slot c) := by
  intro x
  by_cases hx : x = slot
  · rw [hx, Slots.setCap, update_self]
    exact hc
  · rw [Slots.setCap, update_of_ne hx]
    exact h x

theorem clear (hσ : ∀ x, σ' x = σ x ∨ σ' x = emptyCte) : SlotsOK a σ' := by
  intro x
  rcases hσ x with e | e <;> rw [e]
  · exact h x
  · exact .of_null capType_newNullCap

theorem setEmpty : SlotsOK a (setEmpty a σ slot) := by
  by_cases hs : σ.capType slot = .nullCap
  · rw [setEmpty_of_null hs]
    exact h
  have eff := setEmpty_effect (a := a) hs
  intro x
  by_cases hx : x = slot
  · refine .of_null ?_
    rw [eff.cap, if_pos hx]
    exact capType_newNullCap
  have hrev : getRevocable a (CSpace.setEmpty a σ slot x).cteMDBNode =
      getRevocable a (σ x).cteMDBNode := by
    have hf := congrArg Prod.fst (eff.flags x)
    rw [if_neg hx] at hf
    split at hf <;> exact hf
  refine (h x).congr ?_ hrev
  rw [eff.cap, if_neg hx]

theorem cteSwap (h1 : SameTarget a (σ x).cap c1) (h2 : SameTarget a (σ y).cap c2) :
    SlotsOK a (cteSwap a σ c1 x c2 y) := by
  intro z
  have hcap : (CSpace.cteSwap a σ c1 x c2 y z).cap = _ := cap_cteSwap z
  have hflags : (CSpace.cteSwap a σ c1 x c2 y).flags a z = _ := flags_cteSwap z
  by_cases hy : z = y
  · rw [if_pos hy] at hcap hflags
    exact (h x).sameTarget (by rw [hcap]; exact h1) (revocable_of_flags hflags)
  rw [if_neg hy] at hcap hflags
  by_cases hx : z = x
  · rw [if_pos hx] at hcap hflags
    exact (h y).sameTarget (by rw [hcap]; exact h2) (revocable_of_flags hflags)
  · rw [if_neg hx] at hcap hflags
    exact (h z).congr hcap (revocable_of_flags hflags)

theorem cteMove (hst : SameTarget a (σ src).cap c) (hdest : Storable a dest)
    (hmove : cteMove a σ c src dest = .ok σ') : SlotsOK a σ' := by
  obtain ⟨-, eff⟩ := cteMove_effect hmove hdest
  intro x
  have hcap := eff.cap x
  have hflags := eff.flags x
  by_cases hs : x = src
  · rw [if_pos hs] at hcap
    exact .of_null (by rw [hcap]; exact capType_newNullCap)
  rw [if_neg hs] at hcap hflags
  by_cases hd : x = dest
  · rw [if_pos hd] at hcap hflags
    exact (h src).sameTarget (by rw [hcap]; exact hst) (revocable_of_flags hflags)
  · rw [if_neg hd] at hcap hflags
    exact (h x).congr hcap (revocable_of_flags hflags)

theorem insertNewCap (hdest : Storable a dest)
    (hc : getCapType c = .untypedCap ∨ getCapType c = .cnodeCap → CapOK a c) :
    SlotsOK a (insertNewCap a σ src dest c) := by
  have eff : InsertEffect a σ (CSpace.insertNewCap a σ src dest c) _ _ _ _ _ :=
    insertNewCap_effect hdest
  intro x
  have hcap := eff.cap_eq x
  have hflags := eff.flags x
  by_cases hd : x = dest
  · rw [if_pos hd] at hcap hflags
    have hrev : getRevocable a (CSpace.insertNewCap a σ src dest c x).cteMDBNode = 1 :=
      congrArg Prod.fst hflags
    refine ⟨fun ht => ?_, fun ht => ?_⟩ <;> rw [hcap] at ht ⊢
    · exact ⟨hc (.inl ht), by rw [hrev]; decide⟩
    · exact hc (.inr ht)
  · rw [if_neg hd] at hcap hflags
    exact (h x).congr hcap (revocable_of_flags hflags)

/-- Inserting a derived cap: a copied untyped cap leaves a full one behind. -/
theorem cteInsert (hd : DerivedTo a σ src (σ src).cap c) (hc : getCapType c ≠ .nullCap)
    (hdest : Storable a dest) (hins : cteInsert a σ c src dest = .ok σ') : SlotsOK a σ' := by
  obtain ⟨r, hr, -, eff⟩ := cteInsert_effect hins hdest
  have hst : SameTarget a (σ src).cap c := by
    cases hd with
    | null hn => exact absurd hn hc
    | object _ hst => exact hst
    | untyped _ he _ => exact he ▸ .refl
  intro x
  have hcap := eff.cap x
  have hflags := eff.flags x
  by_cases hxd : x = dest
  · rw [if_pos hxd] at hcap hflags
    have hrev : getRevocable a (σ' x).cteMDBNode = flag r := congrArg Prod.fst hflags
    refine ⟨fun ht => ?_, fun ht => ?_⟩ <;> rw [hcap] at ht ⊢
    · have hru : r = true := by
        simp [isCapRevocable, isArchCap, ht, CapTag.isArch] at hr
        exact hr
      rw [hrev, hru]
      exact ⟨hst.capOK ((h src).untyped (hst.capType_eq.symm.trans ht)).1, by decide⟩
    · exact hst.capOK ((h src).cnode (hst.capType_eq.symm.trans ht))
  · rw [if_neg hxd] at hcap hflags
    by_cases hxs : x = src
    · rw [if_pos hxs] at hcap
      subst hxs
      refine ⟨fun ht => ?_, fun ht => ?_⟩ <;> rw [hcap, getCapType_sourceCapAfter] at ht
      · obtain ⟨hok, hrev⟩ := (h x).untyped ht
        refine ⟨?_, by rw [revocable_of_flags hflags]; exact hrev⟩
        rw [hcap, sourceCapAfter]
        split
        · exact (CapOK.setFreeIndex ht hok (Nat.le_of_eq (CapInv.toNat_maxFreeIndex hok ht))).1
        · exact hok
      · rw [hcap, sourceCapAfter, if_neg fun hu => by rw [hu.1] at ht; cases ht]
        exact (h x).cnode ht
    · rw [if_neg hxs] at hcap
      exact (h x).congr hcap (revocable_of_flags hflags)

end

end SlotsOK

/-! ## Deletion -/

theorem slotsOK_of_ctes (hs : s'.ctes = s.ctes) (h : SlotsOK a s.ctes) : SlotsOK a s'.ctes := by
  rw [hs]
  exact h

theorem ctes_of_vspaceEq (h : VSpaceEq s' s) : s'.ctes = s.ctes :=
  congrArg CSpaceView.ctes h.view

theorem slotsOK_rule : DeletionRule a (fun _ _ => True)
    (fun s s' => SlotsOK a s.ctes → SlotsOK a s'.ctes) where
  refl _ h := h
  trans h h' hs := h' (h hs)
  archFinaliseCap h := slotsOK_of_ctes (ctes_of_vspaceEq (.archFinaliseCap h))
  cancelAllIpc _ h := slotsOK_of_ctes (ipcEq_cancelAllIpc h).ctes
  cancelAllSignal _ h := slotsOK_of_ctes (ipcEq_cancelAllSignal h).ctes
  safeUnbindTcb s n := slotsOK_of_ctes (congrArg CSpaceView.ctes (view_safeUnbindTcb s n))
  thread _ := trivial
  safeUnbindNotification s t :=
    slotsOK_of_ctes (congrArg CSpaceView.ctes (view_safeUnbindNotification s t))
  epCancelIpc _ _ := slotsOK_of_ctes (ipcEq_epCancelIpc _).ctes
  cancelSignal _ _ := slotsOK_of_ctes (ipcEq_cancelSignal _).ctes
  clearFault _ := slotsOK_of_ctes rfl
  suspend _ _ := slotsOK_of_ctes ipcEq_suspend.ctes
  setEmptySlot _ _ _ h := h.setEmpty
  setZombie ht h := h.setCap (.of_kind (by rw [ht]; decide) (by rw [ht]; decide))
  swapSlots s x y h := h.cteSwap .refl .refl
  preemptionPoint _ _ _ h := h

/-! ## Retypes -/

theorem slotsOK_createNewObjects (hstor : ∀ i < r.nodeWindow.toNat, Storable a (r.dest a i))
    (hnew : ∀ i < r.nodeWindow.toNat, getCapType (r.newCap a start d i) = .untypedCap ∨
      getCapType (r.newCap a start d i) = .cnodeCap → CapOK a (r.newCap a start d i))
    (hn : n ≤ r.nodeWindow.toNat) :
    ∀ {s : KernelState}, SlotsOK a s.ctes →
      SlotsOK a (createNewObjects a r.newType slot (getCNodePtr a r.nodeCap) r.nodeOffset
        r.nodeWindow.toNat start r.userSize d n s).ctes := by
  induction n with
  | zero =>
    intro s h
    exact h
  | succ n ih =>
    intro s h
    rw [createNewObjects]
    have hcs : (createObject a s r.newType (r.objectBase a start
        (r.nodeWindow.toNat - (n + 1))) r.userSize d).1.ctes = s.ctes :=
      congrArg slots capSpace_createObject
    refine ih (by omega) ?_
    rw [← hcs] at h
    exact h.insertNewCap (hstor _ (by omega)) (hnew _ (by omega))

theorem slotsOK_untyped (h : SlotsOK a s.ctes) (hu : s.ctes.capType slot = .untypedCap)
    (hdec : decodeUntypedInvocation a s label length slot (s.ctes slot).cap buffer = .ok (s', st)) :
    SlotsOK a s'.ctes := by
  rcases decodeUntypedInvocation_retypes hdec with ⟨-, hcs, -⟩ | ⟨-, r, s₁, reset, idx, hr⟩
  · exact slotsOK_of_ctes (congrArg slots hcs) h
  have hok := ((h slot).untyped hu).1
  have har := hr.area hok hu
  have hnode : CapOK a r.nodeCap := by
    obtain ⟨ht, y, hy⟩ := hr.checked.node
    rw [← hy] at ht ⊢
    exact (h y).cnode ht
  rw [hr.run, invokeUntypedRetype, hr.slots]
  refine slotsOK_createNewObjects (fun i hi => ((hr.checked.hasSlot hi).slotAddr hnode).2)
    (fun i hi hk => ?_) (Nat.le_refl _) ?_
  · refine (RetypeRequest.newCap_ok har hok hu hr.checked.size (fun e => ?_) (toNat_flag_lt _) hi).1
    rw [RetypeRequest.newCap, getCapType_objectCap, e] at hk
    rcases hk with h | h <;> cases h
  -- the free index denotes the end of the area
  have hfree := har.freeIndex hok hu hr.checked.size.four_le
  have hbelow := har.below
  obtain ⟨σ', hσ, hset⟩ := hr.clears
  rw [hset]
  refine (h.clear hσ).setCap ?_
  rcases hσ slot with e | e <;> rw [e]
  · refine .of_capOK (CapOK.setFreeIndex hu hok ?_).1 fun _ => ((h slot).untyped hu).2
    simp only [RetypeRequest.bits] at hfree hbelow ⊢
    omega
  · exact .of_null ((getCapType_setUntypedFreeIndex _ _).trans capType_newNullCap)

/-! ## CNode invocations -/

/-- The slots of a rotation: the pivot is apart from the others, and the source
is rotated into an empty slot or back into its own. -/
structure RotateSlots (a : Arch) (σ : Slots) (src pivot dest : Word) : Prop where
  pivot_src : pivot ≠ src
  pivot_dest : pivot ≠ dest
  dest_null : src ≠ dest → σ.capType dest = .nullCap
  src_live : σ.capType src ≠ .nullCap
  pivot_live : σ.capType pivot ≠ .nullCap
  pivot_node : NodeSlot a σ pivot

theorem decodeCNodeRotate_cases (h : decodeCNodeRotate a s dest length buffer = .ok (s', st)) :
    (st ≠ .none ∧ capSpace s' = capSpace s) ∨
      ∃ (s₁ : KernelState) (src pivot srcData pivotData : Word), capSpace s₁ = capSpace s ∧
        RotateSlots a s.ctes src pivot dest ∧
        invokeCNodeRotate a s₁ src pivot dest srcData pivotData = .ok (s', st) := by
  unfold decodeCNodeRotate at h
  split at h
  · cases h
    exact .inl ⟨by decide, rfl⟩
  split at h
  · obtain ⟨⟨s₁, st₁, src⟩, hsrc, h⟩ := bind_eq_ok.mp h
    obtain ⟨hcs₁, -⟩ := lookupSlotForCNodeOp_effect hsrc
    simp only at h
    split at h
    next hst =>
      cases h
      exact .inl ⟨hst, hcs₁⟩
    obtain ⟨⟨s₂, st₂, pivot⟩, hpivot, h⟩ := bind_eq_ok.mp h
    obtain ⟨hcs₂, hnode⟩ := lookupSlotForCNodeOp_effect hpivot
    have hcs : capSpace s₂ = capSpace s := hcs₂.trans hcs₁
    have hslots : s₂.ctes = s.ctes := congrArg slots hcs
    have hslots₁ : s₁.ctes = s.ctes := congrArg slots hcs₁
    split at h
    next hst =>
      cases h
      exact .inl ⟨hst, hcs⟩
    rename_i hst
    have hnode := hnode (not_not.mp hst)
    rw [hslots₁] at hnode
    split at h
    · cases h
      exact .inl ⟨by decide, hcs⟩
    rename_i hne
    split at h
    · cases h
      exact .inl ⟨by decide, hcs⟩
    rename_i hdest
    split at h
    · cases h
      exact .inl ⟨by decide, hcs⟩
    rename_i hsl
    split at h
    · cases h
      exact .inl ⟨by decide, hcs⟩
    rename_i hpl
    rw [not_or] at hne
    rw [hslots] at hdest hsl hpl
    refine .inr ⟨s₂, src, pivot, _, _, hcs, ⟨hne.1, hne.2, ?_, hsl, hpl, hnode⟩, h⟩
    exact fun hsd => not_not.mp fun hd => hdest ⟨hsd, hd⟩
  · cases h
    exact .inl ⟨by decide, rfl⟩

/-- What a rotation stores: `newSrc` in the slot of the pivot and `newPivot` in
the destination. -/
theorem invokeCNodeRotate_effect
    (h : invokeCNodeRotate a s src pivot dest srcData pivotData = .ok (s', st)) :
    (st ≠ .none ∧ s'.ctes = s.ctes) ∨
      ∃ newSrc newPivot, st = .none ∧ newSrc = updateData a (s.ctes src).cap true srcData ∧
        newPivot = updateData a (s.ctes pivot).cap true pivotData ∧
        getCapType newSrc ≠ .nullCap ∧ getCapType newPivot ≠ .nullCap ∧
        ((src = dest ∧ s'.ctes = cteSwap a s.ctes newSrc src newPivot pivot) ∨
          (src ≠ dest ∧ ∃ σ₁, cteMove a s.ctes newPivot pivot dest = .ok σ₁ ∧
            cteMove a σ₁ newSrc src pivot = .ok s'.ctes)) := by
  unfold invokeCNodeRotate at h
  simp only at h
  split at h
  · cases h
    exact .inl ⟨by decide, rfl⟩
  rename_i hnull
  rw [not_or] at hnull
  split at h
  next hsd =>
    cases h
    refine .inr ⟨_, _, rfl, rfl, rfl, hnull.1, hnull.2, .inl ⟨hsd, ?_⟩⟩
    rw [← ctes_setRestart (s := s)]
    rfl
  next hsd =>
    obtain ⟨s₁, hm₁, h⟩ := bind_eq_ok.mp h
    obtain ⟨s₂, hm₂, h⟩ := bind_eq_ok.mp h
    cases h
    have hσ₁ := (moveCap_effect hm₁).1
    rw [capSpace_setRestart] at hσ₁
    exact .inr ⟨_, _, rfl, rfl, rfl, hnull.1, hnull.2,
      .inr ⟨hsd, s₁.ctes, hσ₁, (moveCap_effect hm₂).1⟩⟩

section

variable (h : SlotsOK a s.ctes) (hdest : NodeSlot a s.ctes dest)
include h hdest

theorem SlotsOK.rotate (hrot : decodeCNodeRotate a s dest length buffer = .ok (s', st)) :
    SlotsOK a s'.ctes := by
  rcases decodeCNodeRotate_cases hrot with
    ⟨-, hcs⟩ | ⟨s₁, src, pivot, srcData, pivotData, hcs, hr, hrot⟩
  · exact slotsOK_of_ctes (congrArg slots hcs) h
  have hslots : s₁.ctes = s.ctes := congrArg slots hcs
  rcases invokeCNodeRotate_effect hrot with
    ⟨-, he⟩ | ⟨newSrc, newPivot, -, hsrc, hpivot, hsn, hpn, hswap | ⟨hsd, σ₁, hm₁, hm₂⟩⟩
  · exact slotsOK_of_ctes (he.trans hslots) h
  all_goals
    rw [hslots] at *
    have h1 : SameTarget a (s.ctes src).cap newSrc :=
      hsrc ▸ (sameTarget_updateData true srcData).resolve_left (hsrc ▸ hsn)
    have h2 : SameTarget a (s.ctes pivot).cap newPivot :=
      hpivot ▸ (sameTarget_updateData true pivotData).resolve_left (hpivot ▸ hpn)
  · rw [hswap.2]
    exact h.cteSwap h1 h2
  · have hdstor := (h.nodeSlot hdest).2
    have hpstor := (h.nodeSlot hr.pivot_node).2
    have hkept : (σ₁ src).cap = (s.ctes src).cap := by
      rw [(cteMove_effect hm₁ hdstor).2.cap, if_neg hr.pivot_src.symm, if_neg hsd]
    exact (h.cteMove h2 hdstor hm₁).cteMove (hkept ▸ h1) hpstor hm₂

theorem SlotsOK.stored (hst : Stored a (capSpace s) dest (capSpace s')) : SlotsOK a s'.ctes := by
  have hstor := (h.nodeSlot hdest).2
  generalize hw : capSpace s' = w at hst
  have hslots : s'.ctes = w.slots := congrArg slots hw
  rw [hslots]
  cases hst with
  | same => exact h
  | derived src c σ' hd hc hins => exact h.cteInsert hd hc hstor hins
  | moved src c σ' hsrc hst hmove => exact h.cteMove hst hstor hmove

theorem SlotsOK.saveCaller (hsave : invokeCNodeSaveCaller a s dest = .ok (s', st)) :
    SlotsOK a s'.ctes := by
  have hrestart : SlotsOK a (setRestart a s).ctes := slotsOK_of_ctes ctes_setRestart h
  unfold invokeCNodeSaveCaller at hsave
  split at hsave
  · cases hsave
    exact h
  simp only at hsave
  split at hsave
  · cases hsave
    exact hrestart
  · split at hsave
    · obtain ⟨s₁, hm, hsave⟩ := bind_eq_ok.mp hsave
      cases hsave
      exact hrestart.cteMove .refl (h.nodeSlot hdest).2 (moveCap_effect hm).1
    · cases hsave
      exact hrestart
  · cases hsave

end

theorem SlotsOK.cnode (h : SlotsOK a s.ctes)
    (hdec : decodeCNodeInvocation a strict fuel s label length (s.ctes slot).cap buffer =
      .ok (s', st)) :
    SlotsOK a s'.ctes := by
  unfold decodeCNodeInvocation at hdec
  split at hdec
  · cases hdec
    exact h
  rename_i hlabel
  split at hdec
  · cases hdec
    exact h
  obtain ⟨⟨s₁, st₁, dest⟩, hlook, hdec⟩ := bind_eq_ok.mp hdec
  obtain ⟨hcs, hnode⟩ := lookupSlotForCNodeOp_effect hlook
  have hslots : s₁.ctes = s.ctes := congrArg slots hcs
  rw [← hslots] at h hnode
  simp only at hdec
  split at hdec
  · cases hdec
    exact h
  rename_i hst
  have hnode := hnode (not_not.mp hst)
  have hrestart : SlotsOK a (setRestart a s₁).ctes := slotsOK_of_ctes ctes_setRestart h
  cases label <;> simp only at hdec <;> try exact absurd rfl hlabel
  case cnodeRevoke => exact slotsOK_rule.revoke hdec hrestart
  case cnodeDelete => exact slotsOK_rule.deleteAll hdec hrestart
  case cnodeSaveCaller => exact h.saveCaller hnode hdec
  case cnodeRotate => exact h.rotate hnode hdec
  case cnodeCancelBadgedSends =>
    unfold invokeCNodeCancelBadgedSends at hdec
    simp only at hdec
    split at hdec
    · cases hdec
      exact h
    split at hdec
    · obtain ⟨s₂, hs₂, hdec⟩ := bind_eq_ok.mp hdec
      cases hdec
      exact slotsOK_of_ctes (ipcEq_cancelBadgedSends hs₂).ctes hrestart
    · cases hdec
      exact hrestart
  all_goals exact h.stored hnode (decodeCNodeInvokeWithTwoSlot_stored hdec)

/-! ## Runs -/

/-- The call leads from `s` to `s'`, whatever the label of a CNode invocation. -/
def KernelCall.Leads (a : Arch) (s s' : KernelState) : KernelCall → Prop
  | .cnode fuel label length slot buffer => ∃ st,
    decodeCNodeInvocation a false fuel s label length (s.ctes slot).cap buffer = .ok (s', st)
  | call => call.Runs a s s'

/-- No slot lies in the words that the kernel writes as the notification or the TCB of a cap.
The model keeps these words apart from the slots. -/
def SlotsClear (a : Arch) (σ : Slots) : Prop :=
  ∀ x y, IsSlot a (fun z => (σ z).cap) y →
    (σ.capType x = .notificationCap → Apart (getNfPtr a (σ x).cap) 32 y 32) ∧
    (σ.capType x = .threadCap →
      Apart (getTcbPtr a (σ x).cap) (2 ^ (tcbBits a).toNat - (tcbOffset a).toNat) y 32)

/-- One step of a run. The invocations of interrupts, address spaces, ASIDs and threads are
sequences of the last four: they insert derived caps and delete caps outside of CNodes too, use
up an untyped cap for a pool, and otherwise store and change caps that are neither to untyped
memory nor to a CNode. -/
inductive SlotStep (a : Arch) (s s' : KernelState) : Prop
  | call (call : KernelCall) (h : call.Leads a s s')
  | insert (src dest : Word) (c : CapT) (hd : DerivedTo a s.ctes src (s.ctes src).cap c)
    (hc : getCapType c ≠ .nullCap) (hdest : Storable a dest)
    (h : cteInsert a s.ctes c src dest = .ok s'.ctes)
  | delete (fuel : Nat) (slot : Word) (exposed : Bool) (st : ExceptionT)
    (h : deleteAll a false fuel s slot exposed = .ok (s', st))
  | fill (u : Word) (hu : s.ctes.capType u = .untypedCap)
    (h : s'.ctes = s.ctes.setCap u (setUntypedFreeIndex a (s.ctes u).cap
      (maxFreeIndex (getUntypedBlockSize a (s.ctes u).cap))))
  | other (h : ∀ x, s'.ctes.capType x = .untypedCap ∨ s'.ctes.capType x = .cnodeCap →
      (s'.ctes x).cap = (s.ctes x).cap ∧ s'.ctes.revocable a x = s.ctes.revocable a x)

/-- `s` is reached from `s₀` by any calls, with the slots clear of notifications and TCBs. -/
inductive SlotRun (a : Arch) (s₀ : KernelState) : KernelState → Prop
  | refl : SlotRun a s₀ s₀
  | step {s s' : KernelState} (hrun : SlotRun a s₀ s) (hstep : SlotStep a s s')
    (hclear : SlotsClear a s'.ctes) : SlotRun a s₀ s'

theorem KernelCall.Leads.slotsOK {call : KernelCall} (h : call.Leads a s s')
    (hs : SlotsOK a s.ctes) : SlotsOK a s'.ctes := by
  cases call with
  | untyped label length slot buffer =>
    obtain ⟨hu, st, hdec⟩ := h
    exact slotsOK_untyped hs hu hdec
  | cnode fuel label length slot buffer =>
    obtain ⟨st, hdec⟩ := h
    exact hs.cnode hdec
  | transfer slot dest =>
    exact hs.stored h.1 (transferCap_stored h.2)
  | other => exact slotsOK_of_ctes (congrArg slots h) hs

theorem Boot.slotsOK (h : Boot a static s) : SlotsOK a s.ctes := by
  intro x
  by_cases hx : s.ctes.capType x = .nullCap
  · exact .of_null hx
  refine .of_capOK (h.ok x hx) fun _ => ?_
  have hrev : getRevocable a (s.ctes x).cteMDBNode = 1 := congrArg Prod.fst (h.flags x hx)
  rw [hrev]
  decide

theorem SlotStep.slotsOK (h : SlotStep a s s') (hs : SlotsOK a s.ctes) : SlotsOK a s'.ctes := by
  cases h with
  | call call h => exact h.slotsOK hs
  | insert src dest c hd hc hdest h => exact hs.cteInsert hd hc hdest h
  | delete fuel slot exposed st h => exact slotsOK_rule.deleteAll h hs
  | fill u hu h =>
    obtain ⟨hok, hrev⟩ := (hs u).untyped hu
    rw [h]
    refine hs.setCap (.of_capOK ?_ fun _ => hrev)
    exact (CapOK.setFreeIndex hu hok (Nat.le_of_eq (CapInv.toNat_maxFreeIndex hok hu))).1
  | other h =>
    intro x
    refine ⟨fun ht => ?_, fun ht => ?_⟩
    · obtain ⟨hcap, hrev⟩ := h x (.inl ht)
      exact ((hs x).congr hcap hrev).untyped ht
    · obtain ⟨hcap, hrev⟩ := h x (.inr ht)
      exact ((hs x).congr hcap hrev).cnode ht

/-- In every state that calls reach from boot, the caps of untyped memory and of
CNodes are well formed. -/
theorem SlotRun.slotsOK {s₀ : KernelState} (h : SlotRun a s₀ s) (h₀ : Boot a static s₀) :
    SlotsOK a s.ctes := by
  induction h with
  | refl => exact h₀.slotsOK
  | step _ hstep _ ih => exact hstep.slotsOK ih

end Rel4.Kernel
