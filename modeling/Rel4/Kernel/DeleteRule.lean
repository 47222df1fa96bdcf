import Rel4.CSpace.Object
import Rel4.Kernel.Frame

/-!
A rule for deletion.

Whatever relation between states is kept by the operations that deletion is made
of holds between the states before and after a deletion, however far it got.
`DeletionRule` lists these operations, each under what deletion has checked when
it calls it, and `ImmediateRule` those that `delete_one` comes down to. The objects
are those of caps; `threads` is what is known of a thread with a cap.
`RecursionRule` is what the recursion itself needs, `finaliseCap` being one of its
operations.
-/

namespace Rel4.Kernel
open Lib.Bitfield Common CSpace Rel4.Task Ipc

variable {a : Arch} {r : FinaliseSlotRet}
  {s s' : KernelState} {slot : Word}

structure ImmediateRule (a : Arch) (R : KernelState → KernelState → Prop) : Prop where
  refl : ∀ s, R s s
  trans : ∀ {s s' s''}, R s s' → R s' s'' → R s s''
  archFinaliseCap : ∀ {s s' cap final}, archFinaliseCap a s cap final = .ok s' → R s s'
  cancelAllIpc : ∀ {s s' slot}, s.ctes.capType slot = .endpointCap →
    cancelAllIpc a s (getEpPtr a (s.ctes slot).cap) = .ok s' → R s s'
  cancelAllSignal : ∀ {s s' slot}, s.ctes.capType slot = .notificationCap →
    cancelAllSignal a s (getNfPtr a (s.ctes slot).cap) = .ok s' → R s s'
  safeUnbindTcb : ∀ s ntfn, R s (safeUnbindTcb a s ntfn)
  setEmptySlot : ∀ s slot table,
    R s { s with ctes := setEmpty a s.ctes slot, intStateIRQTable := table }

structure DeletionRule (a : Arch) (threads : KernelState → Word → Prop)
    (R : KernelState → KernelState → Prop) : Prop extends ImmediateRule a R where
  thread : ∀ {s slot}, s.ctes.capType slot = .threadCap → threads s (getTcbPtr a (s.ctes slot).cap)
  safeUnbindNotification : ∀ s t, R s (safeUnbindNotification a s t)
  epCancelIpc : ∀ {s t}, threads s t →
    s.getState t = .blockedOnSend ∨ s.getState t = .blockedOnReceive →
    R s (epCancelIpc a s (s.tsGet a t (Field.tsBlockingObject a)) t)
  cancelSignal : ∀ {s t}, threads s t → s.getState t = .blockedOnNotification →
    R s (cancelSignal a s (s.tsGet a t (Field.tsBlockingObject a)) t)
  clearFault : ∀ {s t}, s.getState t = .blockedOnReply →
    R s (s.modifyTcb t fun tcb => { tcb with tcbFault := fun _ => 0 })
  suspend : ∀ {s₀ s t}, threads s₀ t → cancelIpc a s₀ t = .ok s → R s (s.suspend a t)
  setZombie : ∀ {s slot c}, getCapType c = .zombieCap → R s (s.setCtes (s.ctes.setCap slot c))
  swapSlots : ∀ s x y, R s (s.swapSlots a (s.ctes x).cap x (s.ctes y).cap y)
  preemptionPoint : ∀ s units polls, R s { s with ksWorkUnitsCompleted := units, irqPolls := polls }

/-- `set_empty` touches slots and the interrupt table. -/
theorem setEmptySlot_eq (a : Arch) (s : KernelState) (slot : Word) (info : CapT) :
    ∃ table, setEmptySlot a s slot info =
      { s with ctes := setEmpty a s.ctes slot, intStateIRQTable := table } := by
  unfold setEmptySlot postCapDeletion
  split
  · split <;> exact ⟨_, rfl⟩
  next hnull =>
    rw [setEmpty_of_null (not_not.mp hnull)]
    exact ⟨_, rfl⟩

theorem preemptionPoint_eq (s : KernelState) : ∃ units polls,
    (preemptionPoint s).1 = { s with ksWorkUnitsCompleted := units, irqPolls := polls } := by
  unfold preemptionPoint
  simp only
  split <;> exact ⟨_, _, rfl⟩

theorem view_setEmptySlot (a : Arch) (s : KernelState) (slot : Word) (info : CapT) :
    view (setEmptySlot a s slot info) = { view s with ctes := setEmpty a s.ctes slot } := by
  obtain ⟨table, h⟩ := setEmptySlot_eq a s slot info
  rw [h]
  rfl

theorem view_preemptionPoint (s : KernelState) : view (preemptionPoint s).1 = view s := by
  obtain ⟨units, polls, h⟩ := preemptionPoint_eq s
  rw [h]
  rfl

/-- `delete_one` finalises and empties a slot that is in use. -/
theorem deleteOne_cases (h : deleteOne a s slot = .ok s') :
    (s.ctes.capType slot = .nullCap ∧ s' = s) ∨
      ∃ s₁ final, finaliseImmediate a s (s.ctes slot).cap final = .ok (some s₁) ∧
        s' = setEmptySlot a s₁ slot newNullCap := by
  unfold deleteOne at h
  split at h
  · obtain ⟨r, hr, h⟩ := bind_eq_ok.mp h
    cases r with
    | none => cases h
    | some s₁ => exact .inr ⟨s₁, _, hr, (pure_eq_ok.mp h).symm⟩
  next hnull =>
    cases h
    exact .inl ⟨not_not.mp hnull, rfl⟩

/-- `delete_one` removes a cap of a kind that is finalised at once. -/
theorem deleteOne_view (h : deleteOne a s slot = .ok s') :
    finalisedAtOnce (s.ctes.capType slot) = true ∧
      view s' = { view s with ctes := setEmpty a s.ctes slot } := by
  rcases deleteOne_cases h with ⟨hnull, rfl⟩ | ⟨s₁, final, hr, rfl⟩
  · rw [setEmpty_of_null hnull, hnull]
    exact ⟨rfl, rfl⟩
  obtain ⟨hkind, hview⟩ := finaliseImmediate_some hr
  have hctes : s₁.ctes = s.ctes := congrArg CSpaceView.ctes hview
  rw [view_setEmptySlot, hview, hctes]
  exact ⟨hkind, rfl⟩

/-- What is not removable and does not panic is a zombie. -/
theorem capRemovable_false (h : capRemovable a c slot = .ok false) : getCapType c = .zombieCap := by
  unfold capRemovable at h
  split at h
  · cases h
  · assumption
  · cases h

namespace ImmediateRule

variable {a : Arch} {R : KernelState → KernelState → Prop} {s s' : KernelState}

theorem finaliseImmediate (hR : ImmediateRule a R)
    (h : finaliseImmediate a s (s.ctes slot).cap final = .ok (some s')) : R s s' := by
  obtain ⟨-, rfl | h | ⟨ht, h⟩ | ⟨ht, h⟩⟩ := finaliseImmediate_cases h
  · exact hR.refl _
  · exact hR.archFinaliseCap h
  · exact hR.cancelAllIpc ht h
  have hunbind := hR.safeUnbindTcb s (getNfPtr a (s.ctes slot).cap)
  have hctes : (Ipc.safeUnbindTcb a s (getNfPtr a (s.ctes slot).cap)).ctes = s.ctes :=
    congrArg CSpaceView.ctes (view_safeUnbindTcb _ _)
  generalize Ipc.safeUnbindTcb a s (getNfPtr a (s.ctes slot).cap) = s₁ at h hunbind hctes
  have hcancel : s₁.ctes.capType slot = .notificationCap →
      Ipc.cancelAllSignal a s₁ (getNfPtr a (s₁.ctes slot).cap) = .ok s' → R s₁ s' :=
    hR.cancelAllSignal
  rw [hctes] at hcancel
  exact hR.trans hunbind (hcancel ht h)

theorem emptied (hR : ImmediateRule a R) (s : KernelState) (slot : Word) (info : CapT) :
    R s (Kernel.setEmptySlot a s slot info) := by
  obtain ⟨table, h⟩ := setEmptySlot_eq a s slot info
  rw [h]
  exact hR.setEmptySlot s slot table

theorem deleteOne (hR : ImmediateRule a R) (h : deleteOne a s slot = .ok s') : R s s' := by
  rcases deleteOne_cases h with ⟨-, rfl⟩ | ⟨s₁, final, hr, rfl⟩
  · exact hR.refl _
  · exact hR.trans (hR.finaliseImmediate hr) (hR.emptied _ _ _)

end ImmediateRule

/-- A rule for `finalise`, `delete_all` and `reduce_zombie`. They keep `inv`, and `done` is what
is known of a slot that can be emptied. -/
structure RecursionRule (a : Arch) (strict : Bool) (inv : KernelState → Prop)
    (R : KernelState → KernelState → Prop) (done : KernelState → Word → Prop) : Prop where
  refl : ∀ s, R s s
  trans : ∀ {s s' s''}, R s s' → R s' s'' → R s s''
  keeps : ∀ {s s'}, inv s → R s s' → inv s'
  null : ∀ {s slot}, s.ctes.capType slot = .nullCap → done s slot
  finaliseCap : ∀ {s s' slot fc removable}, inv s → s.ctes.capType slot ≠ .nullCap →
    finaliseCap a s (s.ctes slot).cap (isFinalCap a s.ctes slot) = .ok (s', fc) →
    capRemovable a fc.remainder slot = .ok removable →
    R s s' ∧ if removable then done s' slot
      else R s' (s'.setCtes (s'.ctes.setCap slot fc.remainder))
  setEmptySlot : ∀ {s slot} info, done s slot → R s (setEmptySlot a s slot info)
  shrink : ∀ {s slot}, s.ctes.capType slot = .zombieCap →
    0 < getZombieNumber a (s.ctes slot).cap →
    s.ctes.capType (offsetSlot (getZombiePtr a (s.ctes slot).cap)
      (getZombieNumber a (s.ctes slot).cap - 1)) = .nullCap →
    R s (s.setCtes (s.ctes.setCap slot (setZombieNumber a (s.ctes slot).cap
      (getZombieNumber a (s.ctes slot).cap - 1))))
  swapSlots : ∀ {s slot ptr}, s.ctes.capType slot = .zombieCap →
    0 < getZombieNumber a (s.ctes slot).cap → getZombiePtr a (s.ctes slot).cap = ptr →
    ptr ≠ slot → ¬ (strict ∧ Neighbours a s.ctes ptr slot) →
    R s (s.swapSlots a (s.ctes ptr).cap ptr (s.ctes slot).cap slot)
  preemptionPoint : ∀ s, R s (preemptionPoint s).1

namespace RecursionRule

variable {a : Arch} {strict : Bool} {inv : KernelState → Prop}
  {R : KernelState → KernelState → Prop} {done : KernelState → Word → Prop}
  {s s' : KernelState} {slot : Word} {fuel : Nat}

/-- The rule for the three functions with `fuel` steps. -/
structure Holds (a : Arch) (strict : Bool) (inv : KernelState → Prop)
    (R : KernelState → KernelState → Prop) (done : KernelState → Word → Prop) (fuel : Nat) :
    Prop where
  finalise : ∀ {s s' slot immediate r}, inv s →
    finalise a strict fuel s slot immediate = .ok (s', r) →
    R s s' ∧ (r.status = .none → immediate ∨ r.success → done s' slot)
  deleteAll : ∀ {s s' slot exposed e}, inv s →
    deleteAll a strict fuel s slot exposed = .ok (s', e) → R s s'
  reduceZombie : ∀ {s s' slot immediate e}, inv s →
    reduceZombie a strict fuel s slot immediate = .ok (s', e) → R s s'

section

variable (hR : RecursionRule a strict inv R done)
include hR

/-- A slot that is in use is finalised first; the rest of the loop follows. -/
theorem finalise_live (ih : Holds a strict inv R done fuel) (hs : inv s)
    (hlive : s.ctes.capType slot ≠ .nullCap)
    (h : finalise a strict (fuel + 1) s slot immediate = .ok (s', r)) :
    ∃ s₁ fc, Kernel.finaliseCap a s (s.ctes slot).cap (isFinalCap a s.ctes slot) = .ok (s₁, fc) ∧
      R s s₁ ∧ R s₁ s' ∧ (r.status = .none → immediate ∨ r.success → done s' slot) := by
  rw [Kernel.finalise, if_neg hlive] at h
  obtain ⟨⟨s₁, fc⟩, hfc, h⟩ := bind_eq_ok.mp h
  obtain ⟨removable, hrem, h⟩ := bind_eq_ok.mp h
  obtain ⟨hfirst, hset⟩ := hR.finaliseCap hs hlive hfc hrem
  refine ⟨s₁, fc, hfc, hfirst, ?_⟩
  have hs₁ := hR.keeps hs hfirst
  cases removable with
  | true =>
    cases h
    exact ⟨hR.refl _, fun _ _ => hset⟩
  | false =>
    simp only [Bool.false_eq_true, if_false] at h hset
    split at h
    next hcyclic =>
      cases h
      refine ⟨hset, fun _ hr => ?_⟩
      rw [hcyclic.1] at hr
      simp at hr
    next =>
      obtain ⟨⟨s₂, e⟩, hred, h⟩ := bind_eq_ok.mp h
      have hred := hR.trans hset (ih.reduceZombie (hR.keeps hs₁ hset) hred)
      split at h
      next he =>
        cases h
        exact ⟨hred, fun h0 => absurd h0 he⟩
      have hpre := hR.trans hred (hR.preemptionPoint s₂)
      split at h
      next he =>
        cases h
        exact ⟨hpre, fun h0 => absurd h0 he⟩
      next =>
        obtain ⟨hlast, hdone⟩ := ih.finalise (hR.keeps hs₁ hpre) h
        exact ⟨hR.trans hpre hlast, hdone⟩

theorem finalise_succ (ih : Holds a strict inv R done fuel) (hs : inv s)
    (h : finalise a strict (fuel + 1) s slot immediate = .ok (s', r)) :
    R s s' ∧ (r.status = .none → immediate ∨ r.success → done s' slot) := by
  by_cases hlive : s.ctes.capType slot = .nullCap
  · rw [Kernel.finalise, if_pos hlive] at h
    cases h
    exact ⟨hR.refl _, fun _ _ => hR.null hlive⟩
  · obtain ⟨s₁, fc, -, hfirst, hrest, hdone⟩ := hR.finalise_live ih hs hlive h
    exact ⟨hR.trans hfirst hrest, hdone⟩

theorem deleteAll_succ (h : deleteAll a strict (fuel + 1) s slot exposed = .ok (s', e)) :
    ∃ s₁ fs, finalise a strict fuel s slot exposed = .ok (s₁, fs) ∧
      ((fs.status = .none → exposed ∨ fs.success → done s₁ slot) → R s₁ s') := by
  rw [Kernel.deleteAll] at h
  obtain ⟨⟨s₁, fs⟩, hfin, h⟩ := bind_eq_ok.mp h
  refine ⟨s₁, fs, hfin, fun hdone => ?_⟩
  simp only at h
  split at h
  · cases h
    exact hR.refl _
  rename_i hstatus
  split at h
  next hready =>
    cases h
    exact hR.setEmptySlot _ (hdone (not_not.mp hstatus) hready)
  next =>
    cases h
    exact hR.refl _

theorem reduceZombie_succ (ih : Holds a strict inv R done fuel) (hs : inv s)
    (h : reduceZombie a strict (fuel + 1) s slot immediate = .ok (s', e)) : R s s' := by
  rw [Kernel.reduceZombie] at h
  obtain ⟨_, hz, h⟩ := bind_eq_ok.mp h
  obtain ⟨_, hn, h⟩ := bind_eq_ok.mp h
  have hz := ensure_eq_ok.mp hz
  have hn := ensure_eq_ok.mp hn
  cases immediate with
  | true =>
    obtain ⟨⟨s₁, st⟩, hdel, h⟩ := bind_eq_ok.mp h
    have hkept := ih.deleteAll hs hdel
    simp only at h
    split at h
    · cases h
      exact hkept
    split at h
    · cases h
      exact hkept
    next hzombie =>
      split at h
      next hsame =>
        obtain ⟨_, hend, h⟩ := bind_eq_ok.mp h
        have hend := ensure_eq_ok.mp hend
        cases h
        obtain ⟨hptr, hnum, -⟩ := hsame
        rw [← hnum] at hn ⊢
        rw [← hnum, hptr] at hend
        exact hR.trans hkept (hR.shrink hzombie hn hend)
      next =>
        obtain ⟨-, -, h⟩ := bind_eq_ok.mp h
        cases h
        exact hkept
    · cases h
  | false =>
    obtain ⟨_, hne, h⟩ := bind_eq_ok.mp h
    have hne := ensure_eq_ok.mp hne
    split at h
    · cases h
    next hfar =>
      cases h
      exact hR.swapSlots hz hn rfl hne hfar

/-- The rule carries over to the recursion, by induction on the fuel. -/
theorem holds (fuel : Nat) : Holds a strict inv R done fuel := by
  induction fuel with
  | zero =>
    refine ⟨fun _ h => ?_, fun _ h => ?_, fun _ h => ?_⟩
    · rw [Kernel.finalise] at h
      cases h
    · rw [Kernel.deleteAll] at h
      cases h
    · rw [Kernel.reduceZombie] at h
      cases h
  | succ fuel ih =>
    refine ⟨hR.finalise_succ ih, fun hs h => ?_, hR.reduceZombie_succ ih⟩
    obtain ⟨s₁, fs, hfin, hrest⟩ := hR.deleteAll_succ h
    obtain ⟨hfirst, hdone⟩ := ih.finalise hs hfin
    exact hR.trans hfirst (hrest hdone)

theorem deleteAll (hs : inv s) (h : deleteAll a strict fuel s slot exposed = .ok (s', e)) :
    R s s' :=
  (hR.holds fuel).deleteAll hs h

/-- The deletion of a slot that is in use, split at its first `finaliseCap`. -/
theorem deleteAll_live (hs : inv s) (hlive : s.ctes.capType slot ≠ .nullCap)
    (h : Kernel.deleteAll a strict fuel s slot exposed = .ok (s', e)) :
    ∃ s₁ fc, Kernel.finaliseCap a s (s.ctes slot).cap (isFinalCap a s.ctes slot) = .ok (s₁, fc) ∧
      R s₁ s' := by
  rcases fuel with - | - | fuel
  · rw [Kernel.deleteAll] at h
    cases h
  · obtain ⟨s₁, fs, hfin, -⟩ := hR.deleteAll_succ h
    rw [Kernel.finalise] at hfin
    cases hfin
  · obtain ⟨s₁, fs, hfin, hrest⟩ := hR.deleteAll_succ h
    obtain ⟨s₂, fc, hfc, -, hmid, hdone⟩ := hR.finalise_live (hR.holds fuel) hs hlive hfin
    exact ⟨s₂, fc, hfc, hR.trans hmid (hrest hdone)⟩

theorem revoke (hs : inv s) (h : revoke a strict fuel s slot = .ok (s', e)) : R s s' := by
  induction fuel generalizing s with
  | zero => cases h
  | succ fuel ih =>
    rw [Kernel.revoke] at h
    split at h
    · cases h
      exact hR.refl _
    split at h
    · cases h
      exact hR.refl _
    obtain ⟨⟨s₁, st⟩, hdel, h⟩ := bind_eq_ok.mp h
    have hkept := hR.deleteAll hs hdel
    simp only at h
    split at h
    · cases h
      exact hkept
    have hpre := hR.trans hkept (hR.preemptionPoint s₁)
    split at h
    · cases h
      exact hpre
    · exact hR.trans hpre (ih (hR.keeps hs hpre) h)

end

end RecursionRule

namespace DeletionRule

variable {a : Arch} {R : KernelState → KernelState → Prop}
  {s s' : KernelState}

theorem cancelIpc (hR : DeletionRule a threads R) (hthread : threads s t)
    (h : cancelIpc a s t = .ok s') : R s s' := by
  unfold Kernel.cancelIpc at h
  cases ht : s.getState t <;> simp only [ht] at h
  case blockedOnSend =>
    obtain ⟨-, -, h⟩ := bind_eq_ok.mp h
    obtain ⟨-, -, h⟩ := bind_eq_ok.mp h
    cases h
    exact hR.epCancelIpc hthread (.inl ht)
  case blockedOnReceive =>
    obtain ⟨-, -, h⟩ := bind_eq_ok.mp h
    obtain ⟨-, -, h⟩ := bind_eq_ok.mp h
    cases h
    exact hR.epCancelIpc hthread (.inr ht)
  case blockedOnNotification =>
    obtain ⟨-, -, h⟩ := bind_eq_ok.mp h
    cases h
    exact hR.cancelSignal hthread ht
  case blockedOnReply =>
    split at h
    · exact hR.trans (hR.clearFault ht) (hR.deleteOne h)
    · cases h
      exact hR.clearFault ht
  all_goals
    cases h
    exact hR.refl _

theorem finaliseCap (hR : DeletionRule a threads R)
    (h : finaliseCap a s (s.ctes slot).cap final = .ok (s', fc)) : R s s' := by
  obtain ⟨r, hr, h⟩ := bind_eq_ok.mp h
  cases r with
  | some s₁ =>
    cases h
    exact hR.finaliseImmediate hr
  | none =>
    simp only at h
    split at h
    · cases h
      exact hR.refl _
    · have ht : s.ctes.capType slot = .threadCap := by assumption
      obtain ⟨s₁, hs, h⟩ := bind_eq_ok.mp h
      cases h
      have hunbind := hR.safeUnbindNotification s (getTcbPtr a (s.ctes slot).cap)
      have hctes : (Ipc.safeUnbindNotification a s (getTcbPtr a (s.ctes slot).cap)).ctes = s.ctes :=
        congrArg CSpaceView.ctes (view_safeUnbindNotification _ _)
      generalize Ipc.safeUnbindNotification a s (getTcbPtr a (s.ctes slot).cap) = s₂
        at hs hunbind hctes
      have hthread : s₂.ctes.capType slot = .threadCap →
          threads s₂ (getTcbPtr a (s₂.ctes slot).cap) := hR.thread
      rw [hctes] at hthread
      exact hR.trans hunbind (hR.trans (hR.cancelIpc (hthread ht) hs) (hR.suspend (hthread ht) hs))
    · cases h
      exact hR.refl _
    · obtain ⟨s₁, hs, h⟩ := bind_eq_ok.mp h
      cases h
      exact hR.deleteOne hs
    · cases h
      exact hR.refl _

variable {strict : Bool} {fuel : Nat} {slot : Word}

/-- What holds of the parts of a deletion holds of its recursion. -/
theorem recursion (hR : DeletionRule a threads R) :
    RecursionRule a strict (fun _ => True) R fun _ _ => True where
  refl := hR.refl
  trans := hR.trans
  keeps _ _ := trivial
  null _ := trivial
  finaliseCap := by
    intro s s' slot fc removable _ _ hfc hrem
    refine ⟨hR.finaliseCap hfc, ?_⟩
    cases removable with
    | true => trivial
    | false => exact hR.setZombie (capRemovable_false hrem)
  setEmptySlot info _ := hR.emptied _ _ info
  shrink hz _ _ := hR.setZombie (capType_setZombieNumber.trans hz)
  swapSlots _ _ _ _ _ := hR.swapSlots _ _ _
  preemptionPoint s := by
    obtain ⟨units, polls, h⟩ := preemptionPoint_eq s
    rw [h]
    exact hR.preemptionPoint s units polls

theorem deleteAll (hR : DeletionRule a threads R)
    (h : deleteAll a strict fuel s slot exposed = .ok (s', e)) : R s s' :=
  hR.recursion.deleteAll trivial h

theorem revoke (hR : DeletionRule a threads R) (h : revoke a strict fuel s slot = .ok (s', e)) :
    R s s' :=
  hR.recursion.revoke trivial h

end DeletionRule

end Rel4.Kernel
