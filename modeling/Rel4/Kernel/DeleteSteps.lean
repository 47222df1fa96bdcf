import Rel4.Kernel.CapSteps
import Rel4.Kernel.DeleteRule

/-!
What deleting a cap does to the capability space.

`delete_all`, `finalise` and `reduce_zombie` change the slots by four kinds of
steps: a cap is removed, the last cap to a CNode or a thread becomes a zombie, a
zombie counts down, and a zombie changes places with the cap in the first slot
of its own object. `deletion_rule` shows this of the whole recursion, as long
as no two neighbours change places; each step keeps `CapInv`.
-/

namespace Rel4.Kernel
open Lib.Bitfield Common CSpace Rel4.Task Ipc Function
open Task.KernelState

variable {a : Arch} {w : CapSpace} {x y : Word} {c : CapT}
  {s s' : KernelState} {slot : Word}

/-- The cap in `x` is the only one to its object. -/
def CapSpace.LastCap (a : Arch) (w : CapSpace) (x : Word) : Prop :=
  ∀ y, y ≠ x → sameObjectAs a (w.slots x).cap (w.slots y).cap = false

/-- One step of a deletion. -/
inductive DelStep (a : Arch) (w : CapSpace) : CapSpace → Prop where
  | erase (x : Word) (he : w.Erasable a x) :
    DelStep a w { w with slots := setEmpty a w.slots x }
  | zombify (x : Word) (z : CapT)
    (hx : w.slots.capType x = .cnodeCap ∨ w.slots.capType x = .threadCap)
    (hz : ZombieOf a (w.slots x).cap z) (hlast : w.LastCap a x) : DelStep a w (w.setCap x z)
  | shrink (x : Word) (hx : w.slots.capType x = .zombieCap)
    (hn : 0 < getZombieNumber a (w.slots x).cap)
    (hend : w.slots.capType (offsetSlot (getZombiePtr a (w.slots x).cap)
      (getZombieNumber a (w.slots x).cap - 1)) = .nullCap) :
    DelStep a w (w.setCap x (setZombieNumber a (w.slots x).cap
      (getZombieNumber a (w.slots x).cap - 1)))
  | swap (x : Word) (hx : w.slots.capType x = .zombieCap)
    (hn : 0 < getZombieNumber a (w.slots x).cap)
    (hne : getZombiePtr a (w.slots x).cap ≠ x)
    (hfar : ¬ Neighbours a w.slots (getZombiePtr a (w.slots x).cap) x) :
    DelStep a w
      ⟨cteSwap a w.slots (w.slots (getZombiePtr a (w.slots x).cap)).cap
          (getZombiePtr a (w.slots x).cap) (w.slots x).cap x,
        update (update w.origin (getZombiePtr a (w.slots x).cap) (w.origin x)) x
          (w.origin (getZombiePtr a (w.slots x).cap)), w.fresh⟩

/-- The steps of a deletion. -/
def DelRun (a : Arch) : CapSpace → CapSpace → Prop := Relation.ReflTransGen (DelStep a)

/-- The first slot of a zombie that is not done is one of its slots. -/
theorem hasSlot_zombiePtr (hx : getCapType c = .zombieCap) (hn : 0 < getZombieNumber a c) :
    HasSlot a c (getZombiePtr a c) := by
  refine ⟨0, ?_, ?_⟩
  · rw [slotCount_zombie hx]
    exact hn
  · rw [objBase_zombie hx, offsetSlot]
    simp

theorem named_of_cnode_or_thread {t : CapTag} (h : t = .cnodeCap ∨ t = .threadCap) : t.named := by
  rcases h with rfl | rfl <;> rfl

theorem CapInv.delStep (h : CapInv a static w ls) (hstep : DelStep a w w') :
    ∃ ls', CapInv a static w' ls' := by
  cases hstep with
  | erase x he => exact ⟨_, h.erase he⟩
  | zombify x z hx hz hlast =>
    have hp : getCapIsPhysical (w.slots x).cap = true := hx.elim physical_cnode physical_thread
    exact ⟨_, h.zombify (named_of_cnode_or_thread hx) hp hz hlast⟩
  | shrink x hx hn hend => exact ⟨_, h.shrink hx hn hend⟩
  | swap x hx hn hne hfar =>
    have hxl : w.slots.capType x ≠ .nullCap := by rw [hx]; decide
    exact ⟨_, h.swap hxl (.inr ⟨x, hxl, hasSlot_zombiePtr hx hn⟩) hne hfar⟩

theorem CapInv.delRun (h : CapInv a static w ls) (hrun : DelRun a w w') :
    ∃ ls', CapInv a static w' ls' := by
  induction hrun with
  | refl => exact ⟨ls, h⟩
  | tail _ hstep ih =>
    obtain ⟨ls', h'⟩ := ih
    exact h'.delStep hstep

/-! ## Parts of a deletion -/

theorem capSpace_of_view (h : view s' = view s) : capSpace s' = capSpace s :=
  congrArg (fun v : CSpaceView => (⟨v.ctes, v.origin, v.fresh⟩ : CapSpace)) h

theorem capSpace_setEmptySlot :
    capSpace (setEmptySlot a s slot c) = { capSpace s with slots := setEmpty a s.ctes slot } :=
  congrArg (fun v : CSpaceView => (⟨v.ctes, v.origin, v.fresh⟩ : CapSpace))
    (view_setEmptySlot a s slot c)

theorem erasable_of_no_slots (h : slotCount a (w.slots x).cap = 0) : w.Erasable a x := by
  rintro y - - ⟨i, hi, -⟩
  omega

theorem slotCount_of_finalisedAtOnce (h : finalisedAtOnce (getCapType c)) : slotCount a c = 0 := by
  unfold slotCount
  cases ht : getCapType c <;> simp [ht, finalisedAtOnce] at h ⊢

/-- At most one cap is removed, of a kind that is finalised at once. -/
def RemovesOne (a : Arch) (w w' : CapSpace) : Prop :=
  w' = w ∨ ∃ x, finalisedAtOnce (w.slots.capType x) = true ∧
    w' = { w with slots := setEmpty a w.slots x }

theorem removesOne_deleteOne (h : deleteOne a s slot = .ok s') :
    RemovesOne a (capSpace s) (capSpace s') := by
  obtain ⟨hkind, hview⟩ := deleteOne_view h
  exact .inr ⟨slot, hkind,
    congrArg (fun v : CSpaceView => (⟨v.ctes, v.origin, v.fresh⟩ : CapSpace)) hview⟩

/-- Cancelling a message leaves the capability space alone, or removes a reply cap. -/
theorem removesOne_cancelIpc (h : cancelIpc a s t = .ok s') :
    RemovesOne a (capSpace s) (capSpace s') := by
  unfold cancelIpc at h
  have hblocked : ∀ {p q : Prop} [Decidable p] [Decidable q] {u : KernelState},
      view u = view s → (ensure p >>= fun _ => ensure q >>= fun _ => pure u) = .ok s' →
      capSpace s' = capSpace s := by
    intro p q _ _ u hu h
    obtain ⟨_, -, h⟩ := bind_eq_ok.mp h
    obtain ⟨_, -, h⟩ := bind_eq_ok.mp h
    obtain rfl := pure_eq_ok.mp h
    exact capSpace_of_view hu
  cases hst : s.getState t <;> simp only [hst] at h
  case blockedOnSend => exact .inl (hblocked (by simp) h)
  case blockedOnReceive => exact .inl (hblocked (by simp) h)
  case blockedOnNotification =>
    obtain ⟨_, -, h⟩ := bind_eq_ok.mp h
    obtain rfl := pure_eq_ok.mp h
    exact .inl (capSpace_of_view (by simp))
  case blockedOnReply =>
    split at h
    · have hrun := removesOne_deleteOne h
      exact hrun
    · cases h
      exact .inl rfl
  all_goals
    cases h
    exact .inl rfl

theorem cap_setEmpty (x y : Word) :
    (setEmpty a σ x y).cap = if y = x ∧ σ.capType x ≠ .nullCap then newNullCap else (σ y).cap := by
  by_cases hx : σ.capType x = .nullCap
  · rw [setEmpty_of_null hx, if_neg fun h => h.2 hx]
  · rw [(setEmpty_effect hx).cap]
    simp [hx]

theorem not_sameObjectAs_null (hn : getCapType c = .nullCap) : sameObjectAs a c' c = false := by
  by_contra h
  rw [Bool.not_eq_false] at h
  have hnamed := sameObjectAs_named h
  rw [capType_eq_of_key ((sameObjectAs_iff hnamed).mp h), hn] at hnamed
  cases hnamed

namespace RemovesOne

variable (h : RemovesOne a w w')

include h

theorem delRun : DelRun a w w' := by
  rcases h with rfl | ⟨y, hk, rfl⟩
  · exact .refl
  · exact .single (.erase y (erasable_of_no_slots (slotCount_of_finalisedAtOnce hk)))

theorem cap_eq (hx : finalisedAtOnce (w.slots.capType x) = false) :
    (w'.slots x).cap = (w.slots x).cap := by
  rcases h with rfl | ⟨y, hk, rfl⟩
  · rfl
  rw [cap_setEmpty, if_neg]
  rintro ⟨rfl, -⟩
  rw [hx] at hk
  cases hk

theorem slotCount_eq_zero (hx : slotCount a (w.slots x).cap = 0) :
    slotCount a (w'.slots x).cap = 0 := by
  rcases h with rfl | ⟨y, hk, rfl⟩
  · exact hx
  rw [cap_setEmpty]
  split
  · exact slotCount_of_finalisedAtOnce (by rw [capType_newNullCap]; rfl)
  · exact hx

/-- Removing another cap leaves a last cap the last one. -/
theorem lastCap (hx : finalisedAtOnce (w.slots.capType x) = false) (hlast : w.LastCap a x) :
    w'.LastCap a x := by
  have hsame := h.cap_eq hx
  intro z hz
  rw [hsame]
  rcases h with rfl | ⟨y, hk, rfl⟩
  · exact hlast z hz
  rw [cap_setEmpty]
  split
  · exact not_sameObjectAs_null capType_newNullCap
  · exact hlast z hz

end RemovesOne

/-- A cap that is not the last one to its object can go. -/
theorem CapInv.erasable_of_not_last (h : CapInv a static w ls) (hn : (w.slots.capType x).named)
    (hf : isFinalCap a w.slots x = false) : w.Erasable a x := by
  have hex : ∃ z, z ≠ x ∧ sameObjectAs a (w.slots x).cap (w.slots z).cap = true := by
    by_contra hno
    rw [(h.isFinalCap_iff hn).mpr fun y hy => ?_] at hf
    · cases hf
    · by_contra hs
      exact hno ⟨y, hy, by simpa using hs⟩
  obtain ⟨z, hzx, hs⟩ := hex
  intro y _ _ hslot
  have hst : SameTarget a (w.slots x).cap (w.slots z).cap :=
    .inr ⟨hn, ((sameObjectAs_iff hn).mp hs).symm⟩
  exact ⟨z, hzx, (h.object_eq_of_sameObjectAs hs).1, hst.hasSlot_iff.mpr hslot⟩

/-- What `finaliseCap` leaves to be done about a slot. -/
inductive Finalised (a : Arch) (w : CapSpace) (x : Word) (remainder : CapT) : Prop where
  | done (hr : getCapType remainder = .nullCap) (he : w.Erasable a x)
  | object (hx : w.slots.capType x = .cnodeCap ∨ w.slots.capType x = .threadCap)
    (hz : ZombieOf a (w.slots x).cap remainder) (hlast : w.LastCap a x)
    (hn : 2 ≤ slotCount a remainder)
  | zombie (hx : w.slots.capType x = .zombieCap) (hr : remainder = (w.slots x).cap)

/-- The zombie that `finaliseCap` makes of the last cap to an object. -/
def zombieFor (a : Arch) (c : CapT) : Option CapT :=
  match getCapType c with
  | .cnodeCap =>
    some (zombieNew (bit (getCNodeRadix a c)) (getCNodeRadix a c) (getCNodePtr a c))
  | .threadCap =>
    some (zombieNew tcbCNodeEntries zombieTcb (getCspace a (getTcbPtr a c) tcbCTable))
  | _ => none

theorem zombieFor_type (hz : zombieFor a c = some z) :
    getCapType c = .cnodeCap ∨ getCapType c = .threadCap := by
  unfold zombieFor at hz
  split at hz
  next ht => exact .inl ht
  next ht => exact .inr ht
  next => cases hz

theorem zombieFor_zombieOf (hok : CapOK a c) (hz : zombieFor a c = some z) :
    ZombieOf a c z ∧ 2 ≤ slotCount a z := by
  unfold zombieFor at hz
  split at hz
  next ht =>
    cases hz
    have hz := hok.zombieOf_cnode ht
    refine ⟨hz, ?_⟩
    have hcount : slotCount a c = 2 ^ (getCNodeRadix a c).toNat := by simp [slotCount, ht]
    rw [hz.slotCount_eq, hcount]
    exact Nat.pow_le_pow_right (by decide) (hok.radix ht) (n := 2)
  next ht =>
    cases hz
    have hbase : getCspace a (getTcbPtr a c) tcbCTable = objBase a c := by
      rw [objBase_thread ht, getCspace, tcbCTable]
      simp
    rw [hbase]
    have hz := hok.zombieOf_thread ht
    refine ⟨hz, ?_⟩
    rw [hz.slotCount_eq, slotCount, ht]
    show 2 ≤ tcbCNodeEntries.toNat
    decide
  next => cases hz

/-- `finaliseCap` removes at most one cap. It leaves nothing of a cap without slots and of one that is
not the last, a zombie of the last cap to a CNode or a thread, and a zombie as it is. -/
theorem finaliseCap_cases (h : finaliseCap a s c final = .ok (s', fc)) :
    RemovesOne a (capSpace s) (capSpace s') ∧
      ((getCapType fc.remainder = .nullCap ∧ (slotCount a c = 0 ∨
          (final = false ∧ capSpace s' = capSpace s ∧
            (getCapType c = .cnodeCap ∨ getCapType c = .threadCap)))) ∨
        (final = true ∧ zombieFor a c = some fc.remainder) ∨
        (getCapType c = .zombieCap ∧ fc.remainder = c)) := by
  obtain ⟨r, hr, h⟩ := bind_eq_ok.mp h
  cases r with
  | some s₁ =>
    obtain ⟨hkind, hview⟩ := finaliseImmediate_some hr
    cases h
    exact ⟨.inl (capSpace_of_view hview),
      .inl ⟨capType_newNullCap, .inl (slotCount_of_finalisedAtOnce hkind)⟩⟩
  | none =>
    simp only at h
    split at h
    · -- the last cap to a CNode
      have ht : getCapType c = .cnodeCap := by assumption
      cases h
      exact ⟨.inl rfl, .inr (.inl ⟨rfl, by simp only [zombieFor, ht]⟩)⟩
    · -- the last cap to a thread
      have ht : getCapType c = .threadCap := by assumption
      obtain ⟨s₁, hc, h⟩ := bind_eq_ok.mp h
      cases h
      have hend : capSpace (s₁.suspend a (getTcbPtr a c)) = capSpace s₁ :=
        capSpace_of_view (by simp)
      have hstart : capSpace (safeUnbindNotification a s (getTcbPtr a c)) = capSpace s :=
        capSpace_of_view (by simp)
      have hrun := removesOne_cancelIpc hc
      rw [hstart, ← hend] at hrun
      exact ⟨hrun, .inr (.inl ⟨rfl, by simp only [zombieFor, ht]⟩)⟩
    · have ht : getCapType c = .zombieCap := by assumption
      cases h
      exact ⟨.inl rfl, .inr (.inr ⟨ht, rfl⟩)⟩
    · have ht : getCapType c = .irqHandlerCap := by assumption
      obtain ⟨s₁, hc, h⟩ := bind_eq_ok.mp h
      cases h
      exact ⟨removesOne_deleteOne hc, .inl ⟨capType_newNullCap, .inl (by simp [slotCount, ht])⟩⟩
    next hzombie hcnode hthread _ _ =>
      cases h
      refine ⟨.inl rfl, .inl ⟨capType_newNullCap, ?_⟩⟩
      cases ht : getCapType c
      case cnodeCap => exact .inr ⟨Bool.eq_false_iff.mpr (hcnode ht), rfl, .inl rfl⟩
      case threadCap => exact .inr ⟨Bool.eq_false_iff.mpr (hthread ht), rfl, .inr rfl⟩
      case zombieCap => exact absurd ht hzombie
      all_goals exact .inl (by simp [slotCount, ht])

theorem finaliseCap_effect (h : CapInv a static (capSpace s) ls)
    (hx : s.ctes.capType slot ≠ .nullCap) {fc : FinaliseCapRet}
    (hf : finaliseCap a s (s.ctes slot).cap (isFinalCap a s.ctes slot) = .ok (s', fc)) :
    DelRun a (capSpace s) (capSpace s') ∧ Finalised a (capSpace s') slot fc.remainder := by
  obtain ⟨hrun, hrem⟩ := finaliseCap_cases hf
  refine ⟨hrun.delRun, ?_⟩
  rcases hrem with ⟨hnull, hzero | ⟨hfin, hspace, ht⟩⟩ | ⟨hfin, hz⟩ | ⟨ht, hr⟩
  · exact .done hnull (erasable_of_no_slots (hrun.slotCount_eq_zero hzero))
  · rw [hspace]
    exact .done hnull (h.erasable_of_not_last (named_of_cnode_or_thread ht) hfin)
  · have ht := zombieFor_type hz
    have hkind : finalisedAtOnce ((capSpace s).slots.capType slot) = false := by
      show finalisedAtOnce (getCapType (s.ctes slot).cap) = false
      rcases ht with ht | ht <;> rw [ht] <;> rfl
    have hlast := (h.isFinalCap_iff (named_of_cnode_or_thread ht)).mp hfin
    have hok : CapOK a (s.ctes slot).cap := h.capOK hx
    have hsame : ((capSpace s').slots slot).cap = (s.ctes slot).cap := hrun.cap_eq hkind
    rw [← hsame] at ht hok hz
    obtain ⟨hzombie, hcount⟩ := zombieFor_zombieOf hok hz
    exact .object ht hzombie (hrun.lastCap hkind hlast) hcount
  · have hkind : finalisedAtOnce ((capSpace s).slots.capType slot) = false := by
      show finalisedAtOnce (getCapType (s.ctes slot).cap) = false
      rw [ht]
      rfl
    have hsame : ((capSpace s').slots slot).cap = (s.ctes slot).cap := hrun.cap_eq hkind
    rw [← hsame] at ht hr
    exact .zombie ht hr

/-! ## The recursion -/

theorem capRemovable_null (h : getCapType c = .nullCap) : capRemovable a c x = .ok true := by
  rw [capRemovable, h]

theorem capRemovable_zombie (h : getCapType c = .zombieCap) :
    capRemovable a c x = .ok (getZombieNumber a c = 0 ∨
      (getZombieNumber a c = 1 ∧ x = getZombiePtr a c) : Bool) := by
  rw [capRemovable, h]

/-- A zombie can go when its slots are empty, its own slot apart. -/
theorem erasable_of_removable (hx : w.slots.capType x = .zombieCap)
    (h : getZombieNumber a (w.slots x).cap = 0 ∨
      (getZombieNumber a (w.slots x).cap = 1 ∧ x = getZombiePtr a (w.slots x).cap)) :
    w.Erasable a x := by
  have hz : getCapType (w.slots x).cap = .zombieCap := hx
  rintro y hyx - ⟨i, hi, rfl⟩
  rw [slotCount_zombie hz] at hi
  rcases h with h | ⟨h, hptr⟩
  · rw [h] at hi
    simp at hi
  rw [h] at hi
  have hi0 : i = 0 := by
    have : i < 1 := hi
    omega
  rw [objBase_zombie hz, ← hptr, hi0, offsetSlot] at hyx
  simp at hyx

/-- The first lines of `finalise`: the slot can be emptied, or it holds a zombie. -/
theorem Finalised.remains (h : Finalised a w x remainder)
    (hr : capRemovable a remainder x = .ok r) :
    if r then w.Erasable a x else DelRun a w (w.setCap x remainder) := by
  cases h with
  | done hnull he =>
    rw [capRemovable_null hnull] at hr
    cases hr
    exact he
  | object hx hz hlast hn =>
    rw [capRemovable_zombie hz.isZombie] at hr
    rw [slotCount_zombie hz.isZombie] at hn
    have hno : ¬ (getZombieNumber a remainder = 0 ∨
        (getZombieNumber a remainder = 1 ∧ x = getZombiePtr a remainder)) := by
      rintro (e | ⟨e, -⟩) <;> rw [e] at hn <;> revert hn <;> decide
    rw [decide_eq_false hno] at hr
    cases hr
    exact .single (.zombify x remainder hx hz hlast)
  | zombie hx hrem =>
    subst hrem
    rw [capRemovable_zombie hx] at hr
    have hself : w.setCap x (w.slots x).cap = w := by
      rw [CapSpace.setCap, Slots.setCap_self]
    rw [hself]
    by_cases hcase : getZombieNumber a (w.slots x).cap = 0 ∨
        (getZombieNumber a (w.slots x).cap = 1 ∧ x = getZombiePtr a (w.slots x).cap)
    · rw [decide_eq_true hcase] at hr
      cases hr
      exact erasable_of_removable hx hcase
    · rw [decide_eq_false hcase] at hr
      cases hr
      exact .refl

/-- Deletion takes the four kinds of steps only. -/
theorem deletion_rule : RecursionRule a true (fun s => ∃ ls, CapInv a static (capSpace s) ls)
    (fun s s' => DelRun a (capSpace s) (capSpace s'))
    fun s slot => (capSpace s).Erasable a slot where
  refl _ := .refl
  trans h h' := h.trans h'
  keeps := by
    rintro s s' ⟨ls, h⟩ hrun
    exact h.delRun hrun
  null := by
    intro s slot hnull
    refine erasable_of_no_slots (slotCount_of_finalisedAtOnce ?_)
    show finalisedAtOnce (s.ctes.capType slot) = true
    rw [hnull]
    rfl
  finaliseCap := by
    rintro s s' slot fc removable ⟨ls, h⟩ hlive hfc hrem
    obtain ⟨hrun, hfin⟩ := finaliseCap_effect h hlive hfc
    exact ⟨hrun, hfin.remains hrem⟩
  setEmptySlot info he := by
    rw [capSpace_setEmptySlot]
    exact .single (.erase _ he)
  shrink hz hn hend := .single (.shrink _ hz hn hend)
  swapSlots := by
    rintro s slot ptr hz hn rfl hne hfar
    exact .single (.swap slot hz hn hne fun hnb => hfar ⟨rfl, hnb⟩)
  preemptionPoint s := by
    rw [capSpace_of_view (view_preemptionPoint s)]
    exact .refl

/-! ## Runs that exchange no neighbours

Such a run does not depend on whether it was asked to stop there. -/

/-- `x` stopped before it exchanged neighbours, or it did what `y` did. -/
def Agrees {α : Type} (x y : Exec α) : Prop := x = .error .neighbourSwap ∨ x = y

namespace Agrees

variable {x y : Exec α}

theorem refl : Agrees x x := .inr rfl

theorem bind (h : Agrees x y) (hf : ∀ v, Agrees (f v) (g v)) : Agrees (x >>= f) (y >>= g) := by
  rcases h with rfl | rfl
  · exact .inl rfl
  · cases x with
    | error e => exact .refl
    | ok v => exact hf v

theorem ite [Decidable p] (h₁ : p → Agrees x u) (h₂ : ¬ p → Agrees y v) :
    Agrees (if p then x else y) (if p then u else v) := by
  split
  next h => exact h₁ h
  next h => exact h₂ h

end Agrees

theorem deletion_agrees (fuel : Nat) :
    (∀ s slot i, Agrees (finalise a true fuel s slot i) (finalise a false fuel s slot i)) ∧
      (∀ s slot i, Agrees (deleteAll a true fuel s slot i) (deleteAll a false fuel s slot i)) ∧
      (∀ s slot i,
        Agrees (reduceZombie a true fuel s slot i) (reduceZombie a false fuel s slot i)) := by
  induction fuel with
  | zero =>
    refine ⟨fun s slot i => ?_, fun s slot i => ?_, fun s slot i => ?_⟩
    · rw [finalise, finalise]
      exact .refl
    · rw [deleteAll, deleteAll]
      exact .refl
    · rw [reduceZombie, reduceZombie]
      exact .refl
  | succ fuel ih =>
    obtain ⟨ihf, ihd, ihr⟩ := ih
    refine ⟨fun s slot i => ?_, fun s slot i => ?_, fun s slot i => ?_⟩
    · rw [finalise, finalise]
      refine .ite (fun _ => .refl) fun _ => .bind .refl fun fc => .bind .refl fun r => ?_
      refine .ite (fun _ => .refl) fun _ => .ite (fun _ => .refl) fun _ => ?_
      refine .bind (ihr _ _ _) fun z => .ite (fun _ => .refl) fun _ => ?_
      exact .ite (fun _ => .refl) fun _ => ihf _ _ _
    · rw [deleteAll, deleteAll]
      exact .bind (ihf _ _ _) fun _ => .refl
    · rw [reduceZombie, reduceZombie]
      refine .bind .refl fun _ => .bind .refl fun _ => .ite (fun _ => ?_) fun _ => ?_
      · exact .bind (ihd _ _ _) fun _ => .refl
      · refine .bind .refl fun _ => ?_
        by_cases hn : Neighbours a s.ctes (getZombiePtr a (s.ctes slot).cap) slot
        · rw [if_pos ⟨rfl, hn⟩]
          exact .inl rfl
        · rw [if_neg fun h => hn h.2, if_neg fun h => hn h.2]
          exact .refl

theorem revoke_agrees (fuel : Nat) :
    ∀ s, Agrees (revoke a true fuel s slot) (revoke a false fuel s slot) := by
  induction fuel with
  | zero => exact fun s => .refl
  | succ fuel ih =>
    intro s
    rw [revoke, revoke]
    refine .ite (fun _ => .refl) fun _ => .ite (fun _ => .refl) fun _ => ?_
    refine .bind ((deletion_agrees fuel).2.1 _ _ _) fun _ => .ite (fun _ => .refl) fun _ => ?_
    exact .ite (fun _ => .refl) fun _ => ih _

end Rel4.Kernel
