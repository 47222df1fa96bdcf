import Rel4.Lib.Link
import Rel4.Ipc.Blocked
import Rel4.Kernel.DeleteRule
import Rel4.Kernel.Tcb

/-!
Threads and the notifications bound to them.

A thread and its bound notification point at each other. Every operation keeps
it so (`Bindings`), apart from BindNotification with a notification that is
bound already: the thread that had it still points at it then.
-/

namespace Rel4.Kernel
open Lib.Bitfield Lib.Link Common CSpace Rel4.Task Ipc Function

variable {cap : CapT} (a : Arch)

def boundNotification (s : KernelState) (t : Word) : Word := (s.tcbs t).tcbBoundNotification

/-- Threads and notifications that are bound point at each other. -/
def Bindings (s : KernelState) : Prop := Linked 0 0 (boundNotification s) (getBoundTcb a s)

/-- The bindings of both states are the same. -/
structure SameBindings (s s' : KernelState) : Prop where
  tcb : boundNotification s' = boundNotification s
  ntfn : getBoundTcb a s' = getBoundTcb a s

/-- Bindings are kept or cleared on the way from `s` to `s'`, by pairs. -/
structure Unbinds (s s' : KernelState) : Prop where
  linked : Bindings a s → Bindings a s'
  tcb : ∀ t, boundNotification s' t = boundNotification s t ∨ boundNotification s' t = 0
  ntfn : ∀ n, getBoundTcb a s' n = getBoundTcb a s n ∨ getBoundTcb a s' n = 0

variable {a}

theorem SameBindings.linked_iff (h : SameBindings a s s') : Bindings a s' ↔ Bindings a s := by
  unfold Bindings
  rw [h.tcb, h.ntfn]

theorem SameBindings.unbinds (h : SameBindings a s s') : Unbinds a s s' :=
  ⟨h.linked_iff.mpr, fun t => .inl (congrFun h.tcb t), fun n => .inl (congrFun h.ntfn n)⟩

theorem Unbinds.refl (s : KernelState) : Unbinds a s s := SameBindings.unbinds ⟨rfl, rfl⟩

theorem Unbinds.trans (h : Unbinds a s s') (h' : Unbinds a s' s'') : Unbinds a s s'' where
  linked hs := h'.linked (h.linked hs)
  tcb t := by
    rcases h'.tcb t with e | e
    · rw [e]
      exact h.tcb t
    · exact .inr e
  ntfn n := by
    rcases h'.ntfn n with e | e
    · rw [e]
      exact h.ntfn n
    · exact .inr e

theorem sameBindings_of_ipcEq (h : IpcEq s' s) : SameBindings a s s' :=
  ⟨funext h.boundNotification, funext fun n => h.boundTcb n⟩

theorem sameBindings_of_vspaceEq (h : VSpaceEq s' s) : SameBindings a s s' :=
  ⟨h.proj boundNotification, h.proj (getBoundTcb a)⟩

/-! ## Operations on bindings -/

theorem getBoundTcb_setBoundTcb (ht : (Field.ntfnBoundTcb a).Canonical (signExt a) t) :
    getBoundTcb a (setBoundTcb a s n t) = update (getBoundTcb a s) n t := by
  have hfits : (Field.ntfnBoundTcb a).Fits := by cases a <;> decide
  funext m
  by_cases hm : m = n
  · subst hm
    rw [update_self]
    simp only [getBoundTcb, setBoundTcb, setNotification, update_self]
    exact get_set_self hfits ht
  · rw [update_of_ne hm]
    simp only [getBoundTcb, setBoundTcb, setNotification, update_of_ne hm]

theorem boundTcb_canonical_zero : (Field.ntfnBoundTcb a).Canonical (signExt a) 0 := by
  cases a <;> decide

/-- The thread of a thread cap fits into the field for the bound thread. -/
theorem boundTcb_canonical_getTcbPtr (cap : CapT) :
    (Field.ntfnBoundTcb a).Canonical (signExt a) (getTcbPtr a cap) := by
  have hsign : (CSpace.Field.tcbPtr a).SignBitOnly (signExt a) := by cases a <;> decide
  have h : (CSpace.Field.tcbPtr a).Canonical (signExt a) (getTcbPtr a cap) := canonical_get hsign
  cases a <;> exact h

theorem boundNotification_set (t n : Word) :
    boundNotification (s.modifyTcb t fun tcb => { tcb with tcbBoundNotification := n }) =
      update (boundNotification s) t n := by
  funext x
  by_cases hx : x = t
  · subst hx
    simp [boundNotification, KernelState.modifyTcb]
  · simp [boundNotification, KernelState.modifyTcb, hx]

/-- A pair is cleared from both sides. -/
theorem unbinds_of_update (hpair : boundNotification s t = n) (hn : n ≠ 0)
    (htcb : boundNotification s' = update (boundNotification s) t 0)
    (hntfn : getBoundTcb a s' = update (getBoundTcb a s) n 0) : Unbinds a s s' where
  linked h := by
    subst hpair
    unfold Bindings
    rw [htcb, hntfn]
    exact h.unlink hn
  tcb x := by
    rw [htcb]
    exact update_zero_or _ _ _
  ntfn x := by
    rw [hntfn]
    exact update_zero_or _ _ _

theorem unbinds_safeUnbindNotification (s : KernelState) (t : Word) :
    Unbinds a s (safeUnbindNotification a s t) := by
  unfold safeUnbindNotification
  simp only
  split
  · rename_i hne
    exact unbinds_of_update rfl hne (boundNotification_set t 0)
      (getBoundTcb_setBoundTcb boundTcb_canonical_zero)
  · exact .refl _

theorem unbinds_safeUnbindTcb (s : KernelState) (n : Word) :
    Unbinds a s (safeUnbindTcb a s n) := by
  unfold safeUnbindTcb
  simp only
  have hntfn := getBoundTcb_setBoundTcb (a := a) (s := s) (n := n) boundTcb_canonical_zero
  split
  · rename_i hne
    refine ⟨fun h => ?_, fun x => ?_, fun x => ?_⟩
    · have h := (h.symm.unlink hne).symm
      rw [← hntfn, ← boundNotification_set] at h
      exact h
    · exact boundNotification_set _ 0 ▸ update_zero_or _ _ _
    · exact hntfn ▸ update_zero_or _ _ _
  · rename_i he
    have hsame : getBoundTcb a (setBoundTcb a s n 0) = getBoundTcb a s := by
      rw [hntfn, update_eq_self_iff]
      exact (not_not.mp he).symm
    exact SameBindings.unbinds ⟨rfl, hsame⟩

/-- Deletion keeps bindings or clears them by pairs. -/
theorem unbinds_rule : DeletionRule a (fun _ _ => True) (Unbinds a) where
  refl := .refl
  trans := .trans
  archFinaliseCap h := (sameBindings_of_vspaceEq (.archFinaliseCap h)).unbinds
  cancelAllIpc _ h := (sameBindings_of_ipcEq (ipcEq_cancelAllIpc h)).unbinds
  cancelAllSignal _ h := (sameBindings_of_ipcEq (ipcEq_cancelAllSignal h)).unbinds
  safeUnbindTcb := unbinds_safeUnbindTcb
  thread _ := trivial
  safeUnbindNotification := unbinds_safeUnbindNotification
  epCancelIpc _ _ := (sameBindings_of_ipcEq (ipcEq_epCancelIpc _)).unbinds
  cancelSignal _ _ := (sameBindings_of_ipcEq (ipcEq_cancelSignal _)).unbinds
  clearFault _ := (sameBindings_of_ipcEq (ipcEq_modifyTcb rfl)).unbinds
  suspend _ _ := (sameBindings_of_ipcEq ipcEq_suspend).unbinds
  setEmptySlot _ _ _ := SameBindings.unbinds ⟨rfl, rfl⟩
  setZombie _ := SameBindings.unbinds ⟨rfl, rfl⟩
  swapSlots _ _ _ := SameBindings.unbinds ⟨rfl, rfl⟩
  preemptionPoint _ _ _ := SameBindings.unbinds ⟨rfl, rfl⟩

/-! ## The last cap of an object -/

theorem Unbinds.tcb_zero (h : Unbinds a s s') (ht : boundNotification s t = 0) :
    boundNotification s' t = 0 := by
  rcases h.tcb t with e | e
  · exact e.trans ht
  · exact e

theorem Unbinds.ntfn_zero (h : Unbinds a s s') (hn : getBoundTcb a s n = 0) :
    getBoundTcb a s' n = 0 := by
  rcases h.ntfn n with e | e
  · exact e.trans hn
  · exact e

theorem getBoundTcb_safeUnbindTcb (s : KernelState) (n : Word) :
    getBoundTcb a (safeUnbindTcb a s n) n = 0 := by
  have hntfn := congrFun
    (getBoundTcb_setBoundTcb (a := a) (s := s) (n := n) boundTcb_canonical_zero) n
  rw [update_self] at hntfn
  unfold safeUnbindTcb
  simp only
  split <;> exact hntfn

theorem getBoundTcb_finaliseCap (ht : getCapType cap = .notificationCap)
    (h : finaliseCap a s cap true = .ok (s', fc)) : getBoundTcb a s' (getNfPtr a cap) = 0 := by
  simp only [finaliseCap, finaliseImmediate, ht, if_true] at h
  obtain ⟨r, hr, h⟩ := bind_eq_ok.mp h
  obtain ⟨s₁, hs, hr⟩ := bind_eq_ok.mp hr
  cases hr
  cases h
  exact (sameBindings_of_ipcEq (ipcEq_cancelAllSignal hs)).unbinds.ntfn_zero
    (getBoundTcb_safeUnbindTcb s _)

theorem boundNotification_finaliseCap (ht : getCapType cap = .threadCap)
    (h : finaliseCap a s cap true = .ok (s', fc)) : boundNotification s' (getTcbPtr a cap) = 0 := by
  simp only [finaliseCap, finaliseImmediate, ht] at h
  obtain ⟨r, hr, h⟩ := bind_eq_ok.mp h
  cases hr
  obtain ⟨s₁, hs, h⟩ := bind_eq_ok.mp h
  cases h
  have hcancel := unbinds_rule.cancelIpc trivial hs
  have hrest := hcancel.trans (unbinds_rule.suspend trivial hs)
  refine hrest.tcb_zero ?_
  unfold safeUnbindNotification
  simp only
  split
  · exact (congrFun (boundNotification_set _ 0) _).trans (update_self ..)
  · exact not_not.mp ‹_›

/-- After the deletion of the last cap of a notification or a thread nothing is
bound to it. -/
theorem deleteAll_unbound (h : Bindings a s) (hfinal : isFinalCap a s.ctes slot = true)
    (hdel : deleteAll a strict fuel s slot exposed = .ok (s', e)) :
    (s.ctes.capType slot = .notificationCap → getNfPtr a (s.ctes slot).cap ≠ 0 →
      ∀ t, boundNotification s' t ≠ getNfPtr a (s.ctes slot).cap) ∧
    (s.ctes.capType slot = .threadCap → getTcbPtr a (s.ctes slot).cap ≠ 0 →
      ∀ n, getBoundTcb a s' n ≠ getTcbPtr a (s.ctes slot).cap) := by
  have h' := (unbinds_rule.deleteAll hdel).linked h
  constructor
  · intro ht hn
    obtain ⟨s₁, fc, hfc, hrest⟩ := unbinds_rule.recursion.deleteAll_live trivial (by rw [ht]; decide) hdel
    rw [hfinal] at hfc
    exact h'.symm.ne_of_free hn (hrest.ntfn_zero (getBoundTcb_finaliseCap ht hfc))
  · intro ht hn
    obtain ⟨s₁, fc, hfc, hrest⟩ := unbinds_rule.recursion.deleteAll_live trivial (by rw [ht]; decide) hdel
    rw [hfinal] at hfc
    exact h'.ne_of_free hn (hrest.tcb_zero (boundNotification_finaliseCap ht hfc))

/-! ## Invocations -/

theorem sameBindings_restartCurrent : SameBindings a s (restartCurrent a s) :=
  sameBindings_of_ipcEq (ipcEq_setThreadState _)

/-- A bind keeps the bindings paired if the notification is free, and only then. -/
theorem bindings_doBindNotification_iff (h : Bindings a s) (ht : getTcbPtr a cap ≠ 0) (hn : n ≠ 0)
    (hfree : boundNotification s (getTcbPtr a cap) = 0) :
    Bindings a (doBindNotification a s (getTcbPtr a cap) n) ↔ getBoundTcb a s n = 0 := by
  rw [← Linked.link_iff h ht hn hfree, ← getBoundTcb_setBoundTcb (boundTcb_canonical_getTcbPtr cap),
    ← boundNotification_set]
  rfl

/-- The notification that BindNotification is about. -/
def bindArgument (a : Arch) (s : KernelState) : Option Word :=
  match getExtraCapByIndex s 0 with
  | some slot =>
    if s.ctes.capType slot = .notificationCap then some (getNfPtr a (s.ctes slot).cap) else none
  | none => none

theorem decodeBindNotification_cases (cap : CapT) :
    SameBindings a s (decodeBindNotification a s cap).1 ∨
      ∃ n, bindArgument a s = some n ∧ boundNotification s (getTcbPtr a cap) = 0 ∧
        decodeBindNotification a s cap =
          (doBindNotification a (restartCurrent a s) (getTcbPtr a cap) n, .none) := by
  have hfail : ∀ f, SameBindings a s (s.fail f).1 := fun _ => ⟨rfl, rfl⟩
  unfold decodeBindNotification bindArgument
  cases hslot : getExtraCapByIndex s 0 with
  | none => exact .inl (hfail _)
  | some slot =>
    simp only
    split
    · exact .inl (hfail _)
    rename_i hfree
    split
    · exact .inl (hfail _)
    rename_i htype
    split
    · exact .inl (hfail _)
    · split
      · exact .inl (hfail _)
      · exact .inr ⟨_, if_pos (not_not.mp htype), not_not.mp hfree, rfl⟩

theorem bindings_decodeBindNotification (h : Bindings a s) (ht : getTcbPtr a cap ≠ 0)
    (hn : ∀ n, bindArgument a s = some n → n ≠ 0 ∧ getBoundTcb a s n = 0) :
    Bindings a (decodeBindNotification a s cap).1 := by
  rcases decodeBindNotification_cases cap with hsame | ⟨n, harg, hfree, hcall⟩
  · exact hsame.linked_iff.mpr h
  obtain ⟨hn0, hunbound⟩ := hn n harg
  have hrestart := sameBindings_restartCurrent (a := a) (s := s)
  rw [hcall]
  apply (bindings_doBindNotification_iff (hrestart.linked_iff.mpr h) ht hn0 _).mpr
  · rw [hrestart.ntfn]
    exact hunbound
  · rw [hrestart.tcb]
    exact hfree

theorem bindings_decodeUnbindNotification (h : Bindings a s) :
    Bindings a (decodeUnbindNotification a s cap).1 := by
  unfold decodeUnbindNotification
  simp only
  split
  · exact h
  · exact (unbinds_safeUnbindNotification _ _).linked (sameBindings_restartCurrent.linked_iff.mpr h)

/-! ## Caps to threads and to what they wait on -/

inductive CapName where
  | object (i : Wait)
  | thread (t : Word)

def capName (a : Arch) (c : CapT) : Option CapName :=
  match getCapType c with
  | .endpointCap => some (.object (.endpoint (getEpPtr a c)))
  | .notificationCap => some (.object (.notification (getNfPtr a c)))
  | .threadCap => some (.thread (getTcbPtr a c))
  | _ => none

def Known {a : Arch} (P : Population a) : CapName → Prop
  | .object i => P.object i
  | .thread t => P.thread t

/-- The caps in the slots are to known threads and objects. -/
def CapsKnown {a : Arch} (P : Population a) (σ : Slots) : Prop :=
  ∀ slot n, capName a (σ slot).cap = some n → Known P n

theorem CapsKnown.endpoint {P : Population a} (h : CapsKnown P σ) (ht : σ.capType slot = .endpointCap) :
    P.object (.endpoint (getEpPtr a (σ slot).cap)) := by
  have hn : capName a (σ slot).cap = some (.object (.endpoint (getEpPtr a (σ slot).cap))) := by
    rw [capName, show getCapType (σ slot).cap = _ from ht]
  exact h slot _ hn

theorem CapsKnown.notification {P : Population a} (h : CapsKnown P σ) (ht : σ.capType slot = .notificationCap) :
    P.object (.notification (getNfPtr a (σ slot).cap)) := by
  have hn : capName a (σ slot).cap = some (.object (.notification (getNfPtr a (σ slot).cap))) := by
    rw [capName, show getCapType (σ slot).cap = _ from ht]
  exact h slot _ hn

theorem CapsKnown.thread {P : Population a} (h : CapsKnown P σ) (ht : σ.capType slot = .threadCap) :
    P.thread (getTcbPtr a (σ slot).cap) := by
  have hn : capName a (σ slot).cap = some (.thread (getTcbPtr a (σ slot).cap)) := by
    rw [capName, show getCapType (σ slot).cap = _ from ht]
  exact h slot _ hn

/-- No slot lies in one of the objects. -/
def SlotsApart {a : Arch} (P : Population a) (σ : Slots) : Prop :=
  ∀ i, P.object i → ∀ x, IsSlot a (fun y => (σ y).cap) x → Apart i.addr i.size x 32

/-- The caps are to threads and objects of the population, which no slot reaches into. -/
structure Laid {a : Arch} (P : Population a) (s : KernelState) : Prop where
  caps : CapsKnown P s.ctes
  slots : SlotsApart P s.ctes

theorem CapsKnown.bindArgument {P : Population a} (h : CapsKnown P s.ctes)
    (hn : Kernel.bindArgument a s = some n) : P.object (.notification n) := by
  unfold Kernel.bindArgument at hn
  split at hn
  next slot _ =>
    split at hn
    next ht =>
      cases hn
      exact h.notification ht
    next => cases hn
  next => cases hn

/-! ## Runs -/

/-- The calls that bind and unbind. -/
inductive BindCall where
  | bind (cap : CapT)
  | unbind (cap : CapT)
  | delete (fuel : Nat) (slot : Word) (exposed : Bool)
  | revoke (fuel : Nat) (slot : Word)

namespace BindCall

def run (a : Arch) (s : KernelState) : BindCall → Exec KernelState
  | bind cap => .ok (decodeBindNotification a s cap).1
  | unbind cap => .ok (decodeUnbindNotification a s cap).1
  | delete fuel slot exposed => do
    let r ← deleteAll a false fuel s slot exposed
    return r.1
  | revoke fuel slot => do
    let r ← Kernel.revoke a false fuel s slot
    return r.1

/-- The call is about a known thread, and the notification to be bound is not bound to any
thread. -/
def Free {a : Arch} (P : Population a) (s : KernelState) : BindCall → Prop
  | bind cap => P.thread (getTcbPtr a cap) ∧
    ∀ n, bindArgument a s = some n → getBoundTcb a s n = 0
  | unbind cap => P.thread (getTcbPtr a cap)
  | _ => True

theorem bindings_run {P : Population a} {c : BindCall} (h : Bindings a s) (hl : Laid P s)
    (hfree : c.Free P s) (hc : c.run a s = .ok s') : Bindings a s' := by
  cases c with
  | bind cap =>
    cases hc
    exact bindings_decodeBindNotification h (Population.ne_zero hfree.1)
      fun n hn => ⟨Population.addr_ne_zero (hl.caps.bindArgument hn), hfree.2 n hn⟩
  | unbind cap =>
    cases hc
    exact bindings_decodeUnbindNotification h
  | delete fuel slot exposed =>
    obtain ⟨⟨s₁, e⟩, hdel, hc⟩ := bind_eq_ok.mp hc
    cases hc
    exact (unbinds_rule.deleteAll hdel).linked h
  | revoke fuel slot =>
    obtain ⟨⟨s₁, e⟩, hdel, hc⟩ := bind_eq_ok.mp hc
    cases hc
    exact (unbinds_rule.revoke hdel).linked h

end BindCall

/-- The runs in which every notification is free when it is bound. -/
inductive BindRun {a : Arch} (P : Population a) (s : KernelState) : KernelState → Prop where
  | refl : BindRun P s s
  | step {s₁ s₂ : KernelState} (run : BindRun P s s₁) (c : BindCall) (laid : Laid P s₁)
      (free : c.Free P s₁) (returns : c.run a s₁ = .ok s₂) : BindRun P s s₂

theorem BindRun.bindings {P : Population a} (hrun : BindRun P s s') (h : Bindings a s) :
    Bindings a s' := by
  induction hrun with
  | refl => exact h
  | step _ c laid free returns ih => exact c.bindings_run ih laid free returns

/-! ## One notification -/

def oneNtfn : Word := 0xffffffc000001000
def ntfnArgument : Word := 0xffffffc000002000
def firstThread : CapT := newThreadCap .riscv64 0xffffffc000004600
def secondThread : CapT := newThreadCap .riscv64 0xffffffc000005600

/-- A cap to the notification is the first extra cap of the message. -/
def withNtfnArgument : KernelState :=
  { KernelState.zero with
    ctes := update (fun _ => emptyCte) ntfnArgument
      ⟨newNotificationCap .riscv64 0 1 1 oneNtfn, fun _ => 0⟩
    currentExtraCaps := fun i => if i = 0 then ntfnArgument else 0 }

theorem bindings_withNtfnArgument : Bindings .riscv64 withNtfnArgument := by
  have hzero : (Field.ntfnBoundTcb .riscv64).get (signExt .riscv64) (fun _ => 0) = 0 := by decide
  exact ⟨fun _ h => absurd rfl h, fun _ h => absurd hzero h⟩

/-- In every state of such a run threads and notifications are bound one to one,
and a deletion of the last cap of one leaves nothing that is bound to it. -/
theorem bindRun_oneToOne {P : Population a} (h : Bindings a s) (hrun : BindRun P s s') :
    (∀ t n, P.thread t → P.object (.notification n) →
      (boundNotification s' t = n ↔ getBoundTcb a s' n = t)) ∧
    ∀ fuel slot exposed s'' e, Laid P s' → isFinalCap a s'.ctes slot = true →
      deleteAll a false fuel s' slot exposed = .ok (s'', e) →
      (s'.ctes.capType slot = .notificationCap →
        ∀ t, boundNotification s'' t ≠ getNfPtr a (s'.ctes slot).cap) ∧
      (s'.ctes.capType slot = .threadCap →
        ∀ n, getBoundTcb a s'' n ≠ getTcbPtr a (s'.ctes slot).cap) := by
  have h' := hrun.bindings h
  refine ⟨fun t n ht hn => h'.iff (Population.ne_zero ht) (Population.addr_ne_zero hn), ?_⟩
  intro fuel slot exposed s'' e hl hfinal hdel
  obtain ⟨hntfn, htcb⟩ := deleteAll_unbound h' hfinal hdel
  exact ⟨fun ht => hntfn ht (Population.addr_ne_zero (hl.caps.notification ht)),
    fun ht => htcb ht (Population.ne_zero (hl.caps.thread ht))⟩

def ntfnThreads : Population .riscv64 where
  thread t := t = getTcbPtr .riscv64 firstThread
  object i := i = .notification oneNtfn
  thread_window := by rintro t rfl; decide
  thread_aligned := by rintro t rfl; decide
  object_window := by rintro i rfl; decide
  object_aligned := by rintro i rfl; decide
  objects_apart := by rintro i j rfl rfl h; exact absurd rfl h
  threads_apart := by rintro i t rfl rfl; decide

/-- Only the argument is in a slot. -/
theorem withNtfnArgument_laid : Laid ntfnThreads withNtfnArgument := by
  have hcap : ∀ x, x ≠ ntfnArgument → withNtfnArgument.ctes x = emptyCte := by
    intro x hx
    unfold withNtfnArgument
    simp only [update_of_ne hx]
  have hname : capName .riscv64 (newNotificationCap .riscv64 0 1 1 oneNtfn) =
      some (.object (.notification oneNtfn)) := by
    rw [capName, show getCapType (newNotificationCap .riscv64 0 1 1 oneNtfn) = .notificationCap
      by decide]
    simp only
    congr
  refine ⟨fun x n hn => ?_, ?_⟩
  · by_cases hx : x = ntfnArgument
    · subst hx
      cases hname.symm.trans hn
      rfl
    · rw [hcap x hx, capName, show getCapType emptyCte.cap = _ from capType_newNullCap] at hn
      cases hn
  · intro i hi x hslot
    obtain rfl := hi
    have hx := hslot.live fun y => by
      -- neither a notification nor an empty slot has slots
      by_cases hy : y = ntfnArgument
      · subst hy
        decide
      · simp only [hcap y hy]
        decide
    by_cases hxa : x = ntfnArgument
    · subst hxa
      decide
    · refine absurd ?_ hx
      simp only [hcap x hxa]
      exact capType_newNullCap

theorem bindRun_oneToOne_bind :
    ∃ s, (BindCall.bind firstThread).run .riscv64 withNtfnArgument = .ok s ∧
      (boundNotification s (getTcbPtr .riscv64 firstThread) = oneNtfn ↔
        getBoundTcb .riscv64 s oneNtfn = getTcbPtr .riscv64 firstThread) := by
  have hfree : (BindCall.bind firstThread).Free ntfnThreads withNtfnArgument := by
    refine ⟨rfl, fun n hn => ?_⟩
    obtain rfl : oneNtfn = n :=
      Option.some.inj ((by decide +kernel : bindArgument .riscv64 withNtfnArgument = some oneNtfn)
        |>.symm.trans hn)
    decide +kernel
  exact ⟨_, rfl, (bindRun_oneToOne bindings_withNtfnArgument
    (.step .refl _ withNtfnArgument_laid hfree rfl)).1 _ _ rfl rfl⟩

/-- The notification is bound to one thread and then to another: the first one
still points at it. -/
theorem bind_twice_not_oneToOne :
    ∃ s₁ s₂, (BindCall.bind firstThread).run .riscv64 withNtfnArgument = .ok s₁ ∧
      (BindCall.bind secondThread).run .riscv64 s₁ = .ok s₂ ∧
      boundNotification s₂ (getTcbPtr .riscv64 firstThread) = oneNtfn ∧
      getBoundTcb .riscv64 s₂ oneNtfn ≠ getTcbPtr .riscv64 firstThread :=
  ⟨_, _, rfl, rfl, by decide +kernel, by decide +kernel⟩

end Rel4.Kernel
