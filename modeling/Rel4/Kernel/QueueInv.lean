import Rel4.Ipc.BlockedOps
import Rel4.Kernel.Binding

/-!
The queues of endpoints and notifications in the kernel.

`QueueInv` adds to the queues what they rest on: the caps and the bound threads
are known ones, so that whatever the kernel is led to by them has its queue in
order. Every operation of IPC keeps it.
-/

namespace Rel4.Kernel
open Lib.Bitfield Common CSpace Rel4.Task Ipc
open Task.KernelState

variable {slot : Word} {c : CapT}

variable {a : Arch} {P : Population a} {s s' : KernelState} {σ : Slots} {t ep ntfn : Word}

/-! ## Caps to threads and to what they wait on -/

theorem capName_of_sameTarget (h : SameTarget a c c') : capName a c' = capName a c := by
  have ht := h.capType_eq
  have hk := h.key_eq
  unfold objKey at hk
  unfold capName
  rw [ht] at hk ⊢
  cases hc : getCapType c <;> simp [hc, ht, getCapPtr] at hk ⊢ <;> exact hk

theorem capName_of_null (h : getCapType c = .nullCap) : capName a c = none := by
  rw [capName, h]

theorem CapsKnown.of_slots (h : CapsKnown P σ)
    (hσ : ∀ x, capName a (σ' x).cap = none ∨ ∃ y, capName a (σ' x).cap = capName a (σ y).cap) :
    CapsKnown P σ' := by
  intro x n hn
  rcases hσ x with e | ⟨y, e⟩
  · rw [e] at hn
    cases hn
  · exact h y n (e ▸ hn)

theorem CapsKnown.setEmpty (h : CapsKnown P σ) (slot : Word) : CapsKnown P (setEmpty a σ slot) := by
  refine h.of_slots fun x => ?_
  rw [cap_setEmpty]
  split
  · exact .inl (capName_of_null capType_newNullCap)
  · exact .inr ⟨x, rfl⟩

theorem capName_sourceCapAfter (c c' : CapT) : capName a (sourceCapAfter a c c') = capName a c := by
  unfold sourceCapAfter
  split
  next hu =>
    have ht : getCapType (setUntypedFreeIndex a c (maxFreeIndex (getUntypedBlockSize a c))) =
        getCapType c := getCapType_set (by cases a <;> decide) _
    unfold capName
    rw [ht, hu.1]
  · rfl

theorem CapsKnown.cteInsert (h : CapsKnown P σ)
    (hc : capName a c = none ∨ capName a c = capName a (σ src).cap)
    (hins : cteInsert a σ c src dest = .ok σ') : CapsKnown P σ' := by
  refine h.of_slots fun x => ?_
  rw [cap_cteInsert hins]
  split
  · exact hc.imp_right fun e => ⟨src, e⟩
  · split
    · exact .inr ⟨src, capName_sourceCapAfter _ _⟩
    · exact .inr ⟨x, rfl⟩

/-! ## The invariant -/

structure QueueInv (P : Population a) (s : KernelState) : Prop where
  queues : ∃ q, BlockInv P (blockView a s) q
  caps : CapsKnown P s.ctes
  bound : ∀ {n}, P.object (.notification n) → getBoundTcb a s n ≠ 0 → P.thread (getBoundTcb a s n)

/-- Known caps and bound threads stay so. -/
structure KeepsNames (P : Population a) (s s' : KernelState) : Prop where
  caps : CapsKnown P s.ctes → CapsKnown P s'.ctes
  bound : ∀ n, getBoundTcb a s' n = getBoundTcb a s n ∨ getBoundTcb a s' n = 0

namespace KeepsNames

theorem refl (s : KernelState) : KeepsNames P s s := ⟨id, fun _ => .inl rfl⟩

theorem trans (h : KeepsNames P s s') (h' : KeepsNames P s' s'') : KeepsNames P s s'' := by
  refine ⟨fun hs => h'.caps (h.caps hs), fun n => ?_⟩
  rcases h'.bound n with e | e
  · rw [e]
    exact h.bound n
  · exact .inr e

theorem of_ctes (hc : s'.ctes = s.ctes) (hb : Unbinds a s s') : KeepsNames P s s' :=
  ⟨fun hs => hc ▸ hs, hb.ntfn⟩

theorem of_ipcEq (h : IpcEq s' s) : KeepsNames P s s' :=
  of_ctes h.ctes (sameBindings_of_ipcEq h).unbinds

theorem of_schedEq (h : SchedEq s' s) : KeepsNames P s s' := of_ipcEq (ipcEq_of_schedEq h)

theorem of_eq (hc : s'.ctes = s.ctes) (hn : s'.notifications = s.notifications) :
    KeepsNames P s s' := by
  refine ⟨fun hs => hc ▸ hs, fun n => .inl ?_⟩
  rw [getBoundTcb, hn, getBoundTcb]

theorem insertCap (hc : capName a c = none ∨ capName a c = capName a (s.ctes src).cap)
    (h : s.insertCap a c src dest = .ok s') : KeepsNames P s s' := by
  have hn : s'.notifications = s.notifications := (messageEq_insertCap h).proj (·.notifications)
  refine ⟨fun hs => ?_, fun n => .inl (by rw [getBoundTcb, hn, getBoundTcb])⟩
  exact hs.cteInsert hc (insertCap_effect h).1

theorem transferCap (h : transferCap a s slot dest = .ok (some s')) : KeepsNames P s s' := by
  obtain ⟨⟨st, c⟩, hd, h⟩ := bind_eq_ok.mp h
  simp only at h
  split at h
  · cases h
  obtain ⟨s₁, hs, h⟩ := bind_eq_ok.mp h
  cases h
  refine insertCap ?_ hs
  cases deriveCap_derivedTo hd with
  | null hn => exact .inl (capName_of_null hn)
  | object _ hst => exact .inr (capName_of_sameTarget hst)
  | untyped _ he _ => exact .inr (by rw [he])

theorem rule (receiver : Word) : TransferRule a receiver (KeepsNames P) where
  refl := .refl
  trans := .trans
  setRegister _ _ := of_eq rfl rfl
  setUserWord _ _ _ := of_eq rfl rfl
  transferCap _ h := transferCap h

end KeepsNames

theorem QueueInv.of_keeps (h : QueueInv P s) (hk : KeepsNames P s s')
    (hq : ∃ q, BlockInv P (blockView a s') q) : QueueInv P s' := by
  refine ⟨hq, hk.caps h.caps, fun {n} hn hne => ?_⟩
  rcases hk.bound n with e | e
  · rw [e] at hne ⊢
    exact h.bound hn hne
  · exact absurd e hne

/-- Nothing that matters to the queues has changed. -/
theorem QueueInv.of_view (h : QueueInv P s) (hk : KeepsNames P s s')
    (hv : blockView a s' = blockView a s) : QueueInv P s' :=
  h.of_keeps hk (by rw [hv]; exact h.queues)

/-! ## Deletion -/

/-- `delete_one` keeps the queues in order. -/
theorem queueInv_rule : ImmediateRule a fun s s' => QueueInv P s → QueueInv P s' where
  refl _ h := h
  trans h h' hs := h' (h hs)
  archFinaliseCap hfin h := by
    have hv := VSpaceEq.archFinaliseCap hfin
    exact h.of_view (.of_eq (hv.proj (·.ctes)) (hv.proj (·.notifications))) (hv.proj (blockView a))
  cancelAllIpc ht hcancel h := by
    obtain ⟨q, hq⟩ := h.queues
    obtain ⟨s₁, hs₁, hclears⟩ := hq.cancelAllIpc (h.caps.endpoint ht)
    obtain rfl := Except.ok.inj (hcancel.symm.trans hs₁)
    exact h.of_keeps (.of_ipcEq (ipcEq_cancelAllIpc hcancel)) ⟨_, hq.clear hclears fun _ => rfl⟩
  cancelAllSignal ht hcancel h := by
    obtain ⟨q, hq⟩ := h.queues
    obtain ⟨s₁, hs₁, hclears⟩ := hq.cancelAllSignal (h.caps.notification ht)
    obtain rfl := Except.ok.inj (hcancel.symm.trans hs₁)
    exact h.of_keeps (.of_ipcEq (ipcEq_cancelAllSignal hcancel)) ⟨_, hq.clear hclears fun _ => rfl⟩
  safeUnbindTcb s ntfn h := by
    refine h.of_view (.of_ctes (congrArg CSpaceView.ctes (view_safeUnbindTcb s ntfn))
      (unbinds_safeUnbindTcb s ntfn)) ?_
    unfold safeUnbindTcb
    simp only
    split
    · refine (blockView_modifyTcb ?_ ?_ ?_).trans (blockView_setBoundTcb _ _) <;> exact fun _ => rfl
    · exact blockView_setBoundTcb _ _
  setEmptySlot _ slot _ h := h.of_view ⟨fun hk => hk.setEmpty slot, fun n => .inl rfl⟩ rfl

/-! ## Operations -/

/-- A known thread that waits in no queue. -/
def Ready (P : Population a) (s : KernelState) (t : Word) : Prop :=
  P.thread t ∧ (blockView a s).place t = none

theorem QueueInv.setState (h : QueueInv P s) (ht : (blockView a s).place t = none) (hst : Free st)
    (hk : KeepsNames P s s') (hv : blockView a s' = (blockView a s).setState t st) :
    QueueInv P s' := by
  obtain ⟨q, hq⟩ := h.queues
  exact h.of_keeps hk ⟨q, by rw [hv]; exact hq.setState ht hst⟩

/-- A thread has left its queue and got another state. -/
theorem QueueInv.wake (h : QueueInv P s) (hq : BlockInv P (blockView a s) q) (ht : t ∈ q i)
    (hu : Unlinks (blockView a s) (blockView a s₁) t i) (hst : Free st) (hk : KeepsNames P s s')
    (hv : blockView a s' = (blockView a s₁).setState t st) :
    QueueInv P s' ∧ ∀ x, (blockView a s).place x = none → (blockView a s').place x = none := by
  refine ⟨h.of_keeps hk ⟨_, by rw [hv]; exact hq.unblock ht hu hst⟩, fun x hx => ?_⟩
  rw [hv, place_setState hst]
  split
  · rfl
  · rw [BlockView.place, hu.state, hu.object]
    exact hx

theorem keepsNames_awaitReply (h : awaitReply a s receiver caller canReply grant = .ok s') :
    KeepsNames P s s' := by
  rcases awaitReply_cases h with ⟨_, _, h⟩ | rfl
  · have hreply : capName a (newReplyCap (flag grant) 0 caller) = none := by
      rw [capName, getCapType, newReplyCap, stored_build (i := 3) rfl rfl]
      rfl
    exact (KeepsNames.of_ipcEq (ipcEq_setThreadState _)).trans (.insertCap (.inl hreply) h)
  · exact .of_ipcEq (ipcEq_setThreadState _)

section Endpoints

variable {badge : Word}

theorem QueueInv.sendIpc (h : QueueInv P s) (hsrc : Ready P s src) (hep : P.object (.endpoint ep))
    (hrun : sendIpc a s ep src blocking doCall canGrant badge canGrantReply = .ok s') :
    QueueInv P s' := by
  obtain ⟨q, hq⟩ := h.queues
  have hblock : ∀ {s₁}, (getEpState s ep).mode = none ∨
      (getEpState s ep).mode = some .blockedOnSend →
      s₁ = epEnqueue a (blockOnSend a s ep src doCall canGrant badge canGrantReply) ep src .send →
      QueueInv P s₁ := by
    rintro s₁ hmode rfl
    exact h.of_keeps (.of_ipcEq ((ipcEq_epEnqueue _).trans ipcEq_blockOnSend))
      ⟨_, hq.epEnqueue hsrc.1 hsrc.2 hep hmode rfl rfl
        (blockView_blockOnSend (Population.canonical_object hep rfl))⟩
  unfold Ipc.sendIpc at hrun
  cases hst : getEpState s ep <;> simp only [hst] at hrun hblock
  case idle | send =>
    split at hrun
    · exact hblock (by decide) (Except.ok.inj hrun).symm
    · cases hrun
      exact h
  case recv =>
    obtain ⟨dest, l, hl⟩ := hq.exists_head hep (by simp [blockView, hst, EPState.mode])
    have hdest : dest ∈ q (.endpoint ep) := by simp [hl]
    obtain ⟨r, hr, hrun⟩ := bind_eq_ok.mp hrun
    obtain rfl := Except.ok.inj ((hq.epDequeueHead_eq hep hl).symm.trans hr)
    obtain ⟨s₂, htransfer, hrun⟩ := bind_eq_ok.mp hrun
    have hkeeps : KeepsNames P s ((s₂.setThreadState a dest .running).possibleSwitchTo a dest) :=
      (KeepsNames.of_ipcEq ipcEq_epRemove).trans (((KeepsNames.rule dest).doIpcTransfer
        htransfer).trans (.of_ipcEq ((ipcEq_of_schedEq schedEq_possibleSwitchTo).trans
          (ipcEq_setThreadState _))))
    have hwoken := h.wake hq hdest (hq.unlinks_epRemove hdest) (fun _ => rfl : Free .running) hkeeps
      (by rw [blockView_wake, blockView_of_messageEq (messageEq_doIpcTransfer htransfer)])
    split at hrun
    · obtain ⟨st, hfree, hv⟩ := blockView_awaitReply hrun
      exact hwoken.1.setState (hwoken.2 src hsrc.2) hfree (keepsNames_awaitReply hrun) hv
    · cases hrun
      exact hwoken.1
  case undefined => cases hrun

theorem QueueInv.completeSignal (h : QueueInv P s) : QueueInv P (completeSignal a s t).1 := by
  refine h.of_view ?_ blockView_completeSignal
  unfold Ipc.completeSignal
  simp only
  split
  · have hreg : ∀ w, KeepsNames P s (s.setRegister a t .badge w) := fun _ => .of_eq rfl rfl
    exact (hreg _).trans (.of_ipcEq (ipcEq_setNtfnState _ _))
  · exact .refl _

theorem QueueInv.receiveIpc (h : QueueInv P s) (ht : Ready P s t) (hep : P.object (.endpoint ep))
    (hrun : receiveIpc a s ep t blocking grant = .ok s') : QueueInv P s' := by
  unfold Ipc.receiveIpc at hrun
  have h₁ := h.completeSignal (t := t)
  have ht₁ : Ready P (Ipc.completeSignal a s t).1 t := by
    rw [Ready, blockView_completeSignal]
    exact ht
  generalize Ipc.completeSignal a s t = r at hrun h₁ ht₁
  obtain ⟨s₁, completed⟩ := r
  simp only at hrun h₁ ht₁
  split at hrun
  · cases hrun
    exact h₁
  obtain ⟨q, hq⟩ := h₁.queues
  have hblock : ∀ {s₂}, (getEpState s₁ ep).mode = none ∨
      (getEpState s₁ ep).mode = some .blockedOnReceive →
      s₂ = epEnqueue a (blockOnReceive a s₁ ep t grant) ep t .recv → QueueInv P s₂ := by
    rintro s₂ hmode rfl
    exact h₁.of_keeps (.of_ipcEq ((ipcEq_epEnqueue _).trans ipcEq_blockOnReceive))
      ⟨_, hq.epEnqueue ht₁.1 ht₁.2 hep hmode rfl rfl
        (blockView_blockOnReceive (Population.canonical_object hep rfl))⟩
  have hreg : QueueInv P (s₁.setRegister a t .badge 0) :=
    h₁.of_view (.of_eq rfl rfl) (blockView_setRegister _ _)
  cases hst : getEpState s₁ ep <;> simp only [hst] at hrun hblock
  case idle | recv =>
    split at hrun
    · exact hblock (by decide) (Except.ok.inj hrun).symm
    · cases hrun
      exact hreg
  case send =>
    obtain ⟨sender, l, hl⟩ := hq.exists_head hep (by simp [blockView, hst, EPState.mode])
    have hsender : sender ∈ q (.endpoint ep) := by simp [hl]
    obtain ⟨r, hr, hrun⟩ := bind_eq_ok.mp hrun
    obtain rfl := Except.ok.inj ((hq.epDequeueHead_eq hep hl).symm.trans hr)
    obtain ⟨s₂, htransfer, hrun⟩ := bind_eq_ok.mp hrun
    have hkeeps : KeepsNames P s₁ s₂ := (KeepsNames.of_ipcEq ipcEq_epRemove).trans
      ((KeepsNames.rule t).doIpcTransfer htransfer)
    have hview := blockView_of_messageEq (messageEq_doIpcTransfer htransfer)
    split at hrun
    · obtain ⟨st, hfree, hv⟩ := blockView_awaitReply hrun
      exact (h₁.wake hq hsender (hq.unlinks_epRemove hsender) hfree
        (hkeeps.trans (keepsNames_awaitReply hrun)) (by rw [hv, hview])).1
    cases hrun
    exact (h₁.wake hq hsender (hq.unlinks_epRemove hsender) (fun _ => rfl : Free .running)
      (hkeeps.trans (.of_ipcEq ((ipcEq_of_schedEq schedEq_possibleSwitchTo).trans
        (ipcEq_setThreadState _)))) (by rw [blockView_wake, hview])).1
  case undefined => cases hrun

end Endpoints

/-! ## Cancellation -/

/-- A thread in a queue is taken out of it, without a panic. -/
theorem QueueInv.cancelIpc_waiting (h : QueueInv P s) (ht : P.thread t)
    (hplace : (blockView a s).place t = some i) :
    ∃ s', cancelIpc a s t = .ok s' ∧ QueueInv P s' ∧ s'.getState t = .inactive := by
  obtain ⟨q, hq⟩ := h.queues
  have hmem : t ∈ q i := (hq.mem_iff ht).mpr hplace
  have hi := hq.object_of_mem hmem
  have hne := Population.addr_ne_zero hi
  have hmode := hq.mode hi hmem
  have hfree : Free .inactive := fun _ => rfl
  have hstate : ∀ s₁ : KernelState, (s₁.setThreadState a t .inactive).getState t = .inactive :=
    fun s₁ => by rw [getState_setThreadState, if_pos rfl]
  have hep : ∀ {p}, i = .endpoint p → getEpState s p ≠ .idle ∧
      QueueInv P ((epRemove a s p t).setThreadState a t .inactive) := by
    rintro p rfl
    refine ⟨fun hidle => ?_, ?_⟩
    · rw [show (blockView a s).mode (.endpoint p) = none from congrArg EPState.mode hidle] at hmode
      cases hmode
    · exact (h.wake hq hmem (hq.unlinks_epRemove hmem) hfree
        (.of_ipcEq ((ipcEq_setThreadState _).trans ipcEq_epRemove)) (blockView_setThreadState _)).1
  unfold Kernel.cancelIpc
  cases hst : s.getState t <;>
    simp only [BlockView.place, waitingIn, blockView, hst] at hplace <;> try cases hplace
  case blockedOnReceive | blockedOnSend =>
    obtain ⟨hidle, hinv⟩ := hep rfl
    refine ⟨_, ?_, hinv, hstate _⟩
    have hne : s.tsGet a t (Field.tsBlockingObject a) ≠ 0 := hne
    simp only [convertToTypeRef, ensure, if_pos hidle, if_pos hne]
    rfl
  case blockedOnNotification =>
    have hinv := (h.wake hq hmem (hq.unlinks_ntfnRemove hmem) hfree
      (.of_ipcEq ((ipcEq_setThreadState _).trans ipcEq_ntfnRemove)) (blockView_setThreadState _)).1
    refine ⟨_, ?_, hinv, hstate _⟩
    have hne : s.tsGet a t (Field.tsBlockingObject a) ≠ 0 := hne
    simp only [convertToTypeRef, ensure, if_pos hne]
    rfl

/-- What `cancel_ipc` does for a thread that waits for a reply. -/
def cancelReply (a : Arch) (s : KernelState) (t : Word) : Exec KernelState :=
  let s := s.modifyTcb t fun tcb => { tcb with tcbFault := fun _ => 0 }
  let callerSlot := s.ctes.next a (getCspace a t tcbReply)
  if callerSlot ≠ 0 then deleteOne a s callerSlot else .ok s

/-- A thread outside the queues: only a reply cap may have to go. -/
theorem cancelIpc_free (hplace : (blockView a s).place t = none) :
    cancelIpc a s t = if s.getState t = .blockedOnReply then cancelReply a s t else .ok s := by
  unfold Kernel.cancelIpc
  cases hst : s.getState t <;>
    simp only [BlockView.place, waitingIn, blockView, hst] at hplace <;> first | rfl | cases hplace

theorem QueueInv.cancelReply (h : QueueInv P s) (hrun : cancelReply a s t = .ok s') :
    QueueInv P s' := by
  have hfault : QueueInv P (s.modifyTcb t fun tcb => { tcb with tcbFault := fun _ => 0 }) :=
    h.of_view (.of_ipcEq (ipcEq_modifyTcb rfl))
      (blockView_modifyTcb (fun _ => rfl) (fun _ => rfl) fun _ => rfl)
  unfold Kernel.cancelReply at hrun
  simp only at hrun
  split at hrun
  · exact queueInv_rule.deleteOne hrun hfault
  · cases hrun
    exact hfault

theorem QueueInv.cancelIpc (h : QueueInv P s) (ht : P.thread t)
    (hrun : cancelIpc a s t = .ok s') : QueueInv P s' := by
  rcases hplace : (blockView a s).place t with - | i
  · rw [cancelIpc_free hplace] at hrun
    split at hrun
    · exact h.cancelReply hrun
    · cases hrun
      exact h
  · obtain ⟨s₁, hs₁, hinv, -⟩ := h.cancelIpc_waiting ht hplace
    obtain rfl := Except.ok.inj (hs₁.symm.trans hrun)
    exact hinv

theorem QueueInv.cancelAllIpc (h : QueueInv P s) (hep : P.object (.endpoint ep)) :
    ∃ s', cancelAllIpc a s ep = .ok s' ∧ QueueInv P s' := by
  obtain ⟨q, hq⟩ := h.queues
  obtain ⟨s', hs, hclears⟩ := hq.cancelAllIpc hep
  exact ⟨s', hs, h.of_keeps (.of_ipcEq (ipcEq_cancelAllIpc hs)) ⟨_, hq.clear hclears fun _ => rfl⟩⟩

theorem QueueInv.cancelAllSignal (h : QueueInv P s) (hn : P.object (.notification ntfn)) :
    ∃ s', cancelAllSignal a s ntfn = .ok s' ∧ QueueInv P s' := by
  obtain ⟨q, hq⟩ := h.queues
  obtain ⟨s', hs, hclears⟩ := hq.cancelAllSignal hn
  exact ⟨s', hs,
    h.of_keeps (.of_ipcEq (ipcEq_cancelAllSignal hs)) ⟨_, hq.clear hclears fun _ => rfl⟩⟩

theorem QueueInv.cancelBadgedSends (h : QueueInv P s) (hep : P.object (.endpoint ep))
    (badge : Word) : ∃ s', cancelBadgedSends a s ep badge = .ok s' ∧ QueueInv P s' := by
  obtain ⟨q, hq⟩ := h.queues
  obtain ⟨s', l, hs, hinv⟩ := hq.cancelBadgedSends hep badge
  exact ⟨s', hs, h.of_keeps (.of_ipcEq (ipcEq_cancelBadgedSends hs)) ⟨_, hinv⟩⟩

/-! ## Signals -/

theorem KeepsNames.setMsgIdentifier (w : Word) : KeepsNames P s (setMsgIdentifier s ntfn w) := by
  have hdisj : (Field.ntfnBoundTcb a).Disjoint Field.ntfnMsgIdentifier := by cases a <;> decide
  refine ⟨fun hs => hs, fun n => .inl ?_⟩
  by_cases hn : n = ntfn
  · subst hn
    simp [getBoundTcb, Ipc.setMsgIdentifier, setNotification, get_set_of_disjoint hdisj]
  · simp [getBoundTcb, Ipc.setMsgIdentifier, setNotification, hn]

theorem KeepsNames.wakeWithBadge (badge : Word) : KeepsNames P s (wakeWithBadge a s t badge) := by
  have hrunning : KeepsNames P s (s.setThreadState a t .running) :=
    .of_ipcEq (ipcEq_setThreadState _)
  have hreg : KeepsNames P (s.setThreadState a t .running)
      ((s.setThreadState a t .running).setRegister a t .badge badge) := .of_eq rfl rfl
  exact hrunning.trans (hreg.trans (.of_schedEq schedEq_possibleSwitchTo))

/-- `send_signal` does not panic, also where the bound thread waits at an endpoint. -/
theorem QueueInv.sendSignal (h : QueueInv P s) (hn : P.object (.notification ntfn))
    (badge : Word) : ∃ s', sendSignal a s ntfn badge = .ok s' ∧ QueueInv P s' := by
  obtain ⟨q, hq⟩ := h.queues
  have hdefined := hq.ntfnState_ne_undefined hn
  unfold Ipc.sendSignal
  cases hst : getNtfnState s ntfn <;> simp only
  case idle =>
    split
    next hbound =>
      have htcb := h.bound hn hbound.1
      have hplace : (blockView a s).place (getBoundTcb a s ntfn) =
          some (.endpoint (s.tsGet a (getBoundTcb a s ntfn) (Field.tsBlockingObject a))) := by
        simp only [BlockView.place, waitingIn, blockView, hbound.2]
      obtain ⟨s₁, hs₁, hinv, hstate⟩ := h.cancelIpc_waiting htcb hplace
      have hfree : (blockView a s₁).place (getBoundTcb a s ntfn) = none := by
        simp only [BlockView.place, waitingIn, blockView, hstate]
      exact ⟨_, bind_eq_ok.mpr ⟨s₁, hs₁, rfl⟩,
        hinv.setState hfree (fun _ => rfl : Free .running) (.wakeWithBadge _)
          blockView_wakeWithBadge⟩
    · have hmode : (blockView a s).mode (.notification ntfn) = none := congrArg NtfnState.mode hst
      refine ⟨_, rfl, h.of_view ((KeepsNames.of_ipcEq (ipcEq_setNtfnState _ _)).trans
        (.setMsgIdentifier _)) ?_⟩
      unfold active
      rw [blockView_setMsgIdentifier, blockView_setNtfnState]
      exact BlockView.setMode_self hmode
  case waiting =>
    obtain ⟨dest, l, hl⟩ := hq.exists_head hn (by simp [blockView, hst, NtfnState.mode])
    have hdest : dest ∈ q (.notification ntfn) := by simp [hl]
    have hends : getNtfnQueue a s ntfn =
        ⟨(q (.notification ntfn)).headD 0, (q (.notification ntfn)).getLastD 0⟩ := hq.ends hn
    have hhead : (getNtfnQueue a s ntfn).head = dest := by
      rw [hends, hl]
      rfl
    rw [hhead, if_pos (Population.ne_zero (hq.thread_of_mem hdest))]
    exact ⟨_, rfl, (h.wake hq hdest (hq.unlinks_ntfnRemove hdest) (fun _ => rfl : Free .running)
      ((KeepsNames.of_ipcEq ipcEq_ntfnRemove).trans (.wakeWithBadge _))
      blockView_wakeWithBadge).1⟩
  case active =>
    exact ⟨_, rfl, h.of_view (.setMsgIdentifier _) (blockView_setMsgIdentifier _ _)⟩
  case undefined => exact absurd hst hdefined

/-- A receiver where nothing is pending. -/
theorem receiveSignal_wait (hst : getNtfnState s ntfn = .idle ∨ getNtfnState s ntfn = .waiting) :
    receiveSignal a s ntfn t isBlocking =
      .ok (if isBlocking then awaitSignal a s ntfn t else s.setRegister a t .badge 0) := by
  rcases hst with e | e <;> simp only [receiveSignal, e] <;> split <;> rfl

theorem QueueInv.receiveSignal (h : QueueInv P s) (ht : Ready P s t)
    (hn : P.object (.notification ntfn)) :
    ∃ s', receiveSignal a s ntfn t blocking = .ok s' ∧ QueueInv P s' := by
  obtain ⟨q, hq⟩ := h.queues
  have hdefined := hq.ntfnState_ne_undefined hn
  have hreg : ∀ w, QueueInv P (s.setRegister a t .badge w) := fun w =>
    h.of_view (.of_eq rfl rfl) (blockView_setRegister _ _)
  have hwait : getNtfnState s ntfn = .idle ∨ getNtfnState s ntfn = .waiting →
      ∃ s', Ipc.receiveSignal a s ntfn t blocking = .ok s' ∧ QueueInv P s' := by
    intro hst
    have hmode : (getNtfnState s ntfn).mode = none ∨
        (getNtfnState s ntfn).mode = some .blockedOnNotification :=
      hst.imp (congrArg NtfnState.mode) (congrArg NtfnState.mode)
    refine ⟨_, receiveSignal_wait hst, ?_⟩
    split
    · exact h.of_keeps (.of_ipcEq ipcEq_awaitSignal) ⟨_, hq.awaitSignal ht.1 ht.2 hn hmode⟩
    · exact hreg 0
  cases hst : getNtfnState s ntfn
  case idle => exact hwait (.inl hst)
  case waiting => exact hwait (.inr hst)
  case active =>
    have hmode : (blockView a s).mode (.notification ntfn) = none := congrArg NtfnState.mode hst
    refine ⟨setNtfnState (s.setRegister a t .badge (getMsgIdentifier s ntfn)) ntfn .idle,
      by simp only [Ipc.receiveSignal, hst], (hreg _).of_view (.of_ipcEq (ipcEq_setNtfnState _ _)) ?_⟩
    rw [blockView_setNtfnState, blockView_setRegister]
    exact BlockView.setMode_self hmode
  case undefined => exact absurd hst hdefined

end Rel4.Kernel
