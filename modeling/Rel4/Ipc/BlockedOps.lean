import Rel4.Ipc.Blocked
import Mathlib.Data.List.Perm.Subperm

/-!
What the operations on endpoints and notifications do to the queues.
-/

namespace Rel4.Ipc
open Lib.Bitfield Lib.DList Lib.Queues Common CSpace Rel4.Task Function
open Task.KernelState
open BlockView (ext relink_links relink_relink setMode_self)

variable {p : Word} {st : ThreadState} {l : List Word}
  {v : BlockView} {r : KernelState × TcbQueue} {queue : TcbQueue} {a : Arch} {s s' : KernelState}
  {t : Word}

/-! ## What leaves the queues alone -/

theorem blockView_congr (hn : ∀ x, (s'.tcbs x).tcbEPNext = (s.tcbs x).tcbEPNext)
    (hp : ∀ x, (s'.tcbs x).tcbEPPrev = (s.tcbs x).tcbEPPrev) (hs : s'.getState = s.getState)
    (ho : ∀ x, s'.tsGet a x (Field.tsBlockingObject a) = s.tsGet a x (Field.tsBlockingObject a))
    (he : s'.endpoints = s.endpoints) (hnt : s'.notifications = s.notifications) :
    blockView a s' = blockView a s := by
  unfold blockView
  rw [funext hn, funext hp, hs, funext ho]
  unfold getEpQueue getNtfnQueue getEpState getNtfnState
  rw [he, hnt]

theorem object_disjoint_queued : (Field.tsBlockingObject a).Disjoint Field.tsTcbQueued := by
  cases a <;> decide

theorem blockView_of_schedEq (h : SchedEq s' s) : blockView a s' = blockView a s := by
  refine blockView_congr (h.proj Tcb.tcbEPNext) (h.proj Tcb.tcbEPPrev) (funext h.getState) ?_ ?_ ?_
  · intro x
    have hstate : Field.tsTcbQueued.set (s'.tcbs x).tcbState 0 =
        Field.tsTcbQueued.set (s.tcbs x).tcbState 0 := h.proj Tcb.tcbState x
    have hget := congrArg ((Field.tsBlockingObject a).get (signExt a)) hstate
    rwa [get_set_of_disjoint object_disjoint_queued,
      get_set_of_disjoint object_disjoint_queued] at hget
  · have h := congrArg KernelState.endpoints (show s'.eraseSched = s.eraseSched from h)
    exact h
  · have h := congrArg KernelState.notifications (show s'.eraseSched = s.eraseSched from h)
    exact h

theorem blockView_of_messageEq (h : MessageEq a s' s) : blockView a s' = blockView a s := by
  refine blockView_congr (fun x => h.proj fun s => (s.tcbs x).tcbEPNext)
    (fun x => h.proj fun s => (s.tcbs x).tcbEPPrev) (h.proj getState) (fun x => ?_)
    (h.proj (·.endpoints)) (h.proj (·.notifications))
  exact h.proj fun s => s.tsGet a x (Field.tsBlockingObject a)

/-! ## States of threads -/

/-- A write to a TCB shows in its links, its state and its blocking object. -/
theorem blockView_modify (f : Tcb → Tcb) : blockView a (s.modifyTcb t f) =
    (((blockView a s).relink ⟨update (blockView a s).links.next t (f (s.tcbs t)).tcbEPNext,
        update (blockView a s).links.prev t (f (s.tcbs t)).tcbEPPrev⟩).setState t
      (ThreadState.ofWord (Field.tsType.stored (f (s.tcbs t)).tcbState))).setObject t
      ((Field.tsBlockingObject a).get (signExt a) (f (s.tcbs t)).tcbState) := by
  refine ext (congrArg₂ Links.mk (funext fun x => ?_) (funext fun x => ?_))
    (funext fun x => ?_) (funext fun x => ?_) rfl rfl
  all_goals
    by_cases hx : x = t <;>
      simp [blockView, BlockView.setState, BlockView.setObject, BlockView.relink, getState, tsGet,
        modifyTcb, hx]

theorem blockView_modifyTcb (hn : ∀ tcb, (f tcb).tcbEPNext = tcb.tcbEPNext)
    (hp : ∀ tcb, (f tcb).tcbEPPrev = tcb.tcbEPPrev) (hs : ∀ tcb, (f tcb).tcbState = tcb.tcbState) :
    blockView a (s.modifyTcb t f) = blockView a s := by
  rw [blockView_modify, hn, hp, hs]
  exact ext (congrArg₂ Links.mk (update_eq_self ..) (update_eq_self ..))
    (update_eq_self ..) (update_eq_self ..) rfl rfl

theorem blockView_tsSet_eq (f : Field 3) (w : Word) : blockView a (s.tsSet t f w) =
    ((blockView a s).setState t
      (ThreadState.ofWord (Field.tsType.stored (f.set (s.tcbs t).tcbState w)))).setObject t
      ((Field.tsBlockingObject a).get (signExt a) (f.set (s.tcbs t).tcbState w)) := by
  rw [tsSet, blockView_modify]
  exact ext (congrArg₂ Links.mk (update_eq_self ..) (update_eq_self ..)) rfl rfl rfl rfl

theorem blockView_tsSet (ht : Field.tsType.Disjoint f) (ho : (Field.tsBlockingObject a).Disjoint f)
    (w : Word) : blockView a (s.tsSet t f w) = blockView a s := by
  rw [blockView_tsSet_eq, stored_set_of_disjoint ht, get_set_of_disjoint ho]
  exact ext rfl (update_eq_self ..) (update_eq_self ..) rfl rfl

theorem blockView_tsSet_type (st : ThreadState) :
    blockView a (s.tsSet t Field.tsType st.toWord) = (blockView a s).setState t st := by
  have hst : ThreadState.ofWord (Field.tsType.stored
      (Field.tsType.set (s.tcbs t).tcbState st.toWord)) = st := by
    rw [stored_set_self (by decide)]
    cases st <;> decide
  rw [blockView_tsSet_eq, hst, get_set_of_disjoint (by cases a <;> decide)]
  exact ext rfl rfl (update_eq_self ..) rfl rfl

theorem blockView_setThreadState (st : ThreadState) :
    blockView a (s.setThreadState a t st) = (blockView a s).setState t st := by
  rw [blockView_of_schedEq (schedEq_setThreadState st), blockView_tsSet_type]

theorem blockView_tsSet_object (hp : (Field.tsBlockingObject a).Canonical (signExt a) p) :
    blockView a (s.tsSet t (Field.tsBlockingObject a) p) = (blockView a s).setObject t p := by
  rw [blockView_tsSet_eq, stored_set_of_disjoint (by cases a <;> decide),
    get_set_self (by cases a <;> decide) hp]
  exact ext rfl (update_eq_self ..) rfl rfl rfl

theorem blockView_setRegister (r : ArchReg) (w : Word) :
    blockView a (s.setRegister a t r w) = blockView a s :=
  blockView_modifyTcb (fun _ => rfl) (fun _ => rfl) fun _ => rfl

/-! ## Links -/

theorem blockView_setEPNext (w : Word) : blockView a (setEPNext s t w) = (blockView a s).relink
      ⟨update (blockView a s).links.next t w, (blockView a s).links.prev⟩ := by
  rw [setEPNext, blockView_modify]
  exact ext (congrArg (Links.mk _) (update_eq_self ..))
    (update_eq_self ..) (update_eq_self ..) rfl rfl

theorem blockView_setEPPrev (w : Word) : blockView a (setEPPrev s t w) = (blockView a s).relink
      ⟨(blockView a s).links.next, update (blockView a s).links.prev t w⟩ := by
  rw [setEPPrev, blockView_modify]
  exact ext (congrArg (Links.mk · _) (update_eq_self ..))
    (update_eq_self ..) (update_eq_self ..) rfl rfl

/-- `ep_append` links the thread behind the tail. -/
theorem blockView_epAppend (hq : queue.head = 0 → queue.tail = 0) :
    ∃ L : Links Word, blockView a (epAppend s queue t).1 = (blockView a s).relink L ∧
      (∀ x, x ≠ 0 → L.next x = (pushBack 0 (blockView a s).links queue.tail t).next x) ∧
      ∀ x, L.prev x = (pushBack 0 (blockView a s).links queue.tail t).prev x := by
  unfold epAppend
  simp only [blockView_setEPNext, blockView_setEPPrev, relink_links,
    relink_relink]
  by_cases hh : queue.head = 0
  · simp only [if_pos hh]
    refine ⟨_, rfl, fun x hx => ?_, fun x => ?_⟩
    · simp only [pushBack, update_apply, hq hh, if_neg hx]
    · simp only [pushBack, update_apply]
  simp only [if_neg hh, blockView_setEPNext, relink_links, relink_relink]
  refine ⟨_, rfl, fun x hx => ?_, fun x => ?_⟩
  · simp only [pushBack, update_apply]
  · simp only [pushBack, update_apply]

private theorem blockView_epSkipNext (queue : TcbQueue) :
    ∃ n : Word → Word, blockView a (epSkipNext s queue t).1 =
        (blockView a s).relink ⟨n, (blockView a s).links.prev⟩ ∧
      (∀ x, x ≠ 0 → n x = (skip (blockView a s).links t).next x) ∧
      n t = (blockView a s).links.next t ∧
      (epSkipNext s queue t).2 = ⟨if (blockView a s).links.prev t = 0 then
        (blockView a s).links.next t else queue.head, queue.tail⟩ := by
  unfold epSkipNext
  by_cases hp : (s.tcbs t).tcbEPPrev = 0
  · have hp' : (blockView a s).links.prev t = 0 := hp
    rw [if_neg (by simpa using hp), if_pos hp']
    refine ⟨(blockView a s).links.next, rfl, fun x hx => ?_, rfl, rfl⟩
    simp only [skip, hp', if_neg hx]
  have hp' : (blockView a s).links.prev t ≠ 0 := hp
  rw [if_pos hp, if_neg hp', blockView_setEPNext]
  refine ⟨_, rfl, fun x _ => ?_, ?_, rfl⟩
  · rw [update_apply]
    rfl
  · rw [update_apply]
    split <;> rfl

private theorem blockView_epSkipPrev (queue : TcbQueue) :
    ∃ p : Word → Word, blockView a (epSkipPrev s queue t).1 =
        (blockView a s).relink ⟨(blockView a s).links.next, p⟩ ∧
      (∀ x, x ≠ 0 → p x = (skip (blockView a s).links t).prev x) ∧
      (epSkipPrev s queue t).2 = ⟨queue.head, if (blockView a s).links.next t = 0 then
        (blockView a s).links.prev t else queue.tail⟩ := by
  unfold epSkipPrev
  by_cases hn : (s.tcbs t).tcbEPNext = 0
  · have hn' : (blockView a s).links.next t = 0 := hn
    rw [if_neg (by simpa using hn), if_pos hn']
    refine ⟨(blockView a s).links.prev, rfl, fun x hx => ?_, rfl⟩
    simp only [skip, hn', if_neg hx]
  have hn' : (blockView a s).links.next t ≠ 0 := hn
  rw [if_pos hn, if_neg hn', blockView_setEPPrev]
  refine ⟨_, rfl, fun x _ => ?_, rfl⟩
  rw [update_apply]
  rfl

/-- `ep_dequeue` makes the neighbours, or the ends, skip the thread. -/
theorem blockView_epDequeue (queue : TcbQueue) :
    ∃ L : Links Word, blockView a (epDequeue s queue t).1 = (blockView a s).relink L ∧
      (∀ x, x ≠ 0 → L.next x = (skip (blockView a s).links t).next x) ∧
      (∀ x, x ≠ 0 → L.prev x = (skip (blockView a s).links t).prev x) ∧
      (epDequeue s queue t).2 =
        ⟨if (blockView a s).links.prev t = 0 then (blockView a s).links.next t else queue.head,
          if (blockView a s).links.next t = 0 then (blockView a s).links.prev t
          else queue.tail⟩ := by
  obtain ⟨n, hview, hnext, hself, hends⟩ := blockView_epSkipNext queue
  obtain ⟨p, hview', hprev, hends'⟩ := blockView_epSkipPrev
    (s := (epSkipNext s queue t).1) (epSkipNext s queue t).2
  rw [hview] at hview' hprev hends'
  simp only [relink_links, relink_relink] at hview' hprev hends'
  refine ⟨⟨n, p⟩, hview', hnext, fun x hx => (hprev x hx).trans ?_, ?_⟩
  · simp only [skip, hself]
  · simp only [hself, hends] at hends'
    simp only [epDequeue, hends, hends']

/-! ## Words of the objects -/

/-- What the queue fields of an object can hold: zero, or the address of a TCB. -/
def QueueEnd (a : Arch) (w : Word) : Prop := w = 0 ∨ (pptrBase a ≤ w ∧ w.toNat % 4 = 0)

theorem QueueEnd.canonical {n : Nat} {f : Field n} {w : Word} (h : QueueEnd a w)
    (hs : f.signExt = true) (hshift : f.shift ≤ 2)
    (hbits : f.shift + f.bits = (signExt a).bit + 1) : f.Canonical (signExt a) w := by
  rcases h with rfl | ⟨hw, hmod⟩
  · simp [Field.Canonical, Field.raw, Field.extend]
  · refine canonical_of_window hs hbits hw ?_
    have hdvd : 2 ^ f.shift ∣ 4 := pow_dvd_pow 2 hshift
    exact Nat.mod_eq_zero_of_dvd (hdvd.trans (Nat.dvd_of_mod_eq_zero hmod))

/-- A write to the words of an endpoint shows in its queue and its state. -/
theorem blockView_setEndpoint (ep : Word) (w : Words 2) :
    blockView a (setEndpoint s ep w) = ((blockView a s).setQueue (.endpoint ep)
      ⟨Field.epQueueHead.get (signExt a) w, (Field.epQueueTail a).get (signExt a) w⟩).setMode
      (.endpoint ep) (EPState.ofWord (Field.epState.stored w)).mode := by
  refine ext rfl rfl rfl (funext fun i => ?_) (funext fun i => ?_)
  all_goals
    cases i with
    | notification p => rfl
    | endpoint p =>
      by_cases hp : p = ep <;>
        simp [blockView, BlockView.setMode, BlockView.setQueue, getEpQueue, getEpState,
          setEndpoint, hp]

theorem blockView_setEpState (ep : Word) (st : EPState) :
    blockView a (setEpState s ep st) = (blockView a s).setMode (.endpoint ep) st.mode := by
  have hst : EPState.ofWord (Field.epState.stored
      (Field.epState.set (s.endpoints ep) st.toWord)) = st := by
    rw [stored_set_self (by decide)]
    cases st <;> decide
  rw [setEpState, blockView_setEndpoint, hst, get_set_of_disjoint (by decide),
    get_set_of_disjoint (by cases a <;> decide)]
  exact ext rfl rfl rfl (update_eq_self ..) rfl

theorem blockView_setEpQueue (ep : Word) (h : QueueEnd a queue.tail) :
    blockView a (setEpQueue a s ep queue) = (blockView a s).setQueue (.endpoint ep) queue := by
  have htail : (Field.epQueueTail a).Canonical (signExt a) queue.tail := by
    cases a <;> exact h.canonical rfl (by decide) rfl
  rw [setEpQueue, blockView_setEndpoint, get_set_self (by cases a <;> decide) htail,
    get_set_of_disjoint (by cases a <;> decide),
    get_set_self (by decide) (canonical_of_full rfl rfl rfl),
    stored_set_of_disjoint (by cases a <;> decide), stored_set_of_disjoint (by decide)]
  exact ext rfl rfl rfl rfl (update_eq_self ..)

theorem blockView_resetEndpoint (ep : Word) :
    blockView a (setEpQueue a (setEpState s ep .idle) ep ⟨0, 0⟩) =
      ((blockView a s).setMode (.endpoint ep) none).setQueue (.endpoint ep) ⟨0, 0⟩ := by
  rw [blockView_setEpQueue _ (.inl rfl), blockView_setEpState]
  rfl

/-- A write to the words of a notification shows in its queue and its state. -/
theorem blockView_setNotification_eq (ntfn : Word) (w : Words 4) :
    blockView a (setNotification s ntfn w) = ((blockView a s).setQueue (.notification ntfn)
      ⟨(Field.ntfnQueueHead a).get (signExt a) w,
        (Field.ntfnQueueTail a).get (signExt a) w⟩).setMode
      (.notification ntfn) (NtfnState.ofWord (Field.ntfnState.stored w)).mode := by
  refine ext rfl rfl rfl (funext fun i => ?_) (funext fun i => ?_)
  all_goals
    cases i with
    | endpoint p => rfl
    | notification p =>
      by_cases hp : p = ntfn <;>
        simp [blockView, BlockView.setMode, BlockView.setQueue, getNtfnQueue, getNtfnState,
          setNotification, hp]

theorem blockView_setNtfnState (ntfn : Word) (st : NtfnState) :
    blockView a (setNtfnState s ntfn st) =
      (blockView a s).setMode (.notification ntfn) st.mode := by
  have hst : NtfnState.ofWord (Field.ntfnState.stored
      (Field.ntfnState.set (s.notifications ntfn) st.toWord)) = st := by
    rw [stored_set_self (by decide)]
    cases st <;> decide
  rw [setNtfnState, blockView_setNotification_eq, hst, get_set_of_disjoint (by cases a <;> decide),
    get_set_of_disjoint (by cases a <;> decide)]
  exact ext rfl rfl rfl (update_eq_self ..) rfl

theorem blockView_setNtfnQueue (ntfn : Word) (hh : QueueEnd a queue.head)
    (ht : QueueEnd a queue.tail) : blockView a (setNtfnQueue a s ntfn queue) =
      (blockView a s).setQueue (.notification ntfn) queue := by
  have htail : (Field.ntfnQueueTail a).Canonical (signExt a) queue.tail := by
    cases a <;> exact ht.canonical rfl (by decide) rfl
  have hhead : (Field.ntfnQueueHead a).Canonical (signExt a) queue.head := by
    cases a <;> exact hh.canonical rfl (by decide) rfl
  rw [setNtfnQueue, blockView_setNotification_eq, get_set_self (by cases a <;> decide) htail,
    get_set_of_disjoint (by cases a <;> decide), get_set_self (by cases a <;> decide) hhead,
    stored_set_of_disjoint (by cases a <;> decide), stored_set_of_disjoint (by cases a <;> decide)]
  exact ext rfl rfl rfl rfl (update_eq_self ..)

/-- The fields of a notification that have nothing to do with its queue. -/
theorem blockView_setNotification (hh : (Field.ntfnQueueHead a).Disjoint f)
    (ht : (Field.ntfnQueueTail a).Disjoint f) (hs : Field.ntfnState.Disjoint f) (ntfn w : Word) :
    blockView a (setNotification s ntfn (f.set (s.notifications ntfn) w)) = blockView a s := by
  rw [blockView_setNotification_eq, get_set_of_disjoint hh, get_set_of_disjoint ht,
    stored_set_of_disjoint hs]
  exact ext rfl rfl rfl (update_eq_self ..) (update_eq_self ..)

theorem blockView_setBoundTcb (ntfn w : Word) :
    blockView a (setBoundTcb a s ntfn w) = blockView a s :=
  blockView_setNotification (by cases a <;> decide) (by cases a <;> decide)
    (by cases a <;> decide) ntfn w

theorem blockView_setMsgIdentifier (ntfn w : Word) :
    blockView a (setMsgIdentifier s ntfn w) = blockView a s :=
  blockView_setNotification (by cases a <;> decide) (by cases a <;> decide) (by decide) ntfn w

/-! ## States of the objects -/

section Objects

variable {P : Population a} {q : Wait → List Word} {ep ntfn : Word}

theorem BlockInv.mode_ne_undefined (h : BlockInv P v q) (hi : P.object i) :
    v.mode i ≠ some .undefined := by
  intro hmode
  rcases h.mode_cases hi with hm | ⟨st, hm, hst⟩
  · rw [hmode] at hm
    cases hm
  · rw [hmode] at hm
    cases hm
    cases hst

theorem BlockInv.epState_ne_undefined (h : BlockInv P (blockView a s) q)
    (hi : P.object (.endpoint ep)) : getEpState s ep ≠ .undefined :=
  fun hu => h.mode_ne_undefined hi (congrArg EPState.mode hu)

theorem BlockInv.ntfnState_ne_undefined (h : BlockInv P (blockView a s) q)
    (hi : P.object (.notification ntfn)) : getNtfnState s ntfn ≠ .undefined :=
  fun hu => h.mode_ne_undefined hi (congrArg NtfnState.mode hu)

end Objects

/-! ## Joining and leaving -/

section Threads

variable {P : Population a} {q : Wait → List Word} {i : Wait} {ep ntfn : Word}

theorem Population.queueEnd (ht : P.thread t) : QueueEnd a t :=
  .inr ⟨P.thread_window ht, Population.toNat_mod_four ht⟩

theorem Population.canonical_object (hi : P.object i) (hp : i.addr = p) :
    (Field.tsBlockingObject a).Canonical (signExt a) p := by
  subst hp
  have hw := P.object_window hi
  have hm := P.object_aligned hi
  cases a <;> exact canonical_of_window rfl rfl hw hm

theorem queueEnd_headD (hl : ∀ x ∈ l, P.thread x) : QueueEnd a (l.headD 0) := by
  cases l with
  | nil => exact .inl rfl
  | cons x l => exact Population.queueEnd (hl x List.mem_cons_self)

theorem queueEnd_getLastD (hl : ∀ x ∈ l, P.thread x) : QueueEnd a (l.getLastD 0) := by
  cases l with
  | nil => exact .inl rfl
  | cons x l =>
    rw [List.getLastD_cons, List.getLastD_eq_getLast?]
    rcases hlast : l.getLast? with - | y
    · exact Population.queueEnd (hl x List.mem_cons_self)
    · exact Population.queueEnd (hl y (List.mem_cons_of_mem _ (List.mem_of_getLast? hlast)))

theorem BlockInv.tail_eq_zero (h : BlockInv P v q) (hi : P.object i) (hhead : (v.queue i).head = 0) : (v.queue i).tail = 0 := by
  rw [h.ends hi, (h.head_eq_zero_iff hi).mp hhead]
  rfl

/-- The end of `send_ipc` and `receive_ipc` for a thread that has to wait. -/
theorem BlockInv.epEnqueue (h : BlockInv P (blockView a s) q) (ht : P.thread t)
    (hfree : (blockView a s).place t = none) (hi : P.object (.endpoint ep))
    (hmode : (getEpState s ep).mode = none ∨ (getEpState s ep).mode = some st)
    (hst : waitingIn st ep = some (.endpoint ep)) (hstate : state.mode = some st)
    (hs : blockView a s₁ = ((blockView a s).setObject t ep).setState t st) :
    BlockInv P (blockView a (Ipc.epEnqueue a s₁ ep t state))
      (update q (.endpoint ep) (q (.endpoint ep) ++ [t])) := by
  have hqueue : getEpQueue a s₁ ep = getEpQueue a s ep :=
    congrArg (fun v => v.queue (.endpoint ep)) hs
  have hzero : (getEpQueue a s ep).head = 0 → (getEpQueue a s ep).tail = 0 := h.tail_eq_zero hi
  obtain ⟨L, hview, hnext, hprev⟩ := blockView_epAppend hzero
  have hblocks : Blocks (blockView a s) _ t (.endpoint ep) st := Blocks.of_view
    (by rw [hs] at hnext; exact hnext) (by rw [hs] at hprev; exact hprev)
  refine h.block ht hfree hi hmode hst ?_
  unfold Ipc.epEnqueue
  rw [hqueue, blockView_setEpQueue _ (Population.queueEnd ht), blockView_setEpState, hview, hs,
    hstate]
  exact hblocks

/-- A thread waits for a signal: the blocking case of `receive_signal`. -/
def awaitSignal (a : Arch) (s : KernelState) (ntfn t : Word) : KernelState :=
  let s := s.tsSet t (Field.tsBlockingObject a) ntfn
  let s := s.setThreadState a t .blockedOnNotification
  let (s, queue) := epAppend s (getNtfnQueue a s ntfn) t
  setNtfnQueue a (setNtfnState s ntfn .waiting) ntfn queue

theorem BlockInv.awaitSignal (h : BlockInv P (blockView a s) q) (ht : P.thread t)
    (hfree : (blockView a s).place t = none) (hi : P.object (.notification ntfn))
    (hmode : (getNtfnState s ntfn).mode = none ∨
      (getNtfnState s ntfn).mode = some .blockedOnNotification) :
    BlockInv P (blockView a (Ipc.awaitSignal a s ntfn t))
      (update q (.notification ntfn) (q (.notification ntfn) ++ [t])) := by
  have hcanonical : (Field.tsBlockingObject a).Canonical (signExt a) ntfn :=
    Population.canonical_object hi rfl
  unfold Ipc.awaitSignal
  simp only
  have hs : blockView a ((s.tsSet t (Field.tsBlockingObject a) ntfn).setThreadState a t
      .blockedOnNotification) =
      ((blockView a s).setObject t ntfn).setState t .blockedOnNotification := by
    rw [blockView_setThreadState, blockView_tsSet_object hcanonical]
  generalize (s.tsSet t (Field.tsBlockingObject a) ntfn).setThreadState a t
    .blockedOnNotification = s₁ at hs ⊢
  have hqueue : getNtfnQueue a s₁ ntfn = getNtfnQueue a s ntfn :=
    congrArg (fun v => v.queue (.notification ntfn)) hs
  have hzero : (getNtfnQueue a s ntfn).head = 0 → (getNtfnQueue a s ntfn).tail = 0 :=
    h.tail_eq_zero hi
  have hhead : QueueEnd a (epAppend s₁ (getNtfnQueue a s ntfn) t).2.head := by
    unfold epAppend
    split
    · exact Population.queueEnd ht
    · have hl : ∀ x ∈ q (.notification ntfn), P.thread x := fun x hx => h.thread_of_mem hx
      exact (congrArg (QueueEnd a ·.head) (h.ends hi)).mpr (queueEnd_headD hl)
  obtain ⟨L, hview, hnext, hprev⟩ := blockView_epAppend hzero
  have hblocks : Blocks (blockView a s) _ t (.notification ntfn) .blockedOnNotification :=
    Blocks.of_view (by rw [hs] at hnext; exact hnext) (by rw [hs] at hprev; exact hprev)
  refine h.block ht hfree hi hmode rfl ?_
  rw [hqueue, blockView_setNtfnQueue _ hhead (Population.queueEnd ht), blockView_setNtfnState, hview,
    hs]
  exact hblocks

/-- A thread is taken out of the queue of an endpoint. -/
def epRemove (a : Arch) (s : KernelState) (ep t : Word) : KernelState :=
  let (s, queue) := epDequeue s (getEpQueue a s ep) t
  let s := setEpQueue a s ep queue
  if queue.head = 0 then setEpState s ep .idle else s

/-- A thread is taken out of the queue of a notification. -/
def ntfnRemove (a : Arch) (s : KernelState) (ntfn t : Word) : KernelState :=
  let (s, queue) := epDequeue s (getNtfnQueue a s ntfn) t
  let s := setNtfnQueue a s ntfn queue
  if queue.head = 0 then setNtfnState s ntfn .idle else s

theorem BlockInv.queueEnd_erase (h : BlockInv P v q) (ht : t ∈ q i)
    (hq : queue = ⟨if v.links.prev t = 0 then v.links.next t else (v.queue i).head,
      if v.links.next t = 0 then v.links.prev t else (v.queue i).tail⟩) :
    QueueEnd a queue.head ∧ QueueEnd a queue.tail := by
  have hl : ∀ x ∈ (q i).erase t, P.thread x := fun x hx =>
    h.thread_of_mem (List.mem_of_mem_erase hx)
  rw [hq, h.ends_erase ht]
  exact ⟨queueEnd_headD hl, queueEnd_getLastD hl⟩

theorem BlockInv.unlinks_epRemove (h : BlockInv P (blockView a s) q) (ht : t ∈ q (.endpoint ep)) :
    Unlinks (blockView a s) (blockView a (epRemove a s ep t)) t (.endpoint ep) := by
  obtain ⟨L, hview, hnext, hprev, hends⟩ := blockView_epDequeue (getEpQueue a s ep)
  have htail := (h.queueEnd_erase ht hends).2
  refine .of_view hnext hprev hends ?_
  unfold epRemove
  simp only
  split
  · rw [blockView_setEpState, blockView_setEpQueue _ htail, hview]
    rfl
  · rw [blockView_setEpQueue _ htail, hview]

/-- Who takes the head of a queue that is in order does not panic. -/
theorem BlockInv.epDequeueHead_eq (h : BlockInv P (blockView a s) q) (hi : P.object (.endpoint ep))
    (hq : q (.endpoint ep) = t :: l) : epDequeueHead a s ep = .ok (epRemove a s ep t, t) := by
  have hends : getEpQueue a s ep = ⟨(q (.endpoint ep)).headD 0, (q (.endpoint ep)).getLastD 0⟩ :=
    h.ends hi
  have hhead : (getEpQueue a s ep).head = t := by
    rw [hends, hq]
    rfl
  have ht : t ≠ 0 := by
    rintro rfl
    exact h.null_not_mem (i := .endpoint ep) (by simp [hq])
  unfold epDequeueHead epRemove
  simp only [hhead, ensure, if_pos ht]
  rfl

theorem BlockInv.unlinks_ntfnRemove (h : BlockInv P (blockView a s) q)
    (ht : t ∈ q (.notification ntfn)) :
    Unlinks (blockView a s) (blockView a (ntfnRemove a s ntfn t)) t (.notification ntfn) := by
  obtain ⟨L, hview, hnext, hprev, hends⟩ := blockView_epDequeue (getNtfnQueue a s ntfn)
  obtain ⟨hhead, htail⟩ := h.queueEnd_erase ht hends
  refine .of_view hnext hprev hends ?_
  unfold ntfnRemove
  simp only
  split
  · rw [blockView_setNtfnState, blockView_setNtfnQueue _ hhead htail, hview]
    rfl
  · rw [blockView_setNtfnQueue _ hhead htail, hview]

end Threads

/-! ## What IPC does -/

section Ipc

variable {ep ntfn badge : Word}

theorem ipcEq_epEnqueue (state : EPState) : IpcEq (epEnqueue a s ep t state) s :=
  (ipcEq_setEndpoint _ _).trans ((ipcEq_setEndpoint _ _).trans (relinks_epAppend _).ipcEq)

theorem ipcEq_epRemove : IpcEq (epRemove a s ep t) s := by
  have hqueue : IpcEq (setEpQueue a (epDequeue s (getEpQueue a s ep) t).1 ep
      (epDequeue s (getEpQueue a s ep) t).2) s := (ipcEq_setEndpoint _ _).trans (relinks_epDequeue _).ipcEq
  unfold epRemove
  simp only
  split
  · exact (ipcEq_setEndpoint _ _).trans hqueue
  · exact hqueue

theorem ipcEq_ntfnRemove : IpcEq (ntfnRemove a s ntfn t) s := by
  have hqueue : IpcEq (setNtfnQueue a (epDequeue s (getNtfnQueue a s ntfn) t).1 ntfn
      (epDequeue s (getNtfnQueue a s ntfn) t).2) s :=
    (ipcEq_setNtfnQueue _ _).trans (relinks_epDequeue _).ipcEq
  unfold ntfnRemove
  simp only
  split
  · exact (ipcEq_setNtfnState _ _).trans hqueue
  · exact hqueue

theorem ipcEq_tsSet (f : Field 3) (w : Word) : IpcEq (s.tsSet t f w) s := ipcEq_modifyTcb rfl

theorem ipcEq_awaitSignal : IpcEq (awaitSignal a s ntfn t) s :=
  (ipcEq_setNtfnQueue _ _).trans <| (ipcEq_setNtfnState _ _).trans <| (relinks_epAppend _).ipcEq.trans <|
    (ipcEq_setThreadState _).trans (ipcEq_tsSet _ _)

theorem ipcEq_blockOnSend : IpcEq (blockOnSend a s ep t doCall canGrant badge canGrantReply) s :=
  (ipcEq_of_schedEq schedEq_scheduleTcb).trans <| (ipcEq_tsSet _ _).trans <|
    (ipcEq_tsSet _ _).trans <| (ipcEq_tsSet _ _).trans <| (ipcEq_tsSet _ _).trans <|
    (ipcEq_tsSet _ _).trans (ipcEq_tsSet _ _)

theorem blockView_blockOnSend (hep : (Field.tsBlockingObject a).Canonical (signExt a) ep) :
    blockView a (blockOnSend a s ep t doCall canGrant badge canGrantReply) =
      ((blockView a s).setObject t ep).setState t .blockedOnSend := by
  have hdisj : ∀ f ∈ [Field.tsBlockingIpcCanGrant, Field.tsBlockingIpcBadge,
      Field.tsBlockingIpcCanGrantReply, Field.tsBlockingIpcIsCall],
      Field.tsType.Disjoint f ∧ (Field.tsBlockingObject a).Disjoint f := by
    cases a <;> decide
  unfold blockOnSend
  rw [blockView_of_schedEq schedEq_scheduleTcb,
    blockView_tsSet (hdisj _ (by simp)).1 (hdisj _ (by simp)).2,
    blockView_tsSet (hdisj _ (by simp)).1 (hdisj _ (by simp)).2,
    blockView_tsSet (hdisj _ (by simp)).1 (hdisj _ (by simp)).2,
    blockView_tsSet (hdisj _ (by simp)).1 (hdisj _ (by simp)).2,
    blockView_tsSet_object hep, blockView_tsSet_type]
  rfl

theorem ipcEq_blockOnReceive : IpcEq (blockOnReceive a s ep t grant) s :=
  (ipcEq_setThreadState _).trans ((ipcEq_tsSet _ _).trans (ipcEq_tsSet _ _))

theorem blockView_blockOnReceive (hep : (Field.tsBlockingObject a).Canonical (signExt a) ep) :
    blockView a (blockOnReceive a s ep t grant) =
      ((blockView a s).setObject t ep).setState t .blockedOnReceive := by
  have hdisj : (Field.tsBlockingObject a).Disjoint Field.tsBlockingIpcCanGrant := by
    cases a <;> decide
  unfold blockOnReceive
  rw [blockView_setThreadState, blockView_tsSet (by decide) hdisj, blockView_tsSet_object hep]

/-- A thread is made to run after a message or a signal. -/
theorem blockView_wake (st : ThreadState) :
    blockView a ((s.setThreadState a t st).possibleSwitchTo a t) = (blockView a s).setState t st := by
  rw [blockView_of_schedEq schedEq_possibleSwitchTo, blockView_setThreadState]

theorem blockView_wakeWithBadge :
    blockView a (wakeWithBadge a s t badge) = (blockView a s).setState t .running := by
  unfold wakeWithBadge
  rw [blockView_of_schedEq schedEq_possibleSwitchTo, blockView_setRegister, blockView_setThreadState]

/-- The receiver gets a reply cap to the caller, who waits for the reply, or the caller stops. -/
theorem awaitReply_cases (h : awaitReply a s receiver caller canReply grant = .ok s') :
    (∃ slot dest, (s.setThreadState a caller .blockedOnReply).insertCap a
        (newReplyCap (flag grant) 0 caller) slot dest = .ok s') ∨
      s' = s.setThreadState a caller .inactive := by
  unfold awaitReply at h
  split at h
  · obtain ⟨-, -, h⟩ := bind_eq_ok.mp h
    obtain ⟨-, -, h⟩ := bind_eq_ok.mp h
    obtain ⟨-, -, h⟩ := bind_eq_ok.mp h
    obtain ⟨-, -, h⟩ := bind_eq_ok.mp h
    obtain ⟨-, -, h⟩ := bind_eq_ok.mp h
    exact .inl ⟨_, _, h⟩
  · exact .inr (Except.ok.inj h).symm

theorem blockView_awaitReply (h : awaitReply a s receiver caller canReply grant = .ok s') :
    ∃ st, Free st ∧ blockView a s' = (blockView a s).setState caller st := by
  rcases awaitReply_cases h with ⟨_, _, h⟩ | rfl
  · refine ⟨.blockedOnReply, fun _ => rfl, ?_⟩
    rw [blockView_of_messageEq (messageEq_insertCap h), blockView_setThreadState]
  · exact ⟨.inactive, fun _ => rfl, blockView_setThreadState _⟩

/-- `complete_signal` leaves the queues alone. -/
theorem blockView_completeSignal : blockView a (completeSignal a s t).1 = blockView a s := by
  unfold completeSignal
  simp only
  split
  next hactive =>
    have hmode : (blockView a s).mode (.notification (s.tcbs t).tcbBoundNotification) = none :=
      congrArg NtfnState.mode hactive.2
    rw [blockView_setNtfnState, blockView_setRegister]
    exact setMode_self hmode
  · rfl

end Ipc

/-! ## The loops -/

section Loops

variable {P : Population a} {q : Wait → List Word} {i : Wait} {ep ntfn : Word}

theorem blockView_restart : blockView a ((s.setThreadState a t .restart).schedEnqueue a t) =
    (blockView a s).setState t .restart := by
  rw [blockView_of_schedEq schedEq_schedEnqueue, blockView_setThreadState]

/-- The loop over the rest `v` of a queue restarts the threads in it. -/
theorem restartThreads_queue {v : List Word} (h : IsQueue 0 (blockView a s).links (u ++ v))
    (hfuel : v.length < fuel) :
    ∃ s', restartThreads a fuel s (v.headD 0) = .ok s' ∧
      blockView a s' = (blockView a s).setStates v .restart := by
  induction fuel generalizing s u v with
  | zero => omega
  | succ fuel ih =>
    cases v with
    | nil => exact ⟨s, rfl, by simp [BlockView.setStates]⟩
    | cons x v =>
      have hx : x ∈ u ++ x :: v := by simp
      have hxu : x ∉ u := fun hu => (List.nodup_append.mp h.nodup).2.2 x hu x (by simp) rfl
      have hnext : (blockView a s).links.next x = v.headD 0 := by
        rw [h.next_eq x hx, succIn_append_cons hxu]
      have hview := blockView_restart (a := a) (s := s) (t := x)
      have hnext' : (((s.setThreadState a x .restart).schedEnqueue a x).tcbs x).tcbEPNext =
          v.headD 0 := (congrArg (fun w => w.links.next x) hview).trans hnext
      have hrest : IsQueue 0 (blockView a ((s.setThreadState a x .restart).schedEnqueue a x)).links
          ((u ++ [x]) ++ v) := by
        rw [hview, List.append_assoc]
        exact h
      obtain ⟨s', hs, hview'⟩ := ih hrest (by simpa using hfuel)
      refine ⟨s', ?_, ?_⟩
      · rw [restartThreads, List.headD_cons, if_neg (h.ne_null hx)]
        simp only
        rw [hnext']
        exact hs
      · rw [hview', hview, BlockView.setStates_setState]

/-- There are fewer threads in a queue than addresses. -/
theorem length_lt_maxThreads (hl : l.Nodup) (h0 : (0 : Word) ∉ l) : l.length < maxThreads := by
  have hnodup : ((0 : Word) :: l).Nodup := List.nodup_cons.mpr ⟨h0, hl⟩
  have hmap := hnodup.map (fun _ _ e => BitVec.eq_of_toNat_eq e : Injective BitVec.toNat)
  have hsub : ((0 : Word) :: l).map BitVec.toNat ⊆ List.range (2 ^ 64) := by
    intro n hn
    obtain ⟨w, -, rfl⟩ := List.mem_map.mp hn
    exact List.mem_range.mpr w.isLt
  have hle := (List.subperm_of_subset hmap hsub).length_le
  rw [List.length_map, List.length_cons, List.length_range] at hle
  exact hle

theorem BlockInv.mem_iff (h : BlockInv P v q) (hx : P.thread x) :
    x ∈ q i ↔ v.place x = some i := h.waiting.mem.trans (and_iff_right hx)

/-- The common end of `cancel_all_ipc` and `cacncel_all_signal`, once the object
has been made idle. -/
theorem BlockInv.restartAll (h : BlockInv P (blockView a s) q) (hi : P.object i)
    (hs : blockView a s₁ = ((blockView a s).setMode i none).setQueue i ⟨0, 0⟩) :
    ∃ s₂, restartThreads a maxThreads s₁ ((blockView a s).queue i).head = .ok s₂ ∧
      Clears (blockView a s) (blockView a (s₂.rescheduleRequired a)) P.thread i .restart := by
  have hqueue := h.waiting.links.queue i
  have hlinks : IsQueue 0 (blockView a s₁).links ([] ++ q i) := by
    rw [hs]
    exact hqueue
  obtain ⟨s₂, hs₂, hview⟩ := restartThreads_queue hlinks
    (length_lt_maxThreads hqueue.nodup hqueue.null_not_mem)
  refine ⟨s₂, ?_, ?_⟩
  · rw [h.ends hi]
    exact hs₂
  · rw [blockView_of_schedEq schedEq_rescheduleRequired, hview, hs]
    exact .of_view fun x hx => h.mem_iff hx

/-- Nothing waits at an object that is idle. -/
theorem BlockInv.clears_idle (h : BlockInv P v q) (hi : P.object i) (hidle : v.mode i = none) :
    Clears v v P.thread i st := by
  have hempty := (h.idle hi).mp hidle
  refine ⟨rfl, fun x hx => ?_, rfl, ?_, ?_⟩
  · have hx := (h.mem_iff (i := i) hx).not
    rw [hempty] at hx
    rw [if_neg (hx.mp List.not_mem_nil)]
  · have hends := h.ends hi
    rw [hempty] at hends
    rw [show (⟨0, 0⟩ : TcbQueue) = v.queue i from hends.symm, update_eq_self]
  · rw [← hidle, update_eq_self]

/-- `cancel_all_ipc` restarts the threads that wait at the endpoint. -/
theorem BlockInv.cancelAllIpc (h : BlockInv P (blockView a s) q) (hi : P.object (.endpoint ep)) :
    ∃ s', Ipc.cancelAllIpc a s ep = .ok s' ∧
      Clears (blockView a s) (blockView a s') P.thread (.endpoint ep) .restart := by
  by_cases hidle : getEpState s ep = .idle
  · refine ⟨s, by rw [Ipc.cancelAllIpc, hidle], h.clears_idle hi ?_⟩
    show (getEpState s ep).mode = none
    rw [hidle]
    rfl
  obtain ⟨s₂, hs₂, hclears⟩ := h.restartAll hi (blockView_resetEndpoint ep)
  refine ⟨s₂.rescheduleRequired a, ?_, hclears⟩
  unfold Ipc.cancelAllIpc
  split
  next he => exact absurd he hidle
  · exact bind_eq_ok.mpr ⟨s₂, hs₂, rfl⟩

/-- `cacncel_all_signal` restarts the threads that wait at the notification. -/
theorem BlockInv.cancelAllSignal (h : BlockInv P (blockView a s) q)
    (hi : P.object (.notification ntfn)) :
    ∃ s', Ipc.cancelAllSignal a s ntfn = .ok s' ∧
      Clears (blockView a s) (blockView a s') P.thread (.notification ntfn) .restart := by
  unfold Ipc.cancelAllSignal
  split
  · have hview : blockView a (setNtfnQueue a (setNtfnState s ntfn .idle) ntfn ⟨0, 0⟩) =
        ((blockView a s).setMode (.notification ntfn) none).setQueue (.notification ntfn)
          ⟨0, 0⟩ := by
      rw [blockView_setNtfnQueue _ (.inl rfl) (.inl rfl), blockView_setNtfnState]
      rfl
    obtain ⟨s₂, hs₂, hclears⟩ := h.restartAll hi hview
    exact ⟨s₂.rescheduleRequired a, bind_eq_ok.mpr ⟨s₂, hs₂, rfl⟩, hclears⟩
  next hwaiting =>
    refine ⟨s, rfl, h.clears_idle hi ?_⟩
    show (getNtfnState s ntfn).mode = none
    have hdefined := h.ntfnState_ne_undefined hi
    cases hst : getNtfnState s ntfn with
    | idle => rfl
    | active => rfl
    | waiting => exact absurd hst hwaiting
    | undefined => exact absurd hst hdefined

/-- The view in the loop of `cancel_badged_sends`, which keeps the queue of the
endpoint in a variable and writes it back at the end. -/
def sendView (a : Arch) (s : KernelState) (ep : Word) (queue : TcbQueue) : BlockView :=
  ((blockView a s).setQueue (.endpoint ep) queue).setMode (.endpoint ep)
    (if queue.head = 0 then none else some .blockedOnSend)

/-- A thread of the queue that is restarted in the loop. -/
theorem BlockInv.sendView_dequeue (h : BlockInv P (sendView a s ep queue) q)
    (hi : P.object (.endpoint ep)) (ht : t ∈ q (.endpoint ep))
    (hr : epDequeue ((s.setThreadState a t .restart).schedEnqueue a t) queue t = r) :
    BlockInv P (sendView a r.1 ep r.2)
        (update q (.endpoint ep) ((q (.endpoint ep)).erase t)) ∧
      (blockView a r.1).mode = (blockView a s).mode := by
  have hhead : queue.head ≠ 0 := by
    have hiff := h.head_eq_zero_iff hi
    simp only [sendView, BlockView.setMode, BlockView.setQueue, update_self] at hiff
    intro he
    rw [hiff.mp he] at ht
    cases ht
  obtain ⟨L, hview, hnext, hprev, hends⟩ := blockView_epDequeue
    (s := (s.setThreadState a t .restart).schedEnqueue a t) queue
  rw [hr, blockView_restart] at hview
  rw [blockView_restart] at hnext hprev hends
  rw [hr] at hends
  have hqueue : ((sendView a s ep queue).queue (.endpoint ep)) = queue := by
    simp only [sendView, BlockView.setMode, BlockView.setQueue, update_self]
  have hunlinks : Unlinks (sendView a s ep queue)
      (if r.2.head = 0 then (((sendView a s ep queue).relink L).setQueue (.endpoint ep) r.2).setMode
        (.endpoint ep) none
      else ((sendView a s ep queue).relink L).setQueue (.endpoint ep) r.2) t (.endpoint ep) :=
    .of_view hnext hprev (by rw [hqueue]; exact hends) rfl
  have hinv := h.unblock ht hunlinks (show Free .restart from fun _ => rfl)
  refine ⟨?_, by rw [hview]; rfl⟩
  convert hinv using 1
  unfold sendView
  rw [hview, if_neg hhead]
  split
  all_goals
    refine ext rfl rfl rfl ?_ ?_
    · simp only [BlockView.setMode, BlockView.setQueue, BlockView.setState, BlockView.relink,
        update_idem]
    · simp only [BlockView.setMode, BlockView.setQueue, BlockView.setState, BlockView.relink,
        update_idem]

/-- A turn of the loop for a thread with the badge. -/
def restartSender (a : Arch) (r : KernelState × TcbQueue) (t : Word) : KernelState × TcbQueue :=
  epDequeue ((r.1.setThreadState a t .restart).schedEnqueue a t) r.2 t

def HasBadge (a : Arch) (s : KernelState) (badge t : Word) : Prop :=
  s.tsGet a t Field.tsBlockingIpcBadge = badge

instance (badge t : Word) : Decidable (HasBadge a s badge t) :=
  inferInstanceAs (Decidable (_ = _))

/-- The badges of the others are as they were, and so is that of the thread. -/
theorem hasBadge_restartSender (x : Word) :
    HasBadge a (restartSender a r t).1 badge x ↔ HasBadge a r.1 badge x := by
  have hdisj : Field.tsBlockingIpcBadge.Disjoint Field.tsTcbQueued := by decide
  have hset : (r.1.tsSet t Field.tsType ThreadState.restart.toWord).tsGet a x
      Field.tsBlockingIpcBadge = r.1.tsGet a x Field.tsBlockingIpcBadge := by
    unfold tsGet tsSet
    rw [tcbs_modifyTcb]
    split
    next hx => rw [hx, get_set_of_disjoint (by decide)]
    · rfl
  have hend : (restartSender a r t).1.tsGet a x Field.tsBlockingIpcBadge =
      ((r.1.setThreadState a t .restart).schedEnqueue a t).tsGet a x Field.tsBlockingIpcBadge := by
    unfold tsGet restartSender
    rw [(relinks_epDequeue _).tcbState]
  unfold HasBadge
  rw [hend, schedEq_schedEnqueue.tsGet hdisj, (schedEq_setThreadState _).tsGet hdisj, hset]

/-- The loop over the rest `v` of the queue ends. It takes the threads with the badge
out of the queue, one after the other. -/
theorem BlockInv.restartBadged (badge : Word) {v : List Word}
    (h : BlockInv P (sendView a s ep queue) q) (hi : P.object (.endpoint ep))
    (hq : q (.endpoint ep) = u ++ v) (hfuel : v.length < fuel) :
    ∃ s' queue', Ipc.restartBadged a badge fuel s queue (v.headD 0) = .ok (s', queue') ∧
      (s', queue') = (v.filter (HasBadge a s badge ·)).foldl (restartSender a) (s, queue) ∧
      BlockInv P (sendView a s' ep queue') (update q (.endpoint ep)
        (u ++ v.filter (¬HasBadge a s badge ·))) ∧
      (blockView a s').mode = (blockView a s).mode := by
  induction fuel generalizing s queue q u v with
  | zero => omega
  | succ fuel ih =>
    cases v with
    | nil =>
      rw [List.append_nil] at hq
      exact ⟨s, queue, rfl, rfl, by rwa [List.filter_nil, List.append_nil, ← hq,
        update_eq_self], rfl⟩
    | cons x v =>
      have hqueue := h.waiting.links.queue (.endpoint ep)
      have hx : x ∈ q (.endpoint ep) := by simp [hq]
      rw [hq] at hqueue
      have hxu : x ∉ u := fun hu => (List.nodup_append.mp hqueue.nodup).2.2 x hu x (by simp) rfl
      have hnext : (s.tcbs x).tcbEPNext = v.headD 0 := by
        have hn := hqueue.next_eq x (by simp)
        rw [succIn_append_cons hxu] at hn
        exact hn
      have hfuel' : v.length < fuel := by simpa using hfuel
      rw [Ipc.restartBadged, List.headD_cons, if_neg (hqueue.ne_null (by simp))]
      simp only [hnext]
      change ∃ s' queue', (if HasBadge a s badge x then _ else _) = _ ∧ _
      by_cases hbadge : HasBadge a s badge x
      · -- the thread leaves the queue
        rw [if_pos hbadge, List.filter_cons_of_pos (by simpa using hbadge),
          List.filter_cons_of_neg (by simpa using hbadge), List.foldl_cons]
        obtain ⟨hinv, hmode⟩ := h.sendView_dequeue hi hx rfl
        have herase : (q (.endpoint ep)).erase x = u ++ v := by
          rw [hq, List.erase_append_right _ hxu, List.erase_cons_head]
        rw [herase] at hinv
        obtain ⟨s', queue', hloop, hfold, hinv', hmode'⟩ := ih hinv (update_self ..) hfuel'
        have hsame : ∀ y, HasBadge a (restartSender a (s, queue) x).1 badge y ↔
            HasBadge a s badge y := hasBadge_restartSender (r := (s, queue))
        change (s', queue') = (v.filter (HasBadge a (restartSender a (s, queue) x).1 badge ·)).foldl
          (restartSender a) (restartSender a (s, queue) x) at hfold
        change BlockInv P _ (update _ _
          (u ++ v.filter (¬HasBadge a (restartSender a (s, queue) x).1 badge ·))) at hinv'
        simp only [hsame] at hfold hinv'
        rw [update_idem] at hinv'
        exact ⟨s', queue', hloop, hfold, hinv', hmode'.trans hmode⟩
      · rw [if_neg hbadge, List.filter_cons_of_neg (by simpa using hbadge),
          List.filter_cons_of_pos (by simpa using hbadge)]
        have hsplit : q (.endpoint ep) = (u ++ [x]) ++ v := by rw [hq, List.append_assoc]; rfl
        obtain ⟨s', queue', hloop, hfold, hinv', hmode'⟩ := ih h hsplit hfuel'
        rw [List.append_assoc] at hinv'
        exact ⟨s', queue', hloop, hfold, hinv', hmode'⟩

/-- The endpoint while the loop of `cancel_badged_sends` has its queue. -/
def openEndpoint (a : Arch) (s : KernelState) (ep : Word) : KernelState :=
  setEpQueue a (setEpState s ep .idle) ep ⟨0, 0⟩

/-- The end of `cancel_badged_sends`. -/
def closeEndpoint (a : Arch) (s : KernelState) (ep : Word) (queue : TcbQueue) : KernelState :=
  let s := setEpQueue a s ep queue
  let s := if queue.head ≠ 0 then setEpState s ep .send else s
  s.rescheduleRequired a

section

variable (h : BlockInv P (blockView a s) q) (hi : P.object (.endpoint ep))
include h hi

theorem sendView_openEndpoint (hsend : getEpState s ep = .send) :
    sendView a (openEndpoint a s ep) ep (getEpQueue a s ep) = blockView a s := by
  have hmode : (blockView a s).mode (.endpoint ep) = some .blockedOnSend :=
    congrArg EPState.mode hsend
  have hhead : (getEpQueue a s ep).head ≠ 0 := by
    intro he
    rw [(h.idle hi).mpr ((h.head_eq_zero_iff hi).mp he)] at hmode
    cases hmode
  unfold sendView openEndpoint
  rw [blockView_resetEndpoint, if_neg hhead, ← hmode]
  refine ext rfl rfl rfl ?_ ?_
  · simp only [BlockView.setMode, BlockView.setQueue, update_idem]
    exact update_eq_self _ _
  · simp only [BlockView.setMode, BlockView.setQueue, update_idem]
    exact update_eq_self _ _

omit h hi in
theorem blockView_closeEndpoint (htail : QueueEnd a queue.tail)
    (hidle : (blockView a s).mode (.endpoint ep) = none) :
    blockView a (closeEndpoint a s ep queue) = sendView a s ep queue := by
  unfold closeEndpoint
  rw [blockView_of_schedEq schedEq_rescheduleRequired]
  unfold sendView
  by_cases he : queue.head = 0
  · simp only [he, ne_eq, not_true_eq_false, if_false, if_true]
    rw [blockView_setEpQueue _ htail, ← hidle]
    exact (setMode_self rfl).symm
  · simp only [he, ne_eq, not_false_eq_true, if_false, if_true]
    rw [blockView_setEpState, blockView_setEpQueue _ htail]
    rfl

/-- `cancel_badged_sends` restarts the senders with the badge and leaves the others
in the queue. -/
theorem BlockInv.cancelBadgedSends_send (badge : Word) (hsend : getEpState s ep = .send) :
    ∃ s' queue', Ipc.cancelBadgedSends a s ep badge = .ok (closeEndpoint a s' ep queue') ∧
      (s', queue') = ((q (.endpoint ep)).filter (HasBadge a s badge ·)).foldl (restartSender a)
        (openEndpoint a s ep, getEpQueue a s ep) ∧
      BlockInv P (blockView a (closeEndpoint a s' ep queue'))
        (update q (.endpoint ep) ((q (.endpoint ep)).filter (¬HasBadge a s badge ·))) := by
  have hstart := sendView_openEndpoint h hi hsend
  rw [← hstart] at h
  have hqueue := h.waiting.links.queue (.endpoint ep)
  obtain ⟨s', queue', hloop, hfold, hinv, hmode⟩ := h.restartBadged (u := []) badge hi rfl
    (length_lt_maxThreads hqueue.nodup hqueue.null_not_mem)
  have hends := hinv.ends hi
  simp only [sendView, BlockView.setMode, BlockView.setQueue, update_self] at hends
  have htail : QueueEnd a queue'.tail := by
    rw [hends]
    refine queueEnd_getLastD fun x hx => hinv.thread_of_mem (i := .endpoint ep) ?_
    rwa [update_self]
  have hidle : (blockView a s').mode (.endpoint ep) = none := by
    rw [hmode, openEndpoint, blockView_resetEndpoint]
    exact update_self ..
  have hhead : (q (.endpoint ep)).headD 0 = (getEpQueue a s ep).head := by
    have hends := h.ends hi
    simp only [sendView, BlockView.setMode, BlockView.setQueue, update_self] at hends
    rw [hends]
  rw [hhead] at hloop
  refine ⟨s', queue', ?_, hfold, ?_⟩
  · unfold Ipc.cancelBadgedSends
    simp only [hsend]
    exact bind_eq_ok.mpr ⟨_, hloop, rfl⟩
  · rw [blockView_closeEndpoint htail hidle]
    exact hinv

omit h hi in
theorem cancelBadgedSends_of_ne (badge : Word) (hsend : getEpState s ep ≠ .send) :
    Ipc.cancelBadgedSends a s ep badge = .ok s := by
  unfold Ipc.cancelBadgedSends
  split
  next h => exact absurd h hsend
  · rfl

/-- `cancel_badged_sends` takes some senders out of the queue. -/
theorem BlockInv.cancelBadgedSends (badge : Word) :
    ∃ s' l, Ipc.cancelBadgedSends a s ep badge = .ok s' ∧
      BlockInv P (blockView a s') (update q (.endpoint ep) l) := by
  by_cases hsend : getEpState s ep = .send
  · obtain ⟨s', queue', hs', -, hinv⟩ := h.cancelBadgedSends_send hi badge hsend
    exact ⟨_, _, hs', hinv⟩
  · exact ⟨s, q (.endpoint ep), cancelBadgedSends_of_ne badge hsend, by rwa [update_eq_self]⟩

end

end Loops

end Rel4.Ipc
