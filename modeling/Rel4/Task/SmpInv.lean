import Rel4.Task.Smp

/-!
No array of the multi-core scheduler is indexed out of bounds.

`IndexInv` says that the numbers which serve as indices are in range: the core,
the domain and the priority of every thread, the current domain, and what the
bitmaps of a core are read as. Each operation of the scheduler keeps it and is
not stopped by an index.
-/

namespace Rel4.Task
open Lib.Bitfield Lib.Bitmap Lib.Guard Common Function
open KernelState (invertL1Index prioToL1Index removeFromBitmap readyQueuesIndex)

variable {dom prio : Word}

/-- What one core works with: a single-core scheduler over its own queues. -/
def SmpState.core (s : SmpState) (c : Word) : KernelState :=
  { KernelState.zero with
    tcbs := fun t => (s.tcbs t).toTcb
    ksReadyQueues := (s.ksSMP c).ksReadyQueues
    ksReadyQueuesL1Bitmap := (s.ksSMP c).ksReadyQueuesL1Bitmap
    ksReadyQueuesL2Bitmap := (s.ksSMP c).ksReadyQueuesL2Bitmap }

structure IndexInv (a : Arch) (s : SmpState) : Prop where
  affinity : ∀ t, (s.tcbs t).tcbAffinity.toNat < maxNumNodes
  domain : ∀ t, (s.tcbs t).domain.toNat < numDomains
  priority : ∀ t, (s.tcbs t).tcbPriority.toNat < numPriorities.toNat
  curDomain : s.ksCurDomain.toNat < numDomains
  bitmap : ∀ c, (readyView a (s.core c)).bitmap.Consistent

/-- The result is in order, and no index has stopped the kernel. -/
abbrev Indexed (a : Arch) : Exec SmpState → Prop := Avoids .outOfRange (IndexInv a)

theorem checkIndex_of (h : i.toNat < n) : checkIndex i n = .ok () := if_pos h

theorem avoids_checkIndex (h : i.toNat < n) :
    Avoids Abort.outOfRange (fun _ => True) (checkIndex i n) := by
  rw [checkIndex_of h]
  trivial

theorem avoids_ensure [Decidable p] : Avoids Abort.outOfRange (fun _ => p) (ensure p) := by
  unfold ensure
  split
  next h => exact h
  next => exact (by decide : Abort.assertFailed ≠ .outOfRange)

section Updates

variable {a : Arch} {s : SmpState} {t c : Word}

namespace IndexInv

section

variable (h : IndexInv a s)
include h

/-- Other words of a thread. -/
theorem modifyTcb
    (hf : (f (s.tcbs t)).tcbAffinity.toNat < maxNumNodes ∧
      (f (s.tcbs t)).domain.toNat < numDomains ∧
      (f (s.tcbs t)).tcbPriority.toNat < numPriorities.toNat) :
    IndexInv a (s.modifyTcb t f) := by
  have htcbs : ∀ u, (s.modifyTcb t f).tcbs u = s.tcbs u ∨ (s.modifyTcb t f).tcbs u = f (s.tcbs t) := by
    intro u
    by_cases hu : u = t
    · subst hu
      exact .inr (update_self _ _ _)
    · exact .inl (update_of_ne hu _ _)
  refine ⟨fun u => ?_, fun u => ?_, fun u => ?_, h.curDomain, fun c => h.bitmap c⟩
  · rcases htcbs u with hu | hu
    · exact hu ▸ h.affinity u
    · exact hu ▸ hf.1
  · rcases htcbs u with hu | hu
    · exact hu ▸ h.domain u
    · exact hu ▸ hf.2.1
  · rcases htcbs u with hu | hu
    · exact hu ▸ h.priority u
    · exact hu ▸ hf.2.2

/-- Words of a thread that are no index. -/
theorem keepTcb
    (hf : ∀ tcb, (f tcb).tcbAffinity = tcb.tcbAffinity ∧ (f tcb).domain = tcb.domain ∧
      (f tcb).tcbPriority = tcb.tcbPriority) :
    IndexInv a (s.modifyTcb t f) := by
  obtain ⟨haff, hdom, hprio⟩ := hf (s.tcbs t)
  refine h.modifyTcb ?_
  rw [haff, hdom, hprio]
  exact ⟨h.affinity t, h.domain t, h.priority t⟩

/-- A core whose bitmaps are written; the other cores keep theirs. -/
theorem setBitmaps (h1 : (f (s.ksSMP c)).ksReadyQueuesL1Bitmap = k.ksReadyQueuesL1Bitmap)
    (h2 : (f (s.ksSMP c)).ksReadyQueuesL2Bitmap = k.ksReadyQueuesL2Bitmap)
    (hk : (readyView a k).bitmap.Consistent) : IndexInv a (s.modifyNode c f) := by
  refine ⟨h.affinity, h.domain, h.priority, h.curDomain, fun c' => ?_⟩
  by_cases hc : c' = c
  · subst hc
    have hsame : (readyView a ((s.modifyNode c' f).core c')).bitmap = (readyView a k).bitmap := by
      simp only [ReadyView.bitmap, readyView, SmpState.core, SmpState.modifyNode,
        update_self, h1, h2]
    rw [hsame]
    exact hk
  · have hsame : (readyView a ((s.modifyNode c f).core c')).bitmap =
        (readyView a (s.core c')).bitmap := by
      simp only [ReadyView.bitmap, readyView, SmpState.core, SmpState.modifyNode, update_of_ne hc]
    rw [hsame]
    exact h.bitmap c'

/-- Words of a core other than its bitmaps. -/
theorem keepNode
    (hf : ∀ n, (f n).ksReadyQueuesL1Bitmap = n.ksReadyQueuesL1Bitmap ∧
      (f n).ksReadyQueuesL2Bitmap = n.ksReadyQueuesL2Bitmap) :
    IndexInv a (s.modifyNode c f) := by
  obtain ⟨h1, h2⟩ := hf (s.ksSMP c)
  exact h.setBitmaps h1 h2 (h.bitmap c)

theorem tsSet (f : Lib.Bitfield.Field 3) (v : Word) :
    IndexInv a (s.tsSet t f v) := h.keepTcb fun _ => ⟨rfl, rfl, rfl⟩

theorem setSchedNext (v : Word) : IndexInv a (s.setSchedNext t v) :=
  h.keepTcb fun _ => ⟨rfl, rfl, rfl⟩

theorem setSchedPrev (v : Word) : IndexInv a (s.setSchedPrev t v) :=
  h.keepTcb fun _ => ⟨rfl, rfl, rfl⟩

theorem setRegister (r : ArchReg) (v : Word) :
    IndexInv a (s.setRegister a t r v) := h.keepTcb fun _ => ⟨rfl, rfl, rfl⟩

theorem modifyQueue (f : TcbQueue → TcbQueue) :
    IndexInv a (s.modifyQueue c idx f) := h.keepNode fun _ => ⟨rfl, rfl⟩

theorem setAction (cpu : Cpu) (v : Word) : IndexInv a (s.setAction cpu v) :=
  h.keepNode fun _ => ⟨rfl, rfl⟩

theorem setCurrentThread (cpu : Cpu) :
    IndexInv a (s.setCurrentThread cpu t) := h.keepNode fun _ => ⟨rfl, rfl⟩

end

end IndexInv

end Updates

/-! ## Bitmaps -/

section Bitmaps

variable {a : Arch} {s : SmpState} {c dom prio : Word} {cpu : Cpu}

/-- The row of the bitmap that holds a priority exists. -/
theorem toNat_row_lt (hp : prio.toNat < numPriorities.toNat) :
    (invertL1Index (prioToL1Index prio)).toNat < l2BitmapSize.toNat := by
  have hp : prio.toNat < 256 := hp
  have hl1 := ReadyView.toNat_l1index prio
  have hinv := ReadyView.toNat_invertL1Index (i := prioToL1Index prio) (by omega)
  rw [hinv]
  exact (by omega : 3 - _ < 4)

theorem dom_eq_zero (hd : dom.toNat < numDomains) : dom = 0 :=
  BitVec.eq_of_toNat_eq (Nat.lt_one_iff.mp hd)

theorem addToBitmap_indexed (h : IndexInv a s) (hc : c.toNat < maxNumNodes)
    (hd : dom.toNat < numDomains) (hp : prio.toNat < numPriorities.toNat) :
    Indexed a (s.addToBitmap c dom prio) := by
  rw [SmpState.addToBitmap, checkIndex_of hc, checkIndex_of hd, checkIndex_of (toNat_row_lt hp)]
  obtain rfl := dom_eq_zero hd
  have hp : prio.toNat < 256 := hp
  have hk : (readyView a ((s.core c).addToBitmap 0 prio)).bitmap.Consistent := by
    rw [bitmap_addToBitmap hp]
    exact (h.bitmap c).insert (by decide) (by omega)
  exact h.setBitmaps rfl rfl hk

theorem removeFromBitmap_indexed (h : IndexInv a s) (hc : c.toNat < maxNumNodes)
    (hd : dom.toNat < numDomains) (hp : prio.toNat < numPriorities.toNat) :
    Indexed a (s.removeFromBitmap c dom prio) := by
  rw [SmpState.removeFromBitmap, checkIndex_of hc, checkIndex_of hd,
    checkIndex_of (toNat_row_lt hp)]
  obtain rfl := dom_eq_zero hd
  have hp : prio.toNat < 256 := hp
  have hk : (readyView a ((s.core c).removeFromBitmap 0 prio)).bitmap.Consistent := by
    rw [bitmap_removeFromBitmap hp]
    exact (h.bitmap c).erase
  refine h.setBitmaps (k := (s.core c).removeFromBitmap 0 prio) ?_ ?_ hk
  · simp only [removeFromBitmap, KernelState.setL2Bitmap, update_self]
    rw [apply_ite KernelState.ksReadyQueuesL1Bitmap]
    rfl
  · simp only [removeFromBitmap]
    rw [apply_ite KernelState.ksReadyQueuesL2Bitmap]
    exact (ite_self _).symm

/-- What `getHighestPrio` finds is a priority. -/
theorem getHighestPrio_indexed (h : IndexInv a s) (hd : dom.toNat < numDomains)
    (hl1 : (s.ksSMP cpu).ksReadyQueuesL1Bitmap dom ≠ 0) :
    Avoids .outOfRange (fun prio : Word => prio.toNat < numPriorities.toNat)
      (s.getHighestPrio cpu dom) := by
  obtain rfl := dom_eq_zero hd
  have hcons := h.bitmap cpu
  have hmem := TwoLevel.highest_mem hcons (by decide) hl1
  have hword : (readyView a (s.core cpu)).bitmap.lo
      (63 - ((s.ksSMP cpu).ksReadyQueuesL1Bitmap 0).clz.toNat) ≠ 0 :=
    (hcons _).mp (BitVec.getLsbD_true_clz_of_ne_zero (by decide) hl1)
  have hrow : 63 - ((s.ksSMP cpu).ksReadyQueuesL1Bitmap 0).clz.toNat < 4 := by
    by_contra hge
    exact hword (if_neg hge)
  have hidx : (invertL1Index
      (wordBits - 1 - ((s.ksSMP cpu).ksReadyQueuesL1Bitmap 0).clz)).toNat < l2BitmapSize.toNat := by
    have htop := toNat_sub_clz hl1
    rw [ReadyView.toNat_invertL1Index (by omega)]
    exact (by omega : 3 - _ < 4)
  have hrun : s.getHighestPrio cpu 0 = .ok ((s.core cpu).getHighestPrio 0) := by
    simp only [SmpState.getHighestPrio, checkIndex_of hd, checkIndex_of hidx]
    rfl
  have heq := toNat_getHighestPrio hcons hl1
  have hlt : (readyView a (s.core cpu)).bitmap.highest < 256 := by
    by_contra hge
    have hbit : (readyView a (s.core cpu)).bitmap.lo
        ((readyView a (s.core cpu)).bitmap.highest / 64) = 0 := if_neg (by omega)
    rw [TwoLevel.Mem, hbit] at hmem
    simp at hmem
  rw [hrun]
  exact heq.trans_lt hlt

end Bitmaps

/-! ## Ready queues -/

section Queues

variable {a : Arch} {s : SmpState} {t : Word} {cpu : Cpu}

theorem toNat_readyQueuesIndex_lt (hd : dom.toNat < numDomains)
    (hp : prio.toNat < numPriorities.toNat) :
    (readyQueuesIndex dom prio).toNat < numReadyQueues := by
  obtain rfl := dom_eq_zero hd
  have hidx : readyQueuesIndex 0 prio = prio := by
    simp [readyQueuesIndex]
  rw [hidx]
  exact hp

section

variable (h : IndexInv a s)
include h

theorem IndexInv.avoids_getSchedQueue : Avoids .outOfRange (fun _ => True) (s.getSchedQueue t
      (readyQueuesIndex (s.tcbs t).domain (s.tcbs t).tcbPriority)) := by
  refine (avoids_checkIndex (h.affinity t)).bind fun _ _ => ?_
  refine (avoids_checkIndex ?_).bind fun _ _ => trivial
  exact toNat_readyQueuesIndex_lt (h.domain t) (h.priority t)

theorem linkBehindTail_indexed (isEmpty : TcbQueue → Bool) :
    Indexed a (s.linkBehindTail t isEmpty) := by
  refine h.avoids_getSchedQueue.bind fun queue _ => ?_
  refine Avoids.bind (P := IndexInv a) ?_ fun s' h' => ?_
  · refine Avoids.ite (fun _ => ?_) fun _ => ?_
    · exact addToBitmap_indexed (h.modifyQueue _) (h.affinity t) (h.domain t) (h.priority t)
    · exact avoids_ensure.bind fun _ _ => h.setSchedNext t
  · exact (((h'.setSchedPrev _).setSchedNext 0).modifyQueue _).tsSet _ 1

theorem updateQueue_indexed : Indexed a (s.updateQueue cpu t) := by
  refine Avoids.ite (fun _ => ?_) fun _ => h
  refine (avoids_checkIndex (h.affinity t)).bind fun _ _ => ?_
  refine avoids_ensure.bind fun _ _ => ?_
  exact Avoids.ite (fun _ => h.keepNode fun _ => ⟨rfl, rfl⟩) fun _ => h

theorem schedEnqueue_indexed : Indexed a (s.schedEnqueue a cpu t) := by
  refine Avoids.bind ?_ fun _ => updateQueue_indexed
  exact Avoids.ite (fun _ => linkBehindTail_indexed h _) fun _ => h

theorem schedAppend_indexed : Indexed a (s.schedAppend a cpu t) := by
  refine Avoids.bind ?_ fun _ => updateQueue_indexed
  exact Avoids.ite (fun _ => linkBehindTail_indexed h _) fun _ => h

theorem schedSkipNext_indexed : Indexed a (s.schedSkipNext t idx) := by
  refine Avoids.ite (fun _ => h.setSchedNext _) fun _ => ?_
  refine Avoids.ite (fun _ => ?_) fun _ => h.modifyQueue _
  exact removeFromBitmap_indexed (h.modifyQueue _) (h.affinity t) (h.domain t) (h.priority t)

theorem IndexInv.schedSkipPrev : IndexInv a (s.schedSkipPrev t idx) := by
  unfold SmpState.schedSkipPrev
  split
  · exact h.setSchedPrev _
  · exact h.modifyQueue _

theorem schedDequeue_indexed : Indexed a (s.schedDequeue a t) := by
  refine Avoids.ite (fun _ => ?_) fun _ => h
  refine h.avoids_getSchedQueue.bind fun _ _ => ?_
  refine (schedSkipNext_indexed h).bind fun s' h' => ?_
  exact h'.schedSkipPrev.tsSet _ 0

end

end Queues

/-! ## Scheduling decisions -/

section Decisions

variable {a : Arch} {s : SmpState} {t : Word} {cpu : Cpu}

theorem rescheduleRequired_indexed (h : IndexInv a s) : Indexed a (s.rescheduleRequired a cpu) := by
  refine Avoids.bind (P := IndexInv a) ?_ fun s' h' => h'.setAction cpu _
  exact Avoids.ite (fun _ => schedEnqueue_indexed h) fun _ => h

theorem scheduleTcb_indexed (h : IndexInv a s) : Indexed a (s.scheduleTcb a cpu t) :=
  Avoids.ite (fun _ => rescheduleRequired_indexed h) fun _ => h

theorem setThreadState_indexed (h : IndexInv a s) :
    Indexed a (s.setThreadState a cpu t state) := scheduleTcb_indexed (h.tsSet _ _)

theorem possibleSwitchTo_indexed (h : IndexInv a s) : Indexed a (s.possibleSwitchTo a cpu t) := by
  refine Avoids.ite (fun _ => schedEnqueue_indexed h) fun _ => ?_
  refine Avoids.ite (fun _ => ?_) fun _ => h.setAction cpu t
  exact (rescheduleRequired_indexed h).bind fun _ => schedEnqueue_indexed

theorem isCurrent_indexed : Avoids .outOfRange (fun _ => True) (s.isCurrent cpu t) :=
  avoids_ensure.bind fun _ _ => trivial

section

variable (h : IndexInv a s)
include h

theorem rescheduleIfCurrent_indexed : Indexed a (s.rescheduleIfCurrent a cpu t) :=
  isCurrent_indexed.bind fun _ _ =>
    Avoids.ite (fun _ => rescheduleRequired_indexed h) fun _ => h

theorem setPriority_indexed (hp : prio.toNat < numPriorities.toNat) :
    Indexed a (s.setPriority a cpu t prio) := by
  refine (schedDequeue_indexed h).bind fun s' h' => ?_
  have h'' := h'.modifyTcb (f := fun tcb => { tcb with tcbPriority := prio })
    ⟨h'.affinity t, h'.domain t, hp⟩
  refine Avoids.ite (fun _ => ?_) fun _ => h''
  refine isCurrent_indexed.bind fun _ _ => ?_
  exact Avoids.ite (fun _ => rescheduleRequired_indexed h'') fun _ => possibleSwitchTo_indexed h''

theorem setDomain_indexed (hd : dom.toNat < numDomains) : Indexed a (s.setDomain a cpu t dom) := by
  refine (schedDequeue_indexed h).bind fun s' h' => ?_
  have h'' := h'.modifyTcb (f := fun tcb => { tcb with domain := dom })
    ⟨h'.affinity t, hd, h'.priority t⟩
  refine Avoids.bind ?_ fun _ => rescheduleIfCurrent_indexed
  exact Avoids.ite (fun _ => schedEnqueue_indexed h'') fun _ => h''

theorem timerTick_indexed : Indexed a (s.timerTick a cpu) := by
  have hless := h.keepTcb (t := s.current cpu)
    (f := fun tcb => { tcb with tcbTimeSlice := tcb.tcbTimeSlice - 1 }) fun _ => ⟨rfl, rfl, rfl⟩
  have hfull := h.keepTcb (t := s.current cpu)
    (f := fun tcb => { tcb with tcbTimeSlice := configTimeSlice }) fun _ => ⟨rfl, rfl, rfl⟩
  refine avoids_ensure.bind fun _ _ => ?_
  refine Avoids.ite (fun _ => ?_) fun _ => h
  refine Avoids.ite (fun _ => hless) fun _ => ?_
  exact (schedAppend_indexed hfull).bind fun _ => rescheduleRequired_indexed

theorem suspend_indexed : Indexed a (s.suspend a cpu t) := by
  refine Avoids.bind ?_ fun _ => schedDequeue_indexed
  refine setThreadState_indexed ?_
  split
  · exact h.setRegister _ _
  · exact h

theorem switchToThis_indexed : Indexed a (s.switchToThis a cpu t) :=
  (schedDequeue_indexed h).bind fun _ h' => h'.setCurrentThread cpu

theorem IndexInv.nextDomain : IndexInv a s.nextDomain :=
  ⟨h.affinity, h.domain, h.priority, Nat.zero_lt_one, h.bitmap⟩

theorem chooseThread_indexed : Indexed a (s.chooseThread a cpu) := by
  have hzero : (0 : Word).toNat < numDomains := by decide
  refine Avoids.ite (fun hl1 => ?_) fun _ => ?_
  · refine (getHighestPrio_indexed h hzero hl1).bind fun prio hp => ?_
    refine (avoids_checkIndex (toNat_readyQueuesIndex_lt hzero hp)).bind fun _ _ => ?_
    exact avoids_ensure.bind fun _ _ => switchToThis_indexed h
  · cases a with
    | riscv64 => exact avoids_ensure.bind fun _ _ => switchToThis_indexed h
    | aarch64 => exact ⟨h.affinity, h.domain, h.priority, h.curDomain, h.bitmap⟩

theorem scheduleChooseNewThread_indexed : Indexed a (s.scheduleChooseNewThread a cpu) := by
  refine chooseThread_indexed ?_
  split
  · exact h.nextDomain
  · exact h

theorem reschedule_indexed : Indexed a (s.reschedule a cpu) := by
  refine avoids_ensure.bind fun _ _ => ?_
  refine Avoids.bind (P := IndexInv a) ?_ fun s h => ?_
  · exact Avoids.ite (fun _ => schedEnqueue_indexed h) fun _ => h
  refine Avoids.ite (fun _ => scheduleChooseNewThread_indexed h) fun _ => ?_
  refine avoids_ensure.bind fun _ _ => avoids_ensure.bind fun _ _ => ?_
  refine Avoids.bind (P := fun _ => True) ?_ fun _ _ => ?_
  · refine Avoids.ite (fun _ => (avoids_checkIndex h.curDomain).bind fun _ _ => ?_) fun _ => trivial
    refine Avoids.ite (fun _ => trivial) fun hl1 => ?_
    exact (getHighestPrio_indexed h h.curDomain hl1).bind fun _ _ => trivial
  refine Avoids.ite (fun _ => ?_) fun _ => Avoids.ite (fun _ => ?_) fun _ => ?_
  · exact (schedEnqueue_indexed h).bind fun _ h' =>
      scheduleChooseNewThread_indexed (h'.setAction cpu _)
  · exact (schedAppend_indexed h).bind fun _ h' =>
      scheduleChooseNewThread_indexed (h'.setAction cpu _)
  · exact switchToThis_indexed h

theorem schedule_indexed : Indexed a (s.schedule a cpu) := by
  refine Avoids.bind (P := IndexInv a) ?_ fun s' h' => ?_
  · exact Avoids.ite (fun _ => reschedule_indexed h) fun _ => h
  · exact (h'.setAction cpu _).keepNode fun _ => ⟨rfl, rfl⟩

theorem activateThread_indexed : Indexed a (s.activateThread a cpu) := by
  refine avoids_ensure.bind fun _ _ => ?_
  split
  · exact h
  · exact setThreadState_indexed (h.setRegister _ _)
  · exact h
  · exact (by decide : Abort.panicked ≠ .outOfRange)

end

end Decisions

end Rel4.Task
