import Rel4.Ipc.Payload
import Rel4.Kernel.Priority
import Rel4.Kernel.QueueRun

/-!
Cancelling the sends with a badge.

The loop of `cancel_badged_sends` unlinks threads from the queue it walks along.
What it does is one turn for each sender with the badge, in the order of the
queue (`BlockInv.cancelBadgedSends_send`); here is what these turns do to the
states of the threads and to the ready queues.
-/

namespace Rel4.Kernel
open Lib.Bitfield Lib.Queues Common Rel4.Task Ipc Function
open Task.KernelState

variable {a : Arch} {P : Population a} {thread : Word → Prop} {s s' : KernelState}
  {r : KernelState × TcbQueue} {q : Wait → List Word} {ep t : Word} {l : List Word}

/-! ## One turn -/

theorem readyView_epDequeue (queue : TcbQueue) :
    readyView a (epDequeue s queue t).1 = readyView a s := by
  obtain ⟨next, prev, heq⟩ := relinks_epDequeue queue
  rw [heq]
  rfl

theorem schedInv_restartSender (h : SchedInv a thread r.1) (ht : thread t) :
    SchedInv a thread (restartSender a r t).1 := by
  obtain ⟨next, prev, heq⟩ := relinks_epDequeue (t := t)
    (s := (r.1.setThreadState a t .restart).schedEnqueue a t) r.2
  rw [restartSender, heq]
  exact ((h.setThreadState .restart).schedEnqueue ht).of_view rfl rfl rfl rfl

theorem getState_restartSender (x : Word) :
    (restartSender a r t).1.getState x = if x = t then .restart else r.1.getState x := by
  have hdequeue : (restartSender a r t).1.getState x =
      ((r.1.setThreadState a t .restart).schedEnqueue a t).getState x := by
    unfold getState restartSender
    rw [(relinks_epDequeue _).tcbState]
  rw [hdequeue, schedEq_schedEnqueue.getState, getState_setThreadState]

/-- The thread of the turn is in its ready queue, and those that were in one still are. -/
theorem queued_restartSender (h : SchedInv a thread r.1) (ht : thread t)
    (hx : x = t ∨ (readyView a r.1).queued x ≠ 0) :
    (readyView a (restartSender a r t).1).queued x ≠ 0 := by
  unfold restartSender
  rw [readyView_epDequeue, (h.setThreadState .restart).ready.queued_schedEnqueue ht]
  rcases hx with hx | hx
  · exact .inl hx
  · exact .inr (h.queued_setThreadState .restart hx)

/-! ## All turns -/

/-- What the turns for the threads `l` do to threads and ready queues. -/
theorem foldl_restartSender (h : SchedInv a thread r.1) (hl : ∀ t ∈ l, thread t) :
    SchedInv a thread (l.foldl (restartSender a) r).1 ∧
      (∀ x, (l.foldl (restartSender a) r).1.getState x =
        if x ∈ l then .restart else r.1.getState x) ∧
      ∀ x, x ∈ l ∨ (readyView a r.1).queued x ≠ 0 →
        (readyView a (l.foldl (restartSender a) r).1).queued x ≠ 0 := by
  induction l generalizing r with
  | nil =>
    refine ⟨h, fun x => rfl, fun x hx => ?_⟩
    exact hx.resolve_left (by simp)
  | cons t l ih =>
    have ht : thread t := hl t List.mem_cons_self
    obtain ⟨hinv, hstate, hqueued⟩ := ih (schedInv_restartSender h ht)
      fun x hx => hl x (List.mem_cons_of_mem _ hx)
    rw [List.foldl_cons]
    refine ⟨hinv, fun x => ?_, fun x hx => hqueued x ?_⟩
    · rw [hstate, getState_restartSender]
      by_cases hxl : x ∈ l
      · simp only [hxl, List.mem_cons, or_true, if_true]
      · simp only [hxl, List.mem_cons, or_false, if_false]
    · rcases hx with hx | hx
      · rcases List.mem_cons.mp hx with hx | hx
        · exact .inr (queued_restartSender h ht (.inl hx))
        · exact .inl hx
      · exact .inr (queued_restartSender h ht (.inr hx))

/-- The thread is once in the ready queue of its priority and in no other. -/
def ReadyOnce (a : Arch) (s : KernelState) (t : Word) : Prop :=
  ∀ p, ((readyView a s).readyQueue p).count t = if p = (s.tcbs t).tcbPriority then 1 else 0

theorem readyOnce_of_queued (h : ReadyInv thread (readyView a s)) (ht : thread t)
    (hq : (readyView a s).queued t ≠ 0) : ReadyOnce a s t := by
  intro p
  split
  next hp =>
    refine List.count_eq_one_of_mem (h.nodup.filter _) (h.mem_readyQueue.mpr ⟨⟨ht, hq⟩, hp.symm⟩)
  next hp =>
    refine List.count_eq_zero.mpr fun hmem => hp ?_
    exact (h.mem_readyQueue.mp hmem).2.symm

/-! ## `cancel_badged_sends` -/

/-- The threads of the queue without the badge. -/
def otherSenders (a : Arch) (s : KernelState) (badge : Word) (queue : List Word) : List Word :=
  queue.filter (¬HasBadge a s badge ·)

/-- The queue of the endpoint is `l`, linked in both directions, the threads with the badge
are restarted and ready. -/
structure SendsCancelled (a : Arch) (s s' : KernelState) (ep badge : Word) (queue l : List Word) :
    Prop where
  links : IsQueue 0 (blockView a s').links l
  ends : getEpQueue a s' ep = ⟨l.headD 0, l.getLastD 0⟩
  restarted : ∀ t ∈ queue, HasBadge a s badge t → s'.getState t = .restart ∧ ReadyOnce a s' t
  idle : getEpState s' ep = .idle ↔ l = []

/-- Writing an endpoint concerns neither threads nor ready queues. -/
theorem closeEndpoint_eq (ep : Word) (queue : TcbQueue) : ∃ eps, closeEndpoint a s ep queue =
      rescheduleRequired a { s with endpoints := eps } := by
  unfold closeEndpoint
  split
  · exact ⟨_, rfl⟩
  · exact ⟨_, rfl⟩

theorem cancelBadgedSends_exact (hq : BlockInv P (blockView a s) q) (hs : SchedInv a thread s)
    (hthread : ∀ t, P.thread t → thread t) (hi : P.object (.endpoint ep)) (badge : Word) :
    (getEpState s ep ≠ .send → cancelBadgedSends a s ep badge = .ok s) ∧
      (getEpState s ep = .send → ∃ s', cancelBadgedSends a s ep badge = .ok s' ∧
        SendsCancelled a s s' ep badge (q (.endpoint ep))
          (otherSenders a s badge (q (.endpoint ep))) ∧
        BlockInv P (blockView a s') (update q (.endpoint ep)
          (otherSenders a s badge (q (.endpoint ep)))) ∧
        SchedInv a thread s') := by
  refine ⟨cancelBadgedSends_of_ne badge, fun hsend => ?_⟩
  obtain ⟨s₁, queue, hrun, hfold, hinv⟩ := hq.cancelBadgedSends_send hi badge hsend
  have hmatching : ∀ t ∈ (q (.endpoint ep)).filter (HasBadge a s badge ·), thread t :=
    fun t ht => hthread t (hq.thread_of_mem (List.mem_of_mem_filter ht))
  have hopen : SchedInv a thread (openEndpoint a s ep) := hs.of_view rfl rfl rfl rfl
  obtain ⟨hinv₁, hstate, hqueued⟩ := foldl_restartSender
    (r := (openEndpoint a s ep, getEpQueue a s ep)) hopen hmatching
  rw [← hfold] at hinv₁ hstate hqueued
  obtain ⟨eps, hclose⟩ := closeEndpoint_eq (a := a) (s := s₁) ep queue
  have hinv₂ : SchedInv a thread { s₁ with endpoints := eps } := hinv₁.of_view rfl rfl rfl rfl
  have hend : SchedInv a thread (closeEndpoint a s₁ ep queue) := by
    rw [hclose]
    exact hinv₂.rescheduleRequired
  refine ⟨_, hrun, ⟨?_, ?_, fun t ht hbadge => ?_, ?_⟩, hinv, hend⟩
  · have hlinks := hinv.waiting.links.queue (.endpoint ep)
    rwa [update_self] at hlinks
  · have hends := hinv.ends hi
    rwa [update_self] at hends
  · have hmem : t ∈ (q (.endpoint ep)).filter (HasBadge a s badge ·) :=
      List.mem_filter.mpr ⟨ht, by simpa using hbadge⟩
    have hready : (readyView a (closeEndpoint a s₁ ep queue)).queued t ≠ 0 := by
      rw [hclose]
      exact hinv₂.queued_rescheduleRequired (hqueued t (.inl hmem))
    refine ⟨?_, readyOnce_of_queued hend.ready (hmatching t hmem) hready⟩
    rw [hclose, schedEq_rescheduleRequired.getState]
    exact (hstate t).trans (if_pos hmem)
  · have hidle := hinv.idle hi
    rw [update_self] at hidle
    exact EPState.mode_eq_none.symm.trans hidle

/-! ## Two senders -/

def sendEndpoint : Word := pptrBase .riscv64 + 0x2000

def idleTcb : Word := pptrBase .riscv64 + 0x1a00

def senders : Population .riscv64 where
  thread t := t = senderTcb ∨ t = peerTcb
  object i := i = .endpoint sendEndpoint
  thread_window := by rintro t (rfl | rfl) <;> decide
  thread_aligned := by rintro t (rfl | rfl) <;> decide
  object_window := by rintro i rfl; decide
  object_aligned := by rintro i rfl; decide
  objects_apart := by rintro i j rfl rfl h; exact absurd rfl h
  threads_apart := by rintro i t rfl (rfl | rfl) <;> decide

def noSenders : KernelState :=
  { zero with ksCurThread := idleTcb, ksIdleThread := idleTcb }

def blockSender (s : KernelState) (t badge : Word) : KernelState :=
  epEnqueue .riscv64 (blockOnSend .riscv64 s sendEndpoint t false false badge false) sendEndpoint t
    .send

/-- Two threads wait to send, with the badges 5 and 7. -/
def twoSenders : KernelState := blockSender (blockSender noSenders senderTcb 5) peerTcb 7

theorem noSenders_start : IdleStart senders noSenders := idleStart_of_zero _ rfl rfl rfl rfl

theorem twoSenders_queueInv : QueueInv senders twoSenders := by
  have hep : senders.object (.endpoint sendEndpoint) := rfl
  have hfirst : QueueInv senders (blockSender noSenders senderTcb 5) :=
    noSenders_start.queueInv.sendIpc ⟨.inl rfl, by decide⟩ hep
      (show sendIpc .riscv64 noSenders sendEndpoint senderTcb true false false 5 false = _ from rfl)
  exact hfirst.sendIpc ⟨.inr rfl, by decide⟩ hep
    (show sendIpc .riscv64 (blockSender noSenders senderTcb 5) sendEndpoint peerTcb true false false
      7 false = _ from rfl)

theorem twoSenders_noneReady : NoneReady .riscv64 (fun t => senders.thread t ∨ t = idleTcb)
    twoSenders where
  address := by rintro t ((rfl | rfl) | rfl) <;> decide
  params := by rintro t ((rfl | rfl) | rfl) <;> decide
  queued := by rintro t ((rfl | rfl) | rfl) <;> decide
  order := rfl
  queues := fun _ _ => rfl
  l1 := rfl
  l2 := fun _ _ => rfl
  action := .inl rfl
  current := .inr rfl
  idle := .inr rfl

/-- The sends with the badge 5 are cancelled. -/
theorem cancelBadgedSends_five : ∃ s', cancelBadgedSends .riscv64 twoSenders sendEndpoint 5 = .ok s' ∧
    s'.getState senderTcb = .restart ∧ ReadyOnce .riscv64 s' senderTcb ∧
      getEpState s' sendEndpoint ≠ .idle := by
  obtain ⟨q, hq⟩ := twoSenders_queueInv.queues
  have hep : senders.object (.endpoint sendEndpoint) := rfl
  have hsender : senderTcb ∈ q (.endpoint sendEndpoint) := (hq.mem_iff (.inl rfl)).mpr (by decide)
  have hpeer : peerTcb ∈ q (.endpoint sendEndpoint) := (hq.mem_iff (.inr rfl)).mpr (by decide)
  obtain ⟨s', hrun, hcancelled, -⟩ := (cancelBadgedSends_exact hq twoSenders_noneReady.schedInv
    (fun _ => .inl) hep 5).2 (by decide)
  obtain ⟨hstate, honce⟩ := hcancelled.restarted senderTcb hsender (by decide)
  refine ⟨s', hrun, hstate, honce, fun hidle => ?_⟩
  have hrest : peerTcb ∈ otherSenders .riscv64 twoSenders 5 (q (.endpoint sendEndpoint)) :=
    List.mem_filter.mpr ⟨hpeer, by decide⟩
  rw [hcancelled.idle.mp hidle] at hrest
  cases hrest

end Rel4.Kernel
