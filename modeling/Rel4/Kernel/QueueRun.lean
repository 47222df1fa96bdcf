import Rel4.Kernel.QueueInv

/-!
Runs of the IPC operations.

Threads send, receive, signal and are cancelled in any order, while the rest of
the kernel does what does not concern the queues. The queues of all endpoints
stay well formed, and no operation panics of its own: if it aborts, the transfer
of the message, the set-up of the reply cap or the deletion of one has aborted.
-/

namespace Rel4.Kernel
open Lib.Bitfield Lib.Queues Common CSpace Rel4.Task Ipc
open Task.KernelState

variable {e : Abort} {op : IpcOp} {ep src t : Word}

inductive IpcOp where
  | sendIpc (ep src : Word) (blocking doCall canGrant : Bool) (badge : Word) (canGrantReply : Bool)
  | receiveIpc (ep t : Word) (isBlocking grant : Bool)
  | cancelIpc (t : Word)
  | cancelAllIpc (ep : Word)
  | cancelBadgedSends (ep badge : Word)
  | sendSignal (ntfn badge : Word)
  | receiveSignal (ntfn t : Word) (isBlocking : Bool)
  | cancelAllSignal (ntfn : Word)

variable {a : Arch} {P : Population a} {s₀ s s' : KernelState}

namespace IpcOp

def run (a : Arch) (s : KernelState) : IpcOp → Exec KernelState
  | .sendIpc ep src blocking doCall canGrant badge canGrantReply =>
    Ipc.sendIpc a s ep src blocking doCall canGrant badge canGrantReply
  | .receiveIpc ep t isBlocking grant => Ipc.receiveIpc a s ep t isBlocking grant
  | .cancelIpc t => Kernel.cancelIpc a s t
  | .cancelAllIpc ep => Ipc.cancelAllIpc a s ep
  | .cancelBadgedSends ep badge => Ipc.cancelBadgedSends a s ep badge
  | .sendSignal ntfn badge => Ipc.sendSignal a s ntfn badge
  | .receiveSignal ntfn t isBlocking => Ipc.receiveSignal a s ntfn t isBlocking
  | .cancelAllSignal ntfn => Ipc.cancelAllSignal a s ntfn

/-- Threads and objects are known, and a thread that waits in a queue does not act. -/
def Legal (P : Population a) (s : KernelState) : IpcOp → Prop
  | .sendIpc ep src _ _ _ _ _ => Ready P s src ∧ P.object (.endpoint ep)
  | .receiveIpc ep t _ _ => Ready P s t ∧ P.object (.endpoint ep)
  | .cancelIpc t => P.thread t
  | .cancelAllIpc ep | .cancelBadgedSends ep _ => P.object (.endpoint ep)
  | .sendSignal ntfn _ | .cancelAllSignal ntfn => P.object (.notification ntfn)
  | .receiveSignal ntfn t _ => Ready P s t ∧ P.object (.notification ntfn)

/-- The calls out of the IPC code that an operation comes to, with their results:
the transfer of a message, the set-up and the deletion of a reply cap. -/
inductive CallsOut (a : Arch) (s : KernelState) : IpcOp → Exec KernelState → Prop
  | sendTransfer {ep src badge s₁ dest : _} {blocking doCall canGrant canGrantReply : Bool}
    (hd : epDequeueHead a s ep = .ok (s₁, dest)) :
    CallsOut a s (.sendIpc ep src blocking doCall canGrant badge canGrantReply)
      (doIpcTransfer a s₁ src dest (some ep) badge canGrant)
  | sendReply {ep src badge s₁ dest s₂ : _} {blocking doCall canGrant canGrantReply : Bool}
    (grant : Bool) (hd : epDequeueHead a s ep = .ok (s₁, dest))
    (ht : doIpcTransfer a s₁ src dest (some ep) badge canGrant = .ok s₂) :
    CallsOut a s (.sendIpc ep src blocking doCall canGrant badge canGrantReply)
      (((s₂.setThreadState a dest .running).possibleSwitchTo a dest).setupCallerCap a dest src grant)
  | receiveTransfer {ep t s₁ s₂ sender : _} {isBlocking grant : Bool} (badge : Word)
    (canGrant : Bool) (hc : completeSignal a s t = (s₁, false))
    (hd : epDequeueHead a s₁ ep = .ok (s₂, sender)) :
    CallsOut a s (.receiveIpc ep t isBlocking grant)
      (doIpcTransfer a s₂ sender t (some ep) badge canGrant)
  | receiveReply {ep t s₁ s₂ sender s₃ badge canGrant : _} {isBlocking grant : Bool}
    (hc : completeSignal a s t = (s₁, false)) (hd : epDequeueHead a s₁ ep = .ok (s₂, sender))
    (ht : doIpcTransfer a s₂ sender t (some ep) badge canGrant = .ok s₃) :
    CallsOut a s (.receiveIpc ep t isBlocking grant) (s₃.setupCallerCap a t sender grant)
  | cancelReply {t : Word} (ht : s.getState t = .blockedOnReply) :
    CallsOut a s (.cancelIpc t)
      (deleteOne a (s.modifyTcb t fun tcb => { tcb with tcbFault := fun _ => 0 })
        (s.ctes.next a (getCspace a t tcbReply)))

end IpcOp

/-- An operation keeps the queues in order. -/
theorem QueueInv.ipcOp (h : QueueInv P s) (hl : op.Legal P s) (hrun : op.run a s = .ok s') :
    QueueInv P s' := by
  -- what always returns
  have htotal : ∀ {x : Exec KernelState}, (∃ s₁, x = .ok s₁ ∧ QueueInv P s₁) → x = .ok s' →
      QueueInv P s' := by
    rintro x ⟨s₁, hx, hinv⟩ hx'
    obtain rfl := Except.ok.inj (hx.symm.trans hx')
    exact hinv
  cases op with
  | sendIpc => exact h.sendIpc hl.1 hl.2 hrun
  | receiveIpc => exact h.receiveIpc hl.1 hl.2 hrun
  | cancelIpc => exact h.cancelIpc hl hrun
  | cancelAllIpc => exact htotal (h.cancelAllIpc hl) hrun
  | cancelBadgedSends ep badge => exact htotal (h.cancelBadgedSends hl badge) hrun
  | sendSignal ntfn badge => exact htotal (h.sendSignal hl badge) hrun
  | receiveSignal => exact htotal (h.receiveSignal hl.1 hl.2) hrun
  | cancelAllSignal => exact htotal (h.cancelAllSignal hl) hrun

/-! ## Aborts -/

theorem awaitReply_error (h : awaitReply a s receiver caller canReply grant = .error e) :
    s.setupCallerCap a receiver caller grant = .error e := by
  unfold awaitReply at h
  split at h
  · exact h
  · cases h

theorem QueueInv.sendIpc_error {badge : Word} (h : QueueInv P s)
    (hep : P.object (.endpoint ep))
    (hrun : Ipc.sendIpc a s ep src blocking doCall canGrant badge canGrantReply = .error e) :
    IpcOp.CallsOut a s (.sendIpc ep src blocking doCall canGrant badge canGrantReply) (.error e) := by
  obtain ⟨q, hq⟩ := h.queues
  unfold Ipc.sendIpc at hrun
  cases hst : getEpState s ep <;> simp only [hst] at hrun
  case idle | send => split at hrun <;> cases hrun
  case recv =>
    obtain ⟨dest, l, hl⟩ := hq.exists_head hep (by simp [blockView, hst, EPState.mode])
    have hd := hq.epDequeueHead_eq hep hl
    rcases bind_eq_error.mp hrun with hrun | ⟨r, hr, hrun⟩
    · rw [hd] at hrun
      cases hrun
    obtain rfl := Except.ok.inj (hd.symm.trans hr)
    rcases bind_eq_error.mp hrun with hrun | ⟨s₂, ht, hrun⟩
    · rw [← hrun]
      exact .sendTransfer hd
    split at hrun
    · rw [← awaitReply_error hrun]
      exact .sendReply _ hd ht
    · cases hrun
  case undefined => exact absurd hst (hq.epState_ne_undefined hep)

theorem QueueInv.receiveIpc_error (h : QueueInv P s) (hep : P.object (.endpoint ep))
    (hrun : Ipc.receiveIpc a s ep t isBlocking grant = .error e) :
    IpcOp.CallsOut a s (.receiveIpc ep t isBlocking grant) (.error e) := by
  unfold Ipc.receiveIpc at hrun
  have h₁ := h.completeSignal (t := t)
  rcases hc : Ipc.completeSignal a s t with ⟨s₁, completed⟩
  rw [hc] at hrun h₁
  simp only at hrun h₁
  split at hrun
  · cases hrun
  rename_i hcompleted
  rw [Bool.eq_false_iff.mpr hcompleted] at hc
  obtain ⟨q, hq⟩ := h₁.queues
  cases hst : getEpState s₁ ep <;> simp only [hst] at hrun
  case idle | recv => split at hrun <;> cases hrun
  case send =>
    obtain ⟨sender, l, hl⟩ := hq.exists_head hep (by simp [blockView, hst, EPState.mode])
    have hd := hq.epDequeueHead_eq hep hl
    rcases bind_eq_error.mp hrun with hrun | ⟨r, hr, hrun⟩
    · rw [hd] at hrun
      cases hrun
    obtain rfl := Except.ok.inj (hd.symm.trans hr)
    rcases bind_eq_error.mp hrun with hrun | ⟨s₂, ht, hrun⟩
    · rw [← hrun]
      exact .receiveTransfer _ _ hc hd
    split at hrun
    · rw [← awaitReply_error hrun]
      exact .receiveReply hc hd ht
    · cases hrun
  case undefined => exact absurd hst (hq.epState_ne_undefined hep)

theorem QueueInv.cancelIpc_error (h : QueueInv P s) (ht : P.thread t)
    (hrun : Kernel.cancelIpc a s t = .error e) : IpcOp.CallsOut a s (.cancelIpc t) (.error e) := by
  rcases hplace : (blockView a s).place t with - | i
  · rw [cancelIpc_free hplace] at hrun
    split at hrun
    next hreply =>
      unfold Kernel.cancelReply at hrun
      simp only at hrun
      split at hrun
      · rw [← hrun]
        exact .cancelReply hreply
      · cases hrun
    · cases hrun
  · obtain ⟨s₁, hs₁, -⟩ := h.cancelIpc_waiting ht hplace
    rw [hs₁] at hrun
    cases hrun

/-- If an operation aborts, a call out of the IPC code has aborted. -/
theorem QueueInv.ipcOp_error (h : QueueInv P s) (hl : op.Legal P s) (hrun : op.run a s = .error e) :
    op.CallsOut a s (.error e) := by
  have htotal : ∀ {x : Exec KernelState}, (∃ s₁, x = .ok s₁ ∧ QueueInv P s₁) → x ≠ .error e := by
    rintro x ⟨s₁, hx, -⟩ he
    rw [hx] at he
    cases he
  cases op with
  | sendIpc => exact h.sendIpc_error hl.2 hrun
  | receiveIpc => exact h.receiveIpc_error hl.2 hrun
  | cancelIpc => exact h.cancelIpc_error hl hrun
  | cancelAllIpc => exact absurd hrun (htotal (h.cancelAllIpc hl))
  | cancelBadgedSends ep badge => exact absurd hrun (htotal (h.cancelBadgedSends hl badge))
  | sendSignal ntfn badge => exact absurd hrun (htotal (h.sendSignal hl badge))
  | receiveSignal => exact absurd hrun (htotal (h.receiveSignal hl.1 hl.2))
  | cancelAllSignal => exact absurd hrun (htotal (h.cancelAllSignal hl))

/-! ## Runs -/

/-- Nobody waits, all objects are idle, and no slot lies in one of them. -/
structure IdleStart (P : Population a) (s : KernelState) : Prop where
  endpoint : ∀ {ep}, P.object (.endpoint ep) →
    getEpState s ep = .idle ∧ getEpQueue a s ep = ⟨0, 0⟩
  notification : ∀ {n}, P.object (.notification n) →
    (getNtfnState s n = .idle ∨ getNtfnState s n = .active) ∧ getNtfnQueue a s n = ⟨0, 0⟩
  free : ∀ {t}, P.thread t → (blockView a s).place t = none
  caps : CapsKnown P s.ctes
  bound : ∀ {n}, P.object (.notification n) → getBoundTcb a s n ≠ 0 → P.thread (getBoundTcb a s n)
  slots : SlotsApart P s.ctes

/-- What the rest of the kernel does meanwhile: threads outside the queues may get
other states, and there may be other caps to known objects. -/
structure Elsewhere (P : Population a) (s s' : KernelState) : Prop where
  links : (blockView a s').links = (blockView a s).links
  object : (blockView a s').object = (blockView a s).object
  queue : (blockView a s').queue = (blockView a s).queue
  mode : (blockView a s').mode = (blockView a s).mode
  state : ∀ {t}, P.thread t → s'.getState t = s.getState t ∨
    ((blockView a s).place t = none ∧ Free (s'.getState t))
  caps : CapsKnown P s'.ctes
  bound : ∀ {n}, P.object (.notification n) → getBoundTcb a s' n ≠ 0 →
    P.thread (getBoundTcb a s' n)

/-- The operations of IPC and the rest of the kernel in any order. Caps are put only into
slots that do not lie in one of the objects. -/
inductive IpcRun (P : Population a) (s₀ : KernelState) : KernelState → Prop
  | start : IpcRun P s₀ s₀
  | op {s s' : KernelState} (op : IpcOp) (h : IpcRun P s₀ s) (hl : op.Legal P s)
    (hrun : op.run a s = .ok s') (hs : SlotsApart P s'.ctes) : IpcRun P s₀ s'
  | other {s s' : KernelState} (h : IpcRun P s₀ s) (he : Elsewhere P s s')
    (hs : SlotsApart P s'.ctes) : IpcRun P s₀ s'

theorem IdleStart.queueInv (h : IdleStart P s) : QueueInv P s := by
  refine ⟨⟨fun _ => [], ?_⟩, h.caps, h.bound⟩
  have hmode : ∀ {i}, P.object i → (blockView a s).mode i = none := by
    rintro (ep | n) hi
    · exact congrArg EPState.mode (h.endpoint hi).1
    · exact (h.notification hi).1.elim (congrArg NtfnState.mode) (congrArg NtfnState.mode)
  refine ⟨⟨⟨fun _ => .nil, fun hx => absurd hx List.not_mem_nil⟩, ?_⟩, ?_, ?_, ?_, ?_⟩
  · intro x i
    refine ⟨fun hx => absurd hx List.not_mem_nil, fun hx => ?_⟩
    rw [h.free hx.1] at hx
    cases hx.2
  · intro t i ht hi
    rw [h.free ht] at hi
    cases hi
  · rintro (ep | n) hi
    · exact (h.endpoint hi).2
    · exact (h.notification hi).2
  · exact fun hi => iff_of_true (hmode hi) rfl
  · exact fun _ hx => absurd hx List.not_mem_nil

theorem QueueInv.elsewhere (h : QueueInv P s) (he : Elsewhere P s s') : QueueInv P s' := by
  obtain ⟨q, hq⟩ := h.queues
  have hplace : ∀ x, P.thread x → (blockView a s').place x = (blockView a s).place x := by
    intro x hx
    unfold BlockView.place
    rw [he.object]
    rcases he.state hx with e | ⟨hnone, hfree⟩
    · rw [show (blockView a s').state x = _ from e]
      rfl
    · exact (hfree _).trans hnone.symm
  refine ⟨⟨q, ?_⟩, he.caps, he.bound⟩
  refine ⟨hq.waiting.congr (fun x _ => by rw [he.links]) (fun x _ => by rw [he.links]) hplace, ?_,
    ?_, ?_, ?_⟩
  · intro t i ht hi
    rw [hplace t ht] at hi
    exact hq.known ht hi
  · intro i hi
    rw [he.queue]
    exact hq.ends hi
  · intro i hi
    rw [he.mode]
    exact hq.idle hi
  · intro i t hi ht
    rw [he.mode, hq.mode hi ht]
    rcases he.state (hq.thread_of_mem ht) with e | ⟨hnone, -⟩
    · exact congrArg some e.symm
    · rw [hq.waiting.place_eq ht] at hnone
      cases hnone

theorem IpcRun.queueInv (h : IpcRun P s₀ s) (h₀ : IdleStart P s₀) : QueueInv P s := by
  induction h with
  | start => exact h₀.queueInv
  | op op _ hl hrun _ ih => exact ih.ipcOp hl hrun
  | other _ he _ ih => exact ih.elsewhere he

/-! ## Endpoints -/

/-- The queue of the endpoint, as it is linked in memory, is `l`, and its threads
are blocked on the endpoint in the way that its state says. -/
structure EpQueue (a : Arch) (s : KernelState) (ep : Word) (l : List Word) : Prop where
  links : IsQueue 0 ⟨fun t => (s.tcbs t).tcbEPNext, fun t => (s.tcbs t).tcbEPPrev⟩ l
  ends : getEpQueue a s ep = ⟨l.headD 0, l.getLastD 0⟩
  empty : l = [] ↔ getEpQueue a s ep = ⟨0, 0⟩
  idle : getEpState s ep = .idle ↔ l = []
  blocked : ∀ t ∈ l, s.tsGet a t (Field.tsBlockingObject a) = ep ∧
    (getEpState s ep = .send ∧ s.getState t = .blockedOnSend ∨
      getEpState s ep = .recv ∧ s.getState t = .blockedOnReceive)

theorem epQueue_of_blockInv (h : BlockInv P (blockView a s) q) (hi : P.object (.endpoint ep)) :
    EpQueue a s ep (q (.endpoint ep)) := by
  have hends : getEpQueue a s ep = _ := h.ends hi
  have hhead : (getEpQueue a s ep).head = 0 ↔ q (.endpoint ep) = [] := h.head_eq_zero_iff hi
  refine ⟨h.waiting.links.queue _, hends, ⟨fun he => ?_, fun he => ?_⟩, ?_, fun t ht => ?_⟩
  · rw [hends, he]
    rfl
  · rw [← hhead, he]
  · rw [← h.idle hi]
    exact EPState.mode_eq_none.symm
  · have hplace : waitingIn (s.getState t) (s.tsGet a t (Field.tsBlockingObject a)) =
        some (.endpoint ep) := h.waiting.place_eq ht
    have hmode : (getEpState s ep).mode = some (s.getState t) := h.mode hi ht
    obtain ⟨hobject, hst⟩ := waitingIn_eq_endpoint hplace
    refine ⟨hobject, ?_⟩
    rcases hst with e | e
    · exact .inl ⟨EPState.mode_eq_send.mp (e ▸ hmode), e⟩
    · exact .inr ⟨EPState.mode_eq_recv.mp (e ▸ hmode), e⟩

/-- In every state of a run the queues of all endpoints are well formed, the
threads that are blocked on endpoints are in exactly one of them, and no
operation panics of its own. -/
theorem ipcRun_endpoints (h₀ : IdleStart P s₀) (h : IpcRun P s₀ s) :
    (∃ q : Word → List Word, (∀ ep, P.object (.endpoint ep) → EpQueue a s ep (q ep)) ∧
      ∀ t, P.thread t → s.getState t = .blockedOnSend ∨ s.getState t = .blockedOnReceive →
        ∃! ep, P.object (.endpoint ep) ∧ t ∈ q ep) ∧
    ∀ (op : IpcOp) (e : Abort), op.Legal P s → op.run a s = .error e →
      op.CallsOut a s (.error e) := by
  have hinv := h.queueInv h₀
  obtain ⟨q, hq⟩ := hinv.queues
  refine ⟨⟨fun ep => q (.endpoint ep), fun ep hi => epQueue_of_blockInv hq hi, ?_⟩,
    fun op e hl hrun => hinv.ipcOp_error hl hrun⟩
  intro t ht hst
  have hplace : (blockView a s).place t =
      some (.endpoint (s.tsGet a t (Field.tsBlockingObject a))) := by
    rcases hst with e | e <;> simp only [BlockView.place, blockView, e, waitingIn]
  refine ⟨_, ⟨hq.known ht hplace, (hq.mem_iff ht).mpr hplace⟩, fun ep hep => ?_⟩
  cases (hq.waiting.place_eq hep.2).symm.trans hplace
  rfl

/-! An endpoint and two threads. -/

def twoThreads : Population .riscv64 where
  thread t := t = pptrBase .riscv64 + 0x1200 ∨ t = pptrBase .riscv64 + 0x1600
  object i := i = .endpoint (pptrBase .riscv64 + 0x2000)
  thread_window h := by rcases h with rfl | rfl <;> decide
  thread_aligned h := by rcases h with rfl | rfl <;> decide
  object_window h := by
    subst h
    decide
  object_aligned h := by
    subst h
    decide
  objects_apart h h' hne := absurd (h.trans h'.symm) hne
  threads_apart h ht := by
    subst h
    rcases ht with rfl | rfl <;> decide

/-- An empty slot is in nobody's way, and there are no others. -/
theorem slotsApart_empty {P : Population a} (h : σ = zero.ctes) : SlotsApart P σ := by
  subst h
  intro i _ x hx
  refine absurd capType_newNullCap (hx.live fun y => ?_)
  rw [slotCount, show getCapType (zero.ctes y).cap = _ from capType_newNullCap]

/-- Where everything is zero, every population is idle. -/
theorem idleStart_of_zero (P : Population a) (ht : s.tcbs = zero.tcbs)
    (he : s.endpoints = zero.endpoints) (hn : s.notifications = zero.notifications)
    (hc : s.ctes = zero.ctes) : IdleStart P s := by
  refine ⟨fun {x} _ => ?_, fun {x} _ => ?_, fun {x} _ => ?_, fun x n hname => ?_,
    fun {x} _ hne => ?_, slotsApart_empty hc⟩
  · rw [getEpState, getEpQueue, he, show zero.endpoints x = zero.endpoints 0 from rfl]
    cases a <;> decide
  · rw [getNtfnState, getNtfnQueue, hn, show zero.notifications x = zero.notifications 0 from rfl]
    cases a <;> decide
  · have hst : s.getState x = .inactive := by
      rw [getState, ht, show zero.tcbs x = zero.tcbs 0 from rfl]
      decide
    simp only [BlockView.place, blockView, hst, waitingIn]
  · have hnull : capName a (zero.ctes x).cap = none := capName_of_null capType_newNullCap
    rw [hc, hnull] at hname
    cases hname
  · rw [getBoundTcb, hn, show zero.notifications x = zero.notifications 0 from rfl] at hne
    exact absurd (by cases a <;> decide) hne

theorem idleStart_zero : IdleStart twoThreads zero := idleStart_of_zero _ rfl rfl rfl rfl

/-- A thread sends to the endpoint and has to wait. -/
def sent (s : KernelState) (src : Word) : KernelState :=
  epEnqueue .riscv64 (blockOnSend .riscv64 s (pptrBase .riscv64 + 0x2000) src false false 0 false)
    (pptrBase .riscv64 + 0x2000) src .send

theorem ctes_sent (src : Word) : (sent s src).ctes = s.ctes := by
  have heq : IpcEq (sent s src) s := (ipcEq_epEnqueue _).trans ipcEq_blockOnSend
  exact heq.ctes

theorem IpcRun.sent (h : IpcRun twoThreads s₀ s) (hc : s.ctes = zero.ctes) (hsrc : Ready twoThreads s src)
    (hst : getEpState s (pptrBase .riscv64 + 0x2000) = .idle ∨
      getEpState s (pptrBase .riscv64 + 0x2000) = .send) :
    IpcRun twoThreads s₀ (Kernel.sent s src) := by
  refine .op (.sendIpc (pptrBase .riscv64 + 0x2000) src true false false 0 false) h ⟨hsrc, rfl⟩ ?_
    (slotsApart_empty ((ctes_sent src).trans hc))
  rcases hst with e | e <;> simp only [IpcOp.run, sendIpc, e, Kernel.sent, if_true]

/-- Two threads send to one endpoint; the second comes behind the first. -/
theorem ipcRun_endpoints_two : ∃ s : KernelState, IpcRun twoThreads zero s ∧
    getEpQueue .riscv64 s (pptrBase .riscv64 + 0x2000) =
      ⟨pptrBase .riscv64 + 0x1200, pptrBase .riscv64 + 0x1600⟩ ∧
    ∃ l, EpQueue .riscv64 s (pptrBase .riscv64 + 0x2000) l := by
  have h₁ : IpcRun twoThreads zero (sent zero (pptrBase .riscv64 + 0x1200)) :=
    IpcRun.start.sent rfl ⟨.inl rfl, by decide +kernel⟩ (.inl (by decide +kernel))
  have h₂ : IpcRun twoThreads zero
      (sent (sent zero (pptrBase .riscv64 + 0x1200)) (pptrBase .riscv64 + 0x1600)) :=
    h₁.sent (ctes_sent _) ⟨.inr rfl, by decide +kernel⟩ (.inr (by decide +kernel))
  obtain ⟨⟨q, hq, -⟩, -⟩ := ipcRun_endpoints idleStart_zero h₂
  exact ⟨_, h₂, by decide +kernel, _, hq _ rfl⟩

/-- A notification, and an endpoint 16 bytes behind it, both idle. The badge of a signal is
found as the state of the endpoint, which has no queue. -/
theorem sendSignal_breaks_endpoint : ∃ s',
    sendSignal .riscv64 zero (pptrBase .riscv64 + 0x2000) 1 = .ok s' ∧
      getEpState (spill zero (pptrBase .riscv64 + 0x2000)) (pptrBase .riscv64 + 0x2010) = .idle ∧
      getEpState (spill s' (pptrBase .riscv64 + 0x2000)) (pptrBase .riscv64 + 0x2010) = .send ∧
      ¬∃ l, EpQueue .riscv64 (spill s' (pptrBase .riscv64 + 0x2000)) (pptrBase .riscv64 + 0x2010)
        l := by
  obtain ⟨s', h, hs⟩ := Exec.satisfies_iff.mp (by decide +kernel :
    (sendSignal .riscv64 zero (pptrBase .riscv64 + 0x2000) 1).satisfies (fun s' =>
      getEpState (spill s' (pptrBase .riscv64 + 0x2000)) (pptrBase .riscv64 + 0x2010) = .send ∧
        getEpQueue .riscv64 (spill s' (pptrBase .riscv64 + 0x2000)) (pptrBase .riscv64 + 0x2010) =
          ⟨0, 0⟩) = true)
  obtain ⟨hstate, hqueue⟩ := of_decide_eq_true hs
  refine ⟨s', h, by decide +kernel, hstate, ?_⟩
  rintro ⟨l, hl⟩
  have hidle := hl.idle.mpr (hl.empty.mpr hqueue)
  rw [hstate] at hidle
  cases hidle

end Rel4.Kernel
