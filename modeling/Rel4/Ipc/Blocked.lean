import Rel4.Lib.Waiting
import Rel4.Ipc.Endpoint
import Rel4.Ipc.TransferFrame

/-!
The threads that wait at endpoints and notifications.

`BlockView` is what IPC reads and writes of the queues: the links in the TCBs,
the states of the threads with the objects that block them, and the queues and
states of the objects. `BlockInv` says that the queue of an object holds exactly
the threads that are blocked on it.
-/

namespace Rel4.Ipc
open Lib.Bitfield Lib.DList Lib.Queues Common Rel4.Task Function

variable {st : EPState}

/-! ## Where threads wait -/

inductive Wait where
  | endpoint (p : Word)
  | notification (p : Word)
  deriving DecidableEq, Repr

def Wait.addr : Wait → Word
  | endpoint p | notification p => p

/-- The bytes of `endpoint_t` and of `notification_t`. A retype reserves 16 bytes for either,
so that something else may lie in the second half of a notification. -/
def Wait.size : Wait → Nat
  | endpoint _ => 16
  | notification _ => 32

/-- The state as the code finds it after a store to the notification `n`: the words of its
second half are the first two of an endpoint or of a cap that lies there. The model keeps
them apart, which is right where nothing lies there. -/
def spill (s : KernelState) (n : Word) : KernelState :=
  let half : Words 2 := fun i => s.notifications n (if i = 0 then 2 else 3)
  { s with
    endpoints := update s.endpoints (n + 16) half
    ctes := update s.ctes (n + 16) { s.ctes (n + 16) with cap := half } }

/-- The state that blocks a thread on an object, if it is one. -/
def waitingIn (state : ThreadState) (object : Word) : Option Wait :=
  match state with
  | .blockedOnSend | .blockedOnReceive => some (.endpoint object)
  | .blockedOnNotification => some (.notification object)
  | _ => none

/-- The state of the threads in the queue of an endpoint. -/
def EPState.mode : EPState → Option ThreadState
  | .idle => none
  | .send => some .blockedOnSend
  | .recv => some .blockedOnReceive
  | .undefined => some .undefined

/-- The state of the threads in the queue of a notification. -/
def NtfnState.mode : NtfnState → Option ThreadState
  | .idle | .active => none
  | .waiting => some .blockedOnNotification
  | .undefined => some .undefined

theorem EPState.mode_eq_send : st.mode = some .blockedOnSend ↔ st = .send := by
  cases st <;> simp [mode]

theorem EPState.mode_eq_recv : st.mode = some .blockedOnReceive ↔ st = .recv := by
  cases st <;> simp [mode]

theorem EPState.mode_eq_none : st.mode = none ↔ st = .idle := by
  cases st <;> simp [mode]

theorem waitingIn_eq_endpoint {st : ThreadState} {object ep : Word}
    (h : waitingIn st object = some (.endpoint ep)) :
    object = ep ∧ (st = .blockedOnSend ∨ st = .blockedOnReceive) := by
  cases st <;> simp_all [waitingIn]

@[ext]
structure BlockView where
  links : Links Word
  state : Word → ThreadState
  object : Word → Word
  queue : Wait → TcbQueue
  mode : Wait → Option ThreadState

def blockView (a : Arch) (s : KernelState) : BlockView where
  links := ⟨fun t => (s.tcbs t).tcbEPNext, fun t => (s.tcbs t).tcbEPPrev⟩
  state := s.getState
  object t := s.tsGet a t (Field.tsBlockingObject a)
  queue
    | .endpoint p => getEpQueue a s p
    | .notification p => getNtfnQueue a s p
  mode
    | .endpoint p => (getEpState s p).mode
    | .notification p => (getNtfnState s p).mode

namespace BlockView

/-- The object that the thread is blocked on. -/
def place (v : BlockView) (t : Word) : Option Wait := waitingIn (v.state t) (v.object t)

def relink (v : BlockView) (links : Links Word) : BlockView := { v with links := links }

def setState (v : BlockView) (t : Word) (state : ThreadState) : BlockView :=
  { v with state := update v.state t state }

/-- All threads of a list get a state. -/
def setStates (v : BlockView) (l : List Word) (state : ThreadState) : BlockView :=
  { v with state := fun t => if t ∈ l then state else v.state t }

def setObject (v : BlockView) (t object : Word) : BlockView :=
  { v with object := update v.object t object }

def setQueue (v : BlockView) (i : Wait) (queue : TcbQueue) : BlockView :=
  { v with queue := update v.queue i queue }

def setMode (v : BlockView) (i : Wait) (mode : Option ThreadState) : BlockView :=
  { v with mode := update v.mode i mode }

@[simp]
theorem relink_links (v : BlockView) (L : Links Word) : (v.relink L).links = L := rfl

@[simp]
theorem relink_relink (v : BlockView) (L L' : Links Word) : (v.relink L).relink L' = v.relink L' :=
  rfl

theorem setMode_self {v : BlockView} {i : Wait} {mode : Option ThreadState} (h : v.mode i = mode) :
    v.setMode i mode = v := by
  subst h
  exact BlockView.ext rfl rfl rfl rfl (update_eq_self _ _)

theorem setStates_setState (v : BlockView) (t : Word) (l : List Word) (state : ThreadState) :
    (v.setState t state).setStates l state = v.setStates (t :: l) state := by
  refine BlockView.ext rfl (funext fun x => ?_) rfl rfl rfl
  by_cases hl : x ∈ l
  · simp [setStates, hl]
  by_cases hx : x = t
  · subst hx
    simp [setStates, setState, hl]
  · simp [setStates, setState, hl, hx]

end BlockView

/-- The threads and the objects they can wait on. No structure reaches into another, and
none into the memory of a thread with its slots. -/
structure Population (a : Arch) where
  thread : Word → Prop
  object : Wait → Prop
  thread_window : ∀ {t}, thread t → pptrBase a ≤ t
  thread_aligned : ∀ {t}, thread t → t.toNat % 2 ^ (tcbBits a).toNat = (tcbOffset a).toNat
  object_window : ∀ {i}, object i → pptrBase a ≤ i.addr
  object_aligned : ∀ {i}, object i → i.addr.toNat % 16 = 0
  objects_apart : ∀ {i j}, object i → object j → i ≠ j → Apart i.addr i.size j.addr j.size
  threads_apart : ∀ {i t}, object i → thread t →
    Apart i.addr i.size (t - tcbOffset a) (2 ^ (tcbBits a).toNat)

/-- The queues `q` of the objects hold the threads that are blocked on them, and
the objects say so. -/
structure BlockInv {a : Arch} (P : Population a) (v : BlockView) (q : Wait → List Word) : Prop where
  waiting : Waiting 0 P.thread v.links v.place q
  known : ∀ {t i}, P.thread t → v.place t = some i → P.object i
  ends : ∀ {i}, P.object i → v.queue i = ⟨(q i).headD 0, (q i).getLastD 0⟩
  idle : ∀ {i}, P.object i → (v.mode i = none ↔ q i = [])
  mode : ∀ {i t}, P.object i → t ∈ q i → v.mode i = some (v.state t)

/-- A state in which a thread waits in no queue. -/
def Free (st : ThreadState) : Prop := ∀ object, waitingIn st object = none

/-! ## Joining and leaving a queue -/

/-- A thread joins the queue of an object. -/
structure Blocks (v v' : BlockView) (t : Word) (i : Wait) (st : ThreadState) : Prop where
  next : ∀ x, x ≠ 0 → v'.links.next x = (pushBack 0 v.links (v.queue i).tail t).next x
  prev : ∀ x, v'.links.prev x = (pushBack 0 v.links (v.queue i).tail t).prev x
  state : v'.state = update v.state t st
  object : v'.object = update v.object t i.addr
  queue : v'.queue = update v.queue i
    ⟨if (v.queue i).head = 0 then t else (v.queue i).head, t⟩
  mode : v'.mode = update v.mode i (some st)

/-- A thread is taken out of the queue of an object; its state is not changed yet. -/
structure Unlinks (v v' : BlockView) (t : Word) (i : Wait) : Prop where
  next : ∀ x, x ≠ 0 → v'.links.next x = (skip v.links t).next x
  prev : ∀ x, x ≠ 0 → v'.links.prev x = (skip v.links t).prev x
  state : v'.state = v.state
  object : v'.object = v.object
  queue : v'.queue = update v.queue i
    ⟨if v.links.prev t = 0 then v.links.next t else (v.queue i).head,
      if v.links.next t = 0 then v.links.prev t else (v.queue i).tail⟩
  mode : v'.mode = update v.mode i
    (if (v'.queue i).head = 0 then none else v.mode i)

/-- The queue of an object is dropped, and its threads get another state. -/
structure Clears (v v' : BlockView) (thread : Word → Prop) (i : Wait) (st : ThreadState) :
    Prop where
  links : v'.links = v.links
  state : ∀ x, thread x → v'.state x = if v.place x = some i then st else v.state x
  object : v'.object = v.object
  queue : v'.queue = update v.queue i ⟨0, 0⟩
  mode : v'.mode = update v.mode i none

/-! ## The rules -/

section View

variable {a : Arch} {P : Population a} {v v' : BlockView} {q : Wait → List Word} {t : Word}
  {i : Wait} {st : ThreadState}

theorem ne_zero_of_window (h : pptrBase a ≤ t) : t ≠ 0 := by
  rintro rfl
  revert h
  cases a <;> decide

theorem Population.toNat_mod_four (ht : P.thread t) : t.toNat % 4 = 0 := by
  have h := P.thread_aligned ht
  cases a with
  | riscv64 =>
    have h : t.toNat % 1024 = 512 := h
    omega
  | aarch64 =>
    have h : t.toNat % 2048 = 1024 := h
    omega

theorem Population.ne_zero (ht : P.thread t) : t ≠ 0 := ne_zero_of_window (P.thread_window ht)

theorem Population.addr_ne_zero (hi : P.object i) : i.addr ≠ 0 :=
  ne_zero_of_window (P.object_window hi)

/-- A thread joins a queue as `ep_append` and the setters of the object do it. -/
theorem Blocks.of_view (hn : ∀ x, x ≠ 0 → L.next x = (pushBack 0 v.links (v.queue i).tail t).next x)
    (hp : ∀ x, L.prev x = (pushBack 0 v.links (v.queue i).tail t).prev x) :
    Blocks v (((((v.setObject t i.addr).setState t st).relink L).setMode i (some st)).setQueue i
      ⟨if (v.queue i).head = 0 then t else (v.queue i).head, t⟩) t i st :=
  ⟨hn, hp, rfl, rfl, rfl, rfl⟩

/-- A thread leaves a queue as `ep_dequeue` and the setters of the object do it. -/
theorem Unlinks.of_view {queue : TcbQueue} (hn : ∀ x, x ≠ 0 → L.next x = (skip v.links t).next x)
    (hp : ∀ x, x ≠ 0 → L.prev x = (skip v.links t).prev x)
    (hq : queue = ⟨if v.links.prev t = 0 then v.links.next t else (v.queue i).head,
      if v.links.next t = 0 then v.links.prev t else (v.queue i).tail⟩)
    (hv : v' = if queue.head = 0 then ((v.relink L).setQueue i queue).setMode i none
      else (v.relink L).setQueue i queue) : Unlinks v v' t i := by
  split at hv
  next he =>
    subst hv
    refine ⟨hn, hp, rfl, rfl, by rw [← hq]; rfl, ?_⟩
    simp only [BlockView.setQueue, BlockView.setMode, BlockView.relink, update_self, if_pos he]
  next he =>
    subst hv
    refine ⟨hn, hp, rfl, rfl, by rw [← hq]; rfl, ?_⟩
    simp only [BlockView.setQueue, BlockView.relink, update_self, if_neg he, update_eq_self]

/-- A queue is dropped as `cancel_all_ipc` and `cacncel_all_signal` do it. -/
theorem Clears.of_view (hq : ∀ x, thread x → (x ∈ q i ↔ v.place x = some i)) :
    Clears v (((v.setMode i none).setQueue i ⟨0, 0⟩).setStates (q i) st) thread i st := by
  refine ⟨rfl, fun x hx => ?_, rfl, rfl, rfl⟩
  simp only [BlockView.setStates, BlockView.setQueue, BlockView.setMode, hq x hx]

theorem place_setState (hst : Free st) (x : Word) :
    (v.setState t st).place x = if x = t then none else v.place x := by
  unfold BlockView.place BlockView.setState
  by_cases hx : x = t
  · subst hx
    rw [if_pos rfl]
    simp only [update_self]
    exact hst _
  · rw [if_neg hx]
    simp only [update_of_ne hx]

namespace BlockInv

section

variable (h : BlockInv P v q)
include h

theorem null_not_mem : (0 : Word) ∉ q i := (h.waiting.links.queue i).null_not_mem

theorem thread_of_mem (ht : t ∈ q i) : P.thread t := (h.waiting.mem.mp ht).1

theorem object_of_mem (ht : t ∈ q i) : P.object i :=
  h.known (h.thread_of_mem ht) (h.waiting.place_eq ht)

/-- The head of a queue is zero only if the queue is empty. -/
theorem head_eq_zero_iff (hi : P.object i) : (v.queue i).head = 0 ↔ q i = [] := by
  rw [h.ends hi]
  exact headD_eq_null_iff h.null_not_mem

/-- The state of an object that threads wait on is that of its threads. -/
theorem mode_cases (hi : P.object i) :
    v.mode i = none ∨ ∃ st, v.mode i = some st ∧ waitingIn st i.addr = some i := by
  rcases hq : q i with - | ⟨t, l⟩
  · exact .inl ((h.idle hi).mpr hq)
  have ht : t ∈ q i := by simp [hq]
  refine .inr ⟨v.state t, h.mode hi ht, ?_⟩
  have hplace := h.waiting.place_eq ht
  unfold BlockView.place waitingIn at hplace
  unfold waitingIn
  split at hplace
  all_goals first
    | cases hplace; rfl
    | cases hplace

/-- The ends of the queue that a thread leaves. -/
theorem ends_erase (ht : t ∈ q i) :
    (⟨if v.links.prev t = 0 then v.links.next t else (v.queue i).head,
      if v.links.next t = 0 then v.links.prev t else (v.queue i).tail⟩ : TcbQueue) =
      ⟨((q i).erase t).headD 0, ((q i).erase t).getLastD 0⟩ := by
  have hqueue := h.waiting.links.queue i
  rw [h.ends (h.object_of_mem ht), headD_erase hqueue.nodup hqueue.null_not_mem ht,
    getLastD_erase hqueue.nodup hqueue.null_not_mem ht, hqueue.prev_eq t ht, hqueue.next_eq t ht]

/-- A thread that is free stays free. -/
theorem setState (hfree : v.place t = none) (hst : Free st) : BlockInv P (v.setState t st) q := by
  have hplace : ∀ x, (v.setState t st).place x = v.place x := by
    intro x
    rw [place_setState hst]
    by_cases hx : x = t
    · rw [if_pos hx, hx, hfree]
    · rw [if_neg hx]
  refine ⟨h.waiting.congr (fun _ _ => rfl) (fun _ _ => rfl) fun x _ => hplace x, ?_, h.ends, h.idle,
    ?_⟩
  · intro x i hx hi
    rw [hplace] at hi
    exact h.known hx hi
  · intro i x hi hx
    have hxt : x ≠ t := by
      rintro rfl
      exact h.waiting.not_mem hfree hx
    have hstate : (v.setState t st).state x = v.state x := update_of_ne hxt _ _
    rw [hstate]
    exact h.mode hi hx

theorem block (ht : P.thread t) (hfree : v.place t = none) (hi : P.object i)
    (hmode : v.mode i = none ∨ v.mode i = some st) (hst : waitingIn st i.addr = some i)
    (hb : Blocks v v' t i st) : BlockInv P v' (update q i (q i ++ [t])) := by
  have hends := h.ends hi
  have htail : (v.queue i).tail = (q i).getLastD 0 := by rw [hends]
  have hnot : ∀ {j}, t ∉ q j := h.waiting.not_mem hfree
  have hplace : ∀ x, v'.place x = if x = t then some i else v.place x := by
    intro x
    unfold BlockView.place
    rw [hb.state, hb.object]
    by_cases hx : x = t
    · subst hx
      rw [if_pos rfl, update_self, update_self]
      exact hst
    · rw [if_neg hx, update_of_ne hx, update_of_ne hx]
  have hnext := hb.next
  have hprev := hb.prev
  rw [htail] at hnext hprev
  refine ⟨h.waiting.join ht (Population.ne_zero ht) hfree hnext hprev hplace, ?_, ?_, ?_, ?_⟩
  · intro x j hx hj
    rw [hplace] at hj
    split at hj
    · cases hj
      exact hi
    · exact h.known hx hj
  · intro j hj
    rw [hb.queue]
    by_cases hji : j = i
    · subst hji
      rw [update_self, update_self, headD_concat h.null_not_mem, List.getLastD_concat, hends]
    · rw [update_of_ne hji, update_of_ne hji]
      exact h.ends hj
  · intro j hj
    rw [hb.mode]
    by_cases hji : j = i
    · subst hji
      simp
    · rw [update_of_ne hji, update_of_ne hji]
      exact h.idle hj
  · intro j x hj hx
    rw [hb.mode, hb.state]
    by_cases hji : j = i
    · subst hji
      rw [update_self] at hx ⊢
      rcases List.mem_append.mp hx with hq | hq
      · -- who is there already is blocked in the same way
        have hxt : x ≠ t := by
          rintro rfl
          exact hnot hq
        have hm := h.mode hj hq
        rw [update_of_ne hxt, ← hm]
        rcases hmode with hm' | hm'
        · rw [hm'] at hm
          cases hm
        · exact hm'.symm
      · rw [List.mem_singleton.mp hq, update_self]
    · rw [update_of_ne hji] at hx ⊢
      have hxt : x ≠ t := by
        rintro rfl
        exact hnot hx
      rw [update_of_ne hxt]
      exact h.mode hj hx

/-- A queue with a head, for an object that is not idle. -/
theorem exists_head (hi : P.object i) (hm : v.mode i ≠ none) : ∃ t l, q i = t :: l := by
  rcases hq : q i with - | ⟨t, l⟩
  · exact absurd ((h.idle hi).mpr hq) hm
  · exact ⟨t, l, rfl⟩

theorem unblock (ht : t ∈ q i) (hu : Unlinks v v' t i) (hst : Free st) :
    BlockInv P (v'.setState t st) (update q i ((q i).erase t)) := by
  have hqueue := h.waiting.links.queue i
  have hplace' : ∀ x, v'.place x = v.place x := by
    intro x
    unfold BlockView.place
    rw [hu.state, hu.object]
  have hplace : ∀ x, (v'.setState t st).place x = if x = t then none else v.place x := by
    intro x
    rw [place_setState hst, hplace']
  have hends : v'.queue i = ⟨((q i).erase t).headD 0, ((q i).erase t).getLastD 0⟩ := by
    rw [hu.queue, update_self, h.ends_erase ht]
  have hempty : (v'.queue i).head = 0 ↔ (q i).erase t = [] := by
    rw [hends]
    exact headD_eq_null_iff fun hm => hqueue.null_not_mem (List.mem_of_mem_erase hm)
  refine ⟨h.waiting.leave ht (fun y hy _ => hu.next y hy) (fun y hy _ => hu.prev y hy) hplace,
    ?_, ?_, ?_, ?_⟩
  · intro x j hx hj
    rw [hplace] at hj
    split at hj
    · cases hj
    · exact h.known hx hj
  · intro j hj
    show v'.queue j = _
    by_cases hji : j = i
    · subst hji
      rw [update_self]
      exact hends
    · rw [hu.queue, update_of_ne hji, update_of_ne hji]
      exact h.ends hj
  · intro j hj
    show v'.mode j = none ↔ _
    rw [hu.mode]
    by_cases hji : j = i
    · subst hji
      rw [update_self, update_self]
      by_cases he : (v'.queue j).head = 0
      · simp [he, hempty.mp he]
      · rw [if_neg he, h.idle hj]
        refine ⟨fun e => absurd ht (by simp [e]), fun e => absurd (hempty.mpr e) he⟩
    · rw [update_of_ne hji, update_of_ne hji]
      exact h.idle hj
  · intro j x hj hx
    have hxt : x ≠ t ∧ x ∈ q j := by
      by_cases hji : j = i
      · subst hji
        rw [update_self, hqueue.nodup.mem_erase_iff] at hx
        exact hx
      rw [update_of_ne hji] at hx
      refine ⟨?_, hx⟩
      rintro rfl
      exact hji (h.waiting.links.disjoint hx ht)
    have hstate : (v'.setState t st).state x = v.state x := by
      rw [← hu.state]
      exact update_of_ne hxt.1 _ _
    show v'.mode j = _
    rw [hstate, ← h.mode hj hxt.2, hu.mode]
    by_cases hji : j = i
    · subst hji
      rw [update_self] at hx ⊢
      rw [if_neg]
      intro he
      rw [hempty.mp he] at hx
      cases hx
    · rw [update_of_ne hji]

theorem clear (hc : Clears v v' P.thread i st) (hst : Free st) : BlockInv P v' (update q i []) := by
  have hplace : ∀ x, P.thread x → v'.place x = if v.place x = some i then none else v.place x := by
    intro x hx
    rw [BlockView.place, hc.state x hx, hc.object]
    split
    · exact hst _
    · rfl
  have hwaiting := h.waiting.clear hplace
  rw [← hc.links] at hwaiting
  refine ⟨hwaiting, ?_, ?_, ?_, ?_⟩
  · intro x j hx hj
    rw [hplace x hx] at hj
    split at hj
    · cases hj
    · exact h.known hx hj
  · intro j hj
    rw [hc.queue]
    by_cases hji : j = i
    · subst hji
      rw [update_self, update_self]
      rfl
    · rw [update_of_ne hji, update_of_ne hji]
      exact h.ends hj
  · intro j hj
    rw [hc.mode]
    by_cases hji : j = i
    · subst hji
      simp
    · rw [update_of_ne hji, update_of_ne hji]
      exact h.idle hj
  · intro j x hj hx
    by_cases hji : j = i
    · subst hji
      simp at hx
    rw [update_of_ne hji] at hx
    have hxi : v.place x ≠ some i := by
      rw [h.waiting.place_eq hx]
      exact fun e => hji (Option.some.inj e)
    rw [hc.mode, update_of_ne hji, hc.state x (h.thread_of_mem hx), if_neg hxi]
    exact h.mode hj hx

end

end BlockInv

end View

end Rel4.Ipc
