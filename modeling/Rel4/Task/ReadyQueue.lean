import Rel4.Common.Words
import Rel4.Lib.Bitmap
import Rel4.Lib.Queues
import Rel4.Task.SchedFrame

/-!
Ready queues as lists.

The queue of a priority is what the history of insertions leaves of that
priority, in its order (`readyQueue`). `ReadyInv` says that the links of the
TCBs, the ends in `ksReadyQueues` and the two bitmaps represent these lists.
-/

namespace Rel4.Task
open Lib.Bitfield Lib.DList Lib.Queues Lib.Bitmap Common Function
open Task.KernelState
open BitVec (ofNat twoPow toNat_inj toNat_ofNat ofNat_toNat setWidth_eq)
open Rel4.Task.Field (tsTcbQueued)
open KernelState (tsSet setSchedPrev setSchedNext modifyTcb setReadyQueue setL2Bitmap setL1Bitmap
  schedSkipNext removeFromBitmap addToBitmap schedSkipPrev linkBehindTail)

variable {p x : Word} {v : ReadyView} {empty : Bool}

/-! ## What the ready queues consist of -/

/-- The part of the state that the ready queues read and write. -/
structure ReadyView where
  links : Links Word
  queued : Word → Word
  priority : Word → Word
  domain : Word → Word
  mcp : Word → Word
  queues : Word → TcbQueue
  l1 : Word
  l2 : Word → Word
  order : List Word

def readyView (a : Arch) (s : KernelState) : ReadyView where
  links := ⟨fun t => (s.tcbs t).tcbSchedNext, fun t => (s.tcbs t).tcbSchedPrev⟩
  queued := fun t => s.tsGet a t tsTcbQueued
  priority := fun t => (s.tcbs t).tcbPriority
  domain := fun t => (s.tcbs t).domain
  mcp := fun t => (s.tcbs t).tcbMCP
  queues := s.ksReadyQueues
  l1 := s.ksReadyQueuesL1Bitmap 0
  l2 := s.ksReadyQueuesL2Bitmap 0
  order := s.readyOrder

namespace ReadyView

/-- The queue of a priority. -/
def readyQueue (v : ReadyView) (p : Word) : List Word := v.order.filter (v.priority · = p)

/-- The bitmaps of the one domain; the second level is stored backwards. -/
def bitmap (v : ReadyView) : TwoLevel 64 where
  hi := v.l1
  lo := fun i => if i < 4 then v.l2 (ofNat 64 (3 - i)) else 0

end ReadyView

/-- The queues, their ends and the bitmaps represent the ready queues of the
threads. -/
structure ReadyInv (thread : Word → Prop) (v : ReadyView) : Prop where
  address : ∀ {t}, thread t → t ≠ 0
  domain : ∀ {t}, thread t → v.domain t = 0
  priority : ∀ {t}, thread t → (v.priority t).toNat < 256
  mcp : ∀ {t}, thread t → (v.mcp t).toNat < 256
  nodup : v.order.Nodup
  mem_order : ∀ {t}, t ∈ v.order ↔ thread t ∧ v.queued t ≠ 0
  links : Family 0 v.links v.readyQueue
  ends : ∀ {p : Word}, p.toNat < 256 →
    v.queues p = ⟨(v.readyQueue p).headD 0, (v.readyQueue p).getLastD 0⟩
  consistent : v.bitmap.Consistent
  bitmap : ∀ {n}, v.bitmap.Mem n ↔ n < 256 ∧ v.readyQueue (ofNat 64 n) ≠ []

namespace ReadyInv

variable {thread : Word → Prop} {v : ReadyView} {t p : Word}

theorem mem_readyQueue (h : ReadyInv thread v) :
    t ∈ v.readyQueue p ↔ (thread t ∧ v.queued t ≠ 0) ∧ v.priority t = p := by
  rw [ReadyView.readyQueue, List.mem_filter, h.mem_order, decide_eq_true_eq]

end ReadyInv

/-! ## The bitmaps -/

theorem bit_eq_twoPow (hx : x.toNat < 64) : bit x = twoPow 64 x.toNat := by
  rw [bit, toNat_and_63 hx, BitVec.twoPow_eq]
  rfl

namespace ReadyView

theorem toNat_l1index (p : Word) : (prioToL1Index p).toNat = p.toNat / 64 := by
  simp [KernelState.prioToL1Index, wordRadix, BitVec.toNat_ushiftRight, Nat.shiftRight_eq_div_pow]

theorem toNat_l2bit (p : Word) : (p &&& mask 6).toNat = p.toNat % 64 := toNat_and_mask (by decide)

theorem toNat_invertL1Index (hi : i.toNat < 4) : (invertL1Index i).toNat = 3 - i.toNat := by
  have h3 : l2BitmapSize - 1 = (3 : Word) := by decide
  rw [KernelState.invertL1Index, h3, BitVec.toNat_sub_of_le]
  · rfl
  · rw [BitVec.le_def]
    show i.toNat ≤ 3
    omega

/-- The word of a second level that is stored backwards. -/
theorem ofNat_eq_invertL1Index (hp : p.toNat < 256) (hi : i < 4) :
    ofNat 64 (3 - i) = invertL1Index (prioToL1Index p) ↔ i = p.toNat / 64 := by
  have hl1 := toNat_l1index p
  have hinv := toNat_invertL1Index (i := prioToL1Index p) (by omega)
  rw [← toNat_inj, hinv, hl1, toNat_ofNat]
  omega

/-- Two views with the same bitmap words but for one. -/
theorem bitmap_lo_update {v' : ReadyView} (hp : p.toNat < 256)
    (hl2 : v'.l2 = update v.l2 (invertL1Index (prioToL1Index p)) w) :
    v'.bitmap.lo = update v.bitmap.lo (p.toNat / 64) w := by
  funext i
  simp only [bitmap, hl2]
  by_cases hi : i < 4
  · by_cases hip : i = p.toNat / 64
    · rw [if_pos hi, (ofNat_eq_invertL1Index hp hi).mpr hip, update_self, hip, update_self]
    · rw [if_pos hi, update_of_ne (fun e => hip ((ofNat_eq_invertL1Index hp hi).mp e)),
        update_of_ne hip, if_pos hi]
  · have hip : i ≠ p.toNat / 64 := by omega
    rw [if_neg hi, update_of_ne hip, if_neg hi]

theorem bitmap_lo_prio (v : ReadyView) (hp : p.toNat < 256) :
    v.bitmap.lo (p.toNat / 64) = v.l2 (invertL1Index (prioToL1Index p)) := by
  have hi : p.toNat / 64 < 4 := by omega
  simp only [bitmap, if_pos hi, (ofNat_eq_invertL1Index hp hi).mpr rfl]

end ReadyView

section Bitmap

variable {a : Arch} {s : KernelState} {p : Word}

/-- The word of the second level that holds the bit of a priority. -/
def l2word (s : KernelState) (p : Word) : Word :=
  s.ksReadyQueuesL2Bitmap 0 (invertL1Index (prioToL1Index p))

/-- The view with new bitmap words for a priority. -/
def ReadyView.withBitmap (v : ReadyView) (p l1 w : Word) : ReadyView :=
  { v with
    l1 := l1
    l2 := update v.l2 (invertL1Index (prioToL1Index p)) w }

theorem readyView_addToBitmap : readyView a (s.addToBitmap 0 p) = (readyView a s).withBitmap p
      (s.ksReadyQueuesL1Bitmap 0 ||| bit (prioToL1Index p))
      (l2word s p ||| bit (p &&& mask 6)) := by
  rfl

theorem readyView_removeFromBitmap : readyView a (s.removeFromBitmap 0 p) =
    (readyView a s).withBitmap p
      (if l2word s p &&& ~~~bit (p &&& mask 6) = 0 then
        s.ksReadyQueuesL1Bitmap 0 &&& ~~~bit (prioToL1Index p)
      else s.ksReadyQueuesL1Bitmap 0)
      (l2word s p &&& ~~~bit (p &&& mask 6)) := by
  unfold removeFromBitmap setL1Bitmap setL2Bitmap l2word
  simp only [update_self]
  split <;> simp only [readyView, update_self, ReadyView.withBitmap] <;> rfl

theorem bitmap_withBitmap {l1 : Word} (hp : p.toNat < 256) :
    (v.withBitmap p l1 w).bitmap = ⟨l1, update v.bitmap.lo (p.toNat / 64) w⟩ := by
  have hlo : (v.withBitmap p l1 w).bitmap.lo = update v.bitmap.lo (p.toNat / 64) w :=
    ReadyView.bitmap_lo_update hp rfl
  rw [← hlo]
  rfl

theorem bit_l1index (hp : p.toNat < 256) : bit (prioToL1Index p) = twoPow 64 (p.toNat / 64) := by
  have hl1 := ReadyView.toNat_l1index p
  rw [bit_eq_twoPow (by omega), hl1]

theorem bit_l2index (p : Word) : bit (p &&& mask 6) = twoPow 64 (p.toNat % 64) := by
  have hl2 := ReadyView.toNat_l2bit p
  rw [bit_eq_twoPow (by omega), hl2]

/-- `addToBitmap` adds the priority to the set. -/
theorem bitmap_addToBitmap (hp : p.toNat < 256) :
    (readyView a (s.addToBitmap 0 p)).bitmap = (readyView a s).bitmap.insert p.toNat := by
  rw [readyView_addToBitmap, bitmap_withBitmap hp, bit_l1index hp, bit_l2index, TwoLevel.insert,
    ReadyView.bitmap_lo_prio _ hp]
  rfl

/-- `removeFromBitmap` takes it out. -/
theorem bitmap_removeFromBitmap (hp : p.toNat < 256) :
    (readyView a (s.removeFromBitmap 0 p)).bitmap = (readyView a s).bitmap.erase p.toNat := by
  rw [readyView_removeFromBitmap, bitmap_withBitmap hp, bit_l1index hp, bit_l2index,
    TwoLevel.erase, ReadyView.bitmap_lo_prio _ hp]
  rfl

/-- `getHighestPrio` computes the largest member of the set. -/
theorem toNat_getHighestPrio (hc : (readyView a s).bitmap.Consistent)
    (hl1 : s.ksReadyQueuesL1Bitmap 0 ≠ 0) :
    (s.getHighestPrio 0).toNat = (readyView a s).bitmap.highest := by
  let l1 : Word := wordBits - 1 - (s.ksReadyQueuesL1Bitmap 0).clz
  have htop : l1.toNat = 63 - (s.ksReadyQueuesL1Bitmap 0).clz.toNat := toNat_sub_clz hl1
  have hword : (readyView a s).bitmap.lo l1.toNat ≠ 0 := by
    rw [← hc, htop]
    exact BitVec.getLsbD_true_clz_of_ne_zero (by decide) hl1
  have hlt : l1.toNat < 4 := by
    by_contra hge
    exact hword (if_neg hge)
  have hlo : (readyView a s).bitmap.lo l1.toNat = s.ksReadyQueuesL2Bitmap 0 (invertL1Index l1) := by
    have hinv := ReadyView.toNat_invertL1Index hlt
    have hidx : ofNat 64 (3 - l1.toNat) = invertL1Index l1 := by
      rw [← toNat_inj, hinv, toNat_ofNat]
      omega
    simp only [ReadyView.bitmap, if_pos hlt, hidx]
    rfl
  have hbit := toNat_sub_clz (hlo ▸ hword)
  show ((l1 <<< wordRadix) |||
    (wordBits - 1 - (s.ksReadyQueuesL2Bitmap 0 (invertL1Index l1)).clz)).toNat = _
  rw [BitVec.toNat_or, hbit, BitVec.toNat_shiftLeft]
  have hshift : l1.toNat <<< wordRadix % 2 ^ 64 = l1.toNat <<< 6 := by
    rw [wordRadix, Nat.shiftLeft_eq]
    omega
  rw [hshift, ← Nat.shiftLeft_add_eq_or_of_lt (by omega), Nat.shiftLeft_eq]
  have hhi : 64 - 1 - (readyView a s).bitmap.hi.clz.toNat = l1.toNat := htop.symm
  unfold TwoLevel.highest
  simp only
  rw [hhi, hlo]
  omega

end Bitmap

/-! ## Joining and leaving a queue

What the two operations do to the view, and that the invariant is kept. -/

/-- The thread stands at the back of the queue of its priority. -/
structure Joins (v v' : ReadyView) (t : Word) : Prop where
  next : ∀ x, x ≠ 0 → v'.links.next x =
    (pushBack 0 v.links ((v.readyQueue (v.priority t)).getLastD 0) t).next x
  prev : ∀ x, v'.links.prev x =
    (pushBack 0 v.links ((v.readyQueue (v.priority t)).getLastD 0) t).prev x
  queued : v'.queued = update v.queued t 1
  priority : v'.priority = v.priority
  domain : v'.domain = v.domain
  mcp : v'.mcp = v.mcp
  queues : v'.queues = update v.queues (v.priority t)
    ⟨if v.readyQueue (v.priority t) = [] then t else (v.queues (v.priority t)).head, t⟩
  bitmap : v'.bitmap =
    if v.readyQueue (v.priority t) = [] then v.bitmap.insert (v.priority t).toNat else v.bitmap
  order : v'.order = v.order ++ [t]

/-- The thread is taken out of the queue of its priority. -/
structure Leaves (v v' : ReadyView) (t : Word) : Prop where
  next : ∀ x, x ≠ 0 → x ≠ t → v'.links.next x = (skip v.links t).next x
  prev : ∀ x, x ≠ 0 → x ≠ t → v'.links.prev x = (skip v.links t).prev x
  queued : v'.queued = update v.queued t 0
  priority : v'.priority = v.priority
  domain : v'.domain = v.domain
  mcp : v'.mcp = v.mcp
  queues : v'.queues = update v.queues (v.priority t)
    ⟨if v.links.prev t = 0 then v.links.next t else (v.queues (v.priority t)).head,
      if v.links.next t = 0 then v.links.prev t else (v.queues (v.priority t)).tail⟩
  bitmap : v'.bitmap =
    if v.links.prev t = 0 ∧ v.links.next t = 0 then v.bitmap.erase (v.priority t).toNat
    else v.bitmap
  order : v'.order = v.order.erase t

section Views

variable {thread : Word → Prop} {v v' : ReadyView} {t : Word}

theorem Joins.readyQueue (h : Joins v v' t) : v'.readyQueue = update v.readyQueue (v.priority t)
      (v.readyQueue (v.priority t) ++ [t]) := by
  funext p
  simp only [ReadyView.readyQueue, h.order, h.priority, List.filter_append]
  by_cases hp : p = v.priority t
  · subst hp
    simp
  · simp [update_of_ne hp, Ne.symm hp, ReadyView.readyQueue]

theorem Leaves.readyQueue (h : Leaves v v' t) : v'.readyQueue = update v.readyQueue (v.priority t)
      ((v.readyQueue (v.priority t)).erase t) := by
  funext p
  simp only [ReadyView.readyQueue, h.order, h.priority]
  by_cases hp : p = v.priority t
  · subst hp
    rw [update_self, List.erase_filter]
  · rw [update_of_ne hp, ReadyView.readyQueue, ← List.erase_filter, List.erase_of_not_mem]
    simp [Ne.symm hp]

theorem bitmap_ofNat_ne (hn : n < 256) (hne : n ≠ p.toNat) : ofNat 64 n ≠ p := by
  intro e
  apply hne
  rw [← e, toNat_ofNat]
  omega

theorem ReadyInv.join (h : ReadyInv thread v) (ht : thread t) (hq : v.queued t = 0)
    (hj : Joins v v' t) : ReadyInv thread v' := by
  have hnot : t ∉ v.order := fun hm => (h.mem_order.mp hm).2 hq
  have hnotq : ∀ p, t ∉ v.readyQueue p := fun p hm => hnot (List.mem_filter.mp hm).1
  have hprio := h.priority ht
  have hnull : ∀ p, (0 : Word) ∉ v.readyQueue p := fun p => (h.links.queue p).null_not_mem
  refine
    { address := h.address
      domain := fun hx => by rw [hj.domain]; exact h.domain hx
      priority := fun hx => by rw [hj.priority]; exact h.priority hx
      mcp := fun hx => by rw [hj.mcp]; exact h.mcp hx
      nodup := ?_, mem_order := ?_, links := ?_, ends := ?_, consistent := ?_, bitmap := ?_ }
  · rw [hj.order]
    exact h.nodup.append (List.nodup_singleton t) (by simpa using hnot)
  · intro x
    rw [hj.order, hj.queued, List.mem_append, h.mem_order, List.mem_singleton]
    by_cases hx : x = t
    · subst hx
      simp [ht]
    · simp [hx]
  · rw [hj.readyQueue]
    have hfam := h.links.pushBack (i := v.priority t) hnotq (h.address ht)
    refine hfam.congr (fun p x hx => hj.next x ?_) fun p x _ => hj.prev x
    exact (hfam.queue p).ne_null hx
  · intro p hp
    rw [hj.queues, hj.readyQueue]
    by_cases hpt : p = v.priority t
    · subst hpt
      rw [update_self, update_self, headD_concat (hnull _), List.getLastD_concat, h.ends hp]
      simp only [headD_eq_null_iff (hnull _)]
    · rw [update_of_ne hpt, update_of_ne hpt]
      exact h.ends hp
  · rw [hj.bitmap]
    split
    · exact h.consistent.insert (by decide) (by omega)
    · exact h.consistent
  · intro n
    rw [hj.bitmap, hj.readyQueue]
    by_cases hn : n = (v.priority t).toNat
    · subst hn
      rw [ofNat_toNat, setWidth_eq, update_self]
      have hmem := h.bitmap (n := (v.priority t).toNat)
      rw [ofNat_toNat, setWidth_eq] at hmem
      split
      · simp [TwoLevel.mem_insert, hprio]
      · rename_i hne
        simp [hmem, hprio, hne]
    · have hother : n < 256 ∧ update v.readyQueue (v.priority t)
            (v.readyQueue (v.priority t) ++ [t]) (ofNat 64 n) ≠ [] ↔
          n < 256 ∧ v.readyQueue (ofNat 64 n) ≠ [] := by
        refine and_congr_right fun hlt => ?_
        rw [update_of_ne (bitmap_ofNat_ne hlt hn)]
      rw [hother, ← h.bitmap]
      split
      · simp [TwoLevel.mem_insert, hn]
      · rfl

theorem ReadyInv.leave (h : ReadyInv thread v) (ht : thread t) (hq : v.queued t ≠ 0)
    (hl : Leaves v v' t) : ReadyInv thread v' := by
  have hmem : t ∈ v.readyQueue (v.priority t) := h.mem_readyQueue.mpr ⟨⟨ht, hq⟩, rfl⟩
  have hprio := h.priority ht
  have hqueue := h.links.queue (v.priority t)
  have hprev := hqueue.prev_eq t hmem
  have hnext := hqueue.next_eq t hmem
  refine
    { address := h.address
      domain := fun hx => by rw [hl.domain]; exact h.domain hx
      priority := fun hx => by rw [hl.priority]; exact h.priority hx
      mcp := fun hx => by rw [hl.mcp]; exact h.mcp hx
      nodup := ?_, mem_order := ?_, links := ?_, ends := ?_, consistent := ?_, bitmap := ?_ }
  · rw [hl.order]
    exact h.nodup.erase t
  · intro x
    rw [hl.order, hl.queued, h.nodup.mem_erase_iff, h.mem_order]
    by_cases hx : x = t
    · subst hx
      simp
    · simp [hx]
  · rw [hl.readyQueue]
    have hfam := h.links.remove hmem
    have hne : ∀ p x, x ∈ update v.readyQueue (v.priority t)
        ((v.readyQueue (v.priority t)).erase t) p → x ≠ t := by
      rintro p x hx rfl
      by_cases hp : p = v.priority x
      · subst hp
        rw [update_self, hqueue.nodup.mem_erase_iff] at hx
        exact hx.1 rfl
      · rw [update_of_ne hp] at hx
        exact hp (h.links.disjoint hx hmem)
    exact hfam.congr (fun p x hx => hl.next x ((hfam.queue p).ne_null hx) (hne p x hx))
      fun p x hx => hl.prev x ((hfam.queue p).ne_null hx) (hne p x hx)
  · intro p hp
    rw [hl.queues, hl.readyQueue]
    by_cases hpt : p = v.priority t
    · subst hpt
      rw [update_self, update_self, headD_erase hqueue.nodup hqueue.null_not_mem hmem,
        getLastD_erase hqueue.nodup hqueue.null_not_mem hmem, ← hprev, ← hnext, h.ends hp]
    · rw [update_of_ne hpt, update_of_ne hpt]
      exact h.ends hp
  · rw [hl.bitmap]
    split
    · exact h.consistent.erase
    · exact h.consistent
  · intro n
    rw [hl.bitmap, hl.readyQueue]
    by_cases hn : n = (v.priority t).toNat
    · subst hn
      have hempty := hqueue.erase_eq_nil_iff hmem
      rw [ofNat_toNat, setWidth_eq, update_self, ne_eq, hempty]
      have hold := h.bitmap (n := (v.priority t).toNat)
      rw [ofNat_toNat, setWidth_eq] at hold
      split
      · rename_i hends
        simp [TwoLevel.mem_erase, hends]
      · rename_i hends
        rw [hold]
        exact ⟨fun _ => ⟨hprio, hends⟩, fun _ => ⟨hprio, List.ne_nil_of_mem hmem⟩⟩
    · have hother : n < 256 ∧ update v.readyQueue (v.priority t)
            ((v.readyQueue (v.priority t)).erase t) (ofNat 64 n) ≠ [] ↔
          n < 256 ∧ v.readyQueue (ofNat 64 n) ≠ [] := by
        refine and_congr_right fun hlt => ?_
        rw [update_of_ne (bitmap_ofNat_ne hlt hn)]
      rw [hother, ← h.bitmap]
      split
      · simp [TwoLevel.mem_erase, hn]
      · rfl

/-- New parameters for threads; those in a queue keep their priority. -/
theorem ReadyInv.setParams (h : ReadyInv thread v) {priority domain mcp : Word → Word}
    (hqueued : ∀ x ∈ v.order, priority x = v.priority x)
    (hprio : ∀ x, thread x → (priority x).toNat < 256) (hdom : ∀ x, thread x → domain x = 0)
    (hmcp : ∀ x, thread x → (mcp x).toNat < 256) :
    ReadyInv thread { v with priority := priority, domain := domain, mcp := mcp } := by
  have hqueue : ∀ p, ({ v with priority := priority, domain := domain, mcp := mcp } :
      ReadyView).readyQueue p = v.readyQueue p := by
    intro p
    refine List.filter_congr fun x hx => ?_
    simp only [hqueued x hx]
  exact
    { address := h.address, domain := hdom _, priority := hprio _, mcp := hmcp _, nodup := h.nodup
      mem_order := h.mem_order, links := h.links.of_eq hqueue
      ends := fun hp => by rw [hqueue]; exact h.ends hp
      consistent := h.consistent
      bitmap := by
        intro n
        rw [hqueue]
        exact h.bitmap }

end Views

section Steps

variable {a : Arch} {thread : Word → Prop} {s : KernelState} {t p : Word}

/-- The queue index of a thread of the one domain is its priority. -/
theorem readyQueuesIndex_zero (p : Word) : readyQueuesIndex 0 p = p := by
  simp [KernelState.readyQueuesIndex]

theorem ReadyInv.index (h : ReadyInv thread (readyView a s)) (ht : thread t) :
    readyQueuesIndex (s.tcbs t).domain (s.tcbs t).tcbPriority =
      (s.tcbs t).tcbPriority := by
  have hdom : (s.tcbs t).domain = 0 := h.domain ht
  rw [hdom, readyQueuesIndex_zero]

/-- The TCBs after `t` has been linked behind the tail. -/
theorem tcbs_linkBehindTail
    (hidx : readyQueuesIndex (s.tcbs t).domain (s.tcbs t).tcbPriority = (s.tcbs t).tcbPriority)
    (htail : (s.ksReadyQueues (s.tcbs t).tcbPriority).tail = tail) (hne : tail ≠ t) (x : Word) :
    (s.linkBehindTail t empty).tcbs x =
      if x = t then
        { s.tcbs t with
          tcbSchedPrev := tail
          tcbSchedNext := 0
          tcbState := tsTcbQueued.set (s.tcbs t).tcbState 1 }
      else if empty = false ∧ x = tail then { s.tcbs x with tcbSchedNext := t }
      else s.tcbs x := by
  unfold linkBehindTail
  simp only [hidx, htail]
  cases empty with
  | true =>
    by_cases hx : x = t
    · subst hx
      simp [tsSet, setSchedNext, setSchedPrev,
        setReadyQueue, addToBitmap, setL1Bitmap,
        setL2Bitmap, modifyTcb]
    · simp [tsSet, setSchedNext, setSchedPrev,
        setReadyQueue, addToBitmap, setL1Bitmap,
        setL2Bitmap, modifyTcb, hx]
  | false =>
    by_cases hx : x = t
    · subst hx
      simp [tsSet, setSchedNext, setSchedPrev,
        setReadyQueue, modifyTcb, hne.symm]
    by_cases hxt : x = tail
    · subst hxt
      simp [tsSet, setSchedNext, setSchedPrev,
        setReadyQueue, modifyTcb, hx]
    · simp [tsSet, setSchedNext, setSchedPrev,
        setReadyQueue, modifyTcb, hx, hxt]

/-- What scheduling does not change of a view. -/
theorem readyView_of_schedEq (h : KernelState.SchedEq s' s) :
    (readyView a s').priority = (readyView a s).priority ∧
      (readyView a s').domain = (readyView a s).domain ∧
      (readyView a s').mcp = (readyView a s).mcp := by
  exact ⟨funext (h.proj Tcb.tcbPriority), funext (h.proj Tcb.domain), funext (h.proj Tcb.tcbMCP)⟩

theorem queued_set (hx : tsTcbQueued.Canonical (signExt a) x) :
    tsTcbQueued.get (signExt a) (tsTcbQueued.set w x) = x :=
  get_set_self (by decide) hx

section

variable (h : ReadyInv thread (readyView a s)) (ht : thread t)
include h ht

theorem joins_linkBehindTail (hq : s.tsGet a t tsTcbQueued = 0)
    (hempty : empty = true ↔ (readyView a s).readyQueue (s.tcbs t).tcbPriority = []) :
    Joins (readyView a s) (readyView a (s.linkBehindTail t empty)) t := by
  have hdom : (s.tcbs t).domain = 0 := h.domain ht
  have hprio : (s.tcbs t).tcbPriority.toNat < 256 := h.priority ht
  have hends := h.ends hprio
  have htail : (s.ksReadyQueues (s.tcbs t).tcbPriority).tail =
      ((readyView a s).readyQueue (s.tcbs t).tcbPriority).getLastD 0 :=
    congrArg TcbQueue.tail hends
  have hnot : t ∉ (readyView a s).readyQueue (s.tcbs t).tcbPriority := fun hm =>
    (h.mem_readyQueue.mp hm).1.2 hq
  have hne : ((readyView a s).readyQueue (s.tcbs t).tcbPriority).getLastD 0 ≠ t := by
    intro e
    rcases getLastD_mem_or ((readyView a s).readyQueue (s.tcbs t).tcbPriority) 0 with h0 | hm
    · exact h.address ht (e.symm.trans h0)
    · rw [e] at hm
      exact hnot hm
  have htcbs : ∀ x, (s.linkBehindTail t empty).tcbs x = _ :=
    tcbs_linkBehindTail (h.index ht) htail hne
  obtain ⟨hprio', hdom', hmcp'⟩ := readyView_of_schedEq (schedEq_linkBehindTail empty)
  refine
    { next := fun x hx => ?_, prev := fun x => ?_, queued := funext fun x => ?_
      priority := hprio', domain := hdom', mcp := hmcp'
      queues := ?_, bitmap := ?_, order := ?_ }
  · show ((s.linkBehindTail t empty).tcbs x).tcbSchedNext = _
    rw [htcbs]
    simp only [pushBack]
    by_cases hxt : x = t
    · rw [if_pos hxt, if_pos hxt]
    rw [if_neg hxt, if_neg hxt]
    by_cases hxl : x = ((readyView a s).readyQueue (s.tcbs t).tcbPriority).getLastD 0
    · -- a last thread that is not null is in a queue that is not empty
      have hfull : empty = false := by
        rw [Bool.eq_false_iff]
        intro he
        rw [hempty.mp he] at hxl
        exact hx hxl
      rw [if_pos ⟨hfull, hxl⟩]
      exact (if_pos hxl).symm
    · rw [if_neg fun h => hxl h.2]
      exact (if_neg hxl).symm
  · show ((s.linkBehindTail t empty).tcbs x).tcbSchedPrev = _
    rw [htcbs]
    simp only [pushBack]
    by_cases hxt : x = t
    · rw [if_pos hxt, if_pos hxt]
      rfl
    rw [if_neg hxt, if_neg hxt]
    split <;> rfl
  · show tsTcbQueued.get (signExt a) ((s.linkBehindTail t empty).tcbs x).tcbState = _
    rw [htcbs]
    by_cases hxt : x = t
    · rw [if_pos hxt, hxt, update_self]
      exact queued_set (by cases a <;> decide)
    rw [if_neg hxt, update_of_ne hxt]
    split <;> rfl
  · show (s.linkBehindTail t empty).ksReadyQueues = update s.ksReadyQueues
      (s.tcbs t).tcbPriority ⟨if (readyView a s).readyQueue (s.tcbs t).tcbPriority = [] then t
        else (s.ksReadyQueues (s.tcbs t).tcbPriority).head, t⟩
    simp only [← hempty]
    unfold linkBehindTail
    simp only [h.index ht]
    cases empty with
    | true => simp [setReadyQueue, tsSet, setSchedNext,
        setSchedPrev, modifyTcb, addToBitmap,
        setL1Bitmap, setL2Bitmap]
    | false => simp [setReadyQueue, tsSet, setSchedNext,
        setSchedPrev, modifyTcb]
  · show (readyView a (s.linkBehindTail t empty)).bitmap =
      if (readyView a s).readyQueue (s.tcbs t).tcbPriority = [] then
        (readyView a s).bitmap.insert (s.tcbs t).tcbPriority.toNat else (readyView a s).bitmap
    simp only [← hempty]
    cases empty with
    | true =>
      rw [if_pos rfl, ← bitmap_addToBitmap hprio, ← hdom]
      rfl
    | false => rfl
  · cases empty <;> rfl

theorem joins_schedEnqueue (hq : s.tsGet a t tsTcbQueued = 0) :
    Joins (readyView a s) (readyView a (s.schedEnqueue a t)) t := by
  have hprio : (s.tcbs t).tcbPriority.toNat < 256 := h.priority ht
  have htail := congrArg TcbQueue.tail (h.ends hprio)
  rw [KernelState.schedEnqueue, if_pos hq]
  refine joins_linkBehindTail h ht hq ?_
  rw [decide_eq_true_eq, h.index ht]
  rw [← getLastD_eq_null_iff (h.links.queue _).null_not_mem]
  exact Eq.congr_left htail

theorem joins_schedAppend (hq : s.tsGet a t tsTcbQueued = 0) :
    Joins (readyView a s) (readyView a (s.schedAppend a t)) t := by
  have hprio : (s.tcbs t).tcbPriority.toNat < 256 := h.priority ht
  have hhead := congrArg TcbQueue.head (h.ends hprio)
  rw [KernelState.schedAppend, if_pos hq]
  refine joins_linkBehindTail h ht hq ?_
  rw [decide_eq_true_eq, h.index ht]
  rw [← headD_eq_null_iff (h.links.queue _).null_not_mem]
  exact Eq.congr_left hhead

theorem ReadyInv.schedEnqueue : ReadyInv thread (readyView a (s.schedEnqueue a t)) := by
  by_cases hq : s.tsGet a t tsTcbQueued = 0
  · exact h.join ht hq (joins_schedEnqueue h ht hq)
  · rwa [KernelState.schedEnqueue, if_neg hq]

theorem ReadyInv.schedAppend : ReadyInv thread (readyView a (s.schedAppend a t)) := by
  by_cases hq : s.tsGet a t tsTcbQueued = 0
  · exact h.join ht hq (joins_schedAppend h ht hq)
  · rwa [KernelState.schedAppend, if_neg hq]

/-- A thread that is enqueued is in its queue, and those in the queues stay there. -/
theorem ReadyInv.queued_schedEnqueue (x : Word) :
    (readyView a (s.schedEnqueue a t)).queued x ≠ 0 ↔ x = t ∨ (readyView a s).queued x ≠ 0 := by
  by_cases hq : s.tsGet a t tsTcbQueued = 0
  · rw [(joins_schedEnqueue h ht hq).queued, update_apply]
    by_cases hx : x = t
    · simp [hx]
    · simp [hx]
  · rw [KernelState.schedEnqueue, if_neg hq]
    refine ⟨.inr, fun hx => ?_⟩
    rcases hx with rfl | hx
    · exact hq
    · exact hx

end

theorem tcbs_removeFromBitmap (dom prio : Word) : (s.removeFromBitmap dom prio).tcbs = s.tcbs := by
  unfold removeFromBitmap
  simp only
  split <;> rfl

theorem tcbs_schedSkipNext (hx : x ≠ 0) : (s.schedSkipNext t).tcbs x =
      { s.tcbs x with tcbSchedNext :=
          if x = (s.tcbs t).tcbSchedPrev then (s.tcbs t).tcbSchedNext
          else (s.tcbs x).tcbSchedNext } := by
  unfold schedSkipNext
  simp only
  split
  · rw [setSchedNext, tcbs_modifyTcb]
    split
    · rename_i hxp
      rw [← hxp]
    · rfl
  · rename_i hp
    have hxp : x ≠ (s.tcbs t).tcbSchedPrev := fun e => hp fun h0 => hx (e.trans h0)
    rw [if_neg hxp]
    split
    · rw [tcbs_removeFromBitmap]
      rfl
    · rfl

theorem tcbs_schedSkipPrev (hx : x ≠ 0) : (s.schedSkipPrev t).tcbs x =
      { s.tcbs x with tcbSchedPrev :=
          if x = (s.tcbs t).tcbSchedNext then (s.tcbs t).tcbSchedPrev
          else (s.tcbs x).tcbSchedPrev } := by
  unfold schedSkipPrev
  split
  · rw [setSchedPrev, tcbs_modifyTcb]
    split
    · rename_i hxn
      rw [← hxn]
    · rfl
  · rename_i hn
    have hxn : x ≠ (s.tcbs t).tcbSchedNext := fun e => hn fun h0 => hx (e.trans h0)
    rw [if_neg hxn]
    rfl

theorem queues_schedSkipNext
    (hi : readyQueuesIndex (s.tcbs t).domain (s.tcbs t).tcbPriority = i) :
    (s.schedSkipNext t).ksReadyQueues = update s.ksReadyQueues i
      ⟨if (s.tcbs t).tcbSchedPrev = 0 then (s.tcbs t).tcbSchedNext else (s.ksReadyQueues i).head,
        (s.ksReadyQueues i).tail⟩ := by
  subst hi
  unfold schedSkipNext
  simp only
  split
  · rw [update_eq_self]
    rfl
  rename_i hp
  rw [if_pos (not_not.mp hp)]
  split
  · unfold removeFromBitmap
    simp only
    split <;> rfl
  · rfl

theorem queues_schedSkipPrev
    (hi : readyQueuesIndex (s.tcbs t).domain (s.tcbs t).tcbPriority = i) :
    (s.schedSkipPrev t).ksReadyQueues = update s.ksReadyQueues i ⟨(s.ksReadyQueues i).head,
      if (s.tcbs t).tcbSchedNext = 0 then (s.tcbs t).tcbSchedPrev
      else (s.ksReadyQueues i).tail⟩ := by
  subst hi
  unfold schedSkipPrev
  split
  · rw [update_eq_self]
    rfl
  · rename_i hn
    rw [if_pos (not_not.mp hn)]
    rfl

theorem bitmap_schedSkipNext (hdom : (s.tcbs t).domain = 0)
    (hprio : (s.tcbs t).tcbPriority.toNat < 256) :
    (readyView a (s.schedSkipNext t)).bitmap =
      if (s.tcbs t).tcbSchedPrev = 0 ∧ (s.tcbs t).tcbSchedNext = 0 then
        (readyView a s).bitmap.erase (s.tcbs t).tcbPriority.toNat
      else (readyView a s).bitmap := by
  unfold schedSkipNext
  simp only [hdom]
  split
  · rename_i hp
    rw [if_neg fun h => hp h.1]
    rfl
  rename_i hp
  split
  · rename_i hn
    rw [if_pos ⟨not_not.mp hp, hn⟩, bitmap_removeFromBitmap hprio]
    rfl
  · rename_i hn
    rw [if_neg fun h => hn h.2]
    rfl

/-- The halves write links, ends and the bitmap only. -/
theorem skip_frame (x : Word) :
    (((s.schedSkipNext t).schedSkipPrev t).tcbs x).tcbState = (s.tcbs x).tcbState ∧
      ((s.schedSkipNext t).schedSkipPrev t).readyOrder = s.readyOrder ∧
      (readyView a ((s.schedSkipNext t).schedSkipPrev t)).bitmap =
        (readyView a (s.schedSkipNext t)).bitmap := by
  have hfirst : ((s.schedSkipNext t).tcbs x).tcbState = (s.tcbs x).tcbState ∧
      (s.schedSkipNext t).readyOrder = s.readyOrder := by
    unfold schedSkipNext
    simp only
    split
    · rw [setSchedNext, tcbs_modifyTcb]
      refine ⟨?_, rfl⟩
      split
      · rename_i hx
        rw [hx]
      · rfl
    · split
      · rw [tcbs_removeFromBitmap]
        refine ⟨rfl, ?_⟩
        unfold removeFromBitmap
        simp only
        split <;> rfl
      · exact ⟨rfl, rfl⟩
  rw [← hfirst.1, ← hfirst.2]
  generalize s.schedSkipNext t = s₁
  unfold schedSkipPrev
  split
  · refine ⟨?_, rfl, rfl⟩
    rw [setSchedPrev, tcbs_modifyTcb]
    split
    · rename_i hx
      rw [hx]
    · rfl
  · exact ⟨rfl, rfl, rfl⟩

section

variable (h : ReadyInv thread (readyView a s))
include h

theorem leaves_schedDequeue (ht : thread t) (hq : s.tsGet a t tsTcbQueued ≠ 0) :
    Leaves (readyView a s) (readyView a (s.schedDequeue a t)) t := by
  have hmem : t ∈ (readyView a s).readyQueue (s.tcbs t).tcbPriority :=
    h.mem_readyQueue.mpr ⟨⟨ht, hq⟩, rfl⟩
  have hqueue := h.links.queue (s.tcbs t).tcbPriority
  have ht0 : t ≠ 0 := h.address ht
  have hdom : (s.tcbs t).domain = 0 := h.domain ht
  have hprio : (s.tcbs t).tcbPriority.toNat < 256 := h.priority ht
  -- a thread of a queue is not its own neighbour
  have hprev : t ≠ (s.tcbs t).tcbSchedPrev := hqueue.ne_prev hmem
  have hself : (s.schedSkipNext t).tcbs t = s.tcbs t := by
    rw [tcbs_schedSkipNext ht0, if_neg hprev]
  have hs : s.schedDequeue a t =
      { ((s.schedSkipNext t).schedSkipPrev t).tsSet t tsTcbQueued 0 with
        readyOrder := ((s.schedSkipNext t).schedSkipPrev t).readyOrder.erase t } := if_pos hq
  have htcbs : ∀ x, x ≠ 0 → x ≠ t → (s.schedDequeue a t).tcbs x =
      { s.tcbs x with
        tcbSchedNext := if x = (s.tcbs t).tcbSchedPrev then (s.tcbs t).tcbSchedNext
          else (s.tcbs x).tcbSchedNext
        tcbSchedPrev := if x = (s.tcbs t).tcbSchedNext then (s.tcbs t).tcbSchedPrev
          else (s.tcbs x).tcbSchedPrev } := by
    intro x hx hxt
    rw [hs]
    rw [tsSet, tcbs_modifyTcb, if_neg hxt, tcbs_schedSkipPrev hx, hself,
      tcbs_schedSkipNext hx]
  obtain ⟨hprio', hdom', hmcp'⟩ := readyView_of_schedEq (schedEq_schedDequeue)
  refine
    { next := fun x hx hxt => ?_, prev := fun x hx hxt => ?_, queued := funext fun x => ?_
      priority := hprio', domain := hdom', mcp := hmcp'
      queues := ?_, bitmap := ?_, order := ?_ }
  · show ((s.schedDequeue a t).tcbs x).tcbSchedNext = _
    rw [htcbs x hx hxt]
    rfl
  · show ((s.schedDequeue a t).tcbs x).tcbSchedPrev = _
    rw [htcbs x hx hxt]
    rfl
  · rw [hs]
    show tsTcbQueued.get (signExt a)
      (((s.schedSkipNext t).schedSkipPrev t).tsSet t tsTcbQueued 0 |>.tcbs x).tcbState = _
    rw [tsSet, tcbs_modifyTcb]
    by_cases hxt : x = t
    · rw [if_pos hxt, hxt, update_self]
      exact queued_set (by cases a <;> decide)
    · rw [if_neg hxt, update_of_ne hxt, (skip_frame (a := a) x).1]
      rfl
  · rw [hs]
    show ((s.schedSkipNext t).schedSkipPrev t).ksReadyQueues = _
    have hindex := h.index ht
    rw [queues_schedSkipPrev (hself.symm ▸ hindex), hself, queues_schedSkipNext hindex, update_idem,
      update_self]
    rfl
  · rw [hs]
    show (readyView a ((s.schedSkipNext t).schedSkipPrev t)).bitmap = _
    rw [(skip_frame t).2.2, bitmap_schedSkipNext hdom hprio]
    rfl
  · rw [hs]
    exact congrArg (·.erase t) (skip_frame (a := a) t).2.1

theorem ReadyInv.schedDequeue (ht : thread t) :
    ReadyInv thread (readyView a (s.schedDequeue a t)) := by
  by_cases hq : s.tsGet a t tsTcbQueued = 0
  · rw [KernelState.schedDequeue, if_neg (not_not.mpr hq)]
    exact h
  · exact h.leave ht hq (leaves_schedDequeue h ht hq)

/-! ## The highest priority -/

/-- The priority that the two counts of leading zeros give is the largest one
with a queue. -/
theorem ReadyInv.highest (hl1 : s.ksReadyQueuesL1Bitmap 0 ≠ 0) :
    (s.getHighestPrio 0).toNat < 256 ∧ (readyView a s).readyQueue (s.getHighestPrio 0) ≠ [] ∧
      ∀ p : Word, p.toNat < 256 → (readyView a s).readyQueue p ≠ [] →
        p.toNat ≤ (s.getHighestPrio 0).toNat := by
  have hprio := toNat_getHighestPrio h.consistent hl1
  obtain ⟨hlt, hne⟩ := h.bitmap.mp (TwoLevel.highest_mem h.consistent (by decide) hl1)
  rw [← hprio] at hlt hne
  rw [ofNat_toNat, setWidth_eq] at hne
  refine ⟨hlt, hne, fun p hp hq => ?_⟩
  rw [hprio]
  refine TwoLevel.le_highest h.consistent (h.bitmap.mpr ⟨hp, ?_⟩)
  rw [ofNat_toNat, setWidth_eq]
  exact hq

/-- The head that `chooseThread` takes is a thread of that queue. -/
theorem ReadyInv.highest_head (hl1 : s.ksReadyQueuesL1Bitmap 0 ≠ 0) :
    thread (s.ksReadyQueues (readyQueuesIndex 0 (s.getHighestPrio 0))).head ∧
      (s.ksReadyQueues (readyQueuesIndex 0 (s.getHighestPrio 0))).head ∈
        (readyView a s).readyQueue (s.getHighestPrio 0) := by
  obtain ⟨hlt, hne, -⟩ := h.highest hl1
  have hhead : (s.ksReadyQueues (s.getHighestPrio 0)).head =
      ((readyView a s).readyQueue (s.getHighestPrio 0)).headD 0 :=
    congrArg TcbQueue.head (h.ends hlt)
  have hmem : (s.ksReadyQueues (s.getHighestPrio 0)).head ∈
      (readyView a s).readyQueue (s.getHighestPrio 0) := by
    have hnull := (h.links.queue (s.getHighestPrio 0)).null_not_mem
    rw [hhead]
    exact (headD_mem_or ((readyView a s).readyQueue (s.getHighestPrio 0)) 0).resolve_left
      fun h0 => hne ((headD_eq_null_iff hnull).mp h0)
  rw [readyQueuesIndex_zero]
  exact ⟨(h.mem_readyQueue.mp hmem).1.1, hmem⟩

end

end Steps

end Rel4.Task
