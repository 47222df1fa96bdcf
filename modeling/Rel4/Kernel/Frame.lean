import Rel4.Common.Words
import Rel4.Ipc.QueueFrame
import Rel4.Kernel.Delete

/-!
Scheduling and the cancellation of messages change threads, queues and
endpoints, never capability slots. `CSpaceView` is the part of the state that
they leave alone. Finalising an architecture cap changes page tables, the ASID
table and the user's root only (`VSpaceEq`).
-/

namespace Rel4.Kernel
open Lib.Bitfield Common CSpace Rel4.Task Ipc VSpace

variable {a : Arch} {slot : Word} {cap : CapT} {s s' : KernelState}

/-! ## Address spaces -/

def eraseVSpace (s : KernelState) : KernelState :=
  { s with
    userMemory := fun _ => 0
    asidTable := fun _ => 0
    userRoot := 0
    currentLookupFault := fun _ => 0 }

/-- The states differ in address spaces and in the recorded lookup fault only. -/
def VSpaceEq (s s' : KernelState) : Prop := eraseVSpace s = eraseVSpace s'

namespace VSpaceEq

variable {a : Arch} {s s' : KernelState}

theorem trans (h : VSpaceEq s s') (h' : VSpaceEq s' s'') : VSpaceEq s s'' := Eq.trans h h'

theorem proj (h : VSpaceEq s s') {β : Sort _} (f : KernelState → β)
    (hf : ∀ s, f (eraseVSpace s) = f s := by exact fun _ => rfl) : f s = f s' := by
  rw [← hf s, ← hf s', show eraseVSpace s = eraseVSpace s' from h]

theorem tcbs (h : VSpaceEq s s') : s.tcbs = s'.tcbs := h.proj (·.tcbs)

theorem setVmRoot (cap : CapT) : VSpaceEq (setVmRoot a s cap).1 s := by
  unfold VSpace.setVmRoot
  cases a with
  | aarch64 => rfl
  | riscv64 =>
    simp only
    split
    · rfl
    · split <;> rfl

theorem recordLookupFault (h : VSpaceEq r.1 s) : VSpaceEq (recordLookupFault r) s := by
  unfold Kernel.recordLookupFault
  split
  · exact h
  · exact h

theorem deleteASID (asid vspace : Word) : VSpaceEq (deleteASID a s asid vspace) s := by
  apply recordLookupFault
  unfold deleteAsid
  simp only
  split
  · exact (setVmRoot _).trans rfl
  · rfl

theorem deleteASIDPool (base pool : Word) : VSpaceEq (deleteASIDPool a s base pool) s := by
  apply recordLookupFault
  unfold deleteAsidPool
  split
  · exact (setVmRoot _).trans rfl
  · rfl

theorem unmapPageTable (h : unmapPageTable a s asid vptr pt = .ok s') : VSpaceEq s' s := by
  rcases unmapPageTable_cases h with rfl | ⟨slot, rfl⟩ <;> rfl

theorem unmapPage (h : unmapPage a s size asid vptr pptr = .ok r) : VSpaceEq r.1 s := by
  unfold VSpace.unmapPage at h
  split at h
  · cases h
    rfl
  obtain ⟨bits, -, h⟩ := bind_eq_ok.mp h
  obtain ⟨found, -, h⟩ := bind_eq_ok.mp h
  split at h
  · cases h
    rfl
  split at h
  · cases h
    rfl
  · cases h
    rfl

theorem finalisePageTable (h : finalisePageTable a s cap = .ok s') : VSpaceEq s' s := by
  cases a with
  | aarch64 => exact unmapPageTable h
  | riscv64 =>
    obtain ⟨s₁, h₁, h⟩ := bind_eq_ok.mp h
    obtain rfl := pure_eq_ok.mp h
    apply recordLookupFault
    unfold deleteOrUnmap at h₁
    split at h₁
    · cases h₁
      exact deleteASID _ _
    · exact unmapPageTable h₁

theorem archFinaliseCap (h : archFinaliseCap a s cap final = .ok s') : VSpaceEq s' s := by
  unfold Kernel.archFinaliseCap at h
  split at h
  · split at h
    · obtain ⟨r, hr, h⟩ := bind_eq_ok.mp h
      obtain rfl := pure_eq_ok.mp h
      exact recordLookupFault (unmapPage hr)
    · cases h
      rfl
  · split at h
    · exact finalisePageTable h
    · cases h
      rfl
  · split at h
    · cases h
      exact deleteASID _ _
    · cases h
      rfl
  · split at h
    · cases h
      exact deleteASIDPool _ _
    · cases h
      rfl
  · cases h
    rfl

end VSpaceEq

/-- The slots, their history, and what deletion reads besides. -/
structure CSpaceView where
  ctes : Slots
  origin : Word → Origin
  fresh : Nat
  irqPending : Nat → Bool
  intStateIRQNode : Word

def view (s : KernelState) : CSpaceView :=
  ⟨s.ctes, s.origin, s.fresh, s.irqPending, s.intStateIRQNode⟩

theorem VSpaceEq.view (h : VSpaceEq s s') : view s = view s' :=
  h.proj Kernel.view

theorem view_of_ipcEq (h : IpcEq s s') : view s = view s' := h.proj view

variable {a : Arch} (s : KernelState) (t : Word)

/-! ## Scheduling and queues of blocked threads -/

@[simp] theorem view_setThreadState (state : ThreadState) :
    view (s.setThreadState a t state) = view s := view_of_ipcEq (ipcEq_setThreadState state)

@[simp] theorem view_suspend : view (s.suspend a t) = view s := view_of_ipcEq ipcEq_suspend

@[simp] theorem view_epCancelIpc (ep : Word) : view (epCancelIpc a s ep t) = view s :=
  view_of_ipcEq (ipcEq_epCancelIpc ep)

@[simp] theorem view_cancelSignal (ntfn : Word) : view (cancelSignal a s ntfn t) = view s :=
  view_of_ipcEq (ipcEq_cancelSignal ntfn)

@[simp] theorem view_safeUnbindTcb (ntfn : Word) : view (safeUnbindTcb a s ntfn) = view s := by
  unfold safeUnbindTcb
  simp only
  split <;> rfl

@[simp] theorem view_safeUnbindNotification : view (safeUnbindNotification a s t) = view s := by
  unfold safeUnbindNotification
  simp only
  split <;> rfl

variable {s} {s' : KernelState}

/-- The kinds of caps that `finaliseCap` handles in its first `match`. -/
def finalisedAtOnce : CapTag → Bool
  | .cnodeCap | .threadCap | .zombieCap | .irqHandlerCap | .untypedCap | .irqControlCap => false
  | _ => true

/-- What the first `match` of `finaliseCap` has done where it returns. -/
theorem finaliseImmediate_cases (h : finaliseImmediate a s cap final = .ok (some s')) :
    finalisedAtOnce (getCapType cap) = true ∧ (s' = s ∨ archFinaliseCap a s cap final = .ok s' ∨
      (getCapType cap = .endpointCap ∧ cancelAllIpc a s (getEpPtr a cap) = .ok s') ∨
      (getCapType cap = .notificationCap ∧
        cancelAllSignal a (safeUnbindTcb a s (getNfPtr a cap)) (getNfPtr a cap) = .ok s')) := by
  -- the kinds that end in `return some s`
  have hreturn : ∀ {x : Exec KernelState}, (x >>= fun s => return some s) = .ok (some s') →
      x = .ok s' := by
    intro x hx
    obtain ⟨s₁, hs, hx⟩ := bind_eq_ok.mp hx
    cases hx
    exact hs
  unfold finaliseImmediate at h
  cases ht : getCapType cap <;> simp only [ht] at h
  case endpointCap =>
    split at h
    · exact ⟨rfl, .inr (.inr (.inl ⟨rfl, hreturn h⟩))⟩
    · cases h
      exact ⟨rfl, .inl rfl⟩
  case notificationCap =>
    split at h
    · exact ⟨rfl, .inr (.inr (.inr ⟨rfl, hreturn h⟩))⟩
    · cases h
      exact ⟨rfl, .inl rfl⟩
  all_goals first
    | exact ⟨rfl, .inr (.inl (hreturn h))⟩
    | (cases h; done)
    | (cases h; exact ⟨rfl, .inl rfl⟩)

theorem finaliseImmediate_some (h : finaliseImmediate a s cap final = .ok (some s')) :
    finalisedAtOnce (getCapType cap) = true ∧ view s' = view s := by
  obtain ⟨hkind, rfl | h | ⟨-, h⟩ | ⟨-, h⟩⟩ := finaliseImmediate_cases h
  · exact ⟨hkind, rfl⟩
  · exact ⟨hkind, (VSpaceEq.archFinaliseCap h).view⟩
  · exact ⟨hkind, view_of_ipcEq (ipcEq_cancelAllIpc h)⟩
  · rw [view_of_ipcEq (ipcEq_cancelAllSignal h), view_safeUnbindTcb]
    exact ⟨hkind, rfl⟩

/-- Nothing but its slot goes with a reply cap. -/
theorem deleteOne_reply (h : s.ctes.capType slot = .replyCap) :
    deleteOne a s slot = .ok (s.setCtes (setEmpty a s.ctes slot)) := by
  have hne : s.ctes.capType slot ≠ .nullCap := by
    rw [h]
    decide
  have hcap : getCapType (s.ctes slot).cap = .replyCap := h
  have hinfo : getCapType newNullCap ≠ .irqHandlerCap := by decide
  rw [deleteOne, if_pos hne]
  simp only [finaliseImmediate, hcap, setEmptySlot, postCapDeletion, if_neg hinfo]
  exact congrArg Except.ok (if_pos hne)

/-- `revoke` reads the next slot as `get_next` does, in the kernel window. On
aarch64 it looks at another bit for the sign. -/
theorem getVolatileValue_eq (h : σ.next a x = 0 ∨ pptrBase a ≤ σ.next a x) :
    getVolatileValue a σ x = σ.next a x := by
  cases a with
  | riscv64 =>
    have hbit : bit 38 = BitVec.twoPow 64 38 := by decide
    have hmask : mask 37 = lowMask 37 := by decide
    simp only [getVolatileValue, Slots.next, getNext, Field.get, Field.extend, Field.stored,
      CSpace.Field.mdbNext, hmask, hbit, and_twoPow_ne_zero (show 38 < 64 by decide)]
    rfl
  | aarch64 =>
    have hbit : bit 46 = BitVec.twoPow 64 46 := by decide
    have hmask : mask 46 = lowMask 46 := by decide
    let ret : Word := ((σ x).cteMDBNode 1 >>> 2 &&& lowMask 46) <<< 2
    have hnext : σ.next .aarch64 x =
        if ret.getLsbD 47 = true then ret ||| 0xffff800000000000 else ret := rfl
    have hvol : getVolatileValue .aarch64 σ x =
        if ret.getLsbD 46 = true then ret ||| 0xffffff8000000000 else ret := by
      simp only [getVolatileValue, hmask, hbit, and_twoPow_ne_zero (show 46 < 64 by decide)]
      rfl
    rw [hvol, hnext]
    rw [hnext] at h
    clear_value ret
    have hmasks : ∀ i < 64, (0xffffff8000000000 : Word).getLsbD i =
        ((0xffff800000000000 : Word).getLsbD i || decide (39 ≤ i ∧ i < 47)) := by decide
    have hlow : ∀ i < 47, (0xffff800000000000 : Word).getLsbD i = false := by decide
    by_cases h47 : ret.getLsbD 47 = true
    · rw [if_pos h47] at h ⊢
      -- the bits in which the two masks differ are set in the address
      have hhigh : ∀ i, 39 ≤ i ∧ i < 47 → ret.getLsbD i = true := by
        rintro i ⟨hi, hi'⟩
        rcases h with h | h
        · have hbit := congrArg (BitVec.getLsbD · 47) h
          simp at hbit
        · have hbit := getLsbD_of_ge (show 2 ^ 64 - 2 ^ 39 ≤ _ from h) hi (by omega)
          rwa [BitVec.getLsbD_or, hlow i hi', Bool.or_false] at hbit
      rw [if_pos (hhigh 46 (by decide))]
      apply BitVec.eq_of_getLsbD_eq
      intro i hi
      rw [BitVec.getLsbD_or, BitVec.getLsbD_or, hmasks i hi]
      by_cases hi' : 39 ≤ i ∧ i < 47
      · simp [hhigh i hi']
      · simp [hi']
    · rw [if_neg h47] at h ⊢
      rcases h with rfl | h
      · rfl
      · exact absurd (getLsbD_of_window h (Nat.le_refl _) (by decide)) h47

/-! ## Deletion of a cap that leaves nothing behind -/

/-- A slot whose cap leaves nothing behind is finalised once and emptied. -/
theorem deleteAll_removable (hlive : s.ctes.capType slot ≠ .nullCap)
    (hrem : ∀ {s₁ fc}, finaliseCap a s (s.ctes slot).cap (isFinalCap a s.ctes slot) =
      .ok (s₁, fc) → fc.remainder = newNullCap)
    (h : deleteAll a strict fuel s slot true = .ok (s', e)) :
    ∃ s₁ fc, finaliseCap a s (s.ctes slot).cap (isFinalCap a s.ctes slot) = .ok (s₁, fc) ∧
      s' = setEmptySlot a s₁ slot fc.cleanupInfo ∧ e = .none := by
  have hremovable : capRemovable a newNullCap slot = .ok true := rfl
  rcases fuel with - | - | fuel
  · rw [deleteAll] at h
    cases h
  · rw [deleteAll, finalise] at h
    cases h
  rw [deleteAll] at h
  obtain ⟨⟨s₁, fs⟩, hfin, h⟩ := bind_eq_ok.mp h
  rw [finalise] at hfin
  simp only [if_neg hlive] at hfin
  obtain ⟨⟨s₂, fc⟩, hfc, hfin⟩ := bind_eq_ok.mp hfin
  simp only [hrem hfc, hremovable] at hfin
  cases hfin
  cases h
  exact ⟨_, _, hfc, rfl, rfl⟩

end Rel4.Kernel
