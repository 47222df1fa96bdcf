import Rel4.Kernel.SlotForm

/-!
Derivation does not amplify authority.

`grants` reads the rights off a cap, and `Attenuates` says that a cap names the
same object as another with no more rights. The three functions that change a
cap before it is stored (`mask_cap_rights`, `update_data`, `derive_cap`) are shown
to attenuate one by one; Copy, Mint, Mutate and Rotate compose them.
-/

namespace Rel4.Kernel
open Lib.Bitfield Common CSpace Rel4.Task Task.KernelState
open CSpace.Field (cnodeGuard cnodeGuardSize)

variable {preserve : Bool} {data slot : Word} {rights : CapRights}

/-- The rights that caps carry. -/
inductive Right where
  | send | receive | grant | grantReply | read | write
  deriving DecidableEq, Repr

/-- The cap carries the right. -/
def grants (a : Arch) (c : CapT) : Right → Bool :=
  match getCapType c with
  | .endpointCap => fun
    | .send => getEpCanSend a c ≠ 0
    | .receive => getEpCanReceive a c ≠ 0
    | .grant => getEpCanGrant a c ≠ 0
    | .grantReply => getEpCanGrantReply a c ≠ 0
    | _ => false
  | .notificationCap => fun
    | .send => getNfCanSend a c ≠ 0
    | .receive => getNfCanReceive a c ≠ 0
    | _ => false
  | .replyCap => fun
    | .grant => getReplyCanGrant a c ≠ 0
    | _ => false
  | .frameCap => fun
    | .read => getFrameVmRights a c = vmReadOnly a ∨ getFrameVmRights a c = vmReadWrite a
    | .write => getFrameVmRights a c = vmReadWrite a
    | _ => false
  | _ => fun _ => false

/-- The badge of an endpoint or notification cap. -/
def badge (a : Arch) (c : CapT) : Word :=
  match getCapType c with
  | .endpointCap => getEpBadge a c
  | .notificationCap => getNfBadge a c
  | _ => 0

/-- `c'` names what `c` names, with no more rights. -/
structure Attenuates (a : Arch) (c c' : CapT) : Prop where
  target : SameTarget a c c'
  rights : ∀ r, grants a c' r = true → grants a c r = true

variable {a : Arch} {c c' : CapT}

theorem Attenuates.refl : Attenuates a c c := ⟨.refl, fun _ h => h⟩

theorem Attenuates.trans (h : Attenuates a c c') (h' : Attenuates a c' c'') : Attenuates a c c'' :=
  ⟨h.target.trans h'.target, fun r hr => h.rights r (h'.rights r hr)⟩

/-! ## `mask_cap_rights` -/

/-- A masked flag is set only if the flag was set. -/
theorem get_set_and_ne_zero {f : Field 2} {v : Word} (hf : f.Fits) (hb : f.bits = 1)
    (hsh : f.shift = 0) (hse : f.signExt = false)
    (h : f.get (signExt a) (f.set c' (f.get (signExt a) c &&& v)) ≠ 0) :
    f.get (signExt a) c ≠ 0 := by
  intro e
  have hz : (0 : Word) &&& v = 0 := BitVec.zero_and
  have h0 : f.Canonical (signExt a) 0 :=
    canonical_of_lt hse hsh (by rw [hb]; decide) (by rw [hb]; decide)
  rw [e, hz] at h
  exact h (get_set_self hf h0)

/-- Masked page rights are below the rights they come from. -/
theorem maskVMRights_le (v : Word) (rights : CapRights) :
    (maskVMRights a v rights = vmReadWrite a → v = vmReadWrite a) ∧
      (maskVMRights a v rights = vmReadOnly a → v = vmReadOnly a ∨ v = vmReadWrite a) := by
  obtain ⟨h1, h2, h3⟩ : vmReadOnly a ≠ vmReadWrite a ∧ vmKernelOnly a ≠ vmReadOnly a ∧
      vmKernelOnly a ≠ vmReadWrite a := by
    cases a <;> decide
  unfold maskVMRights
  split
  next h => exact ⟨fun e => absurd e h1, fun _ => .inl h.1⟩
  · split
    next h => exact ⟨fun _ => h.1, fun _ => .inr h.1⟩
    next => exact ⟨fun e => absurd e h3, fun e => absurd e h2⟩

theorem toNat_maskVMRights_lt (v : Word) (rights : CapRights) :
    (maskVMRights a v rights).toNat < 4 := by
  have h : ∀ w : Word, w = vmKernelOnly a ∨ w = vmReadOnly a ∨ w = vmReadWrite a → w.toNat < 4 := by
    rintro w (rfl | rfl | rfl) <;> cases a <;> decide
  apply h
  unfold maskVMRights
  split
  · exact .inr (.inl rfl)
  split
  · split
    · exact .inr (.inl rfl)
    · exact .inr (.inr rfl)
  · exact .inl rfl

theorem getFrameVmRights_mask (ht : getCapType c = .frameCap) :
    getFrameVmRights a (maskCapRights a rights c) =
      maskVMRights a (getFrameVmRights a c) rights := by
  unfold maskCapRights
  simp only [ht]
  have hlt := toNat_maskVMRights_lt (a := a) (getFrameVmRights a c) rights
  cases a <;> exact get_set_self (by decide) (canonical_of_lt rfl rfl (by decide) hlt)

theorem attenuates_maskCapRights (hr : getCapType c ≠ .replyCap) :
    Attenuates a c (maskCapRights a rights c) := by
  refine ⟨sameTarget_maskCapRights hr, fun r => ?_⟩
  have ht : getCapType (maskCapRights a rights c) = getCapType c := getCapType_maskCapRights
  by_cases hf : getCapType c = .frameCap
  · have hle := maskVMRights_le (a := a) (getFrameVmRights a c) rights
    have hv : getFrameVmRights a (maskCapRights a rights c) = _ := getFrameVmRights_mask hf
    unfold grants
    rw [ht, hf, hv]
    cases r <;> simp only [decide_eq_true_eq] <;> intro h <;> try exact h
    · exact h.elim hle.2 fun h => .inr (hle.1 h)
    · exact hle.1 h
  unfold grants
  rw [ht]
  unfold maskCapRights
  cases hk : getCapType c <;> simp only <;> try exact id
  case endpointCap =>
    cases r <;> simp only [decide_eq_true_eq] <;> intro h <;> try exact h
    case send =>
      unfold getEpCanSend at h
      iterate 3 rw [get_set_of_disjoint (by decide)] at h
      exact get_set_and_ne_zero (by decide) rfl rfl rfl h
    case receive =>
      unfold getEpCanReceive at h
      iterate 2 rw [get_set_of_disjoint (by decide)] at h
      exact get_set_and_ne_zero (by decide) rfl rfl rfl h
    case grant =>
      unfold getEpCanGrant at h
      rw [get_set_of_disjoint (by decide)] at h
      exact get_set_and_ne_zero (by decide) rfl rfl rfl h
    case grantReply => exact get_set_and_ne_zero (by decide) rfl rfl rfl h
  case notificationCap =>
    cases r <;> simp only [decide_eq_true_eq] <;> intro h <;> try exact h
    case send =>
      unfold getNfCanSend at h
      rw [get_set_of_disjoint (by decide)] at h
      exact get_set_and_ne_zero (by decide) rfl rfl rfl h
    case receive => exact get_set_and_ne_zero (by decide) rfl rfl rfl h
  case replyCap => exact absurd hk hr
  case frameCap => exact absurd hk hf

theorem badge_maskCapRights : badge a (maskCapRights a rights c) = badge a c := by
  unfold badge
  rw [getCapType_maskCapRights]
  unfold maskCapRights
  cases hk : getCapType c <;> simp only
  case endpointCap =>
    unfold getEpBadge
    iterate 4 rw [get_set_of_disjoint (by decide)]
  case notificationCap =>
    unfold getNfBadge
    iterate 2 rw [get_set_of_disjoint (by decide)]

/-! ## `update_data` -/

/-- What `update_data` can do to a cap, unless it gives up: nothing, set a badge
of zero, or write a guard that fits. -/
inductive Updated (a : Arch) (preserve : Bool) (c : CapT) : CapT → Prop where
  | same (hk : getCapType c ≠ .cnodeCap) : Updated a preserve c c
  | epBadge (v : Word) (hk : getCapType c = .endpointCap) (hp : preserve = false)
    (h0 : getEpBadge a c = 0) : Updated a preserve c (CSpace.Field.epBadge.set c v)
  | nfBadge (v : Word) (hk : getCapType c = .notificationCap) (hp : preserve = false)
    (h0 : getNfBadge a c = 0) : Updated a preserve c (CSpace.Field.nfBadge.set c v)
  | guard (guard size : Word) (hk : getCapType c = .cnodeCap) (hs : size.toNat < 2 ^ 6)
    (hg : guard.toNat < 2 ^ size.toNat) (hr : (getCNodeRadix a c).toNat + size.toNat ≤ 64) :
    Updated a preserve c
      (cnodeGuardSize.set (cnodeGuard.set c guard) size)

theorem updateData_updated : getCapType (updateData a c preserve data) = .nullCap ∨
      Updated a preserve c (updateData a c preserve data) := by
  unfold updateData
  split
  next harch =>
    refine .inr (.same fun hk => ?_)
    rw [isArchCap, hk] at harch
    cases harch
  cases hk : getCapType c <;> simp only
  case endpointCap =>
    split
    next hb => exact .inr (.epBadge _ hk hb.1 hb.2)
    next => exact .inl capType_newNullCap
  case notificationCap =>
    split
    next hb => exact .inr (.nfBadge _ hk hb.1 hb.2)
    next => exact .inl capType_newNullCap
  case cnodeCap =>
    have hradix : (getCNodeRadix a c).toNat < 2 ^ 6 := toNat_get_lt rfl rfl (by decide)
    have hmask : (0x3f : Word) = mask 6 := by decide
    have hsize : (data &&& 0x3f).toNat < 2 ^ 6 := by
      rw [hmask, toNat_and_mask (by decide)]
      exact Nat.mod_lt _ (by decide)
    generalize data &&& 0x3f = size at hsize ⊢
    split
    next => exact .inl capType_newNullCap
    next hle =>
      have hsum : (size + getCNodeRadix a c).toNat = size.toNat + (getCNodeRadix a c).toNat := by
        rw [BitVec.toNat_add, Nat.mod_eq_of_lt (by omega)]
      have hle' : (size + getCNodeRadix a c).toNat ≤ 64 := BitVec.not_lt.mp hle
      refine .inr (.guard _ _ hk hsize ?_ (by omega))
      rw [toNat_and_mask hsize]
      exact Nat.mod_lt _ (Nat.two_pow_pos _)
  all_goals exact .inr (.same (by rw [hk]; decide))

/-- Badges and guards are apart from the rights. -/
theorem Updated.attenuates (h : Updated a preserve c c') : Attenuates a c c' := by
  cases h with
  | same hk => exact .refl
  | epBadge v hk =>
    have hst : SameTarget a c (CSpace.Field.epBadge.set c v) :=
      sameTarget_set_endpoint hk _ (by decide) (by cases a <;> decide)
    refine ⟨hst, fun r => ?_⟩
    unfold grants getEpCanSend getEpCanReceive getEpCanGrant getEpCanGrantReply
    rw [hst.capType_eq, hk]
    cases r <;> exact id
  | nfBadge v hk =>
    have hst : SameTarget a c (CSpace.Field.nfBadge.set c v) :=
      sameTarget_set_notification hk _ (by decide) (by cases a <;> decide)
    refine ⟨hst, fun r => ?_⟩
    unfold grants getNfCanSend getNfCanReceive
    rw [hst.capType_eq, hk]
    cases r <;> exact id
  | guard guard size hk =>
    have h1 : SameTarget a c (cnodeGuard.set c guard) :=
      sameTarget_set_cnode hk _ (by decide) (by cases a <;> decide) (by decide)
    have hst := h1.trans (sameTarget_set_cnode (h1.capType_eq.trans hk) size
      (f := cnodeGuardSize) (by decide) (by cases a <;> decide) (by decide))
    refine ⟨hst, fun r => ?_⟩
    unfold grants
    rw [hst.capType_eq, hk]
    exact id

/-- Only a badge of zero is replaced, and only by Mint. -/
theorem Updated.badge (h : Updated a preserve c c') :
    badge a c' = badge a c ∨ (preserve = false ∧ badge a c = 0) := by
  unfold Kernel.badge
  cases h with
  | same hk => exact .inl rfl
  | epBadge v hk hp h0 =>
    rw [hk]
    exact .inr ⟨hp, h0⟩
  | nfBadge v hk hp h0 =>
    rw [hk]
    exact .inr ⟨hp, h0⟩
  | guard guard size hk hs hg hr =>
    have hu : Updated a preserve c _ := .guard guard size hk hs hg hr
    rw [hu.attenuates.target.capType_eq, hk]
    exact .inl rfl

/-- The guard fits its size, and the guard and the index fit a word. -/
structure GuardOK (a : Arch) (c : CapT) : Prop where
  guard_lt : (getCNodeGuard a c).toNat < 2 ^ (getCNodeGuardSize a c).toNat
  bits_le : (getCNodeRadix a c).toNat + (getCNodeGuardSize a c).toNat ≤ 64

theorem Updated.guardOK (h : Updated a preserve c c') (ht : getCapType c = .cnodeCap) :
    GuardOK a c' := by
  cases h with
  | same hk => exact absurd ht hk
  | epBadge v hk =>
    rw [ht] at hk
    cases hk
  | nfBadge v hk =>
    rw [ht] at hk
    cases hk
  | guard guard size hk hs hg hr =>
    generalize hc' : cnodeGuardSize.set (cnodeGuard.set c guard) size = c'
    have hsize : getCNodeGuardSize a c' = size := by
      rw [← hc']
      exact get_set_self (by decide) (canonical_of_lt rfl rfl (by decide) hs)
    have hguard : getCNodeGuard a c' = guard := by
      rw [← hc', getCNodeGuard, get_set_of_disjoint (by decide)]
      exact get_set_self (by decide) (canonical_of_full rfl rfl rfl)
    have hradix : getCNodeRadix a c' = getCNodeRadix a c := by
      rw [← hc', getCNodeRadix, get_set_of_disjoint (by decide), get_set_of_disjoint (by decide)]
      rfl
    refine ⟨?_, ?_⟩
    · rw [hguard, hsize]
      exact hg
    · rw [hsize, hradix]
      exact hr

/-! ## `derive_cap` -/

/-- The kinds that Copy and Mint never store. -/
def CapTag.derivable : CapTag → Bool
  | .replyCap | .zombieCap | .irqControlCap => false
  | _ => true

section

variable {σ : Slots} {slot : Word} (h : deriveCap a σ slot c = .ok (st, c'))
  (hn : getCapType c' ≠ .nullCap)
include h hn

theorem deriveCap_derivable : CapTag.derivable (getCapType c) := by
  unfold deriveCap at h
  cases hk : getCapType c <;> simp only [hk] at h <;>
    first
      | rfl
      | (cases h; exact absurd capType_newNullCap hn)

/-- Only frame caps change when they are derived, and they keep their rights. -/
theorem deriveCap_same :
    c' = c ∨ (getCapType c = .frameCap ∧ getFrameVmRights a c' = getFrameVmRights a c) := by
  unfold deriveCap at h
  cases hk : getCapType c <;> simp only [hk] at h
  case frameCap =>
    refine .inr ⟨rfl, ?_⟩
    unfold getFrameVmRights
    cases a <;> cases h
    · rw [get_set_of_disjoint (by decide), get_set_of_disjoint (by decide)]
    · rw [get_set_of_disjoint (by decide)]
  case untypedCap =>
    split at h <;> cases h
    · exact .inl rfl
    · exact absurd capType_newNullCap hn
  case pageTableCap =>
    split at h <;> cases h
    · exact .inl rfl
    · exact absurd capType_newNullCap hn
  case vspaceCap =>
    cases a with
    | riscv64 => cases h
    | aarch64 =>
      simp only at h
      split at h <;> cases h
      · exact .inl rfl
      · exact absurd capType_newNullCap hn
  all_goals first
    | (cases h; done)
    | (cases h; exact absurd capType_newNullCap hn)
    | (cases h; exact .inl rfl)

theorem attenuates_deriveCap : Attenuates a c c' ∧ badge a c' = badge a c := by
  rcases deriveCap_same h hn with rfl | ⟨hk, hv⟩
  · exact ⟨.refl, rfl⟩
  have hst : SameTarget a c c' := by
    cases deriveCap_derivedTo h with
    | null h => exact absurd h hn
    | object _ h => exact h
    | untyped hu _ _ =>
      rw [hk] at hu
      cases hu
  have hk' := hst.capType_eq.trans hk
  refine ⟨⟨hst, fun r => ?_⟩, ?_⟩
  · unfold grants
    rw [hk, hk', hv]
    exact id
  · unfold badge
    rw [hk, hk']

end

/-! ## The operations -/

/-- Copy, Mint, Mutate and Rotate, with their slots, rights and data. -/
inductive DeriveOp where
  | copy (src dest : Word) (rights : CapRights)
  | mint (src dest : Word) (rights : CapRights) (capData : Word)
  | mutate (src dest capData : Word)
  | rotate (src pivot dest srcData pivotData : Word)

namespace DeriveOp

def run (a : Arch) (s : KernelState) : DeriveOp → Exec (KernelState × ExceptionT)
  | copy src dest rights => invokeCNodeCopy a s src dest rights
  | mint src dest rights capData => invokeCNodeMint a s src dest rights capData
  | mutate src dest capData => invokeCNodeMutate a s src dest capData
  | rotate src pivot dest srcData pivotData =>
    invokeCNodeRotate a s src pivot dest srcData pivotData

/-- The slots that caps are read from, with the slots that they are stored in. -/
def stores : DeriveOp → List (Word × Word)
  | copy src dest _ | mint src dest _ _ | mutate src dest _ => [(src, dest)]
  | rotate src pivot dest _ _ => [(src, pivot), (pivot, dest)]

/-- Copy and Mint leave the source. -/
def derives : DeriveOp → Bool
  | copy .. | mint .. => true
  | _ => false

def mints : DeriveOp → Bool
  | mint .. => true
  | _ => false

def hasData : DeriveOp → Bool
  | copy .. => false
  | _ => true

/-- What the decoders have looked up and checked. -/
def Checked (a : Arch) (σ : Slots) : DeriveOp → Prop
  | copy _ dest _ | mint _ dest _ _ | mutate _ dest _ => NodeSlot a σ dest
  | rotate src pivot dest _ _ => NodeSlot a σ dest ∧ RotateSlots a σ src pivot dest

def label : DeriveOp → MessageLabel
  | copy .. => .cnodeCopy
  | mint .. => .cnodeMint
  | mutate .. => .cnodeMutate
  | rotate .. => .cnodeRotate

end DeriveOp

/-- A successful invocation comes down to one of the operations, with what it
assumes. -/
theorem decodeCNodeInvocation_deriveOp
    (hl : label ∈ [.cnodeCopy, .cnodeMint, .cnodeMutate, .cnodeRotate])
    (h : decodeCNodeInvocation a strict fuel s label length (s.ctes slot).cap buffer =
      .ok (s', .none)) :
    ∃ s₁ op, s₁.ctes = s.ctes ∧ DeriveOp.label op = label ∧ op.Checked a s₁.ctes ∧
      op.run a s₁ = .ok (s', .none) := by
  unfold decodeCNodeInvocation at h
  split at h
  · cases h
  split at h
  · cases h
  obtain ⟨⟨s₁, st₁, dest⟩, hlook, h⟩ := bind_eq_ok.mp h
  obtain ⟨hcs, hnode⟩ := lookupSlotForCNodeOp_effect hlook
  have hslots : s₁.ctes = s.ctes := congrArg CapSpace.slots hcs
  simp only at h
  split at h
  next hst =>
    cases h
    exact absurd rfl hst
  rename_i hst
  have hnode := hnode (not_not.mp hst)
  simp only [List.mem_cons, List.not_mem_nil, or_false] at hl
  by_cases hr : label = .cnodeRotate
  · subst hr
    rcases decodeCNodeRotate_cases h with
      ⟨hst, -⟩ | ⟨s₂, src, pivot, srcData, pivotData, hcs₂, hr, h⟩
    · exact absurd rfl hst
    have hslots₂ : s₂.ctes = s.ctes := (congrArg CapSpace.slots hcs₂).trans hslots
    refine ⟨s₂, .rotate src pivot dest srcData pivotData, hslots₂, rfl, ?_, h⟩
    rw [hslots₂]
    rw [hslots] at hr
    exact ⟨hnode, hr⟩
  · have h' : decodeCNodeInvokeWithTwoSlot a s₁ label dest length buffer = .ok (s', .none) := by
      rcases hl with rfl | rfl | rfl | rfl
      · exact h
      · exact h
      · exact h
      · exact absurd rfl hr
    rcases decodeCNodeInvokeWithTwoSlot_cases h' with ⟨hst, -⟩ | ⟨s₂, src, hcs₂, -, hinv⟩
    · exact absurd rfl hst
    have hslots₂ : s₂.ctes = s.ctes := (congrArg CapSpace.slots hcs₂).trans hslots
    rw [← hslots₂] at hnode
    rcases hinv with
      ⟨rights, rfl, hi⟩ | ⟨rights, data, rfl, hi⟩ | ⟨rfl, -⟩ | ⟨data, rfl, hi⟩
    · exact ⟨s₂, .copy src dest rights, hslots₂, rfl, hnode, hi⟩
    · exact ⟨s₂, .mint src dest rights data, hslots₂, rfl, hnode, hi⟩
    · simp at hl
    · exact ⟨s₂, .mutate src dest data, hslots₂, rfl, hnode, hi⟩

/-- The cap `c'` that an operation stores for `c`. -/
structure Attenuated (a : Arch) (op : DeriveOp) (c c' : CapT) : Prop where
  target : SameTarget a c c'
  size : objBits a c' = objBits a c
  rights : ∀ r, grants a c' r = true → grants a c r = true
  badge : badge a c' = badge a c ∨ (op.mints = true ∧ badge a c = 0)
  derivable : op.derives = true → CapTag.derivable (getCapType c')
  guard : op.hasData = true → getCapType c' = .cnodeCap → GuardOK a c'

/-- The address can be given to a new object through the untyped cap in the slot.
A cap without children is reset first. -/
def Allocatable (a : Arch) (σ : Slots) (slot : Word) (p : Nat) : Prop :=
  σ.capType slot = .untypedCap ∧
    (objBase a (σ slot).cap).toNat +
      (if ensureNoChildren a σ slot = .none then 0
        else 16 * (getUntypedFreeIndex a (σ slot).cap).toNat) ≤ p ∧
    p < (objBase a (σ slot).cap).toNat + 2 ^ objBits a (σ slot).cap

variable {s s' : KernelState} {σ σ' : Slots} {src dest : Word} {op : DeriveOp}

theorem Attenuates.attenuated (h : Attenuates a c c')
    (hb : Kernel.badge a c' = Kernel.badge a c ∨ (op.mints = true ∧ Kernel.badge a c = 0))
    (hd : op.derives = true → CapTag.derivable (getCapType c'))
    (hg : op.hasData = true → getCapType c' = .cnodeCap → GuardOK a c') : Attenuated a op c c' :=
  ⟨h.target, h.target.bits_eq, h.rights, hb, hd, hg⟩

/-! ### Copy and Mint -/

theorem cap_of_cteInsert (h : cteInsert a σ c src dest = .ok σ') (hdest : Storable a dest) :
    (σ' dest).cap = c := by
  obtain ⟨r, -, -, eff⟩ := cteInsert_effect h hdest
  rw [eff.cap, if_pos rfl]

/-- Masking, then deriving. -/
theorem attenuated_copy (hd : deriveCap a σ slot (maskCapRights a rights c) = .ok (st, c'))
    (hn : getCapType c' ≠ .nullCap) : Attenuated a (.copy src dest rights) c c' := by
  obtain ⟨hat, hb⟩ := attenuates_deriveCap hd hn
  have hk := deriveCap_derivable hd hn
  have hreply : getCapType c ≠ .replyCap := by
    intro e
    rw [getCapType_maskCapRights, e] at hk
    cases hk
  refine ((attenuates_maskCapRights hreply).trans hat).attenuated (.inl ?_) (fun _ => ?_)
    fun h => nomatch h
  · rw [hb, badge_maskCapRights]
  · rw [hat.target.capType_eq]
    exact hk

/-- Masking, then the data, then deriving. -/
theorem attenuated_mint
    (hd : deriveCap a σ slot (updateData a (maskCapRights a rights c) false data) = .ok (st, c'))
    (hn : getCapType c' ≠ .nullCap) : Attenuated a (.mint src dest rights data) c c' := by
  obtain ⟨hat, hb⟩ := attenuates_deriveCap hd hn
  have hk := deriveCap_derivable hd hn
  have hu : Updated a false (maskCapRights a rights c)
      (updateData a (maskCapRights a rights c) false data) :=
    updateData_updated.resolve_left fun h => hn (hat.target.capType_eq.trans h)
  have hreply : getCapType c ≠ .replyCap := by
    intro e
    rw [hu.attenuates.target.capType_eq, getCapType_maskCapRights, e] at hk
    cases hk
  refine ((attenuates_maskCapRights hreply).trans (hu.attenuates.trans hat)).attenuated ?_
    (fun _ => ?_) fun _ ht => ?_
  · have hmask : badge a (maskCapRights a rights c) = badge a c := badge_maskCapRights
    rw [hb, ← hmask]
    exact hu.badge.imp_right fun h => ⟨rfl, h.2⟩
  · rw [hat.target.capType_eq]
    exact hk
  · rw [hat.target.capType_eq] at ht
    rcases deriveCap_same hd hn with e | ⟨hf, -⟩
    · rw [e]
      exact hu.guardOK (hu.attenuates.target.capType_eq.symm.trans ht)
    · rw [hf] at ht
      cases ht

/-- A copied untyped cap is full and has the copy for a child, so that it is not
reset. -/
theorem SlotsOK.not_allocatable (hs : SlotsOK a σ) (hdest : SlotAddr a dest)
    (hd : DerivedTo a σ src (σ src).cap c) (hc : getCapType c ≠ .nullCap)
    (hins : CSpace.cteInsert a σ c src dest = .ok σ') (p : Nat) :
    ¬ (Allocatable a σ' src p ∧ Allocatable a σ' dest p) := by
  rintro ⟨⟨hsu', hlo, hhi⟩, hdu', -, -⟩
  obtain ⟨r, -, hnull, eff⟩ := cteInsert_effect hins hdest.2
  have hs' := hs.cteInsert hd hc hdest.2 hins
  have hdcap := cap_of_cteInsert hins hdest.2
  have hcu : getCapType c = .untypedCap := hdcap ▸ hdu'
  obtain ⟨hu, rfl⟩ : getCapType (σ src).cap = .untypedCap ∧ c = (σ src).cap := by
    cases hd with
    | null hn => exact absurd hn hc
    | object hn hst =>
      rw [← hst.capType_eq, hcu] at hn
      cases hn
    | untyped hu he _ => exact ⟨hu, he⟩
  have hok := ((hs src).untyped hu).1
  have hmax := CapInv.toNat_maxFreeIndex hok hu
  have hne : src ≠ dest := by
    rintro rfl
    rw [Slots.capType, hu] at hnull
    cases hnull
  have hscap : (σ' src).cap = setUntypedFreeIndex a (σ src).cap
      (maxFreeIndex (getUntypedBlockSize a (σ src).cap)) := by
    rw [eff.cap, if_neg hne, if_pos rfl, sourceCapAfter, if_pos ⟨hu, hu, rfl, rfl⟩]
  have hnext : σ'.next a src = dest := by rw [eff.next, if_pos rfl]
  have hchild : isMdbParentOf a (σ' src) (σ' dest) = true := by
    obtain ⟨hsok, hrev⟩ := (hs' src).untyped hsu'
    refine isMdbParentOf_of_within hsok hsu' hrev ((hs' dest).untyped hdu').1 ?_
    rw [hdcap, hscap, extent_setFreeIndex hu]
    exact ⟨rfl, Nat.le_refl _, Nat.le_refl _⟩
  have hkept : ensureNoChildren a σ' src ≠ .none := by
    rw [ensureNoChildren, hnext, if_pos ⟨hdest.1, hchild⟩]
    decide
  rw [if_neg hkept, hscap, (CapOK.setFreeIndex hu hok (Nat.le_of_eq hmax)).2,
    objBase_setFreeIndex hu] at hlo
  rw [hscap, objBase_setFreeIndex hu, objBits_setFreeIndex hu] at hhi
  omega

/-! ### Mutate and Rotate -/

/-- Mutate and Rotate only change the data. -/
theorem attenuated_updateData (hop : op.derives = false)
    (hn : getCapType (updateData a c true data) ≠ .nullCap) :
    Attenuated a op c (updateData a c true data) := by
  have hu : Updated a true c (updateData a c true data) := updateData_updated.resolve_left hn
  refine hu.attenuates.attenuated (.inl ?_) (fun h => ?_) fun _ ht => ?_
  · exact hu.badge.resolve_right fun h => nomatch h.1
  · rw [hop] at h
    cases h
  · exact hu.guardOK (hu.attenuates.target.capType_eq.symm.trans ht)

/-- What is left in the slot `src` of a cap that is stored in `dest`. -/
structure Exclusive (a : Arch) (op : DeriveOp) (σ' : Slots) (src dest : Word) : Prop where
  untyped : ∀ addr, ¬ (Allocatable a σ' src addr ∧ Allocatable a σ' dest addr)
  moved : op.derives = false → σ'.capType src = .nullCap

theorem Exclusive.of_null (h : σ'.capType src = .nullCap) : Exclusive a op σ' src dest where
  untyped addr := by
    rintro ⟨⟨hu, -⟩, -⟩
    rw [h] at hu
    cases hu
  moved _ := h

/-- A rotation, slot by slot. -/
theorem rotate_caps (hs : SlotsOK a s.ctes) (hdest : NodeSlot a s.ctes dest)
    (hr : RotateSlots a s.ctes src pivot dest)
    (h : invokeCNodeRotate a s src pivot dest srcData pivotData = .ok (s', .none)) :
    getCapType (updateData a (s.ctes src).cap true srcData) ≠ .nullCap ∧
      getCapType (updateData a (s.ctes pivot).cap true pivotData) ≠ .nullCap ∧
      (s'.ctes pivot).cap = updateData a (s.ctes src).cap true srcData ∧
      (s'.ctes dest).cap = updateData a (s.ctes pivot).cap true pivotData ∧
      (src ≠ dest → s'.ctes.capType src = .nullCap) := by
  rcases invokeCNodeRotate_effect h with
    ⟨hst, -⟩ | ⟨newSrc, newPivot, -, rfl, rfl, hsn, hpn, ⟨hsd, he⟩ | ⟨hsd, σ₁, hm₁, hm₂⟩⟩
  · exact absurd rfl hst
  · refine ⟨hsn, hpn, ?_, ?_, fun hne => absurd hsd hne⟩
    · rw [he, cap_cteSwap, if_pos rfl]
    · rw [he, cap_cteSwap, if_neg hr.pivot_dest.symm, if_pos hsd.symm]
  have eff₁ := (cteMove_effect hm₁ (hs.nodeSlot hdest).2).2
  have eff₂ := (cteMove_effect hm₂ (hs.nodeSlot hr.pivot_node).2).2
  refine ⟨hsn, hpn, ?_, ?_, fun _ => ?_⟩
  · rw [eff₂.cap, if_neg hr.pivot_src, if_pos rfl]
  · rw [eff₂.cap, if_neg (Ne.symm hsd), if_neg hr.pivot_dest.symm, eff₁.cap,
      if_neg hr.pivot_dest.symm, if_pos rfl]
  · rw [Slots.capType, eff₂.cap, if_pos rfl]
    exact capType_newNullCap

/-- What the operation stores has at most the authority of its sources, and no
untyped memory can be allocated through both. -/
def DeriveOp.NoAmplification (op : DeriveOp) (a : Arch) (σ σ' : Slots) : Prop :=
  ∀ p ∈ op.stores, Attenuated a op (σ p.1).cap (σ' p.2).cap ∧
    (p.1 ∉ op.stores.map Prod.snd → Exclusive a op σ' p.1 p.2)

theorem DeriveOp.noAmplification (hs : SlotsOK a s.ctes) (hop : op.Checked a s.ctes)
    (h : op.run a s = .ok (s', .none)) : op.NoAmplification a s.ctes s'.ctes := by
  unfold NoAmplification
  cases op with
  | copy src dest rights =>
    obtain ⟨c', hd, hn, hins, -⟩ := (deriveAndInsert_cases h).resolve_left fun e => e.1 rfl
    have hdest := hs.nodeSlot hop
    rw [DeriveOp.stores]
    simp only [List.mem_singleton, forall_eq]
    rw [cap_of_cteInsert hins hdest.2]
    exact ⟨attenuated_copy hd hn, fun _ => ⟨hs.not_allocatable hdest
      (derivable_mask.derivedTo hd hn) hn hins, fun h => nomatch h⟩⟩
  | mint src dest rights data =>
    obtain ⟨c', hd, hn, hins, -⟩ := (deriveAndInsert_cases h).resolve_left fun e => e.1 rfl
    have hdest := hs.nodeSlot hop
    rw [DeriveOp.stores]
    simp only [List.mem_singleton, forall_eq]
    rw [cap_of_cteInsert hins hdest.2]
    exact ⟨attenuated_mint hd hn, fun _ => ⟨hs.not_allocatable hdest
      (derivable_mint.derivedTo hd hn) hn hins, fun h => nomatch h⟩⟩
  | mutate src dest data =>
    obtain ⟨hn, hm, -⟩ := (moveUnlessNull_cases h).resolve_left fun e => e.1 rfl
    obtain ⟨hnull, eff⟩ := cteMove_effect hm (hs.nodeSlot hop).2
    have hatt : Attenuated a (.mutate src dest data) _ _ := attenuated_updateData rfl hn
    have hne : dest ≠ src := by
      rintro rfl
      exact hn (hatt.target.capType_eq.trans hnull)
    rw [DeriveOp.stores]
    simp only [List.mem_singleton, forall_eq]
    refine ⟨?_, fun _ => .of_null ?_⟩
    · rw [eff.cap, if_neg hne, if_pos rfl]
      exact hatt
    · rw [Slots.capType, eff.cap, if_pos rfl]
      exact capType_newNullCap
  | rotate src pivot dest srcData pivotData =>
    obtain ⟨hsn, hpn, hpivot, hdest, hsrc⟩ := rotate_caps hs hop.1 hop.2 h
    rw [DeriveOp.stores]
    simp only [List.mem_cons, List.not_mem_nil, or_false, forall_eq_or_imp, forall_eq,
      List.map_cons, List.map_nil, not_or]
    refine ⟨⟨?_, fun hne => .of_null (hsrc hne.2)⟩, ?_, fun hne => absurd trivial hne.1⟩
    · rw [hpivot]
      exact attenuated_updateData rfl hsn
    · rw [hdest]
      exact attenuated_updateData rfl hpn

/-- Derivation does not amplify authority, whatever the rights and the data, and from the
message on: in every state whose untyped and CNode caps are well formed, and these are all
states that a run reaches. -/
theorem derivation_attenuates {static : Word → Prop} {s₀ : KernelState} (h₀ : Boot a static s₀) :
    (∀ s, SlotRun a s₀ s → SlotsOK a s.ctes) ∧
    (∀ s, SlotsOK a s.ctes → ∀ (op : DeriveOp) s', op.Checked a s.ctes →
      op.run a s = .ok (s', .none) → op.NoAmplification a s.ctes s'.ctes) ∧
    ∀ s, SlotsOK a s.ctes → ∀ strict fuel label length slot buffer s',
      label ∈ [.cnodeCopy, .cnodeMint, .cnodeMutate, .cnodeRotate] →
      decodeCNodeInvocation a strict fuel s label length (s.ctes slot).cap buffer =
        .ok (s', .none) →
      ∃ s₁ op, s₁.ctes = s.ctes ∧ DeriveOp.label op = label ∧ op.Checked a s₁.ctes ∧
        op.run a s₁ = .ok (s', .none) ∧ op.NoAmplification a s.ctes s'.ctes := by
  refine ⟨fun s hrun => hrun.slotsOK h₀, fun s hs op s' hop h => DeriveOp.noAmplification hs hop h,
    ?_⟩
  intro s hs strict fuel label length slot buffer s' hl h
  obtain ⟨s₁, op, hslots, hlabel, hop, hrun₁⟩ := decodeCNodeInvocation_deriveOp hl h
  refine ⟨s₁, op, hslots, hlabel, hop, hrun₁, ?_⟩
  rw [← hslots] at hs ⊢
  exact DeriveOp.noAmplification hs hop hrun₁

/-- The boot untyped, copied. -/
theorem derivation_attenuates_untyped : ∃ s',
    (DeriveOp.copy (bootSlot .riscv64 1) (bootSlot .riscv64 2) (CapRights.fromWord 15)).run .riscv64
      (bootState .riscv64 false) = .ok (s', .none) ∧
    (DeriveOp.copy (bootSlot .riscv64 1) (bootSlot .riscv64 2)
      (CapRights.fromWord 15)).NoAmplification .riscv64 (bootState .riscv64 false).ctes s'.ctes := by
  obtain ⟨⟨s', st⟩, hok, hst⟩ := Exec.satisfies_iff.mp (by decide +kernel :
    ((DeriveOp.copy (bootSlot .riscv64 1) (bootSlot .riscv64 2) (CapRights.fromWord 15)).run .riscv64
      (bootState .riscv64 false)).satisfies (fun r => decide (r.2 = .none)) = true)
  obtain rfl : st = .none := of_decide_eq_true hst
  have hboot : Boot .riscv64 (fun _ => False) (bootState .riscv64 false) := bootState_boot
  obtain ⟨hruns, hatt, -⟩ := derivation_attenuates hboot
  refine ⟨s', hok, hatt _ (hruns _ .refl) _ s' ?_ hok⟩
  exact ⟨bootSlot .riscv64 0, by decide, 2, by decide, by decide⟩

end Rel4.Kernel
