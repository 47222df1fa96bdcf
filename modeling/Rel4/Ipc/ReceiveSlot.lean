import Rel4.CSpace.Resolve
import Rel4.Ipc.Transfer

/-!
The slot that a thread receives a cap into.

Three words of the IPC buffer name it: where a root CNode is found, and an index
and a depth below this root. `get_receive_slot` looks the slot up as
`lookup_slot_for_cnode_op` does, but it neither checks the range of the depth nor
that the slot is empty.
-/

namespace Rel4.Ipc
open Lib.Bitfield Lib.Radix Common CSpace Rel4.Task Kernel Function
open Task.KernelState

variable {a : Arch} {s : KernelState} {t slot : Word}

/-- A lookup takes at most `k` turns. -/
def EndsWithin (a : Arch) (σ : Slots) (k : Nat) (root : CapT) (capPtr nBits : Word) : Prop :=
  getCapType root = .cnodeCap → resolveLevels a σ capPtr nBits k root nBits ≠ .error .outOfFuel

/-- The loop of `set_transfer_caps` from cap `i` on comes to inserting a cap from the
slot `src` into `dest`, in the state `s'`. -/
inductive ComesToInsert (a : Arch) (endpoint : Option Word) (buffer : Word)
    (extraCaps : Nat → Word) :
    Nat → Nat → KernelState → Option Word → KernelState → Word → Word → Prop
  | here {i n : Nat} {s : KernelState} {dest : Word} (hcap : extraCaps i ≠ 0)
    (hwrapped : isUnwrapped a (s.ctes (extraCaps i)).cap endpoint = false) :
    ComesToInsert a endpoint buffer extraCaps i (n + 1) s (some dest) s (extraCaps i) dest
  | unwrap {i n : Nat} {s s' : KernelState} {destSlot : Option Word} {src dest : Word}
    (hcap : extraCaps i ≠ 0)
    (hunwrapped : isUnwrapped a (s.ctes (extraCaps i)).cap endpoint = true)
    (h : ComesToInsert a endpoint buffer extraCaps (i + 1) n
      (s.setUserWord (bufferCapsOrBadges buffer i) (getEpBadge a (s.ctes (extraCaps i)).cap))
      destSlot s' src dest) :
    ComesToInsert a endpoint buffer extraCaps i (n + 1) s destSlot s' src dest

/-- Nothing has touched the slots up to then. -/
theorem ComesToInsert.ctes_eq
    (h : ComesToInsert a endpoint buffer extraCaps i n s destSlot s' src dest) :
    s'.ctes = s.ctes ∧ destSlot = some dest := by
  induction h with
  | here => exact ⟨rfl, rfl⟩
  | unwrap _ _ _ ih => exact ih

/-- Looking for the receive slot of `t` takes at most 64 turns for each lookup; a
slot that is found is one that `lookup_slot_for_cnode_op` would find, and it is
empty; and so it still is when a cap is inserted. -/
structure ReceiveSlotSafe (a : Arch) (s : KernelState) (t : Word) : Prop where
  levels : ∀ {buffer}, s.lookupIpcBuffer a t true = .ok (some buffer) →
    EndsWithin a s.ctes 64 (s.ctes (getCspace a t tcbCTable)).cap
        (s.userMemory (bufferReceiveCNode buffer)) wordBits ∧
      ∀ {lu}, s.lookupSlot a t (s.userMemory (bufferReceiveCNode buffer)) = .ok lu →
        lu.status = .none →
        EndsWithin a s.ctes 64 (s.ctes lu.slot).cap (s.userMemory (bufferReceiveIndex buffer))
          (s.userMemory (bufferReceiveDepth buffer))
  found : ∀ {buffer lu slot}, s.lookupIpcBuffer a t true = .ok (some buffer) →
    s.lookupSlot a t (s.userMemory (bufferReceiveCNode buffer)) = .ok lu →
    s.getReceiveSlot a t = .ok (some slot) →
    lookupSlotForCNodeOp a s false (s.ctes lu.slot).cap
        (s.userMemory (bufferReceiveIndex buffer)) (s.userMemory (bufferReceiveDepth buffer)) =
      .ok (s, .none, slot) ∧ s.ctes.capType slot = .nullCap
  inserts : ∀ {endpoint buffer extraCaps destSlot s' src dest},
    s.getReceiveSlot a t = .ok destSlot →
    ComesToInsert a endpoint buffer extraCaps 0 msgMaxExtraCaps s destSlot s' src dest →
    s'.ctes.capType dest = .nullCap

/-- What the words in the buffer have to be: the walk that they describe ends within
64 levels, and if it ends at a slot with all bits used, the depth is at most 64 and
the slot is empty. -/
def ReceiveWordsOk (a : Arch) (s : KernelState) (t : Word) : Prop :=
  ∀ buffer, s.lookupIpcBuffer a t true = .ok (some buffer) →
    ∀ ctable slot₀ k node, cspace a s.ctes (getCspace a t tcbCTable) = some ctable →
      ctable.resolve (cspace a s.ctes)
        (chunk (s.userMemory (bufferReceiveCNode buffer)).toNat) 64 = some (slot₀, k) →
      cspace a s.ctes slot₀ = some node →
      node.levels (cspace a s.ctes) (wordChunk (s.userMemory (bufferReceiveIndex buffer)).toNat)
          (s.userMemory (bufferReceiveDepth buffer)).toNat ≤ 64 ∧
        ∀ slot, node.resolve (cspace a s.ctes)
            (wordChunk (s.userMemory (bufferReceiveIndex buffer)).toNat)
            (s.userMemory (bufferReceiveDepth buffer)).toNat = some (slot, 0) →
          (s.userMemory (bufferReceiveDepth buffer)).toNat ≤ 64 ∧
            s.ctes.capType slot = .nullCap

/-! ## Lookups as walks -/

/-- A lookup succeeds iff the walk leads to a slot. -/
theorem resolveOutcome_eq_none_iff :
    (resolveOutcome total r).status = .none ↔
      ∃ slot k, r = some (slot, k) ∧
        resolveOutcome total r = ⟨.none, slot, BitVec.ofNat 64 k⟩ := by
  cases r with
  | none =>
    constructor
    · intro h
      cases h
    · rintro ⟨slot, k, h, -⟩
      cases h
  | some p => exact iff_of_true rfl ⟨p.1, p.2, rfl, rfl⟩

theorem endsWithin_iff (hσ : CNodesOk a σ) (hroot : getCapType root = .cnodeCap → CNodeOk a root) :
    EndsWithin a σ k root capPtr nBits ↔ ∀ node, cnode a root = some node →
      node.levels (cspace a σ) (wordChunk capPtr.toNat) nBits.toNat ≤ k := by
  constructor
  · intro h node hnode
    by_contra hlevels
    obtain ⟨ht, -⟩ := cnode_eq_some hnode
    exact h ht (resolveLevels_outOfFuel hσ nBits hnode (by omega))
  · intro h ht hfuel
    have hsome : cnode a root ≠ none := mt (cnode_eq_none hroot).mp (not_not.mpr ht)
    obtain ⟨node, hnode⟩ := Option.ne_none_iff_exists'.mp hsome
    rw [resolveLevels_eq hσ nBits hnode (h node hnode)] at hfuel
    cases hfuel

theorem getReceiveSlot_eq_some : s.getReceiveSlot a t = .ok (some slot) ↔
    ∃ buffer lu lus, s.lookupIpcBuffer a t true = .ok (some buffer) ∧
      s.lookupSlot a t (s.userMemory (bufferReceiveCNode buffer)) = .ok lu ∧ lu.status = .none ∧
      resolveAddressBits a s.ctes (s.ctes lu.slot).cap (s.userMemory (bufferReceiveIndex buffer))
        (s.userMemory (bufferReceiveDepth buffer)) = .ok lus ∧
      lus.status = .none ∧ lus.bitsRemaining = 0 ∧ lus.slot = slot := by
  constructor
  · intro h
    obtain ⟨buffer, hbuffer, h⟩ := bind_eq_ok.mp h
    cases buffer with
    | none => cases h
    | some buffer =>
      obtain ⟨lu, hlu, h⟩ := bind_eq_ok.mp h
      split at h
      · cases h
      rename_i hst
      obtain ⟨lus, hlus, h⟩ := bind_eq_ok.mp h
      split at h
      · cases h
      next hok =>
        rw [not_or] at hok
        cases h
        exact ⟨buffer, lu, lus, hbuffer, hlu, not_not.mp hst, hlus, not_not.mp hok.1,
          not_not.mp hok.2, rfl⟩
  · rintro ⟨buffer, lu, lus, hbuffer, hlu, hst, hlus, hst', hrest, rfl⟩
    refine bind_eq_ok.mpr ⟨_, hbuffer, bind_eq_ok.mpr ⟨lu, hlu, ?_⟩⟩
    rw [if_neg (not_not.mpr hst)]
    refine bind_eq_ok.mpr ⟨lus, hlus, ?_⟩
    rw [if_neg (by simp [hst', hrest])]
    rfl

/-- `lookup_slot_for_cnode_op` makes one check more. -/
theorem lookupSlotForCNodeOp_eq_slot :
    lookupSlotForCNodeOp a s isSource root capPtr depth = .ok (s, .none, slot) ↔
      getCapType root = .cnodeCap ∧ (1 ≤ depth ∧ depth ≤ wordBits) ∧
        ∃ res, resolveAddressBits a s.ctes root capPtr depth = .ok res ∧ res.status = .none ∧
          res.bitsRemaining = 0 ∧ res.slot = slot := by
  unfold lookupSlotForCNodeOp
  constructor
  · intro h
    -- a failed lookup returns another status
    have hstatus : ∀ {s₁ : KernelState} {slot₁ : Word},
        (Except.ok (s₁, .syscallError, slot₁) : Exec (KernelState × ExceptionT × Word)) ≠
          .ok (s, .none, slot) := by
      intro s₁ slot₁ he
      cases congrArg (fun r => r.2.1) (Except.ok.inj he)
    split at h
    · exact absurd h hstatus
    rename_i hroot
    split at h
    · exact absurd h hstatus
    rename_i hdepth
    rw [not_or, BitVec.not_lt, gt_iff_lt, BitVec.not_lt] at hdepth
    obtain ⟨res, hres, h⟩ := bind_eq_ok.mp h
    split at h
    · exact absurd h hstatus
    rename_i hst
    split at h
    · exact absurd h hstatus
    next hrest =>
      cases h
      exact ⟨not_not.mp hroot, hdepth, res, hres, not_not.mp hst, not_not.mp hrest, rfl⟩
  · rintro ⟨hroot, hdepth, res, hres, hst, hrest, rfl⟩
    rw [if_neg (not_not.mpr hroot),
      if_neg (by rw [not_or, BitVec.not_lt, gt_iff_lt, BitVec.not_lt]; exact hdepth)]
    refine bind_eq_ok.mpr ⟨res, hres, ?_⟩
    rw [if_neg (not_not.mpr hst), if_neg (not_not.mpr hrest)]
    rfl

section Walks

variable (hσ : CNodesOk a s.ctes)
include hσ

/-- `lookup_slot` is a walk of 64 bits from the root of the thread. -/
theorem lookupSlot_eq (cptr : Word) : s.lookupSlot a t cptr =
    .ok (resolveOutcome wordBits ((cspace a s.ctes (getCspace a t tcbCTable)).bind fun node =>
      node.resolve (cspace a s.ctes) (chunk cptr.toNat) 64)) :=
  resolveAddressBits_eq_spec (hσ _) hσ (Nat.le_refl 64)

/-- A lookup ends at a slot with all bits used iff the walk does. -/
theorem resolveAddressBits_found_iff :
    (∃ res, resolveAddressBits a s.ctes (s.ctes slot₀).cap capPtr depth = .ok res ∧
        res.status = .none ∧ res.bitsRemaining = 0 ∧ res.slot = slot) ↔
      ∃ node, cspace a s.ctes slot₀ = some node ∧
        node.resolve (cspace a s.ctes) (wordChunk capPtr.toNat) depth.toNat = some (slot, 0) := by
  rw [resolveAddressBits_eq_walk (hσ slot₀) hσ]
  show _ ↔ ∃ node, cnode a (s.ctes slot₀).cap = some node ∧ _
  rcases cnode a (s.ctes slot₀).cap with - | node
  · constructor
    · rintro ⟨res, hres, hst, -⟩
      cases hres
      cases hst
    · rintro ⟨node, h, -⟩
      cases h
  · constructor
    · rintro ⟨res, hres, hst, hrest, rfl⟩
      cases hres
      obtain ⟨slot, k, hwalk, hout⟩ := resolveOutcome_eq_none_iff.mp hst
      have hwalk : node.resolve (cspace a s.ctes) (wordChunk capPtr.toNat) depth.toNat =
          some (slot, k) := hwalk
      rw [hout] at hrest ⊢
      have hk : k ≤ depth.toNat := Node.rest_le_of_resolve hwalk
      have hlt := depth.isLt
      have hzero : k = 0 := by
        have := congrArg BitVec.toNat hrest
        rw [BitVec.toNat_ofNat, Nat.mod_eq_of_lt (by omega)] at this
        exact this
      rw [hzero] at hwalk
      exact ⟨node, rfl, hwalk⟩
    · rintro ⟨node', hnode, hwalk⟩
      cases hnode
      refine ⟨_, rfl, ?_⟩
      rw [Option.bind_some, hwalk]
      exact ⟨rfl, rfl, rfl⟩

/-- The lookups are safe exactly for words with an empty slot at a depth in range. -/
theorem receiveSlotSafe_iff : ReceiveSlotSafe a s t ↔ ReceiveWordsOk a s t := by
  constructor
  · intro h buffer hbuffer ctable slot₀ k node hctable hroot hnode
    have hlu := lookupSlot_eq hσ (t := t) (s.userMemory (bufferReceiveCNode buffer))
    rw [hctable, Option.bind_some, hroot, resolveOutcome] at hlu
    have hends := (h.levels hbuffer).2 hlu rfl
    rw [endsWithin_iff hσ (hσ slot₀)] at hends
    refine ⟨hends node hnode, fun slot hwalk => ?_⟩
    obtain ⟨lus, hlus⟩ := (resolveAddressBits_found_iff hσ).mpr ⟨node, hnode, hwalk⟩
    obtain ⟨hop, hnull⟩ := h.found hbuffer hlu
      (getReceiveSlot_eq_some.mpr ⟨buffer, _, lus, hbuffer, hlu, rfl, hlus⟩)
    obtain ⟨-, hdepth, -⟩ := lookupSlotForCNodeOp_eq_slot.mp hop
    exact ⟨hdepth.2, hnull⟩
  · intro h
    -- a slot that is found is at the end of the walk that the words describe
    have hfound : ∀ {buffer lu slot}, s.lookupIpcBuffer a t true = .ok (some buffer) →
        s.lookupSlot a t (s.userMemory (bufferReceiveCNode buffer)) = .ok lu →
        s.getReceiveSlot a t = .ok (some slot) →
        lookupSlotForCNodeOp a s false (s.ctes lu.slot).cap
          (s.userMemory (bufferReceiveIndex buffer)) (s.userMemory (bufferReceiveDepth buffer)) =
          .ok (s, .none, slot) ∧ s.ctes.capType slot = .nullCap := by
      intro buffer lu slot hbuffer hlu hslot
      obtain ⟨buffer', lu', lus, hbuffer', hlu', hst, hlus⟩ := getReceiveSlot_eq_some.mp hslot
      cases hbuffer.symm.trans hbuffer'
      cases hlu.symm.trans hlu'
      obtain ⟨node, hnode, hwalk⟩ := (resolveAddressBits_found_iff hσ).mp ⟨lus, hlus⟩
      rw [lookupSlot_eq hσ] at hlu
      cases hlu
      obtain ⟨slot₀, k, hroot, hout⟩ := resolveOutcome_eq_none_iff.mp hst
      obtain ⟨ctable, hctable, hroot⟩ := Option.bind_eq_some_iff.mp hroot
      rw [hout] at hlus hnode ⊢
      obtain ⟨-, hempty⟩ := h buffer hbuffer ctable slot₀ k node hctable hroot hnode
      obtain ⟨hdepth, hnull⟩ := hempty slot hwalk
      obtain ⟨ht, -⟩ := cnode_eq_some hnode
      refine ⟨lookupSlotForCNodeOp_eq_slot.mpr ⟨ht, ⟨?_, hdepth⟩, lus, hlus⟩, hnull⟩
      -- without a bit there is no way past the first node
      rw [BitVec.le_def]
      by_contra hzero
      have hzero : (s.userMemory (bufferReceiveDepth buffer)).toNat = 0 :=
        Nat.lt_one_iff.mp (Nat.lt_of_not_le hzero)
      rw [hzero, Node.resolve_of_not_admits fun ha =>
        absurd ha.1 (Nat.not_le.mpr node.bits_pos)] at hwalk
      cases hwalk
    refine ⟨fun {buffer} hbuffer => ⟨?_, fun {lu} hlu hst => ?_⟩, hfound, ?_⟩
    · exact (endsWithin_iff hσ (hσ _)).mpr fun node _ => Node.levels_le (by decide)
    · rw [endsWithin_iff hσ (hσ _)]
      intro node hnode
      rw [lookupSlot_eq hσ] at hlu
      cases hlu
      obtain ⟨slot₀, k, hroot, hout⟩ := resolveOutcome_eq_none_iff.mp hst
      obtain ⟨ctable, hctable, hroot⟩ := Option.bind_eq_some_iff.mp hroot
      rw [hout] at hnode
      exact (h buffer hbuffer ctable slot₀ k node hctable hroot hnode).1
    · intro endpoint buffer extraCaps destSlot s' src dest hslot hinsert
      obtain ⟨hctes, rfl⟩ := hinsert.ctes_eq
      obtain ⟨buffer', lu, -, hbuffer, hlu, -⟩ := getReceiveSlot_eq_some.mp hslot
      rw [hctes]
      exact (hfound hbuffer hlu hslot).2

end Walks

/-! A thread whose buffer names the second slot of a CNode. -/

def receiverTcb : Word := pptrBase .riscv64 + 0x1200
def receiverCNode : Word := pptrBase .riscv64 + 0x4000
def receiverBuffer : Word := pptrBase .riscv64 + 0x8000

def receiverSlots (c : CapT) : Slots :=
  let σ := update (fun _ => emptyCte) (getCspace .riscv64 receiverTcb tcbCTable)
    ⟨newCNodeCap .riscv64 1 63 0 receiverCNode, defaultMdbNode⟩
  let σ := update σ (getCspace .riscv64 receiverTcb tcbBuffer)
    ⟨newFrameCap .riscv64 0 receiverBuffer 0 (vmReadWrite .riscv64) 0 0, defaultMdbNode⟩
  let σ := update σ receiverCNode
    ⟨newCNodeCap .riscv64 1 0 0 receiverCNode, defaultMdbNode⟩
  update σ (receiverCNode + 32) ⟨c, defaultMdbNode⟩

/-- The second slot holds `c`. -/
def receiving (c : CapT) : KernelState :=
  { KernelState.zero with
    ctes := receiverSlots c
    userMemory := fun p =>
      if p = bufferReceiveIndex receiverBuffer ∨ p = bufferReceiveDepth receiverBuffer then 1
      else 0 }

theorem cnodesOk_receiverSlots (hc : getCapType c ≠ .cnodeCap) :
    CNodesOk .riscv64 (receiverSlots c) := by
  have hroot := (cnodesOk_empty .riscv64).update (p := getCspace .riscv64 receiverTcb tcbCTable)
    (c := ⟨newCNodeCap .riscv64 1 63 0 receiverCNode, defaultMdbNode⟩)
    fun _ => ⟨by decide, by decide, by decide⟩
  have hbuffer := hroot.update (p := getCspace .riscv64 receiverTcb tcbBuffer)
    (c := ⟨newFrameCap .riscv64 0 receiverBuffer 0 (vmReadWrite .riscv64) 0 0, defaultMdbNode⟩)
    fun ht => absurd ht (by decide)
  have hnode := hbuffer.update (p := receiverCNode)
    (c := ⟨newCNodeCap .riscv64 1 0 0 receiverCNode, defaultMdbNode⟩)
    fun _ => ⟨by decide, by decide, by decide⟩
  exact hnode.update fun ht => absurd ht hc

/-- If the slot is empty, nothing can go wrong. -/
theorem receiveSlotSafe_iff_empty : ReceiveSlotSafe .riscv64 (receiving newNullCap) receiverTcb ∧
    (receiving newNullCap).getReceiveSlot .riscv64 receiverTcb =
      .ok (some (receiverCNode + 32)) := by
  have hσ : CNodesOk .riscv64 (receiving newNullCap).ctes := cnodesOk_receiverSlots (by decide)
  refine ⟨(receiveSlotSafe_iff hσ).mpr ?_, by rfl⟩
  intro buffer hbuffer ctable slot₀ k node hctable hroot hnode
  have hbuffer' : (receiving newNullCap).lookupIpcBuffer .riscv64 receiverTcb true =
      .ok (some receiverBuffer) := by rfl
  cases hbuffer'.symm.trans hbuffer
  have hlu : (receiving newNullCap).lookupSlot .riscv64 receiverTcb 0 =
      .ok ⟨.none, receiverCNode, 0⟩ := by rfl
  have hlu' := lookupSlot_eq hσ (t := receiverTcb) 0
  rw [hctable, Option.bind_some, show (0 : Word) = (receiving newNullCap).userMemory
    (bufferReceiveCNode receiverBuffer) from rfl, hroot] at hlu'
  obtain rfl : receiverCNode = slot₀ :=
    congrArg ResolveAddressBitsRet.slot (Except.ok.inj (hlu.symm.trans hlu'))
  refine ⟨Nat.le_trans (Node.levels_le (by decide)) (by decide), fun slot hwalk => ?_⟩
  obtain ⟨res, hres, -, -, rfl⟩ := (resolveAddressBits_found_iff hσ).mpr ⟨node, hnode, hwalk⟩
  have hres' : resolveAddressBits .riscv64 (receiving newNullCap).ctes
      ((receiving newNullCap).ctes receiverCNode).cap 1 1 =
      .ok ⟨.none, receiverCNode + 32, 0⟩ := by rfl
  cases hres'.symm.trans hres
  decide

/-- A thread that names an occupied slot: the slot is returned, and the transfer of
a cap of a message into it ends in a failed assertion. -/
theorem getReceiveSlot_occupied :
    ¬ReceiveSlotSafe .riscv64 (receiving newDomainCap) receiverTcb ∧
      setTransferCaps .riscv64 (receiving newDomainCap) receiverTcb none (fun _ => 0)
        (fun i => if i = 0 then receiverCNode + 32 else 0) = .error .assertFailed := by
  refine ⟨fun h => ?_, by rfl⟩
  have hslot : (receiving newDomainCap).getReceiveSlot .riscv64 receiverTcb =
      .ok (some (receiverCNode + 32)) := by rfl
  have hlu : (receiving newDomainCap).lookupSlot .riscv64 receiverTcb
      ((receiving newDomainCap).userMemory (bufferReceiveCNode receiverBuffer)) =
      .ok ⟨.none, receiverCNode, 0⟩ := by rfl
  have hbuffer : (receiving newDomainCap).lookupIpcBuffer .riscv64 receiverTcb true =
      .ok (some receiverBuffer) := by rfl
  exact absurd (h.found hbuffer hlu hslot).2 (by decide)

end Rel4.Ipc
