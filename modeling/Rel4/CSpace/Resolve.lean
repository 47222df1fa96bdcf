import Rel4.Lib.Radix
import Rel4.Common.Words
import Rel4.CSpace.Lookup

/-!
The CSpace as a graph of guarded radix nodes.

A CNode cap is a node, whose slots may hold caps to further nodes.
`resolve_address_bits` walks this graph: its shifts and masks select the bits that
the nodes of the abstract graph do.
-/

namespace Rel4.CSpace
open Lib.Bitfield Lib.Radix Common Function

variable {root : CapT} {a : Arch} {σ : Slots} {cap : CapT} {capPtr n : Word}

/-- A CNode cap whose guard fits its size, to a node with slots. -/
structure CNodeOk (a : Arch) (cap : CapT) : Prop where
  radix_pos : 1 ≤ (getCNodeRadix a cap).toNat
  guard_lt : (getCNodeGuard a cap).toNat < 2 ^ (getCNodeGuardSize a cap).toNat
  level_le : (getCNodeRadix a cap).toNat + (getCNodeGuardSize a cap).toNat ≤ 64

/-- All CNode caps in the slots are well formed. They may be arranged in cycles. -/
def CNodesOk (a : Arch) (σ : Slots) : Prop :=
  ∀ slot, σ.capType slot = .cnodeCap → CNodeOk a (σ slot).cap

theorem cnodesOk_empty (a : Arch) : CNodesOk a fun _ => emptyCte := by
  have hnull : getCapType emptyCte.cap ≠ .cnodeCap := by decide
  exact fun _ ht => absurd ht hnull

theorem CNodesOk.update (h : CNodesOk a σ) (hc : getCapType c.cap = .cnodeCap → CNodeOk a c.cap) :
    CNodesOk a (update σ p c) := by
  intro slot ht
  by_cases hs : slot = p
  · subst hs
    simp only [Slots.capType, update_self] at ht ⊢
    exact hc ht
  · simp only [Slots.capType, update_of_ne hs] at ht ⊢
    exact h slot ht

/-- The node of a CNode cap. -/
def cnode (a : Arch) (cap : CapT) : Option (Node Word) :=
  if h : getCapType cap = .cnodeCap ∧ 0 < (getCNodeRadix a cap).toNat then
    some {
      guardBits := (getCNodeGuardSize a cap).toNat
      guard := (getCNodeGuard a cap).toNat
      radix := (getCNodeRadix a cap).toNat
      radix_pos := h.2
      slot := fun i => offsetSlot (getCNodePtr a cap) (BitVec.ofNat 64 i.val) }
  else none

/-- The nodes behind the slots. -/
def cspace (a : Arch) (σ : Slots) (slot : Word) : Option (Node Word) := cnode a (σ slot).cap

/-- What a lookup should return: the slot with the bits that are left, or a fault. -/
def resolveOutcome (total : Word) : Option (Word × Nat) → ResolveAddressBitsRet
  | none => ⟨.lookupFault, 0, total⟩
  | some (slot, bits) => ⟨.none, slot, BitVec.ofNat 64 bits⟩

/-- The lookup of `nBits` bits in the graph, from a root cap on. -/
def resolveSpec (a : Arch) (σ : Slots) (root : CapT) (capPtr nBits : Word) :
    ResolveAddressBitsRet :=
  resolveOutcome nBits
    ((cnode a root).bind fun node => node.resolve (cspace a σ) (chunk capPtr.toNat) nBits.toNat)

/-! ## One level -/

theorem toNat_radix_lt (a : Arch) (cap : CapT) : (getCNodeRadix a cap).toNat < 64 :=
  toNat_get_lt rfl rfl (by decide)

theorem toNat_guardSize_lt (a : Arch) (cap : CapT) : (getCNodeGuardSize a cap).toNat < 64 :=
  toNat_get_lt rfl rfl (by decide)

theorem toNat_levelBits (a : Arch) (cap : CapT) :
    (getCNodeRadix a cap + getCNodeGuardSize a cap).toNat =
      (getCNodeRadix a cap).toNat + (getCNodeGuardSize a cap).toNat := by
  have := toNat_radix_lt a cap
  have := toNat_guardSize_lt a cap
  rw [BitVec.toNat_add]
  omega

/-- The bits of a word as the loop reads them: a shift amount counts modulo 64. -/
def wordChunk (x n w : Nat) : Nat := x / 2 ^ ((n - w) % 64) % 2 ^ w

/-- Inside the word these are the bits at their place. For `n = 64` and no bits the
shift is by nothing instead of everything, which makes no difference. -/
theorem wordChunk_eq (hk : k ≤ m) (hm : m ≤ 64) : wordChunk x m k = chunk x m k := by
  unfold wordChunk chunk
  by_cases hfull : m - k = 64
  · have hzero : k = 0 := by omega
    rw [hzero, Nat.pow_zero, Nat.mod_one, Nat.mod_one]
  · rw [Nat.mod_eq_of_lt (by omega : m - k < 64)]

theorem toNat_shiftRight_and_mask {w k : Word} (hw : w.toNat < 64) :
    ((capPtr >>> (k &&& 63).toNat) &&& mask w).toNat =
      capPtr.toNat / 2 ^ (k.toNat % 64) % 2 ^ w.toNat := by
  have hk : (k &&& 63).toNat = k.toNat % 64 := by
    rw [BitVec.toNat_and]
    exact Nat.and_two_pow_sub_one_eq_mod k.toNat 6
  rw [toNat_and_mask hw, hk, BitVec.toNat_ushiftRight, Nat.shiftRight_eq_div_pow]

/-- The index is that of a slot of the node. -/
theorem toNat_levelOffset_lt (capPtr : Word) (cap : CapT) (n : Word) :
    (levelOffset a capPtr cap n).toNat < 2 ^ (getCNodeRadix a cap).toNat := by
  rw [levelOffset, toNat_and_mask (toNat_radix_lt a cap)]
  exact Nat.mod_lt _ (Nat.two_pow_pos _)

theorem toNat_levelOffset
    (hle : (getCNodeGuardSize a cap).toNat + (getCNodeRadix a cap).toNat ≤ n.toNat) :
    (levelOffset a capPtr cap n).toNat =
      wordChunk capPtr.toNat (n.toNat - (getCNodeGuardSize a cap).toNat)
        (getCNodeRadix a cap).toNat := by
  have hlevel := toNat_levelBits a cap
  have hrest : (n - (getCNodeRadix a cap + getCNodeGuardSize a cap)).toNat =
      n.toNat - (getCNodeGuardSize a cap).toNat - (getCNodeRadix a cap).toNat := by
    rw [BitVec.toNat_sub_of_le (by rw [BitVec.le_def]; omega)]
    omega
  rw [levelOffset, toNat_shiftRight_and_mask (toNat_radix_lt a cap), hrest, wordChunk]

theorem toNat_levelGuard (hle : (getCNodeGuardSize a cap).toNat ≤ n.toNat) :
    (levelGuard a capPtr cap n).toNat =
      wordChunk capPtr.toNat n.toNat (getCNodeGuardSize a cap).toNat := by
  have hrest : (n - getCNodeGuardSize a cap).toNat = n.toNat - (getCNodeGuardSize a cap).toNat :=
    BitVec.toNat_sub_of_le (by rw [BitVec.le_def]; exact hle)
  have hmask : (mask 6 : Word) = 63 := by decide
  rw [levelGuard, hmask, toNat_shiftRight_and_mask (toNat_guardSize_lt a cap), hrest, wordChunk]

/-! ## All levels -/

variable {node : Node Word}

section

variable (h : cnode a cap = some node)
include h

theorem cnode_eq_some : getCapType cap = .cnodeCap ∧
    node.guardBits = (getCNodeGuardSize a cap).toNat ∧
    node.guard = (getCNodeGuard a cap).toNat ∧ node.radix = (getCNodeRadix a cap).toNat := by
  unfold cnode at h
  split at h
  next hc =>
    cases h
    exact ⟨hc.1, rfl, rfl, rfl⟩
  · cases h

theorem bits_of_cnode : (getCNodeRadix a cap + getCNodeGuardSize a cap).toNat = node.bits := by
  obtain ⟨-, hg, -, hr⟩ := cnode_eq_some h
  rw [toNat_levelBits, Node.bits, hg, hr, Nat.add_comm]

/-- A lookup passes the checks of a level iff the node admits the bits. -/
theorem admits_iff : node.Admits (wordChunk capPtr.toNat) n.toNat ↔
      ¬(getCNodeGuardSize a cap > n ∨ levelGuard a capPtr cap n ≠ getCNodeGuard a cap) ∧
        ¬getCNodeRadix a cap + getCNodeGuardSize a cap > n := by
  obtain ⟨-, hg, hguard, -⟩ := cnode_eq_some h
  have hbits := bits_of_cnode h
  have hsum : node.guardBits ≤ node.bits := Nat.le_add_right _ _
  rw [Node.Admits, not_or, not_not, gt_iff_lt, gt_iff_lt, BitVec.not_lt, BitVec.not_lt,
    BitVec.le_def, BitVec.le_def, hbits, ← hg]
  constructor
  · rintro ⟨hle, hc⟩
    refine ⟨⟨by omega, BitVec.eq_of_toNat_eq ?_⟩, hle⟩
    rw [toNat_levelGuard (by omega), ← hg, hc, hguard]
  · rintro ⟨⟨-, hc⟩, hle⟩
    refine ⟨hle, ?_⟩
    rw [hguard, ← hc, toNat_levelGuard (by omega), hg]

theorem select_of_cnode (hle : node.bits ≤ n.toNat) : node.select (wordChunk capPtr.toNat) n.toNat =
      offsetSlot (getCNodePtr a cap) (levelOffset a capPtr cap n) := by
  unfold cnode at h
  split at h
  · cases h
    have hle : (getCNodeGuardSize a cap).toNat + (getCNodeRadix a cap).toNat ≤ n.toNat := hle
    have hoffset : (levelOffset a capPtr cap n).toNat = _ := toNat_levelOffset hle
    have hlt := toNat_levelOffset_lt (a := a) capPtr cap n
    rw [Node.select]
    simp only
    rw [← hoffset, Nat.mod_eq_of_lt hlt, BitVec.ofNat_toNat, BitVec.setWidth_eq]
  · cases h

end

/-- Exactly the CNode caps are nodes, if they are well formed. -/
theorem cnode_eq_none (hroot : getCapType root = .cnodeCap → CNodeOk a root) :
    cnode a root = none ↔ getCapType root ≠ .cnodeCap := by
  unfold cnode
  split
  next hc => exact iff_of_false (by simp) (not_not.mpr hc.1)
  next hc =>
    refine iff_of_true rfl fun ht => hc ⟨ht, ?_⟩
    have := (hroot ht).radix_pos
    omega

theorem cspace_eq_none_iff (h : CNodesOk a σ) (slot : Word) :
    cspace a σ slot = none ↔ getCapType (σ slot).cap ≠ .cnodeCap := cnode_eq_none (h slot)

theorem toNat_sub_levelBits (hnode : cnode a cap = some node) (hle : node.bits ≤ n.toNat) :
    (n - (getCNodeRadix a cap + getCNodeGuardSize a cap)).toNat = n.toNat - node.bits := by
  have hbits := bits_of_cnode hnode
  rw [BitVec.toNat_sub_of_le (by rw [BitVec.le_def]; omega), hbits]

/-- One turn of the loop is one level of the walk. -/
theorem resolveLevels_succ (h : CNodesOk a σ) (total : Word) (fuel : Nat)
    (hnode : cnode a cap = some node) :
    resolveLevels a σ capPtr total (fuel + 1) cap n =
      if node.Admits (wordChunk capPtr.toNat) n.toNat then
        if n.toNat = node.bits then
          .ok ⟨.none, node.select (wordChunk capPtr.toNat) n.toNat, 0⟩
        else match cspace a σ (node.select (wordChunk capPtr.toNat) n.toNat) with
          | none => .ok ⟨.none, node.select (wordChunk capPtr.toNat) n.toNat,
              BitVec.ofNat 64 (n.toNat - node.bits)⟩
          | some _ => resolveLevels a σ capPtr total fuel
              (σ (node.select (wordChunk capPtr.toNat) n.toNat)).cap
              (n - (getCNodeRadix a cap + getCNodeGuardSize a cap))
      else .ok ⟨.lookupFault, 0, total⟩ := by
  have hbits := bits_of_cnode hnode
  have hassert : getCNodeRadix a cap + getCNodeGuardSize a cap ≠ 0 := by
    intro he
    rw [he] at hbits
    have hzero : 0 = node.bits := hbits
    have := node.bits_pos
    omega
  rw [resolveLevels, ensure_of hassert]
  simp only [bind, Except.bind, pure, Except.pure]
  by_cases hin : node.Admits (wordChunk capPtr.toNat) n.toNat
  · obtain ⟨hguard, hlevel⟩ := (admits_iff hnode).mp hin
    have hselect : node.select (wordChunk capPtr.toNat) n.toNat = _ := select_of_cnode hnode hin.1
    have hrest := toNat_sub_levelBits hnode hin.1
    have hlast : n = getCNodeRadix a cap + getCNodeGuardSize a cap ↔ n.toNat = node.bits := by
      rw [← hbits]
      exact BitVec.toNat_inj.symm
    rw [if_pos hin, if_neg hguard, if_neg hlevel, hselect, if_congr hlast rfl rfl]
    have hnone := cspace_eq_none_iff h (offsetSlot (getCNodePtr a cap) (levelOffset a capPtr cap n))
    by_cases hend : n.toNat = node.bits
    · rw [if_pos hend, if_pos hend]
    rw [if_neg hend, if_neg hend]
    split
    next ht =>
      rw [hnone.mpr ht, ← hrest, BitVec.ofNat_toNat, BitVec.setWidth_eq]
    next ht =>
      obtain ⟨node', hnode'⟩ := Option.ne_none_iff_exists'.mp (mt hnone.mp ht)
      rw [hnode']
  · rw [if_neg hin]
    rw [admits_iff hnode] at hin
    by_cases hguard : getCNodeGuardSize a cap > n ∨
        levelGuard a capPtr cap n ≠ getCNodeGuard a cap
    · rw [if_pos hguard]
    have hlevel : getCNodeRadix a cap + getCNodeGuardSize a cap > n := by
      by_contra hlevel
      exact hin ⟨hguard, hlevel⟩
    rw [if_neg hguard, if_pos hlevel]

/-- The loop follows the walk, if it may take as many turns as the walk has levels. -/
theorem resolveLevels_eq (h : CNodesOk a σ) (total : Word) (hnode : cnode a cap = some node)
    (hfuel : node.levels (cspace a σ) (wordChunk capPtr.toNat) n.toNat ≤ fuel) :
    resolveLevels a σ capPtr total fuel cap n =
      .ok (resolveOutcome total
        (node.resolve (cspace a σ) (wordChunk capPtr.toNat) n.toNat)) := by
  induction fuel generalizing cap node n with
  | zero => exact absurd hfuel (Nat.not_le.mpr Node.levels_pos)
  | succ fuel ih =>
    rw [resolveLevels_succ h total fuel hnode]
    by_cases hin : node.Admits (wordChunk capPtr.toNat) n.toNat
    · rw [if_pos hin]
      by_cases hend : n.toNat = node.bits
      · rw [if_pos hend, Node.resolve_last hin hend]
        rfl
      rw [if_neg hend]
      rcases hnext : cspace a σ (node.select (wordChunk capPtr.toNat) n.toNat) with - | node'
      · rw [Node.resolve_stop hin hend hnext]
        rfl
      have hlevels := Node.levels_next hin hend hnext
      rw [Node.resolve_next hin hend hnext, ← toNat_sub_levelBits hnode hin.1]
      rw [← toNat_sub_levelBits hnode hin.1] at hlevels
      exact ih hnext (by omega)
    · rw [if_neg hin, Node.resolve_of_not_admits hin]
      rfl

/-- With fewer turns it does not come to an end. -/
theorem resolveLevels_outOfFuel (h : CNodesOk a σ) (total : Word) (hnode : cnode a cap = some node)
    (hfuel : fuel < node.levels (cspace a σ) (wordChunk capPtr.toNat) n.toNat) :
    resolveLevels a σ capPtr total fuel cap n = .error .outOfFuel := by
  induction fuel generalizing cap node n with
  | zero => rfl
  | succ fuel ih =>
    by_cases hend : node.Admits (wordChunk capPtr.toNat) n.toNat → n.toNat ≠ node.bits →
        cspace a σ (node.select (wordChunk capPtr.toNat) n.toNat) = none
    · rw [Node.levels_end hend] at hfuel
      omega
    obtain ⟨hin, hne, hnext⟩ : node.Admits (wordChunk capPtr.toNat) n.toNat ∧ n.toNat ≠ node.bits ∧
        cspace a σ (node.select (wordChunk capPtr.toNat) n.toNat) ≠ none := by
      simpa using hend
    obtain ⟨node', hnode'⟩ := Option.ne_none_iff_exists'.mp hnext
    rw [Node.levels_next hin hne hnode', ← toNat_sub_levelBits hnode hin.1] at hfuel
    rw [resolveLevels_succ h total fuel hnode, if_pos hin, if_neg hne, hnode']
    exact ih hnode' (by omega)

/-- The lookup for any number of bits, also for more than a word has. -/
theorem resolveAddressBits_eq_walk (hroot : getCapType root = .cnodeCap → CNodeOk a root)
    (hσ : CNodesOk a σ) :
    resolveAddressBits a σ root capPtr n = .ok (resolveOutcome n ((cnode a root).bind fun node =>
      node.resolve (cspace a σ) (wordChunk capPtr.toNat) n.toNat)) := by
  unfold resolveAddressBits
  rcases hnode : cnode a root with - | node
  · rw [if_pos ((cnode_eq_none hroot).mp hnode)]
    rfl
  · obtain ⟨ht, -⟩ := cnode_eq_some hnode
    rw [if_neg (not_not.mpr ht), resolveLevels_eq hσ n hnode Node.levels_le_succ]
    rfl

theorem resolveAddressBits_eq_spec (hroot : getCapType root = .cnodeCap → CNodeOk a root)
    (hσ : CNodesOk a σ) (hn : n.toNat ≤ 64) :
    resolveAddressBits a σ root capPtr n = .ok (resolveSpec a σ root capPtr n) := by
  have hread : ∀ node : Node Word, node.resolve (cspace a σ) (wordChunk capPtr.toNat) n.toNat =
        node.resolve (cspace a σ) (chunk capPtr.toNat) n.toNat := fun node =>
    Node.resolve_congr fun m w hw hm => wordChunk_eq hw (by omega)
  rw [resolveAddressBits_eq_walk hroot hσ, resolveSpec]
  simp only [hread]

/-- `resolve_address_bits` ends without an assertion, with the result that the graph
gives, and looks only at slots that the nodes have. -/
theorem resolveAddressBits_eq {root : CapT} (hroot : getCapType root = .cnodeCap → CNodeOk a root)
    (hσ : CNodesOk a σ) (capPtr : Word) (hn : n.toNat ≤ 64) :
    resolveAddressBits a σ root capPtr n = .ok (resolveSpec a σ root capPtr n) ∧
      ∀ (cap : CapT) (k : Word),
        (levelOffset a capPtr cap k).toNat < 2 ^ (getCNodeRadix a cap).toNat :=
  ⟨resolveAddressBits_eq_spec hroot hσ hn, fun cap k => toNat_levelOffset_lt capPtr cap k⟩

/-! A CNode whose first slot holds a cap to the CNode itself. -/

def loopCap : CapT := newCNodeCap .riscv64 1 2 3 (pptrBase .riscv64)

def loopSpace : Slots :=
  update (fun _ => emptyCte) (pptrBase .riscv64) ⟨loopCap, fun _ => 0⟩

theorem cnodeOk_loopCap : CNodeOk .riscv64 loopCap := ⟨by decide, by decide, by decide⟩

theorem cnodesOk_loopSpace : CNodesOk .riscv64 loopSpace :=
  (cnodesOk_empty .riscv64).update fun _ => cnodeOk_loopCap

/-- Nine bits lead through the loop twice and then to the second slot. -/
theorem resolveAddressBits_eq_loop : resolveAddressBits .riscv64 loopSpace loopCap 439 9 =
      .ok (resolveSpec .riscv64 loopSpace loopCap 439 9) ∧
    resolveAddressBits .riscv64 loopSpace loopCap 439 9 =
      .ok ⟨.none, pptrBase .riscv64 + 32, 0⟩ :=
  ⟨(resolveAddressBits_eq (fun _ => cnodeOk_loopCap) cnodesOk_loopSpace 439
    (by decide)).1, by rfl⟩

end Rel4.CSpace
