import Rel4.CSpace.Resolve

/-!
The capability lookup of the fast path (`lookup_fp` in
`kernel/src/kernel/fastpath.rs`).

It reads the address from the other end than `resolve_address_bits`, shifts used
bits out of the word and notices only behind a level that there were too few. It
walks the same graph all the same.
-/

namespace Rel4.Kernel
open Lib.Bitfield Lib.Radix Common CSpace

variable (a : Arch)

/-- The address with the bits of earlier levels shifted out. -/
def fpAddress (cptr bits : Word) : Word := cptr <<< (bits &&& 63).toNat

/-- The index of the slot in a node. -/
def fpRadix (cptr : Word) (cap : CapT) (bits : Word) : Word :=
  (fpAddress cptr bits <<< (getCNodeGuardSize a cap &&& 63).toNat) >>>
    ((wordBits - getCNodeRadix a cap) &&& 63).toNat

/-- The loop of `lookup_fp`. -/
def lookupFpLevels (σ : Slots) (cptr : Word) : Nat → CapT → Word → Exec CapT
  | 0, _, _ => .error .outOfFuel
  | fuel + 1, cap, bits =>
    let guardBits := getCNodeGuardSize a cap
    let radixBits := getCNodeRadix a cap
    if guardBits ≠ 0 ∧
        fpAddress cptr bits >>> ((wordBits - guardBits) &&& 63).toNat ≠ getCNodeGuard a cap then
      .ok newNullCap
    else
      let cap := (σ (offsetSlot (getCNodePtr a cap) (fpRadix a cptr cap bits))).cap
      let bits := bits + (guardBits + radixBits)
      if bits < wordBits ∧ getCapType cap = .cnodeCap then lookupFpLevels σ cptr fuel cap bits
      else if bits > wordBits then .ok newNullCap
      else .ok cap

/-- `lookup_fp`. A level of a node with slots consumes one of the 64 bits. -/
def lookupFp (σ : Slots) (cap : CapT) (cptr : Word) : Exec CapT :=
  if getCapType cap ≠ .cnodeCap then .ok newNullCap else lookupFpLevels a σ cptr 64 cap 0

variable {a} {σ : Slots} {cap : CapT} {cptr bits : Word} {node : Node Word} {n : Nat}

/-- The cap that a walk ends at. -/
def foundCap (σ : Slots) : Option (Word × Nat) → CapT
  | none => newNullCap
  | some (slot, _) => (σ slot).cap

theorem foundCap_eq (total : Word) (r : Option (Word × Nat)) :
    foundCap σ r = if (resolveOutcome total r).status = .none
      then (σ (resolveOutcome total r).slot).cap else newNullCap := by
  cases r <;> rfl

theorem toNat_wordBits_sub (hw : w.toNat < 64) : (wordBits - w).toNat = 64 - w.toNat :=
  BitVec.toNat_sub_of_le (by rw [BitVec.le_def]; exact Nat.le_of_lt hw)

theorem toNat_fpAddress (hb : bits.toNat < 64) :
    (fpAddress cptr bits).toNat = cptr.toNat * 2 ^ bits.toNat % 2 ^ 64 := by
  rw [fpAddress, toNat_and_63 hb, BitVec.toNat_shiftLeft, Nat.shiftLeft_eq]

section Level

variable (hn : n ≤ 64) (hbits : bits.toNat = 64 - n) (hpos : 0 < n)
include hn hbits hpos

/-- The leading bits, as the fast path reads them. -/
theorem toNat_fpGuard (hw : 0 < w.toNat) (hle : w.toNat ≤ n) (hlt : w.toNat < 64) :
    (fpAddress cptr bits >>> ((wordBits - w) &&& 63).toNat).toNat =
      chunk cptr.toNat n w.toNat := by
  have hsub := toNat_wordBits_sub hlt
  rw [toNat_and_63 (by omega), BitVec.toNat_ushiftRight, Nat.shiftRight_eq_div_pow, hsub,
    toNat_fpAddress (by omega), hbits]
  exact chunk_eq_of_le hle hn

theorem toNat_fpRadix (hr : 0 < (getCNodeRadix a cap).toNat)
    (hle : (getCNodeGuardSize a cap).toNat + (getCNodeRadix a cap).toNat ≤ n) :
    (fpRadix a cptr cap bits).toNat =
      chunk cptr.toNat (n - (getCNodeGuardSize a cap).toNat) (getCNodeRadix a cap).toNat := by
  have hg := toNat_guardSize_lt a cap
  have hrlt := toNat_radix_lt a cap
  have hsub := toNat_wordBits_sub hrlt
  have hshift : 64 - n + (getCNodeGuardSize a cap).toNat =
      64 - (n - (getCNodeGuardSize a cap).toNat) := by omega
  rw [fpRadix, toNat_and_63 hg, toNat_and_63 (by omega), BitVec.toNat_ushiftRight,
    Nat.shiftRight_eq_div_pow, hsub, BitVec.toNat_shiftLeft, Nat.shiftLeft_eq,
    toNat_fpAddress (by omega), hbits, Nat.mod_mul_mod, Nat.mul_assoc, ← Nat.pow_add, hshift]
  exact chunk_eq_of_le (by omega) (by omega)

theorem select_of_fpRadix (h : cnode a cap = some node) (hle : node.bits ≤ n) :
    node.select (chunk cptr.toNat) n =
      offsetSlot (getCNodePtr a cap) (fpRadix a cptr cap bits) := by
  unfold cnode at h
  split at h
  next hc =>
    cases h
    have hradix : (fpRadix a cptr cap bits).toNat = _ := toNat_fpRadix hn hbits hpos hc.2 hle
    rw [Node.select]
    simp only
    rw [Nat.mod_eq_of_lt (chunk_lt _ _ _), ← hradix, BitVec.ofNat_toNat, BitVec.setWidth_eq]
  · cases h

/-- If enough bits are left, the fast path passes a level iff the node admits them. -/
theorem fpGuard_iff (h : cnode a cap = some node) (hok : CNodeOk a cap) (hle : node.bits ≤ n) :
    (getCNodeGuardSize a cap ≠ 0 ∧
      fpAddress cptr bits >>> ((wordBits - getCNodeGuardSize a cap) &&& 63).toNat ≠
        getCNodeGuard a cap) ↔ ¬node.Admits (chunk cptr.toNat) n := by
  obtain ⟨-, hg, hguard, -⟩ := cnode_eq_some h
  have hlt := toNat_guardSize_lt a cap
  have hgn : node.guardBits ≤ node.bits := Nat.le_add_right _ _
  by_cases hzero : getCNodeGuardSize a cap = 0
  · have hgz : node.guardBits = 0 := by rw [hg, hzero]; rfl
    have hguardz : node.guard = 0 := by
      have := hok.guard_lt
      rw [← hguard, ← hg, hgz] at this
      omega
    refine iff_of_false (fun hne => hne.1 hzero) (not_not.mpr ⟨hle, ?_⟩)
    have := chunk_lt cptr.toNat n node.guardBits
    rw [hgz] at this ⊢
    omega
  · have hpos' : 0 < (getCNodeGuardSize a cap).toNat := by
      rw [Nat.pos_iff_ne_zero]
      exact fun he => hzero (BitVec.eq_of_toNat_eq he)
    have hread : (fpAddress cptr bits >>> ((wordBits - getCNodeGuardSize a cap) &&& 63).toNat).toNat =
        _ := toNat_fpGuard hn hbits hpos hpos' (by omega) hlt
    rw [and_iff_right hzero, Node.Admits, and_iff_right hle, hg, hguard, ← hread,
      BitVec.toNat_inj]

end Level

/-- The loop of `lookup_fp` follows the walk. -/
theorem lookupFpLevels_eq (hσ : CNodesOk a σ) (hn : n ≤ 64) (hbits : bits.toNat = 64 - n)
    (hpos : 0 < n) (hok : CNodeOk a cap) (hnode : cnode a cap = some node)
    (hfuel : node.levels (cspace a σ) (chunk cptr.toNat) n ≤ fuel) :
    lookupFpLevels a σ cptr fuel cap bits =
      .ok (foundCap σ (node.resolve (cspace a σ) (chunk cptr.toNat) n)) := by
  induction fuel generalizing cap node n bits with
  | zero =>
    have hone : 0 < node.levels (cspace a σ) (chunk cptr.toNat) n := Node.levels_pos
    omega
  | succ fuel ih =>
    obtain ⟨-, hg, -, hr⟩ := cnode_eq_some hnode
    have hlt := toNat_guardSize_lt a cap
    have hrlt := toNat_radix_lt a cap
    have hlevel : node.bits = node.guardBits + node.radix := rfl
    have hadvance : (bits + (getCNodeGuardSize a cap + getCNodeRadix a cap)).toNat =
        64 - n + node.bits := by
      rw [BitVec.toNat_add, BitVec.toNat_add]
      omega
    have hwide : bits + (getCNodeGuardSize a cap + getCNodeRadix a cap) < wordBits ↔
        node.bits < n := by
      rw [BitVec.lt_def, hadvance]
      show 64 - n + node.bits < 64 ↔ node.bits < n
      omega
    have hover : bits + (getCNodeGuardSize a cap + getCNodeRadix a cap) > wordBits ↔
        n < node.bits := by
      rw [gt_iff_lt, BitVec.lt_def, hadvance]
      show 64 < 64 - n + node.bits ↔ n < node.bits
      omega
    rw [lookupFpLevels]
    by_cases hle : node.bits ≤ n
    · rw [if_congr (fpGuard_iff hn hbits hpos hnode hok hle) rfl rfl]
      by_cases hin : node.Admits (chunk cptr.toNat) n
      · rw [if_neg (not_not.mpr hin), ← select_of_fpRadix hn hbits hpos hnode hle]
        by_cases hend : n = node.bits
        · rw [if_neg (fun h => absurd (hwide.mp h.1) (by omega)),
            if_neg (mt hover.mp (by omega)), Node.resolve_last hin hend]
          rfl
        rcases hnext : cspace a σ (node.select (chunk cptr.toNat) n) with - | node'
        · have ht := (cspace_eq_none_iff hσ _).mp hnext
          rw [if_neg (fun h => ht h.2), if_neg (mt hover.mp (by omega)),
            Node.resolve_stop hin hend hnext]
          rfl
        obtain ⟨ht, -⟩ := cnode_eq_some hnext
        have hlevels := Node.levels_next hin hend hnext
        rw [if_pos ⟨hwide.mpr (by omega), ht⟩, Node.resolve_next hin hend hnext]
        exact ih (by omega) (by omega) (by omega) (hσ _ ht) hnext (by omega)
      · rw [if_pos hin, Node.resolve_of_not_admits hin]
        rfl
    · -- too few bits: the guard may still match, but the level goes past the end
      have hin : ¬node.Admits (chunk cptr.toNat) n := fun h => hle h.1
      rw [Node.resolve_of_not_admits hin]
      split
      · rfl
      · rw [if_neg (fun h => absurd (hwide.mp h.1) (by omega)), if_pos (hover.mpr (by omega))]
        rfl

/-- The fast path finds the cap that the slow path finds, and the null cap where
the slow path faults. -/
theorem lookupFp_eq_resolve {root : CapT} (hroot : getCapType root = .cnodeCap → CNodeOk a root)
    (hσ : CNodesOk a σ) (cptr : Word) :
    ∃ r, resolveAddressBits a σ root cptr wordBits = .ok r ∧
      lookupFp a σ root cptr = .ok (if r.status = .none then (σ r.slot).cap else newNullCap) := by
  refine ⟨_, resolveAddressBits_eq_spec hroot hσ (by decide), ?_⟩
  unfold lookupFp resolveSpec
  rcases hnode : cnode a root with - | node
  · rw [if_pos ((cnode_eq_none hroot).mp hnode)]
    rfl
  obtain ⟨ht, -⟩ := cnode_eq_some hnode
  have hlevels : node.levels (cspace a σ) (chunk cptr.toNat) 64 ≤ 64 := Node.levels_le (by decide)
  rw [if_neg (not_not.mpr ht),
    lookupFpLevels_eq hσ (Nat.le_refl 64) rfl (by decide) (hroot ht) hnode hlevels]
  exact congrArg Except.ok (foundCap_eq wordBits _)

/-- Three leading ones lead to the second slot of the CNode, which is empty. -/
theorem lookupFp_eq_resolve_loop : ∃ r,
    resolveAddressBits .riscv64 loopSpace loopCap (7 <<< 61) wordBits = .ok r ∧
    lookupFp .riscv64 loopSpace loopCap (7 <<< 61) =
      .ok (if r.status = .none then (loopSpace r.slot).cap else newNullCap) ∧
    r = ⟨.none, pptrBase .riscv64 + 32, 61⟩ := by
  obtain ⟨r, hr, hfp⟩ := lookupFp_eq_resolve (fun _ => cnodeOk_loopCap) cnodesOk_loopSpace (7 <<< 61)
  have hvalue : resolveAddressBits .riscv64 loopSpace loopCap (7 <<< 61) wordBits =
      .ok ⟨.none, pptrBase .riscv64 + 32, 61⟩ := by rfl
  exact ⟨r, hr, hfp, Except.ok.inj (hr.symm.trans hvalue)⟩

end Rel4.Kernel
