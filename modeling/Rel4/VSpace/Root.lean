import Rel4.Common.Words
import Rel4.VSpace.Asid

/-!
The root table that the hardware walks.

`Fresh` says which words the root register may hold: the root named by a cap
together with the cap's ASID while that ASID resolves to this root, or else the
kernel's own table under ASID 0. `RootCall` are the calls that write the
register for a thread. Each is decided by the state in which it calls
`set_vm_root`, where the entry that it deletes is gone.
-/

namespace Rel4.VSpace
open Lib.Bitfield Common CSpace Rel4.Task Function

variable {root w x : Word} (a : Arch)

/-! ## The register -/

/-- The physical address of the table that the register word names. -/
def tableOf (w : Word) : Word :=
  match a with
  | .riscv64 => (w &&& 0xfffffffffff) <<< 12
  | .aarch64 => w &&& 0xffffffffffff

/-- The address of a table as the registers can hold it. -/
def IsTableAddr (addr : Word) : Prop := addr &&& 0xfffffffff000 = addr

variable {c : RootCall}

theorem IsTableAddr.getLsbD (h : IsTableAddr addr) (i : Nat) (hi : i < 12 ∨ 48 ≤ i) :
    addr.getLsbD i = false := by
  have hmask : (0xfffffffff000 : Word) = lowMask 36 <<< 12 := by decide
  rw [← h, hmask, BitVec.getLsbD_and, BitVec.getLsbD_shiftLeft, getLsbD_lowMask]
  rcases hi with hi | hi
  · simp [hi]
  · have : ¬i - 12 < 36 := by omega
    simp [this]

theorem tableOf_rootWord (a : Arch) (asid : Word) (h : IsTableAddr addr) :
    tableOf a (rootWord a asid addr) = addr := by
  have h44 : (0xfffffffffff : Word) = lowMask 44 := by decide
  have h48 : (0xffffffffffff : Word) = lowMask 48 := by decide
  apply BitVec.eq_of_getLsbD_eq
  intro i hi
  cases a with
  | riscv64 =>
    simp only [tableOf, rootWord, satpNew, h44, BitVec.getLsbD_shiftLeft,
      BitVec.getLsbD_ushiftRight, BitVec.getLsbD_and, BitVec.getLsbD_or, getLsbD_lowMask]
    by_cases h12 : i < 12
    · simp [h12, h.getLsbD i (.inl h12)]
    by_cases hhigh : i - 12 < 44
    · have hmode : ∀ j : Fin 44, BitVec.getLsbD (8 <<< 60 : Word) j = false := by decide
      have hsum : 12 + (i - 12) = i := by omega
      have hw : i - 12 < 64 := by omega
      simp only [hmode ⟨i - 12, hhigh⟩, Bool.false_or]
      simp [h12, hi, hhigh, hsum, hw]
    · rw [h.getLsbD i (.inr (by omega))]
      simp [hhigh]
  | aarch64 =>
    simp only [tableOf, rootWord, ttbrNew, h48, BitVec.getLsbD_shiftLeft, BitVec.getLsbD_and,
      BitVec.getLsbD_or, getLsbD_lowMask]
    by_cases hhigh : i < 48
    · simp [hi, hhigh]
    · rw [h.getLsbD i (.inr (by omega))]
      simp [hhigh]
/-! ## Fresh roots -/

/-- The ASID and the table by which a cap is the root of an address space. -/
def rootOfCap (cap : CapT) : Option (Word × Word) :=
  match a with
  | .riscv64 =>
    if getCapType cap = .pageTableCap then some (getPtMappedAsid a cap, getPtBasePtr a cap) else none
  | .aarch64 =>
    if isValidNativeRoot a cap then some (getVsMappedAsid a cap, getVsBasePtr a cap) else none

/-- The word names the root of the cap, and the cap's ASID resolves to it. -/
def Current (s : KernelState) (cap : CapT) (w : Word) : Prop :=
  ∃ asid base, rootOfCap a cap = some (asid, base) ∧ findVspaceForAsid a s asid = some base ∧
    w = rootWord a asid (pptrToPaddr a base)

def Fresh (s : KernelState) (cap : CapT) (w : Word) : Prop :=
  Current a s cap w ∨ w = globalRoot a s

/-- The word that `set_vm_root` writes for the table of a cap. -/
def capWord (cap : CapT) : Word :=
  match a with
  | .riscv64 => satpNew (getPtMappedAsid a cap) (pptrToPaddr a (getPtBasePtr a cap))
  | .aarch64 => pptrToPaddr a (getVsBasePtr a cap)

/-! ## Calls -/

/-- The calls that write the root register for a thread: a switch to `t`, and
the deletions, which write it for the current thread. -/
inductive RootCall where
  | switch (t : Word)
  | deleteAsid (asid vspace : Word)
  | deleteAsidPool (asidBase pool : Word)

namespace RootCall

/-- The cap in the VTable slot of the thread. -/
def cap (s : KernelState) : RootCall → CapT
  | switch t => vtableCap a s t
  | deleteAsid .. | deleteAsidPool .. => vtableCap a s s.ksCurThread

def run (s : KernelState) : RootCall → KernelState
  | switch t => (tcbSetVmRoot a s t).1
  | deleteAsid asid vspace => (VSpace.deleteAsid a s asid vspace (vtableCap a s s.ksCurThread)).1
  | deleteAsidPool asidBase pool =>
    (VSpace.deleteAsidPool a s asidBase pool (vtableCap a s s.ksCurThread)).1

/-- The deletions come to `set_vm_root` if they find what they are to delete. -/
def Installs (s : KernelState) : RootCall → Prop
  | switch _ => True
  | deleteAsid asid vspace => asidPoolOf s asid ≠ 0 ∧
    holdsVspace a (s.userMemory (poolEntry (asidPoolOf s asid) asid)) vspace = true
  | deleteAsidPool asidBase pool => asidPoolOf s asidBase = pool

/-- The state without the entry, or the pool, that the call deletes. -/
def cleared (s : KernelState) : RootCall → KernelState
  | switch _ => s
  | deleteAsid asid _ =>
    setMemory s (update s.userMemory (poolEntry (asidPoolOf s asid) asid) 0)
  | deleteAsidPool asidBase _ => setAsidPool s (asidBase >>> asidLowBits) 0

/-- The call writes the kernel's table and nothing after it. -/
def FallsBack (s : KernelState) (c : RootCall) : Prop :=
  match a, c with
  | .riscv64, _ => getCapType (c.cap a s) ≠ .pageTableCap
  | .aarch64, switch t => isValidNativeRoot a (vtableCap a s t) = false ∨
    ∃ root, findVspaceForAsid a s (getVsMappedAsid a (vtableCap a s t)) = some root ∧
      root ≠ getVsBasePtr a (vtableCap a s t)
  | .aarch64, _ => False

/-- The root tables that the call takes out of the ASID table. -/
def Deletes (s : KernelState) (root : Word) : RootCall → Prop
  | switch _ => False
  | deleteAsid _ vspace => root = vspace
  | deleteAsidPool asidBase _ => ∃ asid : Word, asid >>> asidLowBits = asidBase >>> asidLowBits ∧
    findVspaceForAsid a s asid = some root

/-- Where the call leaves a fresh root: it falls back to the kernel's table, or
the word it writes is the right one for the table of the cap. On aarch64 that
word has no ASID in it. -/
def Sound (s : KernelState) (c : RootCall) : Prop :=
  c.FallsBack a s ∨ Current a (c.cleared s) (c.cap a s) (capWord a (c.cap a s)) ∨
    capWord a (c.cap a s) = globalRoot a s

/-! ## What a call writes -/

variable {a} {s : KernelState}

@[simp] theorem globalRoot_cleared (c : RootCall) : globalRoot a (c.cleared s) = globalRoot a s := by
  cases c <;> rfl

/-- The write of the kernel's table is lost when the table of the cap is written after it. -/
theorem setVmRoot_riscv64 (cap : CapT) : (setVmRoot .riscv64 s cap).1 =
    setUserRoot s (if getCapType cap ≠ .pageTableCap then globalRoot .riscv64 s
      else capWord .riscv64 cap) := by
  by_cases h : getCapType cap ≠ .pageTableCap
  · simp only [setVmRoot, if_pos h]
  · simp only [setVmRoot, if_neg h, setUserRoot, capWord]
    split <;> rfl

/-- All calls end in `set_vm_root`, but for the switch on aarch64. -/
theorem run_eq_setVmRoot (hc : c.Installs a s) (h : a = .riscv64 ∨ ∀ t, c ≠ switch t) :
    c.run a s = (setVmRoot a (c.cleared s) (c.cap a s)).1 := by
  cases c with
  | switch t =>
    rcases h with rfl | h
    · rfl
    · exact absurd rfl (h t)
  | deleteAsid asid vspace => exact congrArg Prod.fst (if_pos hc)
  | deleteAsidPool asidBase pool => exact congrArg Prod.fst (if_pos hc)

theorem run_of_fallsBack (hc : c.Installs a s) (h : c.FallsBack a s) :
    c.run a s = setUserRoot (c.cleared s) (globalRoot a s) := by
  cases a with
  | riscv64 =>
    have hcap : getCapType (c.cap .riscv64 s) ≠ .pageTableCap := by
      cases c <;> exact h
    rw [run_eq_setVmRoot hc (.inl rfl), setVmRoot_riscv64, if_pos hcap, globalRoot_cleared]
  | aarch64 =>
    cases c with
    | switch t =>
      simp only [run, tcbSetVmRoot, cleared]
      rcases h with h | ⟨root, hroot, hne⟩
      · rw [if_pos h]
      · simp only [hroot]
        rw [if_pos hne]
        split <;> rfl
    | deleteAsid asid vspace => exact h.elim
    | deleteAsidPool asidBase pool => exact h.elim

theorem run_of_not_fallsBack (hc : c.Installs a s) (h : ¬c.FallsBack a s) :
    c.run a s = setUserRoot (c.cleared s) (capWord a (c.cap a s)) := by
  cases a with
  | riscv64 =>
    have hcap : ¬getCapType (c.cap .riscv64 s) ≠ .pageTableCap := by
      cases c <;> exact h
    rw [run_eq_setVmRoot hc (.inl rfl), setVmRoot_riscv64, if_neg hcap]
  | aarch64 =>
    cases c with
    | switch t =>
      simp only [FallsBack, not_or, not_exists, not_and, Decidable.not_not] at h
      simp only [run, tcbSetVmRoot, cleared]
      rw [if_neg h.1]
      split
      · rename_i root hroot
        rw [if_neg (Decidable.not_not.mpr (h.2 root hroot))]
        rfl
      · rfl
    | deleteAsid asid vspace =>
      rw [run_eq_setVmRoot hc (.inr fun _ e => by cases e)]
      rfl
    | deleteAsidPool asidBase pool =>
      rw [run_eq_setVmRoot hc (.inr fun _ e => by cases e)]
      rfl

theorem run_eq_setUserRoot (hc : c.Installs a s) :
    ∃ w, c.run a s = setUserRoot (c.cleared s) w := by
  by_cases h : c.FallsBack a s
  · exact ⟨_, run_of_fallsBack hc h⟩
  · exact ⟨_, run_of_not_fallsBack hc h⟩

theorem current_setUserRoot {cap : CapT} :
    Current a (setUserRoot s v) cap w ↔ Current a s cap w := Iff.rfl

theorem globalRoot_setUserRoot : globalRoot a (setUserRoot s v) = globalRoot a s := rfl

theorem fresh_run_iff (hc : c.Installs a s) :
    Fresh a (c.run a s) (c.cap a s) (c.run a s).userRoot ↔ c.Sound a s := by
  by_cases h : c.FallsBack a s
  · rw [run_of_fallsBack hc h]
    exact iff_of_true (.inr (globalRoot_cleared c).symm) (.inl h)
  rw [run_of_not_fallsBack hc h]
  simp only [Fresh, current_setUserRoot, globalRoot_setUserRoot, globalRoot_cleared, Sound, h,
    false_or]
  rfl

/-! ## Deleted roots -/

/-- No root has two ASIDs. -/
def OneAsid (a : Arch) (s : KernelState) : Prop :=
  ∀ x y root, findVspaceForAsid a s x = some root → findVspaceForAsid a s y = some root → x = y

theorem poolRoot_riscv64_ne_zero (h : poolRoot a w = some root) (ha : a = .riscv64) : root ≠ 0 := by
  subst ha
  simp only [poolRoot] at h
  split at h
  · cases h
  · obtain rfl := Option.some.inj h
    assumption

theorem findVspaceForAsid_cleared (h : findVspaceForAsid a (c.cleared s) x = some root) :
    findVspaceForAsid a s x = some root := by
  cases c with
  | switch t => exact h
  | deleteAsid asid vspace =>
    refine findVspaceForAsid_of_cleared ?_ ?_ h
    · exact .inl rfl
    · exact update_zero_or s.userMemory _
  | deleteAsidPool asidBase pool =>
    refine findVspaceForAsid_of_cleared ?_ ?_ h
    · exact update_zero_or s.asidTable _ _
    · exact fun _ => .inl rfl

/-- A root that the call deletes does not resolve when the register is written. -/
theorem not_findVspaceForAsid_cleared (hc : c.Installs a s) (hone : OneAsid a s)
    (hdel : c.Deletes a s root) (x : Word) : findVspaceForAsid a (c.cleared s) x ≠ some root := by
  intro hx
  have hx' := findVspaceForAsid_cleared hx
  obtain ⟨hpool, hroot⟩ := findVspaceForAsid_eq_some.mp hx
  cases c with
  | switch t => exact hdel
  | deleteAsid asid vspace =>
    obtain rfl : root = vspace := hdel
    obtain ⟨hinstalled, hholds⟩ := hc
    have hentry : poolRoot a (s.userMemory (poolEntry (asidPoolOf s asid) asid)) = some root := by
      cases a with
      | riscv64 =>
        obtain rfl : _ = root := by simpa [holdsVspace] using hholds
        exact if_neg (poolRoot_riscv64_ne_zero hroot rfl)
      | aarch64 => simpa [holdsVspace] using hholds
    obtain rfl := hone x asid root hx' (findVspaceForAsid_eq_some.mpr ⟨hinstalled, hentry⟩)
    have hzero := update_self (poolEntry (asidPoolOf s x) x) 0 s.userMemory
    have hnone := (congrArg (poolRoot a) hzero).symm.trans hroot
    rw [poolRoot_zero] at hnone
    cases hnone
  | deleteAsidPool asidBase pool =>
    obtain ⟨asid, hasid, hfind⟩ := hdel
    obtain rfl := hone x asid root hx' hfind
    apply hpool
    rw [asidPoolOf, hasid]
    exact update_self ..

/-- A fresh register does not name a root that does not resolve. -/
theorem tableOf_ne_of_fresh {cap : CapT} (hw : Fresh a s cap w)
    (hroot : ∀ x, findVspaceForAsid a s x ≠ some root)
    (haddr : ∀ x base, findVspaceForAsid a s x = some base → IsTableAddr (pptrToPaddr a base))
    (hglobal : tableOf a (globalRoot a s) ≠ pptrToPaddr a root) :
    tableOf a w ≠ pptrToPaddr a root := by
  rcases hw with ⟨asid, base, -, hfind, rfl⟩ | rfl
  · rw [tableOf_rootWord a asid (haddr asid base hfind)]
    intro e
    obtain rfl : base = root := by
      have := congrArg (fun w => w + pptrBase a) e
      simpa [pptrToPaddr] using this
    exact hroot asid hfind
  · exact hglobal

end RootCall

/-! ## One address space -/

def oneRootTable (a : Arch) : Word := pptrBase a + 0x2000
def oneRootThread (a : Arch) : Word := pptrBase a + 0x4000

/-- A thread without an address space. -/
def noRootThread (a : Arch) : Word := pptrBase a + 0x6000

/-- A cap to the root table that says that it is mapped under ASID 1. -/
def oneRootCap (a : Arch) : CapT :=
  match a with
  | .riscv64 => newPageTableCap a 1 (oneRootTable a) 1 0
  | .aarch64 => newVspaceCap 1 (oneRootTable a) 1

/-- The address space of ASID 1, with a thread that runs in it and a current thread `cur`. -/
def oneRoot (a : Arch) (cur : Word) : KernelState :=
  let pool := pptrBase a + 0x1000
  { KernelState.zero with
    ctes := update (fun _ => emptyCte)
      (KernelState.getCspace a (oneRootThread a) tcbVTable) ⟨oneRootCap a, fun _ => 0⟩
    ksCurThread := cur
    asidTable := fun i => if i = 0 then pool else 0
    userMemory := fun x =>
      if x = pool + 8 then
        (if a = .riscv64 then oneRootTable a else newAsidMapVspace (oneRootTable a))
      else 0 }

theorem vtableCap_oneRoot (a : Arch) (cur : Word) :
    vtableCap a (oneRoot a cur) (oneRootThread a) = oneRootCap a := by
  simp only [vtableCap, oneRoot, update_self]

theorem rootOfCap_oneRootCap (a : Arch) : rootOfCap a (oneRootCap a) = some (1, oneRootTable a) := by
  cases a <;> decide +kernel

theorem findVspaceForAsid_oneRoot
    (h : findVspaceForAsid .riscv64 (oneRoot .riscv64 cur) x = some root) :
    x = 1 ∧ root = oneRootTable .riscv64 := by
  obtain ⟨hpool, hroot⟩ := findVspaceForAsid_eq_some.mp h
  have hx : x >>> asidLowBits = 0 := by
    by_contra hne
    exact hpool (if_neg hne)
  have hpool : asidPoolOf (oneRoot .riscv64 cur) x = pptrBase .riscv64 + 0x1000 := if_pos hx
  rw [hpool] at hroot
  by_cases he : poolEntry (pptrBase .riscv64 + 0x1000) x = pptrBase .riscv64 + 0x1000 + 8
  · have hmem : (oneRoot .riscv64 cur).userMemory (poolEntry (pptrBase .riscv64 + 0x1000) x) =
        oneRootTable .riscv64 := if_pos he
    rw [hmem] at hroot
    have hentry : 8 * (x &&& 511) = 8 := by
      simpa only [poolEntry, BitVec.add_right_inj] using he
    have hlow : (x &&& 511).toNat = x.toNat % 512 := by
      rw [BitVec.toNat_and]
      exact Nat.and_two_pow_sub_one_eq_mod x.toNat 9
    have hhigh : x.toNat / 512 = 0 := by
      have h := congrArg BitVec.toNat hx
      rwa [BitVec.toNat_ushiftRight, Nat.shiftRight_eq_div_pow] at h
    have hmul := congrArg BitVec.toNat hentry
    have h8 : BitVec.toNat (8 : Word) = 8 := rfl
    rw [BitVec.toNat_mul, hlow, h8] at hmul
    refine ⟨?_, Option.some.inj (hroot.symm.trans (by decide +kernel))⟩
    apply BitVec.eq_of_toNat_eq
    have h1 : BitVec.toNat (1 : Word) = 1 := rfl
    omega
  · have hmem : (oneRoot .riscv64 cur).userMemory (poolEntry (pptrBase .riscv64 + 0x1000) x) = 0 :=
      if_neg he
    rw [hmem, poolRoot_zero] at hroot
    cases hroot

/-- A call that writes the root register leaves a fresh root just where it is
sound, and then not one that it deletes. -/
theorem rootCall_fresh_iff (a : Arch) (s : KernelState) (c : RootCall) (hc : c.Installs a s) :
    (Fresh a (c.run a s) (c.cap a s) (c.run a s).userRoot ↔ c.Sound a s) ∧
    (c.Sound a s → RootCall.OneAsid a s →
      (∀ x base, findVspaceForAsid a s x = some base → IsTableAddr (pptrToPaddr a base)) →
      ∀ root, c.Deletes a s root → tableOf a (globalRoot a s) ≠ pptrToPaddr a root →
        tableOf a (c.run a s).userRoot ≠ pptrToPaddr a root) := by
  refine ⟨RootCall.fresh_run_iff hc, fun hsound hone haddr root hdel hglobal => ?_⟩
  have hfresh := (RootCall.fresh_run_iff hc).mpr hsound
  obtain ⟨w, hrun⟩ := RootCall.run_eq_setUserRoot hc
  rw [hrun] at hfresh ⊢
  apply RootCall.tableOf_ne_of_fresh hfresh
  · exact RootCall.not_findVspaceForAsid_cleared hc hone hdel
  · intro x base hx
    exact haddr x base (RootCall.findVspaceForAsid_cleared hx)
  · rw [RootCall.globalRoot_setUserRoot, RootCall.globalRoot_cleared]
    exact hglobal

/-- On riscv64 a switch to a thread whose ASID resolves to its root is sound, and
so is the deletion of that ASID while a thread without a root is running. -/
theorem rootCall_fresh_iff_switch :
    (∃ s, s = (RootCall.switch (oneRootThread .riscv64)).run .riscv64
        (oneRoot .riscv64 (noRootThread .riscv64)) ∧
      Fresh .riscv64 s (oneRootCap .riscv64) s.userRoot) ∧
    ∃ s, s = (RootCall.deleteAsid 1 (oneRootTable .riscv64)).run .riscv64
        (oneRoot .riscv64 (noRootThread .riscv64)) ∧
      tableOf .riscv64 s.userRoot ≠ pptrToPaddr .riscv64 (oneRootTable .riscv64) := by
  refine ⟨⟨_, rfl, ?_⟩, _, rfl, ?_⟩
  · have h := (rootCall_fresh_iff .riscv64 (oneRoot .riscv64 (noRootThread .riscv64))
      (.switch (oneRootThread .riscv64)) trivial).1
    rw [RootCall.cap, vtableCap_oneRoot] at h
    apply h.mpr
    refine .inr (.inl ⟨1, oneRootTable .riscv64, ?_, by decide +kernel, ?_⟩)
    · rw [RootCall.cap, vtableCap_oneRoot]
      exact rootOfCap_oneRootCap _
    · rw [RootCall.cap, vtableCap_oneRoot]
      decide +kernel
  · apply (rootCall_fresh_iff .riscv64 (oneRoot .riscv64 (noRootThread .riscv64))
      (.deleteAsid 1 (oneRootTable .riscv64)) ⟨by decide +kernel, by decide +kernel⟩).2
    · have hcap : getCapType (vtableCap .riscv64 (oneRoot .riscv64 (noRootThread .riscv64))
          (noRootThread .riscv64)) ≠ .pageTableCap := by
        decide +kernel
      exact .inl hcap
    · intro x y root hx hy
      rw [(findVspaceForAsid_oneRoot hx).1, (findVspaceForAsid_oneRoot hy).1]
    · intro x base hx
      rw [(findVspaceForAsid_oneRoot hx).2, IsTableAddr]
      decide +kernel
    · rfl
    · decide +kernel

/-- Deleting the ASID of the current thread on riscv64 leaves its root in the
register, and a switch on aarch64 writes the root without its ASID. -/
theorem rootCall_stale : (∃ s, s = (RootCall.deleteAsid 1 (oneRootTable .riscv64)).run .riscv64
        (oneRoot .riscv64 (oneRootThread .riscv64)) ∧
      tableOf .riscv64 s.userRoot = pptrToPaddr .riscv64 (oneRootTable .riscv64) ∧
      ¬Fresh .riscv64 s (oneRootCap .riscv64) s.userRoot) ∧
    ∃ s, s = (RootCall.switch (oneRootThread .aarch64)).run .aarch64
        (oneRoot .aarch64 (noRootThread .aarch64)) ∧
      ¬Fresh .aarch64 s (oneRootCap .aarch64) s.userRoot := by
  refine ⟨⟨_, rfl, by decide +kernel, ?_⟩, _, rfl, ?_⟩
  · rintro (⟨asid, base, hcap, hfind, -⟩ | hglobal)
    · rw [rootOfCap_oneRootCap] at hcap
      cases hcap
      exact absurd hfind (by decide +kernel)
    · exact absurd hglobal (by decide +kernel)
  · rintro (⟨asid, base, hcap, -, hw⟩ | hglobal)
    · rw [rootOfCap_oneRootCap] at hcap
      cases hcap
      exact absurd hw (by decide +kernel)
    · exact absurd hglobal (by decide +kernel)

end Rel4.VSpace
