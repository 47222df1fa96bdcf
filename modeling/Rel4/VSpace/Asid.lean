import Rel4.VSpace.Paging

/-!
Address space identifiers and the root table of the running thread
(`sel4_vspace/src/arch/*/asid.rs`, `interface.rs`, `set_vm_root` in
`sel4_task/src/tcb.rs`).

A pool is 512 words in memory: pointers to root tables on riscv64, words of
type `asid_map_t` on aarch64.
-/

namespace Rel4.VSpace
open Lib.Bitfield Common CSpace Rel4.Task Function

def asidLowBits : Nat := 9
/-- `nASIDPools` -/
def asidPoolNum : Nat := 128

namespace Field

def asidMapRoot : Field 1 := ⟨0, 12, 36, 12, true⟩
def asidMapType : Field 1 := ⟨0, 0, 1, 0, false⟩

end Field

def Layout.asidMap : Layout 1 where
  fields := [Field.asidMapRoot, Field.asidMapType]
  fits := by decide
  disjoint := by decide

/-- `asid_map_t::new_vspace` -/
def newAsidMapVspace (root : Word) : Word := Layout.asidMap.build [root, 1] 0

variable (a : Arch)

/-- The address of the word of an ASID in its pool. -/
def poolEntry (pool asid : Word) : Word := pool + 8 * (asid &&& 511)

/-- The root table that a word of a pool stands for. -/
def poolRoot (w : Word) : Option Word :=
  match a with
  | .riscv64 => if w = 0 then none else some w
  | .aarch64 =>
    if Field.asidMapType.stored (fun _ => w) = 1 then
      some (Field.asidMapRoot.get (signExt a) fun _ => w)
    else none

/-- The pool of an ASID, `0` if there is none. -/
def asidPoolOf (s : KernelState) (asid : Word) : Word := s.asidTable (asid >>> asidLowBits)

/-- `find_vspace_for_asid`: the root table, `none` for a lookup fault. -/
def findVspaceForAsid (s : KernelState) (asid : Word) : Option Word :=
  let pool := asidPoolOf s asid
  if pool = 0 then none else poolRoot a (s.userMemory (poolEntry pool asid))

/-! ## The root of the running thread -/

/-- `satp_t::new` with mode Sv39, for the table at a physical address. -/
def satpNew (asid addr : Word) : Word :=
  (8 <<< 60) ||| ((asid &&& 0xffff) <<< 44) ||| ((addr >>> 12) &&& 0xfffffffffff)

/-- `ttbr_new` -/
def ttbrNew (asid addr : Word) : Word := ((asid &&& 0xffff) <<< 48) ||| (addr &&& 0xffffffffffff)

/-- The register word for a root table at a physical address under an ASID. -/
def rootWord (asid addr : Word) : Word :=
  match a with
  | .riscv64 => satpNew asid addr
  | .aarch64 => ttbrNew asid addr

def setUserRoot (s : KernelState) (w : Word) : KernelState := { s with userRoot := w }

/-- The word for the kernel's own table under ASID 0. -/
def globalRoot (s : KernelState) : Word := rootWord a 0 (kpptrToPaddr a s.globalVSpace)

def getPtMappedAsid (cap : CapT) : Word := CSpace.Field.ptMappedAsid.get (signExt a) cap
def getVsMappedAsid (cap : CapT) : Word := CSpace.Field.vsMappedAsid.get (signExt a) cap

/-- `is_valid_native_root` -/
def isValidNativeRoot (cap : CapT) : Bool :=
  getCapType cap = .vspaceCap ∧ getVsIsMapped a cap ≠ 0

/-- `set_vm_root` of `interface.rs`: the state, and the lookup fault if there is
one. On riscv64 the kernel's table is written first when the ASID does not
resolve to the table of the cap, and the table of the cap in every case; on
aarch64 the table of the cap is written with no ASID. -/
def setVmRoot (s : KernelState) (vspaceRoot : CapT) : KernelState × Option (Words 2) :=
  match a with
  | .riscv64 =>
    if getCapType vspaceRoot ≠ .pageTableCap then (setUserRoot s (globalRoot a s), none)
    else
      let lvl1pt := getPtBasePtr a vspaceRoot
      let asid := getPtMappedAsid a vspaceRoot
      let found := findVspaceForAsid a s asid
      let s := if found ≠ some lvl1pt then setUserRoot s (globalRoot a s) else s
      (setUserRoot s (satpNew asid (pptrToPaddr a lvl1pt)),
        if found = none then some fun _ => 0 else none)
  | .aarch64 => (setUserRoot s (pptrToPaddr a (getVsBasePtr a vspaceRoot)), none)

/-- The cap in the VTable slot of a thread. -/
def vtableCap (s : KernelState) (t : Word) : CapT :=
  (s.ctes (KernelState.getCspace a t tcbVTable)).cap

/-- `set_vm_root` of `tcb.rs`. On aarch64 the test of the ASID is skipped when
the ASID does not resolve at all. -/
def tcbSetVmRoot (s : KernelState) (t : Word) : KernelState × Option (Words 2) :=
  let threadRoot := vtableCap a s t
  match a with
  | .riscv64 => setVmRoot a s threadRoot
  | .aarch64 =>
    if isValidNativeRoot a threadRoot = false then (setUserRoot s (globalRoot a s), none)
    else
      match findVspaceForAsid a s (getVsMappedAsid a threadRoot) with
      | some root =>
        if root ≠ getVsBasePtr a threadRoot then (setUserRoot s (globalRoot a s), none)
        else setVmRoot a s threadRoot
      | none => setVmRoot a s threadRoot

/-! ## Deletion -/

def setMemory (s : KernelState) (m : Word → Word) : KernelState := { s with userMemory := m }

def setAsidPool (s : KernelState) (i pool : Word) : KernelState :=
  { s with asidTable := update s.asidTable i pool }

/-- The word of a pool is for this root table. -/
def holdsVspace (w vspace : Word) : Bool :=
  match a with
  | .riscv64 => w = vspace
  | .aarch64 => poolRoot a w = some vspace

/-- `delete_asid` -/
def deleteAsid (s : KernelState) (asid vspace : Word) (defaultVspaceCap : CapT) :
    KernelState × Option (Words 2) :=
  let pool := asidPoolOf s asid
  let entry := poolEntry pool asid
  if pool ≠ 0 ∧ holdsVspace a (s.userMemory entry) vspace then
    setVmRoot a (setMemory s (update s.userMemory entry 0)) defaultVspaceCap
  else (s, none)

/-- `delete_asid_pool` -/
def deleteAsidPool (s : KernelState) (asidBase pool : Word) (defaultVspaceCap : CapT) :
    KernelState × Option (Words 2) :=
  if asidPoolOf s asidBase = pool then
    setVmRoot a (setAsidPool s (asidBase >>> asidLowBits) 0) defaultVspaceCap
  else (s, none)

/-! ## Unmapping -/

/-- `unmap_page_table`. On aarch64 the entry to be cleared is null when the walk
ends at the root. -/
def unmapPageTable (s : KernelState) (asid vptr pt : Word) : Exec KernelState :=
  match findVspaceForAsid a s asid with
  | none => .ok s
  | some root => do
    ensure (a = .riscv64 → root ≠ pt)
    let first := if a = .riscv64 then ptSlot a root vptr 0 else 0
    let found ← findParent a (unmapDescends a) s.userMemory vptr pt (ptLevels a - 1) 0 root first
    match found with
    | none => return s
    | some slot =>
      ensure (a = .aarch64 → slot ≠ 0)
      return setMemory s (clearParent a s.userMemory slot pt)

/-- `unmapPage`: the state, and the lookup fault if there is one; only riscv64
reports it. -/
def unmapPage (s : KernelState) (pageSize asid vptr pptr : Word) :
    Exec (KernelState × Option (Words 2)) :=
  match findVspaceForAsid a s asid with
  | none => .ok (s, if a = .riscv64 then some fun _ => 0 else none)
  | some root => do
    let pageBits ← pageBitsForSize pageSize
    let r ← lookupPtSlot a s.userMemory root vptr
    if levelBits a r.2 ≠ pageBits.toNat then return (s, none)
    if mapsFrame a (s.userMemory r.1) pptr = false then return (s, none)
    return (setMemory s (update s.userMemory r.1 0), none)

variable {a}

/-- `unmap_page_table` does nothing, or writes the entry that it has found. -/
theorem unmapPageTable_cases (h : unmapPageTable a s asid vptr pt = .ok s') :
    s' = s ∨ ∃ slot, s' = setMemory s (clearParent a s.userMemory slot pt) := by
  unfold unmapPageTable at h
  split at h
  · cases h
    exact .inl rfl
  obtain ⟨_, -, h⟩ := bind_eq_ok.mp h
  obtain ⟨found, -, h⟩ := bind_eq_ok.mp h
  cases found with
  | none =>
    cases h
    exact .inl rfl
  | some slot =>
    obtain ⟨_, -, h⟩ := bind_eq_ok.mp h
    cases h
    exact .inr ⟨slot, rfl⟩

theorem findVspaceForAsid_eq_some : findVspaceForAsid a s asid = some root ↔ asidPoolOf s asid ≠ 0 ∧
      poolRoot a (s.userMemory (poolEntry (asidPoolOf s asid) asid)) = some root := by
  unfold findVspaceForAsid
  simp only
  split
  next h => exact iff_of_false (by simp) fun hr => hr.1 h
  next h => exact ⟨fun hr => ⟨h, hr⟩, fun hr => hr.2⟩

theorem poolRoot_zero : poolRoot a 0 = none := by
  cases a <;> decide

/-- Clearing entries of the table and words of the memory adds no ASID. -/
theorem findVspaceForAsid_of_cleared
    (htable : asidPoolOf s' asid = asidPoolOf s asid ∨ asidPoolOf s' asid = 0)
    (hmem : ∀ w, s'.userMemory w = s.userMemory w ∨ s'.userMemory w = 0)
    (h : findVspaceForAsid a s' asid = some root) : findVspaceForAsid a s asid = some root := by
  obtain ⟨hpool, hroot⟩ := findVspaceForAsid_eq_some.mp h
  have htab := htable.resolve_right hpool
  rw [htab] at hpool hroot
  refine findVspaceForAsid_eq_some.mpr ⟨hpool, ?_⟩
  rcases hmem (poolEntry (asidPoolOf s asid) asid) with hw | hw
  · rw [← hw]
    exact hroot
  · rw [hw, poolRoot_zero] at hroot
    cases hroot

end Rel4.VSpace
