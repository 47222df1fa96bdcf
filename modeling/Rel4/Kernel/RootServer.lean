import Rel4.Kernel.Asid
import Rel4.Kernel.PageMap
import Rel4.Kernel.Untypeds

/-!
The objects of the initial thread (`kernel/src/boot/root_server.rs`,
`boot/utils.rs`, `calculate_extra_bi_size_bits` in `boot/mod.rs`).

`create_rootserver_objects` puts the objects one after the other, larger ones
first: the extra boot information, whose size is not fixed, goes in front of the
first object that is not larger. So the objects are aligned without gaps
(`cut_layout`).
-/

namespace Rel4.Kernel
open Lib.Bitfield Lib.Tiling Common VSpace
open BitVec (twoPow ofNat toNat_add toNat_ofNat ofNat_add ofNat_mul ofNat_toNat setWidth_eq
  eq_of_toNat_eq toNat_sub_of_le)
open List (replicate mem_singleton mem_append not_mem_nil eq_of_mem_replicate append_assoc mem_cons)

variable (a : Arch)

/-! ## Sizes -/

/-- `BI_FRAME_SIZE_BITS` -/
def biFrameSizeBits : Word := 12

/-- `ROUND_UP!(n, b)` -/
def roundUp (n : Word) (b : Nat) : Word := (((n - 1) >>> b) + 1) <<< b

/-- `get_n_paging` -/
def getNPaging (vReg : Region) (bits : Nat) : Word :=
  (roundUp vReg.stop bits - Common.roundDown vReg.start bits) / twoPow 64 bits

/-- The levels whose entries point to tables that are made at boot. -/
def pagingLevels : Arch → List Nat
  | .riscv64 => [0, 1]
  | .aarch64 => [0, 1, 2]

/-- `arch_get_n_paging` -/
def archGetNPaging (itVReg : Region) : Word :=
  ((pagingLevels a).map fun i => getNPaging itVReg (levelBits a i)).sum

/-- `calculate_rootserver_size` -/
def calculateRootserverSize (itVReg : Region) (extraBiSizeBits : Word) : Word :=
  let size := bit (rootCnodeSizeBits + slotBits)
  let size := size + bit (tcbBits a)
  let size := size + bit pageBits
  let size := size + bit biFrameSizeBits
  let size := size + bit asidPoolBits
  let size := size + if extraBiSizeBits > 0 then bit extraBiSizeBits else 0
  let size := size + bit vspaceBits
  size + archGetNPaging a itVReg * bit ptSizeBits

/-- `rootserver_max_size_bits` -/
def rootserverMaxSizeBits (extraBiSizeBits : Word) : Word :=
  let cnodeSizeBits := rootCnodeSizeBits + slotBits
  let maxx := if cnodeSizeBits > vspaceBits then cnodeSizeBits else vspaceBits
  if maxx > extraBiSizeBits then maxx else extraBiSizeBits

/-! ## Objects -/

/-- `rootserver_mem_t` -/
structure RootserverMem where
  cnode : Word
  vspace : Word
  asidPool : Word
  ipcBuf : Word
  bootInfo : Word
  extraBi : Word
  tcb : Word
  paging : Region
  deriving DecidableEq, Repr

/-- `rootserver_mem` and `rootserver` -/
structure Rootserver where
  mem : Region
  objects : RootserverMem
  deriving DecidableEq, Repr

/-- Nothing allocated. -/
def emptyRootserver : Rootserver := ⟨⟨0, 0⟩, ⟨0, 0, 0, 0, 0, 0, 0, ⟨0, 0⟩⟩⟩

/-- `alloc_rootserver_obj` -/
def allocRootserverObj (sizeBits n : Word) (mem : Region) : Exec (Word × Region) := do
  let allocated := mem.start
  ensure (allocated % bit sizeBits = 0)
  let mem := { mem with start := mem.start + n * bit sizeBits }
  ensure (mem.start ≤ mem.stop)
  return (allocated, mem)

/-- `maybe_alloc_extra_bi` -/
def maybeAllocExtraBi (cmpSizeBits extraBiSizeBits : Word) (r : Rootserver) : Exec Rootserver :=
  if extraBiSizeBits ≥ cmpSizeBits ∧ r.objects.extraBi = 0 then do
    let (extraBi, mem) ← allocRootserverObj extraBiSizeBits 1 r.mem
    return ⟨mem, { r.objects with extraBi := extraBi }⟩
  else .ok r

/-- The part of `create_rootserver_objects` from the VSpace on. -/
def createSmallObjects (itVReg : Region) (extraBiSizeBits : Word) (r : Rootserver) :
    Exec Rootserver := do
  let (vspace, mem) ← allocRootserverObj vspaceBits 1 r.mem
  let r ← maybeAllocExtraBi pageBits extraBiSizeBits ⟨mem, { r.objects with vspace := vspace }⟩
  let (asidPool, mem) ← allocRootserverObj asidPoolBits 1 r.mem
  let (ipcBuf, mem) ← allocRootserverObj pageBits 1 mem
  let (bootInfo, mem) ← allocRootserverObj biFrameSizeBits 1 mem
  let n := archGetNPaging a itVReg
  let (paging, mem) ← allocRootserverObj ptSizeBits n mem
  let (tcb, mem) ← allocRootserverObj (tcbBits a) 1 mem
  ensure (mem.start = mem.stop)
  return ⟨mem, { r.objects with
    asidPool := asidPool
    ipcBuf := ipcBuf
    bootInfo := bootInfo
    paging := ⟨paging, paging + n * bit ptSizeBits⟩
    tcb := tcb }⟩

/-- The part of `create_rootserver_objects` before the VSpace. -/
def createLargeObjects (extraBiSizeBits : Word) (r : Rootserver) : Exec Rootserver := do
  let cnodeSizeBits := rootCnodeSizeBits + slotBits
  let max := rootserverMaxSizeBits extraBiSizeBits
  let r ← maybeAllocExtraBi max extraBiSizeBits r
  let (cnode, mem) ← allocRootserverObj cnodeSizeBits 1 r.mem
  maybeAllocExtraBi vspaceBits extraBiSizeBits ⟨mem, { r.objects with cnode := cnode }⟩

/-- `create_rootserver_objects` -/
def createRootserverObjects (start : Word) (itVReg : Region) (extraBiSizeBits : Word)
    (r : Rootserver) : Exec Rootserver := do
  let size := calculateRootserverSize a itVReg extraBiSizeBits
  let r ← createLargeObjects extraBiSizeBits { r with mem := ⟨start, start + size⟩ }
  createSmallObjects a itVReg extraBiSizeBits r

/-! ## The layout of the objects -/

section Layout

variable {p : Nat} {itVReg : Region} {objects : RootserverMem} {r : Rootserver} {a}
  {start stop k n : Word} {d : Nat}

theorem toNat_add_ofNat (h : start.toNat + d < 2 ^ 64) :
    (start + ofNat 64 d).toNat = start.toNat + d := by
  rw [toNat_add, toNat_ofNat]
  omega

theorem add_mul_bit (hk : k.toNat < 64) (hp : 2 ^ k.toNat = p) :
    start + ofNat 64 d + n * bit k = start + ofNat 64 (d + n.toNat * p) := by
  rw [bit_eq_ofNat hk, hp, ofNat_add, ofNat_mul, ofNat_toNat, setWidth_eq, BitVec.add_assoc]

/-- One call of `alloc_rootserver_obj`, `d` bytes after the start. -/
theorem allocRootserverObj_eq (hk : k.toNat < 64) (hp : 2 ^ k.toNat = p)
    (hdvd : p ∣ start.toNat + d) (hfit : start.toNat + (d + n.toNat * p) ≤ stop.toNat) :
    allocRootserverObj k n ⟨start + ofNat 64 d, stop⟩ =
      .ok (start + ofNat 64 d, ⟨start + ofNat 64 (d + n.toNat * p), stop⟩) := by
  have hstop := stop.isLt
  have hmod : (start + ofNat 64 d) % bit k = 0 := by
    apply eq_of_toNat_eq
    rw [BitVec.toNat_umod, toNat_bit hk, toNat_add_ofNat (by omega), hp]
    exact Nat.mod_eq_zero_of_dvd hdvd
  have hle : start + ofNat 64 (d + n.toNat * p) ≤ stop := by
    rw [BitVec.le_def, toNat_add_ofNat (by omega)]
    exact hfit
  unfold allocRootserverObj
  rw [add_mul_bit hk hp]
  simp only [ensure, hmod, hle, if_true]
  rfl

theorem allocRootserverObj_one (hk : k.toNat < 64) (hp : 2 ^ k.toNat = p)
    (hdvd : p ∣ start.toNat + d) (hfit : start.toNat + (d + p) ≤ stop.toNat) :
    allocRootserverObj k 1 ⟨start + ofNat 64 d, stop⟩ =
      .ok (start + ofNat 64 d, ⟨start + ofNat 64 (d + p), stop⟩) := by
  have hone : (1 : Word).toNat * p = p := Nat.one_mul p
  have halloc := allocRootserverObj_eq hk hp hdvd (hone.symm ▸ hfit)
  rw [hone] at halloc
  exact halloc

theorem maybeAllocExtraBi_skip {cmp e : Word} (h : ¬(e ≥ cmp ∧ r.objects.extraBi = 0)) :
    maybeAllocExtraBi cmp e r = .ok r := if_neg h

theorem maybeAllocExtraBi_take {cmp e : Word} (he : e.toNat < 64)
    (h : e ≥ cmp ∧ objects.extraBi = 0) (hdvd : 2 ^ e.toNat ∣ start.toNat + d)
    (hfit : start.toNat + (d + 2 ^ e.toNat) ≤ stop.toNat) :
    maybeAllocExtraBi cmp e ⟨⟨start + ofNat 64 d, stop⟩, objects⟩ =
      .ok ⟨⟨start + ofNat 64 (d + 2 ^ e.toNat), stop⟩,
        { objects with extraBi := start + ofNat 64 d }⟩ := by
  have halloc := allocRootserverObj_one he rfl hdvd hfit
  unfold maybeAllocExtraBi
  rw [if_pos h]
  simp only [bind, Except.bind, halloc]
  rfl

/-- Where the small objects go, `d` bytes after the start. -/
def smallObjects (a : Arch) (itVReg : Region) (start : Word) (d : Nat) (objects : RootserverMem) :
    RootserverMem :=
  let n := (archGetNPaging a itVReg).toNat
  { objects with
    vspace := start + ofNat 64 d
    asidPool := start + ofNat 64 (d + 4096)
    ipcBuf := start + ofNat 64 (d + 4096 + 4096)
    bootInfo := start + ofNat 64 (d + 4096 + 4096 + 4096)
    paging := ⟨start + ofNat 64 (d + 4096 + 4096 + 4096 + 4096),
      start + ofNat 64 (d + 4096 + 4096 + 4096 + 4096 + n * 4096)⟩
    tcb := start + ofNat 64 (d + 4096 + 4096 + 4096 + 4096 + n * 4096) }

theorem createSmallObjects_eq {e : Word} {top : Nat}
    (htop : top = d + 4096 + 4096 + 4096 + 4096 + (archGetNPaging a itVReg).toNat * 4096 +
      2 ^ (tcbBits a).toNat) (hskip : ¬(e ≥ pageBits ∧ objects.extraBi = 0))
    (hdvd : 4096 ∣ start.toNat + d) (hfit : start.toNat + top < 2 ^ 64) :
    createSmallObjects a itVReg e ⟨⟨start + ofNat 64 d, start + ofNat 64 top⟩, objects⟩ =
      .ok ⟨⟨start + ofNat 64 top, start + ofNat 64 top⟩,
        smallObjects a itVReg start d objects⟩ := by
  have hstop : (start + ofNat 64 top).toNat = start.toNat + top := toNat_add_ofNat hfit
  have hpos : 0 < 2 ^ (tcbBits a).toNat := Nat.two_pow_pos _
  have halloc : ∀ (k : Word) (x : Nat), k = 12 → 4096 ∣ start.toNat + x → x + 4096 ≤ top →
      allocRootserverObj k 1 ⟨start + ofNat 64 x, start + ofNat 64 top⟩ =
        .ok (start + ofNat 64 x,
          ⟨start + ofNat 64 (x + 4096), start + ofNat 64 top⟩) := by
    rintro k x rfl hx hle
    exact allocRootserverObj_one (by decide) rfl hx (hstop ▸ Nat.add_le_add_left hle _)
  have hpaging : allocRootserverObj ptSizeBits (archGetNPaging a itVReg)
      ⟨start + ofNat 64 (d + 4096 + 4096 + 4096 + 4096), start + ofNat 64 top⟩ =
      .ok (start + ofNat 64 (d + 4096 + 4096 + 4096 + 4096),
        ⟨start + ofNat 64 (d + 4096 + 4096 + 4096 + 4096 +
          (archGetNPaging a itVReg).toNat * 4096), start + ofNat 64 top⟩) :=
    allocRootserverObj_eq (by decide) rfl (by omega) (by rw [hstop]; omega)
  have htcb : allocRootserverObj (tcbBits a) 1 ⟨start + ofNat 64 (d + 4096 + 4096 + 4096 + 4096 +
        (archGetNPaging a itVReg).toNat * 4096), start + ofNat 64 top⟩ =
      .ok (start + ofNat 64 (d + 4096 + 4096 + 4096 + 4096 +
        (archGetNPaging a itVReg).toNat * 4096),
        ⟨start + ofNat 64 top, start + ofNat 64 top⟩) := by
    have hbits : (tcbBits a).toNat < 64 := by cases a <;> decide
    have hpage : 2 ^ (tcbBits a).toNat ∣ 4096 := by cases a <;> decide
    rw [htop] at hstop ⊢
    refine allocRootserverObj_one hbits rfl (hpage.trans (by omega)) ?_
    rw [hstop]
  have hvspace := halloc vspaceBits d rfl hdvd (by omega)
  have hpool := halloc asidPoolBits (d + 4096) rfl (by omega) (by omega)
  have hbuf := halloc pageBits (d + 4096 + 4096) rfl (by omega) (by omega)
  have hinfo := halloc biFrameSizeBits (d + 4096 + 4096 + 4096) rfl (by omega) (by omega)
  have hskip' : ∀ mem : Region, maybeAllocExtraBi pageBits e
      ⟨mem, { objects with vspace := start + ofNat 64 d }⟩ =
        .ok ⟨mem, { objects with vspace := start + ofNat 64 d }⟩ :=
    fun mem => maybeAllocExtraBi_skip hskip
  have hend : start + ofNat 64 (d + 4096 + 4096 + 4096 + 4096) +
      archGetNPaging a itVReg * bit ptSizeBits =
        start + ofNat 64 (d + 4096 + 4096 + 4096 + 4096 +
          (archGetNPaging a itVReg).toNat * 4096) := add_mul_bit (by decide) rfl
  simp only [createSmallObjects, bind, Except.bind, hvspace, hskip', hpool, hbuf, hinfo, hpaging,
    htcb, hend, ensure, if_true]
  rfl

/-- The room that the objects take. -/
def rootserverRoom (a : Arch) (e n : Nat) : Nat :=
  262144 + (if 0 < e then 2 ^ e else 0) + 4096 + 4096 + 4096 + 4096 + n * 4096 +
    2 ^ (tcbBits a).toNat

theorem calculateRootserverSize_eq (he : e.toNat < 64) :
    calculateRootserverSize a itVReg e =
      ofNat 64 (rootserverRoom a e.toNat (archGetNPaging a itVReg).toNat) := by
  have hextra : (if e > 0 then bit e else 0) =
      ofNat 64 (if 0 < e.toNat then 2 ^ e.toNat else 0) := by
    have hiff : e > 0 ↔ 0 < e.toNat := BitVec.lt_def
    by_cases hpos : e > 0
    · rw [if_pos hpos, if_pos (hiff.mp hpos), bit_eq_ofNat he]
    · rw [if_neg hpos, if_neg (hiff.not.mp hpos)]
      rfl
  have htcb : bit (tcbBits a) = ofNat 64 (2 ^ (tcbBits a).toNat) :=
    bit_eq_ofNat (by cases a <;> decide)
  have hn : archGetNPaging a itVReg * bit ptSizeBits =
      ofNat 64 ((archGetNPaging a itVReg).toNat * 4096) := by
    rw [ofNat_mul, ofNat_toNat, setWidth_eq]
    rfl
  have hcnode : bit (rootCnodeSizeBits + slotBits) = ofNat 64 262144 := rfl
  have hpage : bit 12 = ofNat 64 4096 := rfl
  unfold calculateRootserverSize
  simp only [hextra, htcb, hn, hcnode, show pageBits = (12 : Word) from rfl,
    show biFrameSizeBits = (12 : Word) from rfl, show asidPoolBits = (12 : Word) from rfl,
    show vspaceBits = (12 : Word) from rfl, hpage, ← ofNat_add]
  congr 1
  unfold rootserverRoom
  omega

theorem toNat_rootserverMaxSizeBits (e : Word) :
    (rootserverMaxSizeBits e).toNat = max 18 e.toNat := by
  have hcnode : (if rootCnodeSizeBits + slotBits > vspaceBits then rootCnodeSizeBits + slotBits
      else vspaceBits) = (18 : Word) := by decide
  unfold rootserverMaxSizeBits
  dsimp only
  rw [hcnode]
  have h18 : (18 : Word).toNat = 18 := rfl
  split <;> rename_i h <;> rw [gt_iff_lt, BitVec.lt_def, h18] at h <;> omega

/-- What `create_rootserver_objects` starts from: the objects have room and none has been
allocated. The extra boot information is absent or a page or more. -/
structure Fits (a : Arch) (start : Word) (itVReg : Region) (e : Word) (r : Rootserver) : Prop where
  extra : e = 0 ∨ 12 ≤ e.toNat
  small : e.toNat < 64
  aligned : 2 ^ (rootserverMaxSizeBits e).toNat ∣ start.toNat
  nonzero : start ≠ 0
  room : start.toNat + rootserverRoom a e.toNat (archGetNPaging a itVReg).toNat < 2 ^ 64
  fresh : r.objects.extraBi = 0

/-- The offset of the VSpace. -/
def smallOffset (e : Nat) : Nat := 262144 + if 0 < e then 2 ^ e else 0

/-- Where the two objects before the VSpace go. -/
def largeObjects (start : Word) (e : Nat) (objects : RootserverMem) : RootserverMem :=
  if 18 ≤ e then
    { objects with extraBi := start, cnode := start + ofNat 64 (2 ^ e) }
  else if 0 < e then
    { objects with cnode := start, extraBi := start + ofNat 64 262144 }
  else { objects with cnode := start }

section Create

variable {itVReg : Region} {e : Word} {r : Rootserver}

/-- The end of the objects. -/
def rootserverEnd (a : Arch) (start : Word) (itVReg : Region) (e : Word) : Word :=
  start + ofNat 64 (rootserverRoom a e.toNat (archGetNPaging a itVReg).toNat)

theorem Fits.smallOffset_le (h : Fits a start itVReg e r) :
    start.toNat + smallOffset e.toNat ≤ (rootserverEnd a start itVReg e).toNat := by
  have hend : (rootserverEnd a start itVReg e).toNat =
      start.toNat + (smallOffset e.toNat + 4096 + 4096 + 4096 + 4096 +
        (archGetNPaging a itVReg).toNat * 4096 + 2 ^ (tcbBits a).toNat) := toNat_add_ofNat h.room
  have hpos : 0 < 2 ^ (tcbBits a).toNat := Nat.two_pow_pos _
  omega

theorem Fits.cnode_dvd (h : Fits a start itVReg e r) : 262144 ∣ start.toNat := by
  have halign := h.aligned
  rw [toNat_rootserverMaxSizeBits] at halign
  exact (Nat.pow_dvd_pow 2 (Nat.le_max_left 18 _)).trans halign

theorem Fits.extra_dvd (h : Fits a start itVReg e r) : 2 ^ e.toNat ∣ start.toNat := by
  have halign := h.aligned
  rw [toNat_rootserverMaxSizeBits] at halign
  exact (Nat.pow_dvd_pow 2 (Nat.le_max_right 18 _)).trans halign

theorem ge_rootserverMaxSizeBits : e ≥ rootserverMaxSizeBits e ↔ 18 ≤ e.toNat := by
  rw [ge_iff_le, BitVec.le_def, toNat_rootserverMaxSizeBits]
  omega

section

variable (h : Fits a start itVReg e r)
include h

theorem Fits.add_ne_zero (hx : x ≤ smallOffset e.toNat) : start + ofNat 64 x ≠ 0 := by
  intro hzero
  have hle := h.smallOffset_le
  have hlt := (rootserverEnd a start itVReg e).isLt
  have hnat : (start + ofNat 64 x).toNat = start.toNat + x := toNat_add_ofNat (by omega)
  have hstart : start.toNat ≠ 0 := fun h0 => h.nonzero (eq_of_toNat_eq h0)
  rw [hzero] at hnat
  exact hstart (Nat.eq_zero_of_add_eq_zero_right hnat.symm)

/-- Where the two objects before the VSpace go. -/
theorem Fits.createLargeObjects_eq :
    createLargeObjects e ⟨⟨start, rootserverEnd a start itVReg e⟩, r.objects⟩ =
      .ok ⟨⟨start + ofNat 64 (smallOffset e.toNat), rootserverEnd a start itVReg e⟩,
        largeObjects start e.toNat r.objects⟩ := by
  have hend := h.smallOffset_le
  have hcnode := h.cnode_dvd
  have hfirst : start + ofNat 64 0 = start := BitVec.add_zero start
  have halloc : ∀ x : Nat, 262144 ∣ start.toNat + x → x + 262144 ≤ smallOffset e.toNat →
      allocRootserverObj (rootCnodeSizeBits + slotBits) 1
        ⟨start + ofNat 64 x, rootserverEnd a start itVReg e⟩ =
        .ok (start + ofNat 64 x,
          ⟨start + ofNat 64 (x + 262144), rootserverEnd a start itVReg e⟩) :=
    fun x hx hle => allocRootserverObj_one (by decide) rfl hx
      ((Nat.add_le_add_left hle _).trans hend)
  unfold largeObjects
  by_cases hlarge : 18 ≤ e.toNat
  · have hoff : smallOffset e.toNat = 0 + 2 ^ e.toNat + 262144 := by
      rw [smallOffset, if_pos (by omega)]
      omega
    have hpow : 262144 ∣ 2 ^ e.toNat := Nat.pow_dvd_pow 2 hlarge
    have htake := maybeAllocExtraBi_take (d := 0) h.small
      ⟨ge_rootserverMaxSizeBits.mpr hlarge, h.fresh⟩ h.extra_dvd
      (show _ ≤ (rootserverEnd a start itVReg e).toNat by omega)
    have hsecond := halloc (0 + 2 ^ e.toNat) (by omega) (by omega)
    rw [hfirst] at htake
    rw [if_pos hlarge, hoff]
    simp only [createLargeObjects, bind, Except.bind, htake, hsecond]
    rw [maybeAllocExtraBi_skip fun hnew => h.nonzero hnew.2, Nat.zero_add]
  · rw [if_neg hlarge]
    have hskip : maybeAllocExtraBi (rootserverMaxSizeBits e) e
        ⟨⟨start, rootserverEnd a start itVReg e⟩, r.objects⟩ = .ok _ :=
      maybeAllocExtraBi_skip fun hge => hlarge (ge_rootserverMaxSizeBits.mp hge.1)
    have hsecond := halloc 0 hcnode (by unfold smallOffset; omega)
    rw [hfirst] at hsecond
    simp only [createLargeObjects, bind, Except.bind, hskip, hsecond]
    rcases h.extra with hnone | hpage
    · have hzero : ¬0 < e.toNat := by rw [hnone]; decide
      rw [if_neg hzero, smallOffset, if_neg hzero]
      exact maybeAllocExtraBi_skip fun hge => by
        rw [hnone] at hge
        exact absurd hge.1 (by decide)
    · have hpos : 0 < e.toNat := by omega
      have hoff : smallOffset e.toNat = 0 + 262144 + 2 ^ e.toNat := by
        rw [smallOffset, if_pos hpos]
      rw [if_pos hpos, hoff]
      have hpow : 2 ^ e.toNat ∣ 262144 := Nat.pow_dvd_pow 2 (show e.toNat ≤ 18 by omega)
      refine maybeAllocExtraBi_take h.small ⟨?_, h.fresh⟩ ?_ ?_
      · exact BitVec.le_def.mpr hpage
      · exact Nat.dvd_add h.extra_dvd hpow
      · omega

theorem Fits.dvd_smallOffset : 4096 ∣ start.toNat + smallOffset e.toNat := by
  have hcnode := h.cnode_dvd
  unfold smallOffset
  split
  · rename_i hpos
    have hpage : 12 ≤ e.toNat := h.extra.resolve_left fun hzero => by
      rw [hzero] at hpos
      exact absurd hpos (by decide)
    have hpow : 4096 ∣ 2 ^ e.toNat := Nat.pow_dvd_pow 2 hpage
    omega
  · omega

/-- None of the asserts of `create_rootserver_objects` fails. -/
theorem Fits.create_eq : createRootserverObjects a start itVReg e r =
      .ok ⟨⟨rootserverEnd a start itVReg e, rootserverEnd a start itVReg e⟩,
        smallObjects a itVReg start (smallOffset e.toNat)
          (largeObjects start e.toNat r.objects)⟩ := by
  have hsize : start + calculateRootserverSize a itVReg e = rootserverEnd a start itVReg e := by
    rw [calculateRootserverSize_eq h.small]
    rfl
  have hskip : ¬(e ≥ pageBits ∧ (largeObjects start e.toNat r.objects).extraBi = 0) := by
    rintro ⟨hpage, hzero⟩
    have hge : 12 ≤ e.toNat := BitVec.le_def.mp hpage
    unfold largeObjects at hzero
    split at hzero
    · exact h.nonzero hzero
    · rw [if_pos (by omega)] at hzero
      exact h.add_ne_zero (Nat.le_add_right _ _) hzero
  simp only [createRootserverObjects, hsize, bind, Except.bind, h.createLargeObjects_eq]
  exact createSmallObjects_eq rfl hskip h.dvd_smallOffset h.room

end

end Create

/-- The objects, with the page tables one by one. -/
def RootserverMem.tiles (a : Arch) (o : RootserverMem) (e n : Nat) : List (Tile 64) :=
  [⟨o.cnode, 18⟩, ⟨o.vspace, 12⟩, ⟨o.asidPool, 12⟩, ⟨o.ipcBuf, 12⟩, ⟨o.bootInfo, 12⟩] ++
    (if 0 < e then [⟨o.extraBi, e⟩] else []) ++
    layout o.paging.start 0 (replicate n 12) ++ [⟨o.tcb, (tcbBits a).toNat⟩]

/-- The sizes of the objects in the order in which they are allocated. -/
def objectBits (a : Arch) (e n : Nat) : List Nat :=
  (if 18 ≤ e then [e, 18] else if 0 < e then [18, e] else [18]) ++
    ([12, 12, 12, 12] ++ (replicate n 12 ++ [(tcbBits a).toNat]))

section Placed

variable {itVReg : Region} {e : Nat} {objects : RootserverMem}

theorem room_objectBits (e n : Nat) : room (objectBits a e n) = rootserverRoom a e n := by
  unfold objectBits rootserverRoom
  simp only [room_append, room_cons, room_nil, room_replicate]
  split
  · rw [if_pos (by omega)]
    simp only [room_cons, room_nil]
    omega
  · split <;> simp only [room_cons, room_nil] <;> omega

/-- Each object is at least as large as the next. -/
theorem objectBits_pairwise {n : Nat} (he : e = 0 ∨ 12 ≤ e) :
    (objectBits a e n).Pairwise (· ≥ ·) := by
  have htcb : (tcbBits a).toNat ≤ 12 := by cases a <;> decide
  have hpages : (replicate n 12 ++ [(tcbBits a).toNat]).Pairwise (· ≥ ·) := by
    refine List.pairwise_append.mpr ⟨List.pairwise_replicate.mpr (.inr le_rfl), List.pairwise_singleton _ _, ?_⟩
    intro x hx y hy
    rw [eq_of_mem_replicate hx, mem_singleton.mp hy]
    exact htcb
  have hsmall : ∀ y ∈ replicate n 12 ++ [(tcbBits a).toNat], y ≤ 12 := by
    intro y hy
    rcases mem_append.mp hy with hy | hy
    · exact (eq_of_mem_replicate hy).le
    · exact (mem_singleton.mp hy).le.trans htcb
  have hrest : ∀ x ≥ 12, ∀ y ∈ [12, 12, 12, 12] ++ (replicate n 12 ++ [(tcbBits a).toNat]),
      y ≤ x := by
    intro x hx y hy
    rcases mem_append.mp hy with hy | hy
    · exact (eq_of_mem_replicate (n := 4) hy).le.trans hx
    · exact (hsmall y hy).trans hx
  have hfixed : ([12, 12, 12, 12] ++ (replicate n 12 ++ [(tcbBits a).toNat])).Pairwise
      (· ≥ ·) :=
    List.pairwise_append.mpr ⟨by decide, hpages, fun x hx y hy =>
      (hsmall y hy).trans (eq_of_mem_replicate (n := 4) hx).ge⟩
  refine List.pairwise_append.mpr ⟨?_, hfixed, fun x hx y hy => hrest x ?_ y hy⟩
  · split
    · simp only [List.pairwise_cons, mem_singleton, forall_eq, not_mem_nil]
      exact ⟨by omega, nofun, .nil⟩
    · split
      · simp only [List.pairwise_cons, mem_singleton, forall_eq, not_mem_nil]
        exact ⟨by omega, nofun, .nil⟩
      · exact List.pairwise_singleton _ _
  · split at hx
    · simp only [mem_cons, not_mem_nil, or_false] at hx
      omega
    · split at hx
      · simp only [mem_cons, not_mem_nil, or_false] at hx
        omega
      · rw [mem_singleton.mp hx]
        decide

/-- The blocks of the small objects. -/
theorem layout_small (itVReg : Region) (start : Word) (d : Nat) (o : RootserverMem) :
    let o' := smallObjects a itVReg start d o
    layout start d ([12, 12, 12, 12] ++
        (replicate (archGetNPaging a itVReg).toNat 12 ++ [(tcbBits a).toNat])) =
      [⟨o'.vspace, 12⟩, ⟨o'.asidPool, 12⟩, ⟨o'.ipcBuf, 12⟩, ⟨o'.bootInfo, 12⟩] ++
        (layout o'.paging.start 0 (replicate (archGetNPaging a itVReg).toNat 12) ++
          [⟨o'.tcb, (tcbBits a).toNat⟩]) := by
  intro o'
  have hpaging : layout o'.paging.start 0 (replicate (archGetNPaging a itVReg).toNat 12) =
      layout start (d + 4096 + 4096 + 4096 + 4096)
        (replicate (archGetNPaging a itVReg).toNat 12) := layout_add _ _ _ _
  have hpage : (2 : Nat) ^ 12 = 4096 := by decide
  have hroom : d + room [12, 12, 12, 12] = d + 4096 + 4096 + 4096 + 4096 := by
    simp only [room_cons, room_nil, hpage, Nat.add_assoc, Nat.add_zero]
  rw [hpaging, layout_append, layout_append, room_replicate, hroom]
  rfl

/-- The objects are a permutation of the blocks from the start on. -/
theorem tiles_perm (itVReg : Region) (start : Word) (e : Nat) (objects : RootserverMem) :
    ((smallObjects a itVReg start (smallOffset e) (largeObjects start e objects)).tiles a e
      (archGetNPaging a itVReg).toNat).Perm
      (layout start 0 (objectBits a e (archGetNPaging a itVReg).toNat)) := by
  have hfirst : start + ofNat 64 0 = start := BitVec.add_zero start
  have hcnode : (2 : Nat) ^ 18 = 262144 := by decide
  have hsmall := layout_small (a := a) itVReg start (smallOffset e) (largeObjects start e objects)
  unfold RootserverMem.tiles objectBits
  rw [layout_append, append_assoc]
  by_cases hlarge : 18 ≤ e
  · have hpos : 0 < e := by omega
    have hroom : 0 + room [e, 18] = smallOffset e := by
      rw [smallOffset, if_pos hpos, room_cons, room_cons, room_nil, hcnode, Nat.add_zero,
        Nat.zero_add, Nat.add_comm]
    rw [if_pos hlarge, if_pos hpos, hroom, hsmall, ← append_assoc (layout _ _ _)]
    refine List.Perm.append_right _ ?_
    simp only [layout, hfirst, Nat.zero_add, smallObjects, largeObjects, if_pos hlarge]
    exact List.perm_append_comm
  · rw [if_neg hlarge]
    by_cases hpos : 0 < e
    · have hroom : 0 + room [18, e] = smallOffset e := by
        rw [smallOffset, if_pos hpos, room_cons, room_cons, room_nil, hcnode, Nat.add_zero,
          Nat.zero_add]
      rw [if_pos hpos, if_pos hpos, hroom, hsmall, ← append_assoc (layout _ _ _)]
      refine List.Perm.append_right _ ?_
      simp only [layout, hfirst, Nat.zero_add, hcnode, smallObjects, largeObjects, if_neg hlarge,
        if_pos hpos]
      exact .cons _ List.perm_append_comm
    · have hroom : 0 + room [18] = smallOffset e := by
        rw [smallOffset, if_neg hpos, room_cons, room_nil, hcnode, Nat.zero_add]
      rw [if_neg hpos, if_neg hpos, hroom, hsmall, ← append_assoc (layout _ _ _)]
      simp only [layout, hfirst, smallObjects, largeObjects, if_neg hlarge, if_neg hpos,
        List.append_nil]
      exact .refl _

theorem le_of_mem_objectBits {k n : Nat} (hk : k ∈ objectBits a e n) : k ≤ max 18 e := by
  have htcb : (tcbBits a).toNat ≤ 12 := by cases a <;> decide
  rcases mem_append.mp hk with hk | hk
  · split_ifs at hk <;> simp only [mem_cons, not_mem_nil, or_false] at hk <;> omega
  rcases mem_append.mp hk with hk | hk
  · rw [eq_of_mem_replicate (n := 4) hk]
    omega
  · rcases mem_append.mp hk with hk | hk
    · rw [eq_of_mem_replicate hk]
      omega
    · rw [mem_singleton.mp hk]
      omega

/-- The objects are aligned, apart from each other, and fill the memory from the start on. -/
structure Placed (a : Arch) (start size : Word) (o : RootserverMem) (e n : Nat) : Prop where
  aligned : ∀ t ∈ o.tiles a e n, t.Aligned
  apart : (o.tiles a e n).Pairwise Tile.Apart
  fills : ∀ p, (Arc.mk start (start + size)).Has p ↔ ∃ t ∈ o.tiles a e n, t.Has p

theorem Fits.placed {e : Word} (h : Fits a start itVReg e r) :
    Placed a start (calculateRootserverSize a itVReg e)
      (smallObjects a itVReg start (smallOffset e.toNat) (largeObjects start e.toNat r.objects))
      e.toNat (archGetNPaging a itVReg).toNat := by
  have hextra : e.toNat = 0 ∨ 12 ≤ e.toNat := h.extra.imp_left fun hzero => by rw [hzero]; rfl
  have halign := h.aligned
  rw [toNat_rootserverMaxSizeBits] at halign
  have hcut := cut_layout (objectBits_pairwise (n := (archGetNPaging a itVReg).toNat) hextra)
    (fun k hk => (Nat.pow_dvd_pow 2 (le_of_mem_objectBits hk)).trans halign)
    (by rw [room_objectBits, Nat.zero_add]; exact h.room)
  rw [room_objectBits, Nat.zero_add, ← calculateRootserverSize_eq h.small] at hcut
  have hperm := tiles_perm (a := a) itVReg start e.toNat r.objects
  refine ⟨fun t ht => hcut.aligned t (hperm.mem_iff.mp ht), ?_, fun p => ?_⟩
  · exact (hperm.pairwise_iff fun h => Std.Symm.symm _ _ h).mpr hcut.apart
  · have hfirst : start + ofNat 64 0 = start := BitVec.add_zero start
    rw [hfirst] at hcut
    rw [hcut.has_iff]
    simp only [hperm.mem_iff]

end Placed

end Layout

/-! ## The sizes that depend on the image -/

/-- The tables of a level that a region of virtual addresses touches. -/
def tableCount (vReg : Region) (bits : Nat) : Nat :=
  (vReg.stop.toNat - 1) / 2 ^ bits + 1 - vReg.start.toNat / 2 ^ bits

/-- A region of user addresses that is not empty. -/
structure UserRegion (vReg : Region) : Prop where
  nonempty : vReg.start < vReg.stop
  user : vReg.stop ≤ userTop

section Count

variable {vReg : Region}

theorem UserRegion.bounds (h : UserRegion vReg) :
    vReg.start.toNat < vReg.stop.toNat ∧ vReg.stop.toNat < 2 ^ 47 := by
  have hlt : vReg.start.toNat < vReg.stop.toNat := h.nonempty
  have hle : vReg.stop.toNat ≤ 2 ^ 47 - 1 := h.user
  omega

theorem toNat_getNPaging (h : UserRegion vReg) (bits : Nat) (hbits : bits ≤ 39) :
    (getNPaging vReg bits).toNat = tableCount vReg bits := by
  obtain ⟨hlt, hstop⟩ := h.bounds
  have hsub : (vReg.stop - 1).toNat = vReg.stop.toNat - 1 :=
    toNat_sub_of_le (show (1 : Nat) ≤ vReg.stop.toNat by omega)
  have hpos : 0 < 2 ^ bits := Nat.two_pow_pos bits
  have hpow : 2 ^ bits ≤ 2 ^ 39 := Nat.pow_le_pow_right (by decide) hbits
  have hlast : (vReg.stop.toNat - 1) / 2 ^ bits * 2 ^ bits ≤ vReg.stop.toNat - 1 :=
    Nat.div_mul_le_self _ _
  have hfirst : vReg.start.toNat / 2 ^ bits * 2 ^ bits ≤ vReg.start.toNat := Nat.div_mul_le_self _ _
  have hquot : (vReg.stop.toNat - 1) / 2 ^ bits ≤ vReg.stop.toNat - 1 := Nat.div_le_self _ _
  have hle : vReg.start.toNat / 2 ^ bits ≤ (vReg.stop.toNat - 1) / 2 ^ bits :=
    Nat.div_le_div_right (by omega)
  have hup : (roundUp vReg.stop bits).toNat = ((vReg.stop.toNat - 1) / 2 ^ bits + 1) * 2 ^ bits := by
    rw [roundUp, BitVec.toNat_shiftLeft, toNat_add, BitVec.toNat_ushiftRight, hsub,
      Nat.shiftLeft_eq, Nat.shiftRight_eq_div_pow]
    show ((vReg.stop.toNat - 1) / 2 ^ bits + 1) % 2 ^ 64 * 2 ^ bits % 2 ^ 64 = _
    have hmod : ((vReg.stop.toNat - 1) / 2 ^ bits + 1) % 2 ^ 64 =
        (vReg.stop.toNat - 1) / 2 ^ bits + 1 := Nat.mod_eq_of_lt (by omega)
    rw [hmod, Nat.mod_eq_of_lt (by rw [Nat.add_mul]; omega)]
  have hdown : (Common.roundDown vReg.start bits).toNat = vReg.start.toNat / 2 ^ bits * 2 ^ bits :=
    Common.toNat_roundDown bits
  have htwo : (twoPow 64 bits).toNat = 2 ^ bits := by
    rw [BitVec.toNat_twoPow, Nat.mod_eq_of_lt (by omega)]
  have hmul : vReg.start.toNat / 2 ^ bits * 2 ^ bits ≤
      ((vReg.stop.toNat - 1) / 2 ^ bits + 1) * 2 ^ bits := Nat.mul_le_mul_right _ (by omega)
  unfold getNPaging
  rw [BitVec.toNat_udiv, toNat_sub_of_le (by rw [BitVec.le_def, hup, hdown]; exact hmul), hup,
    hdown, htwo, ← Nat.sub_mul, Nat.mul_div_cancel _ hpos]
  rfl

theorem tableCount_le (h : UserRegion vReg) (bits : Nat) (hbits : 21 ≤ bits) :
    tableCount vReg bits ≤ 2 ^ 26 := by
  obtain ⟨-, hstop⟩ := h.bounds
  have hlt : (vReg.stop.toNat - 1) / 2 ^ bits < 2 ^ 26 := by
    apply Nat.div_lt_of_lt_mul
    have hpow : 2 ^ 21 ≤ 2 ^ bits := Nat.pow_le_pow_right (by decide) hbits
    calc vReg.stop.toNat - 1 < 2 ^ 21 * 2 ^ 26 := by omega
      _ ≤ 2 ^ bits * 2 ^ 26 := Nat.mul_le_mul_right _ hpow
  exact (Nat.sub_le _ _).trans hlt

/-- The tables of all levels. -/
def pagingCount (a : Arch) (vReg : Region) : Nat :=
  ((pagingLevels a).map fun i => tableCount vReg (levelBits a i)).sum

theorem toNat_archGetNPaging (h : UserRegion vReg) :
    (archGetNPaging a vReg).toNat = pagingCount a vReg ∧ pagingCount a vReg ≤ 2 ^ 28 := by
  have h21 := tableCount_le h 21 (by decide)
  have h30 := tableCount_le h 30 (by decide)
  have h39 := tableCount_le h 39 (by decide)
  have n21 := toNat_getNPaging h 21 (by decide)
  have n30 := toNat_getNPaging h 30 (by decide)
  have n39 := toNat_getNPaging h 39 (by decide)
  cases a with
  | riscv64 =>
    have hsum : archGetNPaging .riscv64 vReg = getNPaging vReg 30 + (getNPaging vReg 21 + 0) := rfl
    have hcount : pagingCount .riscv64 vReg = tableCount vReg 30 + (tableCount vReg 21 + 0) := rfl
    rw [hsum, hcount, toNat_add, toNat_add, n21, n30]
    show (_ + (_ + 0) % 2 ^ 64) % 2 ^ 64 = _ ∧ _
    omega
  | aarch64 =>
    have hsum : archGetNPaging .aarch64 vReg =
        getNPaging vReg 39 + (getNPaging vReg 30 + (getNPaging vReg 21 + 0)) := rfl
    have hcount : pagingCount .aarch64 vReg =
        tableCount vReg 39 + (tableCount vReg 30 + (tableCount vReg 21 + 0)) := rfl
    rw [hsum, hcount, toNat_add, toNat_add, toNat_add, n21, n30, n39]
    show (_ + (_ + (_ + 0) % 2 ^ 64) % 2 ^ 64) % 2 ^ 64 = _ ∧ _
    omega

end Count

/-- The size is not taken modulo the word. -/
theorem toNat_calculateRootserverSize (himage : UserRegion itVReg) (he : e.toNat ≤ 63) :
    (calculateRootserverSize a itVReg e).toNat =
      rootserverRoom a e.toNat (archGetNPaging a itVReg).toNat := by
  obtain ⟨hcount, hle⟩ := toNat_archGetNPaging a himage
  have hpow : 2 ^ e.toNat ≤ 2 ^ 63 := Nat.pow_le_pow_right (by decide) he
  have htcb : 2 ^ (tcbBits a).toNat ≤ 4096 := by cases a <;> decide
  have hsmall : rootserverRoom a e.toNat (archGetNPaging a itVReg).toNat < 2 ^ 64 := by
    rw [hcount]
    unfold rootserverRoom
    split <;> omega
  rw [calculateRootserverSize_eq (by omega), toNat_ofNat, Nat.mod_eq_of_lt hsmall]

end Rel4.Kernel
