import Rel4.Kernel.Dispatch
import Rel4.Kernel.PageMap

/-!
Cache operations on a VSpace of aarch64 (`decode_vspace_root_invocation` in
`decode/arch/aarch64.rs`).

The operation is meant to find the page that holds `start` in the tables of the
cap. The source reads the ASID through the field of another kind of cap, begins
the walk at the contents of the first entry of the root table, takes only the entries
of large pages for pages, and asks `pageBitsForSize` for the size of a number of bits.
So it never comes to a flush, and it is right only where nothing is to be done and the
contents of that entry can be followed.
-/

namespace Rel4.Kernel
open Lib.Bitfield Common CSpace Rel4.Task VSpace Function

/-! ## The invocation -/

/-- A call of `doFlush`. -/
structure Flush where
  label : MessageLabel
  start : Word
  stop : Word
  pstart : Word
  deriving DecidableEq

/-- What the invocation comes to: the state, the exception, and the cache operation. -/
abbrev FlushResult := KernelState × ExceptionT × Option Flush

/-- `set_vm_root_for_flush` -/
def setVmRootForFlush (s : KernelState) (vspace asid : Word) : KernelState × Bool :=
  let threadRoot := vtableCap .aarch64 s s.ksCurThread
  if isValidNativeRoot .aarch64 threadRoot ∧ getVsBasePtr .aarch64 threadRoot = vspace then
    (s, false)
  else (setUserRoot s (ttbrNew asid vspace), true)

/-- `decode_vspace_flush_invocation` -/
def decodeVspaceFlushInvocation (s : KernelState) (label : MessageLabel)
    (vspace asid start stop pstart : Word) : FlushResult :=
  if start < stop then
    let (s, rootSwitched) := setVmRootForFlush s vspace asid
    let s := if rootSwitched then (tcbSetVmRoot .aarch64 s s.ksCurThread).1 else s
    (s, .none, some ⟨label, start, stop, pstart⟩)
  else (s, .none, none)

/-- Record an error and return, with no cache operation. -/
def flushFail (s : KernelState) (f : SyscallErrorT → SyscallErrorT) : FlushResult :=
  let r := s.fail f
  (r.1, r.2, none)

/-- The end of `decode_vspace_root_invocation`, at the entry where the walk has come to. The sum
of the addresses is masked as a whole. -/
def flushPage (s : KernelState) (label : MessageLabel) (vspace asid start stop slot ptBitsLeft : Word) :
    Exec FlushResult := do
  let bits ← pageBitsForSize ptBitsLeft
  let pageBaseStart := start &&& ~~~mask bits
  let pageBaseEnd := (stop - 1) &&& ~~~mask bits
  if pageBaseStart ≠ pageBaseEnd then
    return flushFail s fun e =>
      { e with type := .rangeError, rangeErrorMin := start, rangeErrorMax := pageBaseStart + mask bits }
  else
    let pstart := ((s.userMemory slot &&& 0xfffffffff000) + start) &&& mask bits
    return decodeVspaceFlushInvocation (setRestart .aarch64 s) label vspace asid start stop pstart

/-- `decode_vspace_root_invocation` -/
def decodeVspaceRootInvocation (s : KernelState) (label : MessageLabel) (length cte buffer : Word) :
    Exec FlushResult :=
  if label ∉ vspaceRootOperations then
    .ok (flushFail s fun e => { e with type := .illegalOperation })
  else if length < 2 then .ok (flushFail s fun e => { e with type := .truncatedMessage })
  else
    let start := getSyscallArg .aarch64 s 0 buffer
    let stop := getSyscallArg .aarch64 s 1 buffer
    if stop ≤ start then
      .ok (flushFail s fun e => { e with type := .invalidArgument, invalidArgumentNumber := 1 })
    else if userTop < stop then .ok (flushFail s fun e => { e with type := .illegalOperation })
    else if isValidNativeRoot .aarch64 (s.ctes cte).cap = false then
      .ok (flushFail s fun e => { e with type := .invalidCapability, invalidCapNumber := 0 })
    else
      let vspaceRoot := getVsBasePtr .aarch64 (s.ctes cte).cap
      let asid := getAsidBase .aarch64 (s.ctes cte).cap
      match findVspaceForAsid .aarch64 s asid with
      | none =>
        .ok (flushFail s fun e => { e with type := .failedLookup, failedLookupWasSource := 0 })
      | some root => do
        convertToTypeRef vspaceRoot
        if root ≠ vspaceRoot then
          return flushFail s fun e => { e with type := .invalidCapability, invalidCapNumber := 0 }
        else
          -- the walk begins at the contents of the first entry
          let r ← lookupPtSlot .aarch64 s.userMemory (s.userMemory vspaceRoot) start
          if getPteType (s.userMemory r.1) ≠ 1 then return (setRestart .aarch64 s, .none, none)
          else
            flushPage s label root asid start stop r.1 (BitVec.ofNat 64 (levelBits .aarch64 r.2))

/-! ## What it is to do -/

/-- `pte_is_page_type`: the entry maps a page of one of the three sizes. -/
def pteIsPageType (pte : Word) : Bool := getPteType pte = 7 ∨ getPteType pte = 1

/-- The operation on a page of `size` bytes that the entry maps at `start`. -/
def FlushesPage (label : MessageLabel) (start stop pte : Word) (size : Nat) (r : Exec FlushResult) :
    Prop :=
  if start.toNat / size ≠ (stop.toNat - 1) / size then
    ∃ s', r = .ok (s', .syscallError, none) ∧ s'.currentSyscallError.type = .rangeError
  else
    ∃ s' pstart, r = .ok (s', .none, some ⟨label, start, stop, pstart⟩) ∧
      pstart.toNat = (pte &&& 0xfffffffff000).toNat + start.toNat % size

/-- The operation of the cap on the addresses from `start` up to `stop`: the page of `start` is
looked up under the ASID of the cap in the tables of the cap. -/
def FlushRight (s : KernelState) (cap : CapT) (label : MessageLabel) (start stop : Word)
    (r : Exec FlushResult) : Prop :=
  match findVspaceForAsid .aarch64 s (getVsMappedAsid .aarch64 cap) with
  | none =>
    r = .ok (flushFail s fun e => { e with type := .failedLookup, failedLookupWasSource := 0 })
  | some root =>
    if root ≠ getVsBasePtr .aarch64 cap then
      r = .ok (flushFail s fun e => { e with type := .invalidCapability, invalidCapNumber := 0 })
    else
      let walk := walkEnd .aarch64 s.userMemory root start
      let pte := s.userMemory walk.1
      if pteIsPageType pte then
        FlushesPage label start stop pte (2 ^ levelBits .aarch64 walk.2) r
      else r = .ok (setRestart .aarch64 s, .none, none)

/-- The walk of the source comes to an entry, which it does not take for a page. -/
def SourceFindsNothing (s : KernelState) (root start : Word) : Prop :=
  (lookupPtSlot .aarch64 s.userMemory (s.userMemory root) start).satisfies
    (fun r => getPteType (s.userMemory r.1) ≠ 1) = true

/-- The two ASIDs that are read from the cap stand for the same, and nothing that is taken for a
page is found in the tables or where the source looks instead, which it can do without following a
null or a wild pointer. -/
def FlushFits (s : KernelState) (cap : CapT) (start : Word) : Prop :=
  match findVspaceForAsid .aarch64 s (getVsMappedAsid .aarch64 cap),
    findVspaceForAsid .aarch64 s (getAsidBase .aarch64 cap) with
  | none, none => True
  | some root, some found =>
    getVsBasePtr .aarch64 cap ≠ 0 ∧
      if root ≠ getVsBasePtr .aarch64 cap then found ≠ getVsBasePtr .aarch64 cap
      else found = root ∧ SourceFindsNothing s root start ∧
        pteIsPageType (s.userMemory (walkEnd .aarch64 s.userMemory root start).1) = false
  | _, _ => False

/-! ## When it does it -/

/-- An operation on a mapped VSpace cap with a range of user addresses. -/
structure FlushCall (s : KernelState) (label : MessageLabel) (length cte buffer start stop : Word) :
    Prop where
  operation : label ∈ vspaceRootOperations
  truncated : 2 ≤ length
  first : getSyscallArg .aarch64 s 0 buffer = start
  second : getSyscallArg .aarch64 s 1 buffer = stop
  range : start < stop
  user : stop ≤ userTop
  mapped : isValidNativeRoot .aarch64 (s.ctes cte).cap = true

section Flush

variable {s : KernelState} {label : MessageLabel} {length cte buffer start stop : Word}

/-- No number of bits below a level is the number of a page size. -/
theorem pageBitsForSize_levelBits (n : Nat) :
    pageBitsForSize (BitVec.ofNat 64 (levelBits .aarch64 n)) = .error .panicked := by
  have hrange : 12 ≤ levelBits .aarch64 n ∧ levelBits .aarch64 n ≤ 39 := by
    simp only [levelBits, ptIndexBits, ptLevels]
    omega
  have hnat : (BitVec.ofNat 64 (levelBits .aarch64 n)).toNat = levelBits .aarch64 n := by
    rw [BitVec.toNat_ofNat]
    omega
  unfold pageBitsForSize
  rw [hnat]
  split <;> first | omega | rfl

/-- What is left of the invocation once the ASID has led to the root of the cap. -/
def walkSource (s : KernelState) (root start : Word) : Exec FlushResult := do
  let r ← lookupPtSlot .aarch64 s.userMemory (s.userMemory root) start
  if getPteType (s.userMemory r.1) ≠ 1 then return (setRestart .aarch64 s, .none, none)
  else .error .panicked

/-- It returns where it finds nothing, and aborts otherwise. -/
theorem walkSource_cases (s : KernelState) (root start : Word) :
    SourceFindsNothing s root start ∧
        walkSource s root start = .ok (setRestart .aarch64 s, .none, none) ∨
      ¬SourceFindsNothing s root start ∧ ∃ e, walkSource s root start = .error e := by
  unfold SourceFindsNothing walkSource
  cases lookupPtSlot .aarch64 s.userMemory (s.userMemory root) start with
  | error e => exact .inr ⟨Bool.false_ne_true, e, rfl⟩
  | ok r =>
    by_cases ht : getPteType (s.userMemory r.1) = 1
    · refine .inr ⟨fun h => of_decide_eq_true h ht, .panicked, ?_⟩
      exact if_neg (not_not.mpr ht)
    · exact .inl ⟨decide_eq_true ht, if_pos ht⟩

/-- What is left of the invocation once the arguments are read. -/
theorem FlushCall.decode_eq (h : FlushCall s label length cte buffer start stop) :
    decodeVspaceRootInvocation s label length cte buffer =
      match findVspaceForAsid .aarch64 s (getAsidBase .aarch64 (s.ctes cte).cap) with
      | none =>
        .ok (flushFail s fun e => { e with type := .failedLookup, failedLookupWasSource := 0 })
      | some root => convertToTypeRef (getVsBasePtr .aarch64 (s.ctes cte).cap) >>= fun _ =>
        if root ≠ getVsBasePtr .aarch64 (s.ctes cte).cap then
          .ok (flushFail s fun e => { e with type := .invalidCapability, invalidCapNumber := 0 })
        else walkSource s root start := by
  have hlength : ¬length < 2 := by have := h.truncated; bv_omega
  have hrange : ¬stop ≤ start := by have := h.range; bv_omega
  have huser : ¬userTop < stop := by have := h.user; bv_omega
  unfold decodeVspaceRootInvocation
  rw [if_neg (not_not.mpr h.operation), if_neg hlength]
  dsimp only
  rw [h.first, h.second, if_neg hrange, if_neg huser, if_neg (by rw [h.mapped]; decide)]
  split
  · rfl
  · rename_i root _
    by_cases hroot : root = getVsBasePtr .aarch64 (s.ctes cte).cap
    · simp only [flushPage, pageBitsForSize_levelBits, hroot, walkSource]
      rfl
    · simp only [if_pos hroot]
      rfl

/-- The result is neither a failed range nor a cache operation. -/
theorem not_flushesPage
    (h : ∀ s' e f, r = .ok (s', e, f) → f = none ∧ (e = .syscallError →
      s'.currentSyscallError.type ≠ .rangeError)) :
    ¬FlushesPage label start stop pte size r := by
  unfold FlushesPage
  split
  · rintro ⟨s', hr, htype⟩
    exact (h _ _ _ hr).2 rfl htype
  · rintro ⟨s', pstart, hr, -⟩
    exact nomatch (h _ _ _ hr).1

theorem flushFail_not_flushesPage (hf : ∀ e, (f e).type ≠ .rangeError) :
    ¬FlushesPage label start stop pte size (.ok (flushFail s f)) :=
  not_flushesPage fun s' e o hr => by
    cases hr
    exact ⟨rfl, fun _ => hf _⟩

theorem abort_not_flushesPage : ¬FlushesPage label start stop pte size (.error e) :=
  not_flushesPage fun _ _ _ hr => nomatch hr

theorem return_not_flushesPage : ¬FlushesPage label start stop pte size (.ok (s', .none, none)) :=
  not_flushesPage fun _ _ _ hr => by
    cases hr
    exact ⟨rfl, nofun⟩

/-- Two errors of different types are two results. -/
theorem flushFail_ne (h : ∀ e, (f e).type ≠ (g e).type) :
    (.ok (flushFail s f) : Exec FlushResult) ≠ .ok (flushFail s g) := fun heq =>
  h s.currentSyscallError
    (congrArg (fun r : FlushResult => r.1.currentSyscallError.type) (Except.ok.inj heq))

theorem flushFail_ne_restart :
    (.ok (flushFail s f) : Exec FlushResult) ≠ .ok (setRestart .aarch64 s, .none, none) := fun heq =>
  nomatch congrArg (fun r : FlushResult => r.2.1) (Except.ok.inj heq)

/-- An abort is no result. -/
theorem not_flushRight_error : ¬FlushRight s cap label start stop (.error e) := by
  unfold FlushRight
  split
  · exact nofun
  · split_ifs
    · exact nofun
    · dsimp only
      split_ifs
      · exact abort_not_flushesPage
      · exact nofun

/-- The operation does what it is to do where that is nothing, and the source finds nothing
either. -/
theorem flushRight_iff (h : FlushCall s label length cte buffer start stop) :
    FlushRight s (s.ctes cte).cap label start stop
        (decodeVspaceRootInvocation s label length cte buffer) ↔
      FlushFits s (s.ctes cte).cap start := by
  rw [h.decode_eq]
  generalize (s.ctes cte).cap = cap
  cases hfound : findVspaceForAsid .aarch64 s (getAsidBase .aarch64 cap) with
  | none =>
    unfold FlushRight FlushFits
    rw [hfound]
    cases hroot : findVspaceForAsid .aarch64 s (getVsMappedAsid .aarch64 cap) with
    | none => simp
    | some root =>
      dsimp only
      rw [iff_false]
      split_ifs
      · exact flushFail_ne fun e => nofun
      · exact flushFail_not_flushesPage fun e => nofun
      · exact flushFail_ne_restart
  | some found =>
    dsimp only
    by_cases hnull : getVsBasePtr .aarch64 cap = 0
    · have habort : convertToTypeRef (getVsBasePtr .aarch64 cap) = .error .assertFailed :=
        if_neg (not_not.mpr hnull)
      rw [habort]
      refine iff_of_false not_flushRight_error fun hfits => ?_
      unfold FlushFits at hfits
      rw [hfound] at hfits
      split at hfits
      · contradiction
      · exact hfits.1 hnull
      · exact hfits
    · rw [convertToTypeRef_of hnull]
      show FlushRight s cap label start stop (if found ≠ getVsBasePtr .aarch64 cap then _ else _) ↔ _
      by_cases hother : found = getVsBasePtr .aarch64 cap
      · rw [if_neg (not_not.mpr hother)]
        rcases walkSource_cases s found start with ⟨hnothing, hwalk⟩ | ⟨hnothing, e, hwalk⟩
        · rw [hwalk]
          unfold FlushRight FlushFits
          rw [hfound]
          cases hroot : findVspaceForAsid .aarch64 s (getVsMappedAsid .aarch64 cap) with
          | none => exact iff_of_false flushFail_ne_restart.symm not_false
          | some root =>
            dsimp only
            by_cases hown : root = getVsBasePtr .aarch64 cap
            · obtain rfl : found = root := hother.trans hown.symm
              rw [if_neg (not_not.mpr hown), if_neg (not_not.mpr hown)]
              split_ifs with hpage
              · exact iff_of_false return_not_flushesPage fun hfits => by simp [hpage] at hfits
              · exact iff_of_true rfl
                  ⟨hnull, rfl, hnothing, Bool.eq_false_of_not_eq_true hpage⟩
            · rw [if_pos hown, if_pos hown]
              exact iff_of_false flushFail_ne_restart.symm fun hfits => hfits.2 hother
        · rw [hwalk]
          refine iff_of_false not_flushRight_error fun hfits => ?_
          unfold FlushFits at hfits
          rw [hfound] at hfits
          split at hfits
          · contradiction
          · rename_i root found' _ heq
            cases heq
            obtain ⟨-, hfits⟩ := hfits
            split at hfits
            · exact hfits hother
            · exact hnothing (hfits.1 ▸ hfits.2.1)
          · exact hfits
      · rw [if_pos hother]
        unfold FlushRight FlushFits
        rw [hfound]
        cases hroot : findVspaceForAsid .aarch64 s (getVsMappedAsid .aarch64 cap) with
        | none => exact iff_of_false (flushFail_ne fun e => nofun) not_false
        | some root =>
          dsimp only
          by_cases hown : root = getVsBasePtr .aarch64 cap
          · rw [if_neg (not_not.mpr hown), if_neg (not_not.mpr hown)]
            refine iff_of_false ?_ fun hfits => hother (hfits.2.1.trans hown)
            split_ifs
            · exact flushFail_not_flushesPage fun e => nofun
            · exact flushFail_ne_restart
          · rw [if_pos hown, if_pos hown]
            exact iff_of_true rfl ⟨hnull, hother⟩

end Flush

/-- The slot `0x8000` holds the cap of a VSpace at `0xffffff8000100000`, and the message names the
addresses from `0x201234` up to `0x201240`. -/
def flushState (asid pool : Word) (memory : Word → Word) : KernelState :=
  let s : KernelState :=
    { KernelState.zero with
      ksCurThread := 0x1000
      ctes := update (fun _ => emptyCte) 0x8000
        ⟨newVspaceCap asid 0xffffff8000100000 1, defaultMdbNode⟩
      asidTable := update (fun _ => 0) pool 0xffffff8000200000
      userMemory := memory }
  (s.setRegister .aarch64 0x1000 (.msg 0) 0x201234).setRegister .aarch64 0x1000 (.msg 1) 0x201240

/-- The VSpace under ASID 1 maps a large page at `0x200000`. -/
def largePageMemory (x : Word) : Word :=
  if x = 0xffffff8000200008 then newAsidMapVspace 0xffffff8000100000
  else if x = 0xffffff8000100000 then 0x101003
  else if x = 0xffffff8000101000 then 0x102003
  else if x = 0xffffff8000102008 then 0x40000401
  else 0

/-- The page at `0x200000` is to be cleaned, and the ASID that the source reads is not in use. -/
theorem vspaceClean_not_right : let s := flushState 1 0 largePageMemory
    FlushCall s .armVSpaceCleanData 2 0x8000 0 0x201234 0x201240 ∧
      ¬FlushRight s (s.ctes 0x8000).cap .armVSpaceCleanData 0x201234 0x201240
        (decodeVspaceRootInvocation s .armVSpaceCleanData 2 0x8000 0) := by
  intro s
  have hcall : FlushCall s .armVSpaceCleanData 2 0x8000 0 0x201234 0x201240 :=
    ⟨by decide, by decide, rfl, rfl, by decide, by decide, by decide +kernel⟩
  have hcode : findVspaceForAsid .aarch64 s (getAsidBase .aarch64 (s.ctes 0x8000).cap) = none := by
    decide +kernel
  have hroot : findVspaceForAsid .aarch64 s (getVsMappedAsid .aarch64 (s.ctes 0x8000).cap) =
      some 0xffffff8000100000 := by decide +kernel
  have hown : getVsBasePtr .aarch64 (s.ctes 0x8000).cap = 0xffffff8000100000 := by decide +kernel
  have hpage : pteIsPageType (s.userMemory
      (walkEnd .aarch64 s.userMemory 0xffffff8000100000 0x201234).1) = true := by
    decide +kernel
  refine ⟨hcall, ?_⟩
  rw [hcall.decode_eq, hcode]
  unfold FlushRight
  rw [hroot]
  dsimp only
  rw [if_neg (not_not.mpr hown.symm), if_pos hpage]
  exact flushFail_not_flushesPage fun e => nofun

/-- The ASID of the VSpace is the one that the source reads. It is in use for another root; or for
this one, which maps nothing and has in its first entry, which is invalid, the address of a page of
zeros. -/
theorem flushRight_iff_nothing :
    (let s := flushState 0x8000 64 fun x =>
      if x = 0xffffff8000200000 then newAsidMapVspace 0xffffff8000400000 else 0
    FlushRight s (s.ctes 0x8000).cap .armVSpaceCleanData 0x201234 0x201240
      (decodeVspaceRootInvocation s .armVSpaceCleanData 2 0x8000 0)) ∧
    let s := flushState 0x8000 64 fun x =>
      if x = 0xffffff8000200000 then newAsidMapVspace 0xffffff8000100000
      else if x = 0xffffff8000100000 then 0xffffff8000300000 else 0
    FlushRight s (s.ctes 0x8000).cap .armVSpaceCleanData 0x201234 0x201240
      (decodeVspaceRootInvocation s .armVSpaceCleanData 2 0x8000 0) := by
  constructor
  · intro s
    have hcall : FlushCall s .armVSpaceCleanData 2 0x8000 0 0x201234 0x201240 :=
      ⟨by decide, by decide, rfl, rfl, by decide, by decide, by decide +kernel⟩
    have hroot : findVspaceForAsid .aarch64 s (getVsMappedAsid .aarch64 (s.ctes 0x8000).cap) =
        some 0xffffff8000400000 := by decide +kernel
    have hfound : findVspaceForAsid .aarch64 s (getAsidBase .aarch64 (s.ctes 0x8000).cap) =
        some 0xffffff8000400000 := by decide +kernel
    have hown : getVsBasePtr .aarch64 (s.ctes 0x8000).cap = 0xffffff8000100000 := by decide +kernel
    refine (flushRight_iff hcall).mpr ?_
    unfold FlushFits
    rw [hroot, hfound]
    dsimp only
    rw [hown, if_pos (by decide)]
    decide
  · intro s
    have hcall : FlushCall s .armVSpaceCleanData 2 0x8000 0 0x201234 0x201240 :=
      ⟨by decide, by decide, rfl, rfl, by decide, by decide, by decide +kernel⟩
    have hroot : findVspaceForAsid .aarch64 s (getVsMappedAsid .aarch64 (s.ctes 0x8000).cap) =
        some 0xffffff8000100000 := by decide +kernel
    have hfound : findVspaceForAsid .aarch64 s (getAsidBase .aarch64 (s.ctes 0x8000).cap) =
        some 0xffffff8000100000 := by decide +kernel
    have hown : getVsBasePtr .aarch64 (s.ctes 0x8000).cap = 0xffffff8000100000 := by decide +kernel
    refine (flushRight_iff hcall).mpr ?_
    unfold FlushFits SourceFindsNothing
    rw [hroot, hfound]
    dsimp only
    rw [hown, if_neg (by decide)]
    exact ⟨by decide, rfl, by decide +kernel, by decide +kernel⟩

end Rel4.Kernel
