import Rel4.Ipc.Queue
import Rel4.CSpace.Swap
import Rel4.CSpace.Lookup
import Rel4.Task.History

/-!
Deleting capabilities (`sel4_cspace/src/cte.rs`,
`kernel/src/interfaces_impl/cspace.rs`, `sel4_ipc/src/transfer.rs`).

`delete_all`, `finalise` and `reduce_zombie` call each other; here they spend
one unit of fuel per call.

The kernel runs the recursion with `strict` clear. With `strict` set it stops
where `cte_swap` is about to exchange two slots that are neighbours in their
list, so that the runs in which this happens can be told from the others.
-/

namespace Rel4.Kernel
open Lib.Bitfield Common CSpace Rel4.Task Ipc VSpace

variable (a : Arch)

/-- `finaliseCap_ret` -/
structure FinaliseCapRet where
  remainder : CapT
  cleanupInfo : CapT

/-- `finaliseSlot_ret` -/
structure FinaliseSlotRet where
  status : ExceptionT
  success : Bool
  cleanupInfo : CapT

/-- `post_cap_deletion` -/
def postCapDeletion (s : KernelState) (cleanupInfo : CapT) : KernelState :=
  if getCapType cleanupInfo = .irqHandlerCap then
    { s with intStateIRQTable :=
        Function.update s.intStateIRQTable (getIrqHandler a cleanupInfo) 0 }
  else s

/-- `set_empty` -/
def setEmptySlot (s : KernelState) (slot : Word) (cleanupInfo : CapT) : KernelState :=
  if s.ctes.capType slot ≠ .nullCap then
    postCapDeletion a (s.setCtes (setEmpty a s.ctes slot)) cleanupInfo
  else s

/-! ## Architecture caps -/

/-- Keep the lookup fault of a failed lookup. -/
def recordLookupFault (r : KernelState × Option (Words 2)) : KernelState :=
  match r.2 with
  | some fault => { r.1 with currentLookupFault := fault }
  | none => r.1

/-- `deleteASID` -/
def deleteASID (s : KernelState) (asid vspace : Word) : KernelState :=
  recordLookupFault (deleteAsid a s asid vspace (vtableCap a s s.ksCurThread))

/-- `deleteASIDPool` -/
def deleteASIDPool (s : KernelState) (asidBase pool : Word) : KernelState :=
  recordLookupFault (deleteAsidPool a s asidBase pool (vtableCap a s s.ksCurThread))

def getFrameMappedAsid (cap : CapT) : Word := Field.frameMappedAsid.get (signExt a) cap
def getFrameMappedAddress (cap : CapT) : Word := (Field.frameMappedAddress a).get (signExt a) cap
def getPtMappedAddress (cap : CapT) : Word := (Field.ptMappedAddress a).get (signExt a) cap
def getAsidBase (cap : CapT) : Word := Field.asidBase.get (signExt a) cap

/-- On riscv64 a page table can be the root of its address space. -/
def deleteOrUnmap (s : KernelState) (asid vptr pt : Word) : Exec KernelState :=
  if findVspaceForAsid a s asid = some pt then .ok (deleteASID a s asid pt)
  else unmapPageTable a s asid vptr pt

/-- The branch of `Arch_finaliseCap` for a mapped page table whose last cap goes. -/
def finalisePageTable (s : KernelState) (cap : CapT) : Exec KernelState :=
  let asid := getPtMappedAsid a cap
  let pt := getPtBasePtr a cap
  match a with
  | .riscv64 => do
    let fault : Option (Words 2) :=
      if findVspaceForAsid a s asid = none then some fun _ => 0 else none
    let s ← deleteOrUnmap a s asid (getPtMappedAddress a cap) pt
    return recordLookupFault (s, fault)
  | .aarch64 => unmapPageTable a s asid (getPtMappedAddress a cap) pt

/-- `Arch_finaliseCap`; nothing remains of an architecture cap. The aarch64 build
passes the mapped flag of a VSpace cap where the ASID belongs. -/
def archFinaliseCap (s : KernelState) (cap : CapT) (final : Bool) : Exec KernelState :=
  match getCapType cap with
  | .frameCap =>
    if getFrameMappedAsid a cap ≠ 0 then do
      let r ← unmapPage a s (getFrameSize a cap) (getFrameMappedAsid a cap)
        (getFrameMappedAddress a cap) (getFrameBasePtr a cap)
      return recordLookupFault r
    else .ok s
  | .pageTableCap =>
    if final ∧ getPtIsMapped a cap ≠ 0 then finalisePageTable a s cap else .ok s
  | .vspaceCap =>
    if a = .aarch64 ∧ final ∧ getVsIsMapped a cap = 1 then
      .ok (deleteASID a s (getVsIsMapped a cap) (getVsBasePtr a cap))
    else .ok s
  | .asidPoolCap =>
    if final then .ok (deleteASIDPool a s (getAsidBase a cap) (getAsidPool a cap)) else .ok s
  | _ => .ok s

/-- The first `match` of `finaliseCap`, for the kinds that leave nothing behind;
`none` for the others. -/
def finaliseImmediate (s : KernelState) (cap : CapT) (final : Bool) :
    Exec (Option KernelState) :=
  match getCapType cap with
  | .frameCap | .pageTableCap | .vspaceCap | .asidControlCap | .asidPoolCap => do
    let s ← archFinaliseCap a s cap final
    return some s
  | .undefined => .error .panicked
  | .endpointCap =>
    if final then do
      let s ← cancelAllIpc a s (getEpPtr a cap)
      return some s
    else .ok (some s)
  | .notificationCap =>
    if final then do
      let s ← cancelAllSignal a (safeUnbindTcb a s (getNfPtr a cap)) (getNfPtr a cap)
      return some s
    else .ok (some s)
  | .replyCap | .nullCap | .domainCap => .ok (some s)
  | _ => .ok none

/-- `delete_one`. It calls `finaliseCap` with `exposed` set, which panics where
the first `match` does not return; the remainder is then always removable. -/
def deleteOne (s : KernelState) (slot : Word) : Exec KernelState :=
  if s.ctes.capType slot ≠ .nullCap then do
    match ← finaliseImmediate a s (s.ctes slot).cap (isFinalCap a s.ctes slot) with
    | some s => return setEmptySlot a s slot newNullCap
    | none => .error .panicked
  else .ok s

/-- `tcb_t::cancel_ipc` -/
def cancelIpc (s : KernelState) (t : Word) : Exec KernelState :=
  let blockingObject := s.tsGet a t (Field.tsBlockingObject a)
  match s.getState t with
  | .blockedOnSend | .blockedOnReceive => do
    convertToTypeRef blockingObject
    ensure (getEpState s blockingObject ≠ .idle)
    return epCancelIpc a s blockingObject t
  | .blockedOnNotification => do
    convertToTypeRef blockingObject
    return cancelSignal a s blockingObject t
  | .blockedOnReply =>
    let s := s.modifyTcb t fun tcb => { tcb with tcbFault := fun _ => 0 }
    let callerSlot := s.ctes.next a (KernelState.getCspace a t tcbReply)
    if callerSlot ≠ 0 then deleteOne a s callerSlot else .ok s
  | _ => .ok s

/-- `finaliseCap` with `exposed` clear. -/
def finaliseCap (s : KernelState) (cap : CapT) (final : Bool) :
    Exec (KernelState × FinaliseCapRet) := do
  match ← finaliseImmediate a s cap final with
  | some s => return (s, ⟨newNullCap, newNullCap⟩)
  | none =>
    match getCapType cap, final with
    | .cnodeCap, true =>
      let radix := getCNodeRadix a cap
      return (s, ⟨zombieNew (bit radix) radix (getCNodePtr a cap), newNullCap⟩)
    | .threadCap, true =>
      let tcb := getTcbPtr a cap
      let s := safeUnbindNotification a s tcb
      let s ← cancelIpc a s tcb
      let s := s.suspend a tcb
      return (s, ⟨zombieNew tcbCNodeEntries zombieTcb (KernelState.getCspace a tcb tcbCTable),
        newNullCap⟩)
    | .zombieCap, _ => return (s, ⟨cap, newNullCap⟩)
    | .irqHandlerCap, true =>
      let s ← deleteOne a s (offsetSlot s.intStateIRQNode (getIrqHandler a cap))
      return (s, ⟨newNullCap, cap⟩)
    | _, _ => return (s, ⟨newNullCap, newNullCap⟩)

/-- `CONFIG_MAX_NUM_WORK_UNITS_PER_PREEMPTION` -/
def maxWorkUnits : Word := 100

/-- `preemptionPoint` -/
def preemptionPoint (s : KernelState) : KernelState × ExceptionT :=
  let s := { s with ksWorkUnitsCompleted := s.ksWorkUnitsCompleted + 1 }
  if s.ksWorkUnitsCompleted ≥ maxWorkUnits then
    let pending := s.irqPending s.irqPolls
    let s := { s with ksWorkUnitsCompleted := 0, irqPolls := s.irqPolls + 1 }
    (s, if pending then .preempted else .none)
  else (s, .none)

variable (strict : Bool)

mutual

/-- `finalise`; the source's loop is the call at the end. -/
def finalise : Nat → KernelState → Word → Bool → Exec (KernelState × FinaliseSlotRet)
  | 0, _, _, _ => .error .outOfFuel
  | fuel + 1, s, slot, immediate => do
    if s.ctes.capType slot = .nullCap then return (s, ⟨.none, true, newNullCap⟩)
    let (s, fc) ← finaliseCap a s (s.ctes slot).cap (isFinalCap a s.ctes slot)
    if ← capRemovable a fc.remainder slot then return (s, ⟨.none, true, fc.cleanupInfo⟩)
    let s := s.setCtes (s.ctes.setCap slot fc.remainder)
    if immediate = false ∧ capCyclicZombie a fc.remainder slot then
      return (s, ⟨.none, false, fc.cleanupInfo⟩)
    let (s, status) ← reduceZombie fuel s slot immediate
    if status ≠ .none then return (s, ⟨status, false, newNullCap⟩)
    let (s, status) := preemptionPoint s
    if status ≠ .none then return (s, ⟨status, false, newNullCap⟩)
    finalise fuel s slot immediate

/-- `delete_all` -/
def deleteAll : Nat → KernelState → Word → Bool → Exec (KernelState × ExceptionT)
  | 0, _, _, _ => .error .outOfFuel
  | fuel + 1, s, slot, exposed => do
    let (s, fs) ← finalise fuel s slot exposed
    if fs.status ≠ .none then return (s, fs.status)
    if exposed ∨ fs.success then return (setEmptySlot a s slot fs.cleanupInfo, .none)
    return (s, .none)

/-- `reduce_zombie` -/
def reduceZombie : Nat → KernelState → Word → Bool → Exec (KernelState × ExceptionT)
  | 0, _, _, _ => .error .outOfFuel
  | fuel + 1, s, slot, immediate => do
    let cap := (s.ctes slot).cap
    ensure (getCapType cap = .zombieCap)
    let ptr := getZombiePtr a cap
    let n := getZombieNumber a cap
    let zombieType := getZombieType a cap
    ensure (n > 0)
    if immediate then
      let endSlot := offsetSlot ptr (n - 1)
      let (s, status) ← deleteAll fuel s endSlot false
      if status ≠ .none then return (s, status)
      let cap := (s.ctes slot).cap
      match getCapType cap with
      | .nullCap => return (s, .none)
      | .zombieCap =>
        let ptr2 := getZombiePtr a cap
        if ptr = ptr2 ∧ getZombieNumber a cap = n ∧ getZombieType a cap = zombieType then
          ensure (s.ctes.capType endSlot = .nullCap)
          return (s.setCtes (s.ctes.setCap slot (setZombieNumber a cap (n - 1))), .none)
        else
          ensure (ptr2 = slot ∧ ptr ≠ slot)
          return (s, .none)
      | _ => .error .panicked
    else
      ensure (ptr ≠ slot)
      if strict ∧ Neighbours a s.ctes ptr slot then .error .neighbourSwap
      return (s.swapSlots a (s.ctes ptr).cap ptr cap slot, .none)

end

/-- `get_volatile_value`: the next slot, read and sign-extended by hand. -/
def getVolatileValue (σ : Slots) (slot : Word) : Word :=
  let raw := (σ slot).cteMDBNode 1
  match a with
  | .riscv64 =>
    let value := ((raw >>> 2) &&& mask 37) <<< 2
    if value &&& bit 38 ≠ 0 then value ||| 0xffffff8000000000 else value
  | .aarch64 =>
    let value := ((raw >>> 2) &&& mask 46) <<< 2
    if value &&& bit 46 ≠ 0 then value ||| 0xffffff8000000000 else value

/-- `revoke` -/
def revoke : Nat → KernelState → Word → Exec (KernelState × ExceptionT)
  | 0, _, _ => .error .outOfFuel
  | fuel + 1, s, slot => do
    let cte := getVolatileValue a s.ctes slot
    if cte = 0 then return (s, .none)
    if isMdbParentOf a (s.ctes slot) (s.ctes cte) = false then return (s, .none)
    let (s, status) ← deleteAll a strict fuel s cte true
    if status ≠ .none then return (s, status)
    let (s, status) := preemptionPoint s
    if status ≠ .none then return (s, status)
    revoke fuel s slot

end Rel4.Kernel
