import Rel4.Kernel.Syscall
import Rel4.Task.History
import Rel4.Task.Scheduler

/-!
Retyping untyped memory
(`kernel/src/syscall/invocation/decode/decode_untyped_invocation.rs`,
`invoke_untyped.rs`, `arch/*.rs`).
-/

namespace Rel4.Kernel
open Lib.Bitfield Common CSpace Rel4.Task Function

/-! ## Free memory of an untyped cap (`syscall/utils.rs`) -/

def alignUp (baseValue alignment : Word) : Word :=
  (baseValue + bit alignment - 1) &&& ~~~mask alignment

def freeIndexToOffset (freeIndex : Word) : Word := freeIndex <<< 4
def getFreeRef (base freeIndex : Word) : Word := base + freeIndexToOffset freeIndex
def getFreeIndex (base free : Word) : Word := (free - base) >>> 4
def offsetToFreeIndex (offset : Word) : Word := offset >>> 4

/-- `CONFIG_RESET_CHUNK_BITS` -/
def resetChunkBits : Word := 8

/-- `CONFIG_RETYPE_FAN_OUT_LIMIT` -/
def retypeFanOutLimit : Word := 256

/-- `clear_memory`: whatever object starts in the `2 ^ bits` bytes at `ptr` is
zeroed memory afterwards. -/
def clearMemory (s : KernelState) (ptr bits : Word) : KernelState :=
  { s with
    ctes := fun x => if x - ptr < bit bits then emptyCte else s.ctes x
    tcbs := fun x => if x - ptr < bit bits then Tcb.zero else s.tcbs x
    endpoints := fun x => if x - ptr < bit bits then fun _ => 0 else s.endpoints x
    notifications := fun x => if x - ptr < bit bits then fun _ => 0 else s.notifications x
    userMemory := fun x => if x - ptr < bit bits then 0 else s.userMemory x }

/-- The loop of `reset_untyped_cap` over the chunks below `n`, the last first. -/
def clearChunks (s : KernelState) (regionBase : Word) : Nat → KernelState
  | 0 => s
  | n + 1 =>
    clearChunks (clearMemory s (regionBase + BitVec.ofNat 64 n * bit resetChunkBits)
      resetChunkBits) regionBase n

variable (a : Arch)

/-- `set_untyped_free_index` on the cap in a slot. -/
def setFreeIndex (s : KernelState) (slot index : Word) : KernelState :=
  s.setCtes (s.ctes.setCap slot (setUntypedFreeIndex a (s.ctes slot).cap index))

/-- `reset_untyped_cap`, whose status is always `EXCEPTION_NONE`. The device
bit is read with the accessor for frames. -/
def resetUntypedCap (s : KernelState) (srcSlot : Word) : KernelState :=
  let prevCap := (s.ctes srcSlot).cap
  let blockSize := getUntypedBlockSize a prevCap
  let regionBase := getUntypedPtr a prevCap
  let offset := freeIndexToOffset (getUntypedFreeIndex a prevCap)
  let deviceMem := getFrameIsDevice a prevCap
  if offset = 0 then s
  else if deviceMem ≠ 0 ∧ blockSize < resetChunkBits then
    setFreeIndex a (clearMemory s regionBase blockSize) srcSlot 0
  else
    let chunks := ((offset - 1) >>> 8).toNat + 1
    setFreeIndex a (clearChunks s regionBase chunks) srcSlot
      (offsetToFreeIndex (-bit resetChunkBits))

/-! ## Creating objects -/

/-- `get_frame_type` -/
def getFrameType : ObjectType → Word
  | .megaPage | .armLargePage => 1
  | .gigaPage | .armHugePage => 2
  | _ => 0

/-- `ArchTCB::default()`: zero but for the status register. -/
def defaultRegisters (a : Arch) : Nat → Word :=
  match a with
  | .riscv64 => update (fun _ => 0) 32 0x40020
  | .aarch64 => update (fun _ => 0) 33 0x140

/-- The writes of `create_object` to a new TCB. -/
def initTcb (s : KernelState) (tcb : Word) : KernelState :=
  s.modifyTcb tcb fun t =>
    { t with
      registers := defaultRegisters a
      tcbTimeSlice := configTimeSlice
      domain := s.ksCurDomain }

/-- The cap that `create_object` and `arch_create_object` return. -/
def objectCap (objType : ObjectType) (regionBase userSize deviceMem : Word) : CapT :=
  match objType with
  | .tcb => newThreadCap a (regionBase + tcbOffset a)
  | .capTable => newCNodeCap a userSize 0 0 regionBase
  | .notification => newNotificationCap a 0 1 1 regionBase
  | .endpoint => newEndpointCap a 0 1 1 1 1 regionBase
  | .untyped => newUntypedCap a 0 deviceMem userSize regionBase
  | .pageTable | .armPageTable => newPageTableCap a 0 regionBase 0 0
  | .armVSpace => newVspaceCap 0 regionBase 0
  | .gigaPage | .normalPage | .megaPage | .armHugePage | .armSmallPage | .armLargePage =>
    newFrameCap a 0 regionBase (getFrameType objType) (vmReadWrite a) deviceMem 0

/-- `create_object` -/
def createObject (s : KernelState) (objType : ObjectType) (regionBase userSize deviceMem : Word) :
    KernelState × CapT :=
  (if objType = .tcb then initTcb a s (regionBase + tcbOffset a) else s,
    objectCap a objType regionBase userSize deviceMem)

/-- `create_new_objects`, with the loop over the last `n` of `destLength` objects. -/
def createNewObjects (objType : ObjectType) (parent destCNode destOffset : Word)
    (destLength : Nat) (regionBase userSize deviceMem : Word) : Nat → KernelState → KernelState
  | 0, s => s
  | n + 1, s =>
    let i := BitVec.ofNat 64 (destLength - (n + 1))
    let objectSize := objType.getObjectSize a userSize
    let (s, cap) :=
      createObject a s objType (regionBase + i <<< (objectSize &&& 63).toNat) userSize deviceMem
    let s := s.insertObject a parent (offsetSlot destCNode (destOffset + i)) cap
    createNewObjects objType parent destCNode destOffset destLength regionBase userSize deviceMem
      n s

/-- `invoke_untyped_retype` -/
def invokeUntypedRetype (s : KernelState) (srcSlot : Word) (reset : Bool) (retypeBase : Word)
    (newType : ObjectType) (userSize destCNode destOffset destLength deviceMem : Word) :
    KernelState :=
  let regionBase := getUntypedPtr a (s.ctes srcSlot).cap
  let s := if reset then resetUntypedCap a s srcSlot else s
  let totalObjectSize := destLength <<< (newType.getObjectSize a userSize &&& 63).toNat
  let freeRef := retypeBase + totalObjectSize
  let s := setFreeIndex a s srcSlot (getFreeIndex regionBase freeRef)
  createNewObjects a newType srcSlot destCNode destOffset destLength.toNat retypeBase userSize
    deviceMem destLength.toNat s

/-! ## Decoding -/

/-- `check_object_type` -/
def checkObjectType (s : KernelState) (newType : ObjectType) (userObjSize : Word) :
    KernelState × ExceptionT :=
  let tooSmall : SyscallErrorT → SyscallErrorT := fun e =>
    { e with type := .invalidArgument, invalidArgumentNumber := 1 }
  if newType = .capTable ∧ userObjSize = 0 then s.fail tooSmall
  else if newType = .untyped ∧ userObjSize < minUntypedBits then s.fail tooSmall
  else (s, .none)

/-- The lookup in `get_target_cnode`; at depth 0 the root is the target. -/
def lookupTargetCNode (s : KernelState) (nodeIndex nodeDepth rootSlot : Word) :
    Exec (KernelState × ExceptionT × CapT) :=
  let rootCap := (s.ctes rootSlot).cap
  if nodeDepth = 0 then .ok (s, .none, rootCap)
  else do
    let (s, status, slot) ← lookupSlotForCNodeOp a s false rootCap nodeIndex nodeDepth
    return (s, status, (s.ctes slot).cap)

/-- `get_target_cnode`: the cap of the destination CNode. -/
def getTargetCNode (s : KernelState) (nodeIndex nodeDepth rootSlot : Word) :
    Exec (KernelState × ExceptionT × CapT) := do
  let (s, status, nodeCap) ← lookupTargetCNode a s nodeIndex nodeDepth rootSlot
  if status ≠ .none then return (s, status, newNullCap)
  if getCapType nodeCap ≠ .cnodeCap then
    let (s, status) := { s with currentLookupFault := lookupFaultMissingCap nodeDepth }.fail
      fun e => { e with type := .failedLookup, failedLookupWasSource := 0 }
    return (s, status, newNullCap)
  return (s, .none, nodeCap)

/-- The loop of `check_cnode_slot`: the slots of the window are empty. -/
def windowEmpty (σ : Slots) (destCNode nodeOffset nodeWindow : Word) : Bool :=
  (List.range nodeWindow.toNat).all fun i =>
    σ.capType (offsetSlot destCNode (nodeOffset + BitVec.ofNat 64 i)) = .nullCap

/-- `check_cnode_slot` -/
def checkCNodeSlot (s : KernelState) (nodeCap : CapT) (nodeOffset nodeWindow : Word) :
    KernelState × ExceptionT :=
  let nodeSize := bit (getCNodeRadix a nodeCap)
  let range (lo hi : Word) : SyscallErrorT → SyscallErrorT := fun e =>
    { e with type := .rangeError, rangeErrorMin := lo, rangeErrorMax := hi }
  if nodeOffset > nodeSize - 1 then s.fail (range 0 (nodeSize - 1))
  else if nodeWindow < 1 ∨ nodeWindow > retypeFanOutLimit then s.fail (range 1 retypeFanOutLimit)
  else if nodeWindow > nodeSize - nodeOffset then s.fail (range 1 (nodeSize - nodeOffset))
  else if windowEmpty s.ctes (getCNodePtr a nodeCap) nodeOffset nodeWindow = false then
    s.fail fun e => { e with type := .deleteFirst }
  else (s, .none)

/-- The device bit that the decoder reads: the source applies the accessor for
frames to the untyped cap. -/
def deviceMem (cap : CapT) : Bool := getFrameIsDevice a cap ≠ 0

/-- The test that keeps kernel objects out of device memory. -/
def deviceRejects (cap : CapT) (newType : ObjectType) : Bool :=
  deviceMem a cap ∧ newType.isArchType ∧ newType ≠ .untyped

/-- `decode_untyed_invocation` from the test of the free memory on: the
destination has been checked. -/
def decodeRetypeInto (s : KernelState) (slot : Word) (cap : CapT) (newType : ObjectType)
    (userObjSize : Word) (nodeCap : CapT) (nodeOffset nodeWindow : Word) :
    KernelState × ExceptionT :=
  let objSize := newType.getObjectSize a userObjSize
  let status := ensureNoChildren a s.ctes slot
  let reset : Bool := status = .none
  let s := if reset then s else (s.fail fun e => { e with type := .revokeFirst }).1
  let freeIndex := if reset then 0 else getUntypedFreeIndex a cap
  let freeRef := getFreeRef (getUntypedPtr a cap) freeIndex
  let untypedFreeBytes := bit (getUntypedBlockSize a cap) - freeIndexToOffset freeIndex
  if untypedFreeBytes >>> (objSize &&& 63).toNat < nodeWindow then
    s.fail fun e => { e with type := .notEnoughMemory, memoryLeft := untypedFreeBytes }
  else if deviceRejects a cap newType then
    s.fail fun e => { e with type := .invalidArgument, invalidArgumentNumber := 1 }
  else
    let s := s.setThreadState a s.ksCurThread .restart
    (invokeUntypedRetype a s slot reset (alignUp freeRef objSize) newType userObjSize
      (getCNodePtr a nodeCap) nodeOffset nodeWindow (flag (deviceMem a cap)), .none)

/-- `decode_untyed_invocation` -/
def decodeUntypedInvocation (s : KernelState) (invLabel : MessageLabel) (length slot : Word)
    (cap : CapT) (buffer : Word) : Exec (KernelState × ExceptionT) :=
  if invLabel ≠ .untypedRetype then .ok (s.fail fun e => { e with type := .illegalOperation })
  else if length < 6 then .ok (s.fail fun e => { e with type := .truncatedMessage })
  else match getExtraCapByIndex s 0 with
  | none => .ok (s.fail fun e => { e with type := .truncatedMessage })
  | some rootSlot =>
    match ObjectType.fromUsize a (getSyscallArg a s 0 buffer) with
    | none =>
      .ok (s.fail fun e => { e with type := .invalidArgument, invalidArgumentNumber := 0 })
    | some newType => do
      let userObjSize := getSyscallArg a s 1 buffer
      let nodeIndex := getSyscallArg a s 2 buffer
      let nodeDepth := getSyscallArg a s 3 buffer
      let nodeOffset := getSyscallArg a s 4 buffer
      let nodeWindow := getSyscallArg a s 5 buffer
      if userObjSize ≥ wordBits ∨ newType.getObjectSize a userObjSize > maxUntypedBits then
        return s.fail fun e =>
          { e with type := .rangeError, rangeErrorMin := 0, rangeErrorMax := maxUntypedBits }
      let (s, status) := checkObjectType s newType userObjSize
      if status ≠ .none then return (s, status)
      let (s, status, nodeCap) ← getTargetCNode a s nodeIndex nodeDepth rootSlot
      if status ≠ .none then return (s, status)
      let (s, status) := checkCNodeSlot a s nodeCap nodeOffset nodeWindow
      if status ≠ .none then return (s, status)
      return decodeRetypeInto a s slot cap newType userObjSize nodeCap nodeOffset nodeWindow

end Rel4.Kernel
