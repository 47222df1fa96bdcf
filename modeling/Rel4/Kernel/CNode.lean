import Rel4.Kernel.Retype
import Rel4.Kernel.Delete

/-!
Operations on CNodes (`decode_cnode_invocation.rs`, `invoke_cnode.rs`).
-/

namespace Rel4.Kernel
open Lib.Bitfield Common CSpace Rel4.Task

variable (a : Arch)

/-- `set_thread_state(get_currenct_thread(), ThreadStateRestart)` -/
def setRestart (s : KernelState) : KernelState := s.setThreadState a s.ksCurThread .restart

/-- The end of Copy and Mint: derive the cap and insert it. -/
def deriveAndInsert (s : KernelState) (cap : CapT) (srcSlot destSlot : Word) :
    Exec (KernelState × ExceptionT) := do
  let (status, newCap) ← deriveCap a s.ctes srcSlot cap
  if status ≠ .none then return (s, status)
  if getCapType newCap = .nullCap then
    return s.fail fun e => { e with type := .illegalOperation }
  let s ← (setRestart a s).insertCap a newCap srcSlot destSlot
  return (s, .none)

/-- `invoke_cnode_copy` -/
def invokeCNodeCopy (s : KernelState) (srcSlot destSlot : Word) (capRight : CapRights) :
    Exec (KernelState × ExceptionT) :=
  deriveAndInsert a s (maskCapRights a capRight (s.ctes srcSlot).cap) srcSlot destSlot

/-- `invoke_cnode_mint` -/
def invokeCNodeMint (s : KernelState) (srcSlot destSlot : Word) (capRight : CapRights)
    (capData : Word) : Exec (KernelState × ExceptionT) :=
  deriveAndInsert a s (updateData a (maskCapRights a capRight (s.ctes srcSlot).cap) false capData)
    srcSlot destSlot

/-- The end of Move and Mutate. -/
def moveUnlessNull (s : KernelState) (newCap : CapT) (srcSlot destSlot : Word) :
    Exec (KernelState × ExceptionT) :=
  if getCapType newCap = .nullCap then .ok (s.fail fun e => { e with type := .illegalOperation })
  else do
    let s ← (setRestart a s).moveCap a newCap srcSlot destSlot
    return (s, .none)

/-- `invoke_cnode_mutate` -/
def invokeCNodeMutate (s : KernelState) (srcSlot destSlot capData : Word) :
    Exec (KernelState × ExceptionT) :=
  moveUnlessNull a s (updateData a (s.ctes srcSlot).cap true capData) srcSlot destSlot

/-- `invoke_cnode_move` -/
def invokeCNodeMove (s : KernelState) (srcSlot destSlot : Word) :
    Exec (KernelState × ExceptionT) :=
  moveUnlessNull a s (s.ctes srcSlot).cap srcSlot destSlot

/-- `invoke_cnode_rotate` -/
def invokeCNodeRotate (s : KernelState) (slot1 slot2 slot3 srcNewData pivotNewData : Word) :
    Exec (KernelState × ExceptionT) :=
  let newSrcCap := updateData a (s.ctes slot1).cap true srcNewData
  let newPivotCap := updateData a (s.ctes slot2).cap true pivotNewData
  if getCapType newSrcCap = .nullCap ∨ getCapType newPivotCap = .nullCap then
    .ok (s.fail fun e => { e with type := .illegalOperation })
  else
    let s := setRestart a s
    if slot1 = slot3 then .ok (s.swapSlots a newSrcCap slot1 newPivotCap slot2, .none)
    else do
      let s ← s.moveCap a newPivotCap slot2 slot3
      let s ← s.moveCap a newSrcCap slot1 slot2
      return (s, .none)

/-- `invoke_cnode_save_caller` -/
def invokeCNodeSaveCaller (s : KernelState) (destSlot : Word) :
    Exec (KernelState × ExceptionT) :=
  if s.ctes.capType destSlot ≠ .nullCap then
    .ok (s.fail fun e => { e with type := .deleteFirst })
  else
    let s := setRestart a s
    let srcSlot := KernelState.getCspace a s.ksCurThread tcbCaller
    let cap := (s.ctes srcSlot).cap
    match getCapType cap with
    | .nullCap => .ok (s, .none)
    | .replyCap =>
      if getReplyMaster a cap = 0 then do
        let s ← s.moveCap a cap srcSlot destSlot
        return (s, .none)
      else .ok (s, .none)
    | _ => .error .panicked

/-- `invoke_cnode_revoke` -/
def invokeCNodeRevoke (strict : Bool) (fuel : Nat) (s : KernelState) (destSlot : Word) :
    Exec (KernelState × ExceptionT) :=
  revoke a strict fuel (setRestart a s) destSlot

/-- `invoke_cnode_delete` -/
def invokeCNodeDelete (strict : Bool) (fuel : Nat) (s : KernelState) (destSlot : Word) :
    Exec (KernelState × ExceptionT) :=
  deleteAll a strict fuel (setRestart a s) destSlot true

/-- `decode_cnode_invoke_with_two_slot` -/
def decodeCNodeInvokeWithTwoSlot (s : KernelState) (label : MessageLabel) (destSlot length : Word)
    (buffer : Word) : Exec (KernelState × ExceptionT) :=
  if length < 4 then .ok (s.fail fun e => { e with type := .truncatedMessage })
  else match getExtraCapByIndex s 0 with
  | none => .ok (s.fail fun e => { e with type := .truncatedMessage })
  | some rootSlot => do
    let srcIndex := getSyscallArg a s 2 buffer
    let srcDepth := getSyscallArg a s 3 buffer
    if s.ctes.capType destSlot ≠ .nullCap then
      return s.fail fun e => { e with type := .deleteFirst }
    let (s, status, srcSlot) ←
      lookupSlotForCNodeOp a s true (s.ctes rootSlot).cap srcIndex srcDepth
    if status ≠ .none then return (s, status)
    if s.ctes.capType srcSlot = .nullCap then
      return { s with currentLookupFault := lookupFaultMissingCap srcDepth }.fail
        fun e => { e with type := .failedLookup, failedLookupWasSource := 1 }
    match label with
    | .cnodeCopy =>
      if length < 5 then return s.fail fun e => { e with type := .truncatedMessage }
      invokeCNodeCopy a s srcSlot destSlot (CapRights.fromWord (getSyscallArg a s 4 buffer))
    | .cnodeMint =>
      if length < 6 then return s.fail fun e => { e with type := .truncatedMessage }
      invokeCNodeMint a s srcSlot destSlot (CapRights.fromWord (getSyscallArg a s 4 buffer))
        (getSyscallArg a s 5 buffer)
    | .cnodeMove => invokeCNodeMove a s srcSlot destSlot
    | .cnodeMutate =>
      if length < 5 then return s.fail fun e => { e with type := .truncatedMessage }
      invokeCNodeMutate a s srcSlot destSlot (getSyscallArg a s 4 buffer)
    | _ => .error .panicked

/-- `hasCancelSendRight` -/
def hasCancelSendRight (cap : CapT) : Bool :=
  match getCapType cap with
  | .endpointCap =>
    getEpCanSend a cap ≠ 0 ∧ getEpCanReceive a cap ≠ 0 ∧ getEpCanGrant a cap ≠ 0 ∧
      getEpCanGrantReply a cap ≠ 0
  | _ => false

/-- `invoke_cnode_cancel_badged_sends` -/
def invokeCNodeCancelBadgedSends (s : KernelState) (destSlot : Word) :
    Exec (KernelState × ExceptionT) :=
  let destCap := (s.ctes destSlot).cap
  if hasCancelSendRight a destCap = false then
    .ok (s.fail fun e => { e with type := .illegalOperation })
  else
    let s := setRestart a s
    let badge := getEpBadge a destCap
    if badge ≠ 0 then do
      let s ← Ipc.cancelBadgedSends a s (getEpPtr a destCap) badge
      return (s, .none)
    else .ok (s, .none)

/-- `decode_cnode_rotate` -/
def decodeCNodeRotate (s : KernelState) (destSlot length buffer : Word) :
    Exec (KernelState × ExceptionT) :=
  if length < 8 then .ok (s.fail fun e => { e with type := .truncatedMessage })
  else match getExtraCapByIndex s 0, getExtraCapByIndex s 1 with
  | some pivotRootSlot, some srcRootSlot => do
    let pivotNewData := getSyscallArg a s 2 buffer
    let pivotIndex := getSyscallArg a s 3 buffer
    let pivotDepth := getSyscallArg a s 4 buffer
    let srcNewData := getSyscallArg a s 5 buffer
    let srcIndex := getSyscallArg a s 6 buffer
    let srcDepth := getSyscallArg a s 7 buffer
    let (s, status, srcSlot) ←
      lookupSlotForCNodeOp a s true (s.ctes srcRootSlot).cap srcIndex srcDepth
    if status ≠ .none then return (s, status)
    let (s, status, pivotSlot) ←
      lookupSlotForCNodeOp a s true (s.ctes pivotRootSlot).cap pivotIndex pivotDepth
    if status ≠ .none then return (s, status)
    if pivotSlot = srcSlot ∨ pivotSlot = destSlot then
      return s.fail fun e => { e with type := .illegalOperation }
    if srcSlot ≠ destSlot ∧ s.ctes.capType destSlot ≠ .nullCap then
      return s.fail fun e => { e with type := .deleteFirst }
    if s.ctes.capType srcSlot = .nullCap then
      return { s with currentLookupFault := lookupFaultMissingCap srcDepth }.fail
        fun e => { e with type := .failedLookup, failedLookupWasSource := 1 }
    if s.ctes.capType pivotSlot = .nullCap then
      return { s with currentLookupFault := lookupFaultMissingCap pivotDepth }.fail
        fun e => { e with type := .failedLookup, failedLookupWasSource := 0 }
    invokeCNodeRotate a s srcSlot pivotSlot destSlot srcNewData pivotNewData
  | _, _ => .ok (s.fail fun e => { e with type := .truncatedMessage })

/-- The labels from `CNodeRevoke` to `CNodeSaveCaller`. -/
def isCNodeLabel : MessageLabel → Bool
  | .cnodeRevoke | .cnodeDelete | .cnodeCancelBadgedSends | .cnodeCopy | .cnodeMint | .cnodeMove
  | .cnodeMutate | .cnodeRotate | .cnodeSaveCaller => true
  | _ => false

/-- `decode_cnode_invocation` -/
def decodeCNodeInvocation (strict : Bool) (fuel : Nat) (s : KernelState) (invLabel : MessageLabel)
    (length : Word) (cap : CapT) (buffer : Word) : Exec (KernelState × ExceptionT) :=
  if isCNodeLabel invLabel = false then
    .ok (s.fail fun e => { e with type := .illegalOperation })
  else if length < 2 then .ok (s.fail fun e => { e with type := .truncatedMessage })
  else do
    let index := getSyscallArg a s 0 buffer
    let wBits := getSyscallArg a s 1 buffer
    let (s, status, destSlot) ← lookupSlotForCNodeOp a s false cap index wBits
    if status ≠ .none then return (s, status)
    match invLabel with
    | .cnodeRevoke => invokeCNodeRevoke a strict fuel s destSlot
    | .cnodeDelete => invokeCNodeDelete a strict fuel s destSlot
    | .cnodeSaveCaller => invokeCNodeSaveCaller a s destSlot
    | .cnodeCancelBadgedSends => invokeCNodeCancelBadgedSends a s destSlot
    | .cnodeRotate => decodeCNodeRotate a s destSlot length buffer
    | _ => decodeCNodeInvokeWithTwoSlot a s invLabel destSlot length buffer

end Rel4.Kernel
