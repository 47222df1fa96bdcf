import Rel4.Common.Message
import Rel4.CSpace.Lookup
import Rel4.Task.State

/-!
What the decoding of invocations shares (`kernel/src/syscall/utils.rs`,
`kernel/boot.rs`, the lookup faults of `fault.rs`).
-/

namespace Rel4.Kernel
open Lib.Bitfield Common CSpace Rel4.Task

/-! ## Lookup faults -/

namespace Field

def lookupFaultType : Field 2 := ⟨0, 0, 2, 0, false⟩
def lfBitsLeft : Field 2 := ⟨0, 2, 7, 0, false⟩
def lfBitsFound : Field 2 := ⟨0, 9, 7, 0, false⟩

end Field

def Layout.missingCap : Layout 2 where
  fields := [Field.lfBitsLeft, Field.lookupFaultType]
  fits := by decide
  disjoint := by decide

def Layout.depthMismatch : Layout 2 where
  fields := [Field.lfBitsFound, Field.lfBitsLeft, Field.lookupFaultType]
  fits := by decide
  disjoint := by decide

def lookupFaultRootInvalid : Words 2 := fun _ => 0
def lookupFaultMissingCap (bitsLeft : Word) : Words 2 := Layout.missingCap.build [bitsLeft, 1]
def lookupFaultDepthMismatch (bitsFound bitsLeft : Word) : Words 2 :=
  Layout.depthMismatch.build [bitsFound, bitsLeft, 2]

variable (a : Arch)

/-! ## Arguments of the message -/

/-- `get_syscall_arg`; every call of the source has `i < 120`. -/
def getSyscallArg (s : KernelState) (i : Nat) (buffer : Word) : Word :=
  if i < msgRegisterNum then s.getRegister a s.ksCurThread (.msg i)
  else s.userMemory (bufferMsg buffer i)

/-- `get_extra_cap_by_index`; every call of the source has `i < 3`. -/
def getExtraCapByIndex (s : KernelState) (i : Nat) : Option Word :=
  if s.currentExtraCaps i = 0 then none else some (s.currentExtraCaps i)

/-! ## Slots -/

/-- `lookup_slot_for_cnode_op`: the status and the slot. -/
def lookupSlotForCNodeOp (s : KernelState) (isSource : Bool) (root : CapT) (capPtr depth : Word) :
    Exec (KernelState × ExceptionT × Word) :=
  let failedLookup : SyscallErrorT → SyscallErrorT := fun e =>
    { e with type := .failedLookup, failedLookupWasSource := flag isSource }
  if getCapType root ≠ .cnodeCap then
    let (s, status) := { s with currentLookupFault := lookupFaultRootInvalid }.fail failedLookup
    .ok (s, status, 0)
  else if depth < 1 ∨ depth > wordBits then
    let (s, status) := s.fail fun e =>
      { e with type := .rangeError, rangeErrorMin := 1, rangeErrorMax := wordBits }
    .ok (s, status, 0)
  else do
    let res ← resolveAddressBits a s.ctes root capPtr depth
    if res.status ≠ .none then
      let (s, status) := s.fail failedLookup
      return (s, status, 0)
    if res.bitsRemaining ≠ 0 then
      let fault := lookupFaultDepthMismatch 0 res.bitsRemaining
      let (s, status) := { s with currentLookupFault := fault }.fail failedLookup
      return (s, status, 0)
    return (s, .none, res.slot)

/-- `s'` is `s` with another error report. -/
def Reports (s s' : KernelState) : Prop :=
  ∃ fault error, s' = { s with currentLookupFault := fault, currentSyscallError := error }

theorem Reports.proj (h : Reports s s') {β : Sort _} (f : KernelState → β)
    (hf : ∀ s fault error,
      f { s with currentLookupFault := fault, currentSyscallError := error } = f s := by
        exact fun _ _ _ => rfl) : f s' = f s := by
  obtain ⟨fault, error, rfl⟩ := h
  exact hf s fault error

/-- A lookup reports why it failed, or it changes nothing and finds what
`resolve_address_bits` finds. -/
theorem lookupSlotForCNodeOp_cases {a : Arch}
    (h : lookupSlotForCNodeOp a s isSource root capPtr depth = .ok (s', st, slot)) :
    (st ≠ .none ∧ Reports s s' ∧ (s'.currentSyscallError.type = .failedLookup ∨
        s'.currentSyscallError.type = .rangeError)) ∨
      (st = .none ∧ s' = s ∧ getCapType root = .cnodeCap ∧
        ∃ res, resolveAddressBits a s.ctes root capPtr depth = .ok res ∧ res.status = .none ∧
          res.slot = slot) := by
  have herr : ExceptionT.syscallError ≠ .none := by decide
  unfold lookupSlotForCNodeOp at h
  split at h
  · cases h
    exact .inl ⟨herr, ⟨_, _, rfl⟩, .inl rfl⟩
  rename_i hroot
  split at h
  · cases h
    exact .inl ⟨herr, ⟨_, _, rfl⟩, .inr rfl⟩
  obtain ⟨res, hres, h⟩ := bind_eq_ok.mp h
  split at h
  · cases h
    exact .inl ⟨herr, ⟨_, _, rfl⟩, .inl rfl⟩
  rename_i hst
  split at h
  · cases h
    exact .inl ⟨herr, ⟨_, _, rfl⟩, .inl rfl⟩
  · cases h
    exact .inr ⟨rfl, rfl, not_not.mp hroot, res, hres, not_not.mp hst, rfl⟩

/-! ## Rights -/

/-- `VMKernelOnly` and `VMReadOnly`, in the numbers of `vm_rights_t`. -/
def vmKernelOnly : Arch → Word
  | .riscv64 => 1
  | .aarch64 => 0

def vmReadOnly : Arch → Word
  | .riscv64 => 2
  | .aarch64 => 3

def vmReadWrite : Arch → Word
  | .riscv64 => 3
  | .aarch64 => 1

/-- `maskVMRights` -/
def maskVMRights (vmRights : Word) (rights : CapRights) : Word :=
  if vmRights = vmReadOnly a ∧ rights.getAllowRead ≠ 0 then vmReadOnly a
  else if vmRights = vmReadWrite a ∧ rights.getAllowRead ≠ 0 then
    if rights.getAllowWrite = 0 then vmReadOnly a else vmReadWrite a
  else vmKernelOnly a

/-- `mask_cap_rights` with `arch_mask_cap_rights` -/
def maskCapRights (rights : CapRights) (c : CapT) : CapT :=
  match getCapType c with
  | .endpointCap =>
    let c' := CSpace.Field.epCanSend.set c (getEpCanSend a c &&& rights.getAllowWrite)
    let c' := CSpace.Field.epCanReceive.set c' (getEpCanReceive a c &&& rights.getAllowRead)
    let c' := CSpace.Field.epCanGrant.set c' (getEpCanGrant a c &&& rights.getAllowGrant)
    CSpace.Field.epCanGrantReply.set c' (getEpCanGrantReply a c &&& rights.getAllowGrantReply)
  | .notificationCap =>
    let c' := CSpace.Field.nfCanSend.set c (getNfCanSend a c &&& rights.getAllowWrite)
    CSpace.Field.nfCanReceive.set c' (getNfCanReceive a c &&& rights.getAllowRead)
  | .replyCap =>
    CSpace.Field.replyCanGrant.set c (getReplyCanGrant a c &&& rights.getAllowGrant)
  | .frameCap =>
    (CSpace.Field.frameVmRights a).set c
      (maskVMRights a ((CSpace.Field.frameVmRights a).get (signExt a) c) rights)
  | _ => c

end Rel4.Kernel
