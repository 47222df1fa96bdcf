import Rel4.Common.Config

/-!
Messages (`message_info.rs`, `arch/*/message_info.rs`, the IPC buffer of
`structures.rs`, `cap_rights.rs`).
-/

namespace Rel4.Common
open Lib.Bitfield

/-! ## The message-info word -/

abbrev MessageInfo := Words 1

namespace Field

def miLabel : Field 1 := ⟨0, 12, 52, 0, false⟩
def miCapsUnwrapped : Field 1 := ⟨0, 9, 3, 0, false⟩
def miExtraCaps : Field 1 := ⟨0, 7, 2, 0, false⟩
def miLength : Field 1 := ⟨0, 0, 7, 0, false⟩

def allowGrantReply : Field 1 := ⟨0, 3, 1, 0, false⟩
def allowGrant : Field 1 := ⟨0, 2, 1, 0, false⟩
def allowRead : Field 1 := ⟨0, 1, 1, 0, false⟩
def allowWrite : Field 1 := ⟨0, 0, 1, 0, false⟩

end Field

def Layout.messageInfo : Layout 1 where
  fields := [Field.miLabel, Field.miCapsUnwrapped, Field.miExtraCaps, Field.miLength]
  fits := by decide
  disjoint := by decide

/-- `seL4_MsgMaxLength` -/
def msgMaxLength : Word := 120

/-- `seL4_MsgMaxExtraCaps` -/
def msgMaxExtraCaps : Nat := 3

namespace MessageInfo

def new (label capsUnwrapped extraCaps length : Word) : MessageInfo :=
  Layout.messageInfo.build [label, capsUnwrapped, extraCaps, length]

def fromWord (w : Word) : MessageInfo := fun _ => w
def toWord (mi : MessageInfo) : Word := mi 0

def getUsizeLabel (mi : MessageInfo) : Word := Field.miLabel.stored mi
def getCapsUnwrapped (mi : MessageInfo) : Word := Field.miCapsUnwrapped.stored mi
def getExtraCaps (mi : MessageInfo) : Word := Field.miExtraCaps.stored mi
def getLength (mi : MessageInfo) : Word := Field.miLength.stored mi

/-- `from_word_security` -/
def fromWordSecurity (w : Word) : MessageInfo :=
  let mi := fromWord w
  if getLength mi > msgMaxLength then Field.miLength.set mi msgMaxLength else mi

end MessageInfo

/-! ## Labels -/

/-- The labels of both architectures. -/
inductive MessageLabel where
  | invalidInvocation
  | untypedRetype
  | tcbReadRegisters
  | tcbWriteRegisters
  | tcbCopyRegisters
  | tcbConfigure
  | tcbSetPriority
  | tcbSetMCPriority
  | tcbSetSchedParams
  | tcbSetIPCBuffer
  | tcbSetSpace
  | tcbSuspend
  | tcbResume
  | tcbBindNotification
  | tcbUnbindNotification
  | tcbSetTLSBase
  | cnodeRevoke
  | cnodeDelete
  | cnodeCancelBadgedSends
  | cnodeCopy
  | cnodeMint
  | cnodeMove
  | cnodeMutate
  | cnodeRotate
  | cnodeSaveCaller
  | irqIssueIRQHandler
  | irqAckIRQ
  | irqSetIRQHandler
  | irqClearIRQHandler
  | domainSetSet
  | riscvPageTableMap
  | riscvPageTableUnmap
  | riscvPageMap
  | riscvPageUnmap
  | riscvPageGetAddress
  | riscvASIDControlMakePool
  | riscvASIDPoolAssign
  | riscvIRQIssueIRQHandlerTrigger
  | armVSpaceCleanData
  | armVSpaceInvalidateData
  | armVSpaceCleanInvalidateData
  | armVSpaceUnifyInstruction
  | armSMCCall
  | armPageTableMap
  | armPageTableUnmap
  | armPageMap
  | armPageUnmap
  | armPageCleanData
  | armPageInvalidateData
  | armPageCleanInvalidateData
  | armPageUnifyInstruction
  | armPageGetAddress
  | armASIDControlMakePool
  | armASIDPoolAssign
  | armIRQIssueIRQHandlerTrigger
  | nArchInvocationLabels
  /-- A number that is no label; the source makes it one by `transmute`. -/
  | undefined
  deriving DecidableEq, Repr

namespace MessageLabel

/-- The labels in the order of the source's enumeration. -/
def common : List MessageLabel :=
  [.invalidInvocation, .untypedRetype, .tcbReadRegisters, .tcbWriteRegisters, .tcbCopyRegisters,
    .tcbConfigure, .tcbSetPriority, .tcbSetMCPriority, .tcbSetSchedParams, .tcbSetIPCBuffer,
    .tcbSetSpace, .tcbSuspend, .tcbResume, .tcbBindNotification, .tcbUnbindNotification,
    .tcbSetTLSBase, .cnodeRevoke, .cnodeDelete, .cnodeCancelBadgedSends, .cnodeCopy, .cnodeMint,
    .cnodeMove, .cnodeMutate, .cnodeRotate, .cnodeSaveCaller, .irqIssueIRQHandler, .irqAckIRQ,
    .irqSetIRQHandler, .irqClearIRQHandler, .domainSetSet]

def all : Arch → List MessageLabel
  | .riscv64 => common ++ [.riscvPageTableMap, .riscvPageTableUnmap, .riscvPageMap,
      .riscvPageUnmap, .riscvPageGetAddress, .riscvASIDControlMakePool, .riscvASIDPoolAssign,
      .riscvIRQIssueIRQHandlerTrigger, .nArchInvocationLabels]
  | .aarch64 => common ++ [.armVSpaceCleanData, .armVSpaceInvalidateData,
      .armVSpaceCleanInvalidateData, .armVSpaceUnifyInstruction, .armSMCCall, .armPageTableMap,
      .armPageTableUnmap, .armPageMap, .armPageUnmap, .armPageCleanData, .armPageInvalidateData,
      .armPageCleanInvalidateData, .armPageUnifyInstruction, .armPageGetAddress,
      .armASIDControlMakePool, .armASIDPoolAssign, .armIRQIssueIRQHandlerTrigger,
      .nArchInvocationLabels]

/-- `get_label`: the low 32 bits of the label, as a label. -/
def ofWord (a : Arch) (w : Word) : MessageLabel := (all a).getD (w.toNat % 2 ^ 32) .undefined

end MessageLabel

/-! ## Rights -/

/-- `seL4_CapRights_t` -/
abbrev CapRights := Words 1

namespace CapRights

def fromWord (w : Word) : CapRights := fun _ => w

def getAllowGrantReply (r : CapRights) : Word := Field.allowGrantReply.stored r
def getAllowGrant (r : CapRights) : Word := Field.allowGrant.stored r
def getAllowRead (r : CapRights) : Word := Field.allowRead.stored r
def getAllowWrite (r : CapRights) : Word := Field.allowWrite.stored r

end CapRights

/-! ## The IPC buffer -/

/-- Addresses in an IPC buffer at `buffer`. -/
def bufferMsg (buffer : Word) (i : Nat) : Word := buffer + 8 * (1 + BitVec.ofNat 64 i)
def bufferCapsOrBadges (buffer : Word) (i : Nat) : Word := buffer + 8 * (122 + BitVec.ofNat 64 i)
def bufferReceiveCNode (buffer : Word) : Word := buffer + 8 * 125
def bufferReceiveIndex (buffer : Word) : Word := buffer + 8 * 126
def bufferReceiveDepth (buffer : Word) : Word := buffer + 8 * 127

end Rel4.Common
