import Rel4.Ipc.FaultMessage
import Rel4.Kernel.Asid
import Rel4.Kernel.Irq

/-!
Which operation an invocation performs (`decode_invocation` and the decoders
under it, up to the point where they read their arguments).

The label of a message has 52 bits, and the kernel looks at the low 32 of them.
-/

namespace Rel4.Common.MessageLabel
open Lib.Bitfield

/-- The number of a label: its place in the source's enumeration. -/
def number (a : Arch) (l : MessageLabel) : Nat := (all a).idxOf l

theorem nodup_all (a : Arch) : (all a).Nodup := by cases a <;> decide

theorem undefined_notMem_all (a : Arch) : MessageLabel.undefined ∉ all a := by cases a <;> decide

theorem length_all_lt (a : Arch) : (all a).length < 2 ^ 32 := by cases a <;> decide

theorem number_lt (hl : l ∈ all a) : l.number a < 2 ^ 32 :=
  (List.idxOf_lt_length_of_mem hl).trans (length_all_lt a)

/-- A word is read as the label that its low 32 bits number. -/
theorem ofWord_eq_iff (hl : l ∈ all a) : ofWord a w = l ↔ w.toNat % 2 ^ 32 = l.number a := by
  unfold ofWord
  by_cases hlt : w.toNat % 2 ^ 32 < (all a).length
  · rw [List.getD_eq_getElem _ _ hlt]
    constructor
    · rintro rfl
      exact ((nodup_all a).idxOf_getElem _ hlt).symm
    · intro h
      simp only [h, number]
      exact List.getElem_idxOf _
  · -- no label has such a number
    rw [List.getD_eq_default _ _ (Nat.le_of_not_lt hlt)]
    constructor
    · rintro rfl
      exact absurd hl (undefined_notMem_all a)
    · intro h
      have : l.number a < (all a).length := List.idxOf_lt_length_of_mem hl
      omega

end Rel4.Common.MessageLabel

namespace Rel4.Kernel
open Lib.Bitfield Common CSpace Rel4.Task Ipc
open Task.KernelState

variable {id : Nat} {e : Abort} {a : Arch} {s : KernelState}
  {w t receiver : Word} {tag : CapTag} {label l : MessageLabel}

/-! ## Dispatch -/

/-- What an invocation comes to before its arguments are read. -/
inductive Dispatch where
  | invalidCapability
  /-- A message through an endpoint, a notification or a reply cap, whatever its label. -/
  | message
  | operation (label : MessageLabel)
  | illegalOperation
  | panicked
  deriving DecidableEq, Repr

/-- A decoder that has an operation for each of the labels `operations`. -/
def select (operations : List MessageLabel) (label : MessageLabel) : Dispatch :=
  if label ∈ operations then .operation label else .illegalOperation

/-- The arms of `decode_tcb_invocation`. -/
def tcbOperations : List MessageLabel :=
  [.tcbReadRegisters, .tcbWriteRegisters, .tcbCopyRegisters, .tcbSuspend, .tcbResume,
    .tcbConfigure, .tcbSetPriority, .tcbSetMCPriority, .tcbSetSchedParams, .tcbSetIPCBuffer,
    .tcbSetSpace, .tcbBindNotification, .tcbUnbindNotification, .tcbSetTLSBase]

/-- The arms of `decode_cnode_invocation`. -/
def cnodeOperations : List MessageLabel :=
  [.cnodeCopy, .cnodeMint, .cnodeMove, .cnodeMutate, .cnodeRevoke, .cnodeDelete, .cnodeSaveCaller,
    .cnodeCancelBadgedSends, .cnodeRotate]

/-- `decode_cnode_invocation` compares the label with the first and the last of its
operations, and then matches on it. -/
def decodeCNodeLabel (label : MessageLabel) : Dispatch :=
  if isCNodeLabel label = false then .illegalOperation
  else if label ∈ cnodeOperations then .operation label
  else .panicked

/-- The arms of `decode_irq_handler_invocation`. -/
def irqHandlerOperations : List MessageLabel :=
  [.irqAckIRQ, .irqSetIRQHandler, .irqClearIRQHandler]

/-- The labels that `decode_irq_control_invocation` and
`arch_decode_irq_control_invocation` compare with. -/
def irqControlOperations (a : Arch) : List MessageLabel :=
  [.irqIssueIRQHandler, issueTriggerLabel a]

/-- The labels of `decode_page_table_invocation`. -/
def pageTableOperations : Arch → List MessageLabel
  | .riscv64 => [.riscvPageTableUnmap, .riscvPageTableMap]
  | .aarch64 => [.armPageTableUnmap, .armPageTableMap]

/-- The arms of `decode_frame_invocation`. -/
def frameOperations : Arch → List MessageLabel
  | .riscv64 => [.riscvPageMap, .riscvPageUnmap, .riscvPageGetAddress]
  | .aarch64 => [.armPageMap, .armPageUnmap, .armPageCleanData, .armPageInvalidateData,
      .armPageCleanInvalidateData, .armPageUnifyInstruction, .armPageGetAddress]

/-- The arms of `decode_vspace_root_invocation`. -/
def vspaceRootOperations : List MessageLabel :=
  [.armVSpaceCleanData, .armVSpaceInvalidateData, .armVSpaceCleanInvalidateData,
    .armVSpaceUnifyInstruction]

/-- `decode_mmu_invocation` -/
def decodeMmuInvocation (a : Arch) (tag : CapTag) (label : MessageLabel) : Dispatch :=
  match tag with
  | .vspaceCap => match a with
    | .riscv64 => .panicked
    | .aarch64 => select vspaceRootOperations label
  | .pageTableCap => select (pageTableOperations a) label
  | .frameCap => select (frameOperations a) label
  | .asidControlCap => select [makePoolLabel a] label
  | .asidPoolCap => select [poolAssignLabel a] label
  | _ => .panicked

/-- `decode_invocation` -/
def decodeInvocation (a : Arch) (tag : CapTag) (label : MessageLabel) : Dispatch :=
  match tag with
  | .nullCap | .zombieCap => .invalidCapability
  | .endpointCap | .notificationCap | .replyCap => .message
  | .threadCap => select tcbOperations label
  | .domainCap => select [.domainSetSet] label
  | .cnodeCap => decodeCNodeLabel label
  | .untypedCap => select [.untypedRetype] label
  | .irqControlCap => select (irqControlOperations a) label
  | .irqHandlerCap => select irqHandlerOperations label
  | _ => decodeMmuInvocation a tag label

/-! ## The decoders -/

/-- An invocation, with a body for each operation and for a message. -/
def Dispatch.run (s : KernelState) (send : Exec (KernelState × ExceptionT))
    (perform : MessageLabel → Exec (KernelState × ExceptionT)) :
    Dispatch → Exec (KernelState × ExceptionT)
  | .message => send
  | .operation label => perform label
  | .illegalOperation => .ok (s.fail fun e => { e with type := .illegalOperation })
  | .invalidCapability =>
    .ok (s.fail fun e => { e with type := .invalidCapability, invalidCapNumber := 0 })
  | .panicked => .error .panicked

/-- A decoder does to each label what `decode_invocation` comes to there. -/
def Dispatches (a : Arch) (s : KernelState) (tag : CapTag)
    (decode : MessageLabel → Exec (KernelState × ExceptionT)) : Prop :=
  ∀ send label, (decodeInvocation a tag label).run s send decode = decode label

/-- It does where it refuses the labels without an operation. -/
theorem dispatches_of_select
    (hselect : ∀ label, decodeInvocation a tag label = select operations label)
    (hrefuses : ∀ label, label ∉ operations →
      decode label = .ok (s.fail fun e => { e with type := .illegalOperation })) :
    Dispatches a s tag decode := by
  intro send label
  rw [hselect, select]
  split
  · rfl
  next hl => exact (hrefuses label hl).symm

theorem dispatches_decodeUntypedInvocation : Dispatches a s .untypedCap fun label =>
      decodeUntypedInvocation a s label length slot cap buffer :=
  dispatches_of_select (fun _ => rfl) fun _ hl =>
    if_pos fun h => hl (List.mem_singleton.mpr h)

theorem dispatches_decodeAsidControl :
    Dispatches a s .asidControlCap fun label => decodeAsidControl a s label length buffer :=
  dispatches_of_select (fun _ => rfl) fun _ hl =>
    if_pos fun h => hl (List.mem_singleton.mpr h)

theorem dispatches_decodeAsidPool :
    Dispatches a s .asidPoolCap fun label => .ok (decodeAsidPool a s label slot) :=
  dispatches_of_select (fun _ => rfl) fun _ hl =>
    congrArg Except.ok (if_pos fun h => hl (List.mem_singleton.mpr h))

theorem dispatches_decodeIrqControlInvocation : Dispatches a s .irqControlCap fun label =>
      decodeIrqControlInvocation a s label length slot buffer := by
  refine dispatches_of_select (fun _ => rfl) fun l hl => ?_
  obtain ⟨hissue, htrigger⟩ : l ≠ .irqIssueIRQHandler ∧ l ≠ issueTriggerLabel a := by
    simpa [irqControlOperations] using hl
  unfold decodeIrqControlInvocation archDecodeIrqControlInvocation
  rw [if_neg hissue, if_neg htrigger]

/-- The range that `decode_cnode_invocation` tests holds its operations and no more. -/
theorem isCNodeLabel_iff : isCNodeLabel label = true ↔ label ∈ cnodeOperations := by
  cases label <;> decide

theorem decodeCNodeLabel_eq (label : MessageLabel) :
    decodeCNodeLabel label = select cnodeOperations label := by
  unfold decodeCNodeLabel select
  by_cases hl : label ∈ cnodeOperations
  · have htrue : isCNodeLabel label = true := isCNodeLabel_iff.mpr hl
    rw [if_neg (by rw [htrue]; decide), if_pos hl, if_pos hl]
  · have hfalse : isCNodeLabel label = false :=
      Bool.eq_false_iff.mpr fun h => hl (isCNodeLabel_iff.mp h)
    rw [if_pos hfalse, if_neg hl]

theorem dispatches_decodeCNodeInvocation :
    Dispatches a s .cnodeCap fun label =>
      decodeCNodeInvocation a strict fuel s label length cap buffer :=
  dispatches_of_select decodeCNodeLabel_eq fun _ hl =>
    if_pos (Bool.eq_false_iff.mpr fun h => hl (isCNodeLabel_iff.mp h))

/-- The comparison as the source makes it, on the number that was sent. -/
theorem isCNodeLabel_ofWord : isCNodeLabel (MessageLabel.ofWord a w) = true ↔
      MessageLabel.number a .cnodeRevoke ≤ w.toNat % 2 ^ 32 ∧
        w.toNat % 2 ^ 32 ≤ MessageLabel.number a .cnodeSaveCaller := by
  have hall : ∀ l ∈ cnodeOperations, l ∈ MessageLabel.all a := by cases a <;> decide
  have hnumbers : cnodeOperations.map (MessageLabel.number a) =
      [19, 20, 21, 22, 16, 17, 24, 18, 23] := by cases a <;> decide
  have hfirst : MessageLabel.number a .cnodeRevoke = 16 := by cases a <;> decide
  have hlast : MessageLabel.number a .cnodeSaveCaller = 24 := by cases a <;> decide
  have hmem : MessageLabel.ofWord a w ∈ cnodeOperations ↔
      w.toNat % 2 ^ 32 ∈ cnodeOperations.map (MessageLabel.number a) := by
    rw [List.mem_map]
    constructor
    · intro h
      exact ⟨_, h, ((MessageLabel.ofWord_eq_iff (hall _ h)).mp rfl).symm⟩
    · rintro ⟨l, hl, he⟩
      rwa [(MessageLabel.ofWord_eq_iff (hall l hl)).mpr he.symm]
  rw [isCNodeLabel_iff, hmem, hnumbers, hfirst, hlast]
  simp only [List.mem_cons, List.not_mem_nil, or_false]
  omega

/-! ## Labels and operations -/

/-- The caps whose decoder looks at the label. -/
def checksLabels (a : Arch) : CapTag → Bool
  | .nullCap | .zombieCap | .endpointCap | .notificationCap | .replyCap | .undefined => false
  | .vspaceCap => a = .aarch64
  | _ => true

/-- The operations that a cap has. -/
def operations (a : Arch) : CapTag → List MessageLabel
  | .threadCap => tcbOperations
  | .domainCap => [.domainSetSet]
  | .cnodeCap => cnodeOperations
  | .untypedCap => [.untypedRetype]
  | .irqControlCap => irqControlOperations a
  | .irqHandlerCap => irqHandlerOperations
  | .vspaceCap => match a with
    | .riscv64 => []
    | .aarch64 => vspaceRootOperations
  | .pageTableCap => pageTableOperations a
  | .frameCap => frameOperations a
  | .asidControlCap => [makePoolLabel a]
  | .asidPoolCap => [poolAssignLabel a]
  | _ => []

theorem mem_all_of_mem_operations (h : l ∈ operations a tag) : l ∈ MessageLabel.all a := by
  have hsub : operations a tag ⊆ MessageLabel.all a := by cases a <;> cases tag <;> decide
  exact hsub h

theorem decodeInvocation_eq_select (h : checksLabels a tag = true) :
    decodeInvocation a tag label = select (operations a tag) label := by
  cases a <;> cases tag <;> first
    | cases h; done
    | rfl
    | exact decodeCNodeLabel_eq label

theorem operations_eq_nil (h : checksLabels a tag = false) : operations a tag = [] := by
  cases a <;> cases tag <;> first
    | cases h; done
    | rfl

theorem decodeInvocation_ne_operation (h : checksLabels a tag = false) :
    decodeInvocation a tag label ≠ .operation l := by
  intro he
  cases a <;> cases tag <;> first
    | cases h; done
    | cases he

/-- An invocation performs an operation when its cap has it and the label is that of it. -/
theorem decodeInvocation_eq_operation_iff :
    decodeInvocation a tag label = .operation l ↔ label = l ∧ l ∈ operations a tag := by
  cases h : checksLabels a tag with
  | false => simp [decodeInvocation_ne_operation h, operations_eq_nil h]
  | true =>
    rw [decodeInvocation_eq_select h, select]
    split
    next hl =>
      rw [Dispatch.operation.injEq]
      exact ⟨fun he => ⟨he, he ▸ hl⟩, And.left⟩
    next hl =>
      constructor
      · intro he
        cases he
      · rintro ⟨rfl, hop⟩
        exact absurd hop hl

/-- The 52 bits of the label that a message info word carries. -/
def wholeLabel (w : Word) : Nat := (MessageInfo.fromWordSecurity w).getUsizeLabel.toNat

/-- `get_label` -/
def getLabel (a : Arch) (w : Word) : MessageLabel :=
  MessageLabel.ofWord a (MessageInfo.fromWordSecurity w).getUsizeLabel

theorem getLabel_eq_iff (hl : l ∈ MessageLabel.all a) :
    getLabel a w = l ↔ wholeLabel w % 2 ^ 32 = l.number a :=
  MessageLabel.ofWord_eq_iff hl

/-- The operation of an invocation is the one that its whole label numbers. -/
structure SelectsByLabel (a : Arch) (w : Word) (tag : CapTag) : Prop where
  performs : ∀ l, decodeInvocation a tag (getLabel a w) = .operation l →
    wholeLabel w = l.number a
  refuses : checksLabels a tag = true → (∀ l ∈ operations a tag, wholeLabel w ≠ l.number a) →
    decodeInvocation a tag (getLabel a w) = .illegalOperation

/-- It is, but for a label of more than 32 bits that ends in an operation of the cap. -/
theorem selectsByLabel_iff :
    SelectsByLabel a w tag ↔ wholeLabel w < 2 ^ 32 ∨ getLabel a w ∉ operations a tag := by
  constructor
  · intro h
    by_contra hne
    obtain ⟨hlarge, hop⟩ : ¬wholeLabel w < 2 ^ 32 ∧ getLabel a w ∈ operations a tag := by
      simpa using hne
    have hnumber := h.performs _ (decodeInvocation_eq_operation_iff.mpr ⟨rfl, hop⟩)
    exact hlarge (hnumber ▸ MessageLabel.number_lt (mem_all_of_mem_operations hop))
  · intro h
    -- what the low bits select is then what the whole label numbers
    have hnumber : ∀ l ∈ operations a tag, getLabel a w = l → wholeLabel w = l.number a := by
      intro l hl he
      have hmod := (getLabel_eq_iff (mem_all_of_mem_operations hl)).mp he
      have hlt : wholeLabel w < 2 ^ 32 := h.resolve_right (not_not.mpr (he ▸ hl))
      rwa [Nat.mod_eq_of_lt hlt] at hmod
    refine ⟨fun l hl => ?_, fun hchecks hnone => ?_⟩
    · obtain ⟨he, hop⟩ := decodeInvocation_eq_operation_iff.mp hl
      exact hnumber l hop he
    · rw [decodeInvocation_eq_select hchecks, select,
        if_neg fun hop => hnone _ hop (hnumber _ hop rfl)]

/-! ## Replies to faults -/

/-- The faults whose reply says whether the thread restarts. After the others it does. -/
def replyChecksLabel : FaultType → Bool
  | .unknownSyscall | .userException => true
  | _ => false

/-- A reply to a fault restarts the thread only if its whole label is 0. -/
def RestartsByLabel (a : Arch) (s : KernelState) (t receiver : Word) : Prop :=
  ∀ s', doFaultReplyTransfer a s t receiver = .ok (s', true) →
    wholeLabel (s.getRegister a t .msgInfo) = 0

theorem getLabel_eq_invalidInvocation_iff :
    getLabel a w = .invalidInvocation ↔ wholeLabel w % 2 ^ 32 = 0 := by
  have hmem : MessageLabel.invalidInvocation ∈ MessageLabel.all a := by cases a <;> decide
  have hzero : MessageLabel.number a .invalidInvocation = 0 := by cases a <;> decide
  rw [getLabel_eq_iff hmem, hzero]

/-- `copy_fault_mrs_for_reply` returns when the lookup of the sender's buffer does. -/
theorem copyFaultMrsForReply_returns (hb : s.lookupIpcBuffer a t false = .ok b) :
    ∃ s', s.copyFaultMrsForReply a t receiver id n = .ok s' := by
  unfold copyFaultMrsForReply
  simp only [forLoop_setRegister, lookupIpcBuffer_withRegisters, hb]
  cases b <;> exact ⟨_, rfl⟩

theorem copyFaultMrsForReply_aborts (hb : s.lookupIpcBuffer a t false = .error e) :
    s.copyFaultMrsForReply a t receiver id n = .error e := by
  unfold copyFaultMrsForReply
  simp only [forLoop_setRegister, lookupIpcBuffer_withRegisters, hb]
  rfl

theorem doFaultReplyTransfer_unchecked
    (hcheck : replyChecksLabel (getFaultType (s.tcbs receiver).tcbFault) = false) :
    doFaultReplyTransfer a s t receiver = .ok (s, true) := by
  unfold doFaultReplyTransfer
  cases hfault : getFaultType (s.tcbs receiver).tcbFault <;> simp only [hfault] at hcheck ⊢
  case unknownSyscall | userException => cases hcheck

/-- A reply that checks the label restarts the thread if the label reads as 0. -/
theorem doFaultReplyTransfer_checked
    (hcheck : replyChecksLabel (getFaultType (s.tcbs receiver).tcbFault) = true)
    (hb : s.lookupIpcBuffer a t false = .ok b) :
    ∃ s', doFaultReplyTransfer a s t receiver =
      .ok (s', decide (getLabel a (s.getRegister a t .msgInfo) = .invalidInvocation)) := by
  unfold doFaultReplyTransfer
  cases hfault : getFaultType (s.tcbs receiver).tcbFault <;> rw [hfault] at hcheck
  case unknownSyscall | userException =>
    obtain ⟨s', hs⟩ := copyFaultMrsForReply_returns hb
    exact ⟨s', bind_eq_ok.mpr ⟨s', hs, rfl⟩⟩
  all_goals cases hcheck

theorem doFaultReplyTransfer_aborts
    (hcheck : replyChecksLabel (getFaultType (s.tcbs receiver).tcbFault) = true)
    (hb : s.lookupIpcBuffer a t false = .error e) :
    doFaultReplyTransfer a s t receiver = .error e := by
  unfold doFaultReplyTransfer
  cases hfault : getFaultType (s.tcbs receiver).tcbFault <;> rw [hfault] at hcheck
  case unknownSyscall | userException =>
    exact bind_eq_error.mpr (.inl (copyFaultMrsForReply_aborts hb))
  all_goals cases hcheck

theorem restartsByLabel_iff : RestartsByLabel a s t receiver ↔
      wholeLabel (s.getRegister a t .msgInfo) = 0 ∨
        replyChecksLabel (getFaultType (s.tcbs receiver).tcbFault) = true ∧
          (wholeLabel (s.getRegister a t .msgInfo) % 2 ^ 32 ≠ 0 ∨
            ∃ e, s.lookupIpcBuffer a t false = .error e) := by
  unfold RestartsByLabel
  cases hcheck : replyChecksLabel (getFaultType (s.tcbs receiver).tcbFault) with
  | false => simp [doFaultReplyTransfer_unchecked hcheck]
  | true =>
    cases hb : s.lookupIpcBuffer a t false with
    | error e => simp [doFaultReplyTransfer_aborts hcheck hb]
    | ok b =>
      obtain ⟨s', hs⟩ := doFaultReplyTransfer_checked hcheck hb
      simp only [hs, getLabel_eq_invalidInvocation_iff]
      constructor
      · intro h
        by_cases hlow : wholeLabel (s.getRegister a t .msgInfo) % 2 ^ 32 = 0
        · exact .inl (h s' (by rw [decide_eq_true hlow]))
        · exact .inr ⟨trivial, .inl hlow⟩
      · rintro (hzero | ⟨-, hlow | ⟨e, he⟩⟩) s'' hs''
        · exact hzero
        · rw [decide_eq_false hlow] at hs''
          cases hs''
        · cases he

/-- The whole label selects the operation of an invocation and ends a fault, but for a
label of more than 32 bits whose low half does. A cap fault or a VM fault ends with any
reply. -/
theorem wholeLabel_selects_iff (a : Arch) : (∀ w tag, SelectsByLabel a w tag ↔
      wholeLabel w < 2 ^ 32 ∨ getLabel a w ∉ operations a tag) ∧
    ∀ s t receiver, RestartsByLabel a s t receiver ↔
      wholeLabel (s.getRegister a t .msgInfo) = 0 ∨
        replyChecksLabel (getFaultType (s.tcbs receiver).tcbFault) = true ∧
          (wholeLabel (s.getRegister a t .msgInfo) % 2 ^ 32 ≠ 0 ∨
            ∃ e, s.lookupIpcBuffer a t false = .error e) :=
  ⟨fun _ _ => selectsByLabel_iff, fun _ _ _ => restartsByLabel_iff⟩

/-- The message info word of an empty message. -/
def labelled (label : Word) : Word := label <<< 12

/-- The label `2 ^ 32 + 1` retypes an untyped, and a reply labelled `2 ^ 32` to an exception
restarts the thread. -/
theorem wholeLabel_not_selecting : ¬SelectsByLabel .riscv64 (labelled (2 ^ 32 + 1)) .untypedCap ∧
      ¬RestartsByLabel .riscv64
        (faulting.setRegister .riscv64 peerTcb .msgInfo (labelled (2 ^ 32))) peerTcb senderTcb := by
  constructor
  · intro h
    have hop : decodeInvocation .riscv64 .untypedCap (getLabel .riscv64 (labelled (2 ^ 32 + 1))) =
        .operation .untypedRetype := by decide
    have hlabel : wholeLabel (labelled (2 ^ 32 + 1)) = 1 := h.performs _ hop
    exact absurd hlabel (by decide)
  · rw [restartsByLabel_iff]
    have hreg : (faulting.setRegister .riscv64 peerTcb .msgInfo
        (labelled (2 ^ 32))).getRegister .riscv64 peerTcb .msgInfo = labelled (2 ^ 32) := by rfl
    have hb : (faulting.setRegister .riscv64 peerTcb .msgInfo
        (labelled (2 ^ 32))).lookupIpcBuffer .riscv64 peerTcb false =
          .ok (some (pptrBase .riscv64 + 0x8400)) := by rfl
    rw [hreg, hb]
    rintro (hzero | ⟨-, hlow | ⟨e, he⟩⟩)
    · exact absurd hzero (by decide)
    · exact hlow (by decide)
    · cases he

end Rel4.Kernel
