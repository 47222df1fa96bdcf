import Rel4.Lib.Variant
import Rel4.Kernel.Frame

/-!
The packed structures of the kernel (`plus_define_bitfield!` in
`sel4_common/src/utils.rs`, and its uses for `cap_t`, `mdb_node_t`,
`thread_state_t`, `endpoint_t` and `notification_t`).

Every variant is a table of fields. That the fields of a table share no bit and are
not reached by the sign extension is decided for each table (`Separate`); the rest
is general.
-/

namespace Rel4.Kernel
open Lib.Bitfield Common CSpace Rel4.Task

variable (a : Arch)

/-! ## Capabilities -/

/-- The kinds of capabilities that an architecture has. -/
def capTags : Arch → List CapTag
  | .riscv64 => [.nullCap, .untypedCap, .endpointCap, .notificationCap, .replyCap, .cnodeCap,
      .threadCap, .irqControlCap, .irqHandlerCap, .zombieCap, .domainCap, .frameCap, .pageTableCap,
      .asidControlCap, .asidPoolCap]
  | .aarch64 => [.nullCap, .untypedCap, .endpointCap, .notificationCap, .replyCap, .cnodeCap,
      .threadCap, .irqControlCap, .irqHandlerCap, .zombieCap, .domainCap, .frameCap, .pageTableCap,
      .vspaceCap, .asidControlCap, .asidPoolCap]

/-- The layout of a kind, with the type tag as the last field. -/
def capLayout : CapTag → Layout 2
  | .untypedCap => Layout.untyped a
  | .endpointCap => Layout.endpoint a
  | .notificationCap => Layout.notification a
  | .replyCap => Layout.reply
  | .cnodeCap => Layout.cnode a
  | .threadCap => Layout.thread a
  | .irqHandlerCap => Layout.irqHandler
  | .zombieCap => Layout.zombie
  | .frameCap => Layout.frame a
  | .pageTableCap => Layout.pageTable a
  | .vspaceCap => Layout.vspace
  | .asidPoolCap => Layout.asidPool a
  | _ => Layout.tagOnly

/-- The fields of a kind, in the order of its constructor. -/
def capFields (t : CapTag) : List (Field 2) := (capLayout a t).fields.dropLast

/-- The constructors of the kinds, `new_null_cap` to `new_asid_pool_cap`. -/
def newCap : CapTag → List Word → CapT
  | .untypedCap, [freeIndex, isDevice, blockSize, ptr] =>
    newUntypedCap a freeIndex isDevice blockSize ptr
  | .endpointCap, [badge, canGrantReply, canGrant, canSend, canReceive, ptr] =>
    newEndpointCap a badge canGrantReply canGrant canSend canReceive ptr
  | .notificationCap, [badge, canReceive, canSend, ptr] =>
    newNotificationCap a badge canReceive canSend ptr
  | .replyCap, [canGrant, master, tcbPtr] => newReplyCap canGrant master tcbPtr
  | .cnodeCap, [radix, guardSize, guard, ptr] => newCNodeCap a radix guardSize guard ptr
  | .threadCap, [ptr] => newThreadCap a ptr
  | .irqControlCap, [] => newIrqControlCap
  | .irqHandlerCap, [irq] => newIrqHandlerCap irq
  | .zombieCap, [id, type] => newZombieCap id type
  | .domainCap, [] => newDomainCap
  | .frameCap, [v₁, v₂, v₃, v₄, v₅, v₆] =>
    -- the two architectures list the fields in different orders
    match a with
    | .riscv64 => newFrameCap a v₁ v₂ v₃ v₄ v₅ v₆
    | .aarch64 => newFrameCap a v₅ v₆ v₄ v₂ v₁ v₃
  | .pageTableCap, [asid, basePtr, isMapped, address] =>
    newPageTableCap a asid basePtr isMapped address
  | .vspaceCap, [asid, basePtr, isMapped] => newVspaceCap asid basePtr isMapped
  | .asidControlCap, [] => newAsidControlCap
  | .asidPoolCap, [base, pool] => newAsidPoolCap a base pool
  | _, _ => newNullCap

section Caps

variable {a} {t : CapTag}

theorem capFields_append (t : CapTag) :
    (capLayout a t).fields = capFields a t ++ [CSpace.Field.capType] := by
  cases a <;> cases t <;> rfl

/-- Each constructor ORs its arguments and its tag into zeroed words. -/
theorem newCap_eq_build (ht : t ∈ capTags a) (hlen : values.length = (capFields a t).length) :
    newCap a t values = (capLayout a t).build (values ++ [t.toWord]) := by
  cases t with
  | nullCap | irqControlCap | domainCap | asidControlCap =>
    have hlen : values.length = 0 := hlen
    match values, hlen with
    | [], _ => rfl
  | threadCap | irqHandlerCap =>
    have hlen : values.length = 1 := hlen
    match values, hlen with
    | [_], _ => rfl
  | zombieCap | asidPoolCap =>
    have hlen : values.length = 2 := hlen
    match values, hlen with
    | [_, _], _ => rfl
  | replyCap | vspaceCap =>
    have hlen : values.length = 3 := hlen
    match values, hlen with
    | [_, _, _], _ => rfl
  | untypedCap | notificationCap | cnodeCap | pageTableCap =>
    have hlen : values.length = 4 := hlen
    match values, hlen with
    | [_, _, _, _], _ => rfl
  | endpointCap =>
    have hlen : values.length = 6 := hlen
    match values, hlen with
    | [_, _, _, _, _, _], _ => rfl
  | frameCap =>
    have hlen : values.length = 6 := by cases a <;> exact hlen
    match values, hlen with
    | [_, _, _, _, _, _], _ => cases a <;> rfl
  | undefined => cases a <;> exact absurd ht (by decide)

/-- The fields of each kind share no bit with each other and with the tag. -/
theorem capFields_separate (ht : t ∈ capTags a) :
    Separate (signExt a) CSpace.Field.capType (capFields a t) := by
  have hall : ∀ a, ∀ t ∈ capTags a, Separate (signExt a) CSpace.Field.capType (capFields a t) := by
    intro a
    cases a <;> decide +kernel
  exact hall a t ht

theorem newCap_lossless (ht : t ∈ capTags a) :
    Lossless (signExt a) CSpace.Field.capType t.toWord (capFields a t) (newCap a t) := by
  refine (capFields_separate ht).lossless fun values hlen => ?_
  rw [newCap_eq_build ht hlen]
  refine ⟨fun i f v hf hv => stored_build (i := i) ?_ ?_, get_build (i := values.length) ?_ ?_ ?_⟩
  · rw [capFields_append, List.getElem?_append_left (List.getElem?_eq_some_iff.mp hf).1, hf]
  · rw [List.getElem?_append_left (List.getElem?_eq_some_iff.mp hv).1, hv]
  · rw [capFields_append, hlen, List.getElem?_concat_length]
  · rw [List.getElem?_concat_length]
  · cases a <;> cases t <;> decide

end Caps

/-! ## The other structures

They have one variant and no type tag: `get_type` reads no bit. -/

/-- The type field of a structure with one variant. -/
def noType (n : Nat) : Lib.Bitfield.Field (n + 1) := ⟨0, 0, 0, 0, false⟩

/-- The fields of `thread_state_t`, in the order of `state_new`. -/
def Layout.threadState : Layout 3 where
  fields := [Field.tsBlockingIpcBadge, Field.tsBlockingIpcCanGrant,
    Field.tsBlockingIpcCanGrantReply, Field.tsBlockingIpcIsCall, Field.tsTcbQueued,
    Field.tsBlockingObject a, Field.tsType]
  fits := by cases a <;> decide
  disjoint := by cases a <;> decide

/-- The fields of `endpoint_t`, in the order of `new`. -/
def Layout.endpointT : Layout 2 where
  fields := [Field.epQueueHead, Field.epQueueTail a, Field.epState]
  fits := by cases a <;> decide
  disjoint := by cases a <;> decide

/-- The fields of `notification_t`, in the order of `new`. -/
def Layout.notificationT : Layout 4 where
  fields := [Field.ntfnBoundTcb a, Field.ntfnMsgIdentifier, Field.ntfnQueueHead a,
    Field.ntfnQueueTail a, Field.ntfnState]
  fits := by cases a <;> decide
  disjoint := by cases a <;> decide

section Untagged

variable {l : Layout (n + 1)}

theorem get_noType (w : Words (n + 1)) : (noType n).get x w = 0 := by
  have hstored : (noType n).stored w = 0 := by
    rw [Field.stored]
    exact BitVec.and_zero
  rw [Field.get, hstored]
  rfl

/-- A structure with one variant is built by its layout alone. -/
theorem lossless_untagged (h : Separate x (noType n) l.fields) :
    Lossless x (noType n) 0 l.fields l.build :=
  h.lossless fun _ _ => ⟨fun i _ _ hf hv => stored_build (i := i) hf hv, get_noType _⟩

end Untagged

/-! ## All structures -/

/-- What the constructors of the structures are given is read back, a write to a field changes what
is read from it and nothing else, and `revoke` reads the next slot as `get_next` does. -/
theorem bitfields_lossless :
    (∀ t ∈ capTags a,
      Lossless (signExt a) CSpace.Field.capType t.toWord (capFields a t) (newCap a t)) ∧
    Lossless (signExt a) (noType 1) 0 (Layout.mdbNode a).fields (Layout.mdbNode a).build ∧
    Lossless (signExt a) (noType 2) 0 (Layout.threadState a).fields (Layout.threadState a).build ∧
    Lossless (signExt a) (noType 1) 0 (Layout.endpointT a).fields (Layout.endpointT a).build ∧
    Lossless (signExt a) (noType 3) 0 (Layout.notificationT a).fields
      (Layout.notificationT a).build ∧
    ∀ (σ : Slots) (slot next : Word), next = 0 ∨ pptrBase a ≤ next ∧ next.toNat % 4 = 0 →
      (σ.setNext a slot next).next a slot = next ∧
        getVolatileValue a (σ.setNext a slot next) slot = next := by
  refine ⟨fun t ht => newCap_lossless ht, ?_, ?_, ?_, ?_, ?_⟩
  · exact lossless_untagged (by cases a <;> decide +kernel)
  · exact lossless_untagged (by cases a <;> decide +kernel)
  · exact lossless_untagged (by cases a <;> decide +kernel)
  · exact lossless_untagged (by cases a <;> decide +kernel)
  · intro σ slot next hnext
    have hstore : Storable a next := by
      rcases hnext with rfl | ⟨hwindow, hlow⟩
      · exact storable_zero
      · exact canonical_of_window (by cases a <;> rfl) (by cases a <;> rfl) hwindow
          (by cases a <;> exact hlow)
    have heq : (σ.setNext a slot next).next a slot = next := by
      rw [Slots.next_setNext hstore, if_pos rfl]
    refine ⟨heq, ?_⟩
    rw [getVolatileValue_eq (by rw [heq]; exact hnext.imp_right And.left), heq]

end Rel4.Kernel
