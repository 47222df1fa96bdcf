import Rel4.Common.Config

/-!
Capabilities (`sel4_cspace/src/cap`, `sel4_cspace/src/arch`).

A capability is two machine words. Every kind of capability packs its fields
into them by its own layout, which differs between the architectures; the tag
in the top five bits of word 0 tells the kinds apart. The accessors of the
source never look at the tag, and neither do the ones here.
-/

namespace Rel4.CSpace
open Lib.Bitfield Common

abbrev CapT := Words 2

inductive CapTag where
  | nullCap
  | untypedCap
  | endpointCap
  | notificationCap
  | replyCap
  | cnodeCap
  | threadCap
  | irqControlCap
  | irqHandlerCap
  | zombieCap
  | domainCap
  | frameCap
  | pageTableCap
  | vspaceCap
  | asidControlCap
  | asidPoolCap
  /-- A bit pattern that no constructor of the source produces. -/
  | undefined
  deriving DecidableEq, Repr

namespace CapTag

def toWord : CapTag → Word
  | .nullCap => 0
  | .untypedCap => 2
  | .endpointCap => 4
  | .notificationCap => 6
  | .replyCap => 8
  | .cnodeCap => 10
  | .threadCap => 12
  | .irqControlCap => 14
  | .irqHandlerCap => 16
  | .zombieCap => 18
  | .domainCap => 20
  | .frameCap => 1
  | .pageTableCap => 3
  | .vspaceCap => 9
  | .asidControlCap => 11
  | .asidPoolCap => 13
  | .undefined => 31

def ofWord (w : Word) : CapTag :=
  match w.toNat with
  | 0 => .nullCap
  | 2 => .untypedCap
  | 4 => .endpointCap
  | 6 => .notificationCap
  | 8 => .replyCap
  | 10 => .cnodeCap
  | 12 => .threadCap
  | 14 => .irqControlCap
  | 16 => .irqHandlerCap
  | 18 => .zombieCap
  | 20 => .domainCap
  | 1 => .frameCap
  | 3 => .pageTableCap
  | 9 => .vspaceCap
  | 11 => .asidControlCap
  | 13 => .asidPoolCap
  | _ => .undefined

/-- Architecture capabilities have odd tags. -/
def isArch : CapTag → Bool
  | .frameCap | .pageTableCap | .vspaceCap | .asidControlCap | .asidPoolCap => true
  | .undefined => true
  | _ => false

end CapTag

/-! ## Fields

Each line is a row of the source's `plus_define_bitfield!` table: word, offset,
width, shift, sign extension. -/

namespace Field

def capType : Field 2 := ⟨0, 59, 5, 0, false⟩

def untypedFreeIndex : Arch → Field 2
  | .riscv64 => ⟨1, 25, 39, 0, false⟩
  | .aarch64 => ⟨1, 16, 48, 0, false⟩
def untypedIsDevice : Field 2 := ⟨1, 6, 1, 0, false⟩
def untypedBlockSize : Field 2 := ⟨1, 0, 6, 0, false⟩
def untypedPtr : Arch → Field 2
  | .riscv64 => ⟨0, 0, 39, 0, true⟩
  | .aarch64 => ⟨0, 0, 48, 0, true⟩

def epBadge : Field 2 := ⟨1, 0, 64, 0, false⟩
def epCanGrantReply : Field 2 := ⟨0, 58, 1, 0, false⟩
def epCanGrant : Field 2 := ⟨0, 57, 1, 0, false⟩
def epCanSend : Field 2 := ⟨0, 55, 1, 0, false⟩
def epCanReceive : Field 2 := ⟨0, 56, 1, 0, false⟩
def epPtr : Arch → Field 2
  | .riscv64 => ⟨0, 0, 39, 0, true⟩
  | .aarch64 => ⟨0, 0, 48, 0, true⟩

def nfBadge : Field 2 := ⟨1, 0, 64, 0, false⟩
def nfCanReceive : Field 2 := ⟨0, 58, 1, 0, false⟩
def nfCanSend : Field 2 := ⟨0, 57, 1, 0, false⟩
def nfPtr : Arch → Field 2
  | .riscv64 => ⟨0, 0, 39, 0, true⟩
  | .aarch64 => ⟨0, 0, 48, 0, true⟩

def replyCanGrant : Field 2 := ⟨0, 1, 1, 0, false⟩
def replyMaster : Field 2 := ⟨0, 0, 1, 0, false⟩
def replyTcbPtr : Field 2 := ⟨1, 0, 64, 0, false⟩

def cnodeRadix : Field 2 := ⟨0, 47, 6, 0, false⟩
def cnodeGuardSize : Field 2 := ⟨0, 53, 6, 0, false⟩
def cnodeGuard : Field 2 := ⟨1, 0, 64, 0, false⟩
def cnodePtr : Arch → Field 2
  | .riscv64 => ⟨0, 0, 38, 1, true⟩
  | .aarch64 => ⟨0, 0, 47, 1, true⟩

def tcbPtr : Arch → Field 2
  | .riscv64 => ⟨0, 0, 39, 0, true⟩
  | .aarch64 => ⟨0, 0, 48, 0, true⟩

def irqHandler : Field 2 := ⟨1, 0, 12, 0, false⟩

def zombieId : Field 2 := ⟨1, 0, 64, 0, false⟩
def zombieType : Field 2 := ⟨0, 0, 7, 0, false⟩

def frameMappedAsid : Field 2 := ⟨1, 48, 16, 0, false⟩
def frameBasePtr : Arch → Field 2
  | .riscv64 => ⟨1, 9, 39, 0, true⟩
  | .aarch64 => ⟨1, 0, 48, 0, true⟩
def frameSize : Field 2 := ⟨0, 57, 2, 0, false⟩
def frameVmRights : Arch → Field 2
  | .riscv64 => ⟨0, 55, 2, 0, false⟩
  | .aarch64 => ⟨0, 7, 2, 0, false⟩
def frameIsDevice : Arch → Field 2
  | .riscv64 => ⟨0, 54, 1, 0, false⟩
  | .aarch64 => ⟨0, 6, 1, 0, false⟩
def frameMappedAddress : Arch → Field 2
  | .riscv64 => ⟨0, 0, 39, 0, true⟩
  | .aarch64 => ⟨0, 9, 48, 0, true⟩

def ptMappedAsid : Field 2 := ⟨1, 48, 16, 0, false⟩
def ptBasePtr : Arch → Field 2
  | .riscv64 => ⟨1, 9, 39, 0, true⟩
  | .aarch64 => ⟨1, 0, 48, 0, true⟩
def ptIsMapped : Arch → Field 2
  | .riscv64 => ⟨0, 39, 1, 0, false⟩
  | .aarch64 => ⟨0, 48, 1, 0, false⟩
def ptMappedAddress : Arch → Field 2
  | .riscv64 => ⟨0, 0, 39, 0, true⟩
  | .aarch64 => ⟨0, 20, 28, 20, true⟩

def vsMappedAsid : Field 2 := ⟨1, 48, 16, 0, false⟩
def vsBasePtr : Field 2 := ⟨1, 0, 48, 0, true⟩
def vsIsMapped : Field 2 := ⟨0, 58, 1, 0, false⟩

def asidBase : Field 2 := ⟨0, 43, 16, 0, false⟩
def asidPool : Arch → Field 2
  | .riscv64 => ⟨0, 0, 37, 2, true⟩
  | .aarch64 => ⟨0, 0, 37, 11, true⟩

end Field

/-! ## Constructors -/

namespace Layout

def untyped (a : Arch) : Layout 2 where
  fields := [Field.untypedFreeIndex a, Field.untypedIsDevice, Field.untypedBlockSize,
    Field.untypedPtr a, Field.capType]
  fits := by cases a <;> decide
  disjoint := by cases a <;> decide

def endpoint (a : Arch) : Layout 2 where
  fields := [Field.epBadge, Field.epCanGrantReply, Field.epCanGrant, Field.epCanSend,
    Field.epCanReceive, Field.epPtr a, Field.capType]
  fits := by cases a <;> decide
  disjoint := by cases a <;> decide

def notification (a : Arch) : Layout 2 where
  fields := [Field.nfBadge, Field.nfCanReceive, Field.nfCanSend, Field.nfPtr a, Field.capType]
  fits := by cases a <;> decide
  disjoint := by cases a <;> decide

def reply : Layout 2 where
  fields := [Field.replyCanGrant, Field.replyMaster, Field.replyTcbPtr, Field.capType]
  fits := by decide
  disjoint := by decide

def cnode (a : Arch) : Layout 2 where
  fields := [Field.cnodeRadix, Field.cnodeGuardSize, Field.cnodeGuard, Field.cnodePtr a,
    Field.capType]
  fits := by cases a <;> decide
  disjoint := by cases a <;> decide

def thread (a : Arch) : Layout 2 where
  fields := [Field.tcbPtr a, Field.capType]
  fits := by cases a <;> decide
  disjoint := by cases a <;> decide

def irqHandler : Layout 2 where
  fields := [Field.irqHandler, Field.capType]
  fits := by decide
  disjoint := by decide

def zombie : Layout 2 where
  fields := [Field.zombieId, Field.zombieType, Field.capType]
  fits := by decide
  disjoint := by decide

/-- The two architectures list the fields of a frame in different orders. -/
def frame (a : Arch) : Layout 2 where
  fields := match a with
    | .riscv64 => [Field.frameMappedAsid, Field.frameBasePtr a, Field.frameSize,
        Field.frameVmRights a, Field.frameIsDevice a, Field.frameMappedAddress a, Field.capType]
    | .aarch64 => [Field.frameIsDevice a, Field.frameVmRights a, Field.frameMappedAddress a,
        Field.frameSize, Field.frameMappedAsid, Field.frameBasePtr a, Field.capType]
  fits := by cases a <;> decide
  disjoint := by cases a <;> decide

def pageTable (a : Arch) : Layout 2 where
  fields := [Field.ptMappedAsid, Field.ptBasePtr a, Field.ptIsMapped a, Field.ptMappedAddress a,
    Field.capType]
  fits := by cases a <;> decide
  disjoint := by cases a <;> decide

def vspace : Layout 2 where
  fields := [Field.vsMappedAsid, Field.vsBasePtr, Field.vsIsMapped, Field.capType]
  fits := by decide
  disjoint := by decide

def asidPool (a : Arch) : Layout 2 where
  fields := [Field.asidBase, Field.asidPool a, Field.capType]
  fits := by cases a <;> decide
  disjoint := by cases a <;> decide

/-- The kinds without fields of their own. -/
def tagOnly : Layout 2 where
  fields := [Field.capType]
  fits := by decide
  disjoint := by decide

end Layout

def newNullCap : CapT := Layout.tagOnly.build [CapTag.nullCap.toWord]

def newUntypedCap (a : Arch) (freeIndex isDevice blockSize ptr : Word) : CapT :=
  (Layout.untyped a).build [freeIndex, isDevice, blockSize, ptr, CapTag.untypedCap.toWord]

def newEndpointCap (a : Arch) (badge canGrantReply canGrant canSend canReceive ptr : Word) :
    CapT :=
  (Layout.endpoint a).build
    [badge, canGrantReply, canGrant, canSend, canReceive, ptr, CapTag.endpointCap.toWord]

def newNotificationCap (a : Arch) (badge canReceive canSend ptr : Word) : CapT :=
  (Layout.notification a).build
    [badge, canReceive, canSend, ptr, CapTag.notificationCap.toWord]

def newReplyCap (canGrant master tcbPtr : Word) : CapT :=
  Layout.reply.build [canGrant, master, tcbPtr, CapTag.replyCap.toWord]

def newCNodeCap (a : Arch) (radix guardSize guard ptr : Word) : CapT :=
  (Layout.cnode a).build [radix, guardSize, guard, ptr, CapTag.cnodeCap.toWord]

def newThreadCap (a : Arch) (ptr : Word) : CapT :=
  (Layout.thread a).build [ptr, CapTag.threadCap.toWord]

def newIrqControlCap : CapT := Layout.tagOnly.build [CapTag.irqControlCap.toWord]

def newIrqHandlerCap (irq : Word) : CapT :=
  Layout.irqHandler.build [irq, CapTag.irqHandlerCap.toWord]

def newZombieCap (id type : Word) : CapT :=
  Layout.zombie.build [id, type, CapTag.zombieCap.toWord]

def newDomainCap : CapT := Layout.tagOnly.build [CapTag.domainCap.toWord]

/-- `new_frame_cap`, with the arguments named as in the riscv64 table. -/
def newFrameCap (a : Arch) (asid basePtr size rights isDevice address : Word) : CapT :=
  match a with
  | .riscv64 => (Layout.frame a).build
      [asid, basePtr, size, rights, isDevice, address, CapTag.frameCap.toWord]
  | .aarch64 => (Layout.frame a).build
      [isDevice, rights, address, size, asid, basePtr, CapTag.frameCap.toWord]

def newPageTableCap (a : Arch) (asid basePtr isMapped address : Word) : CapT :=
  (Layout.pageTable a).build [asid, basePtr, isMapped, address, CapTag.pageTableCap.toWord]

def newVspaceCap (asid basePtr isMapped : Word) : CapT :=
  Layout.vspace.build [asid, basePtr, isMapped, CapTag.vspaceCap.toWord]

def newAsidControlCap : CapT := Layout.tagOnly.build [CapTag.asidControlCap.toWord]

def newAsidPoolCap (a : Arch) (base pool : Word) : CapT :=
  (Layout.asidPool a).build [base, pool, CapTag.asidPoolCap.toWord]

end Rel4.CSpace
