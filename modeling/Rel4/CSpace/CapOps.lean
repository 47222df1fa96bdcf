import Rel4.CSpace.Cap

/-!
Accessors and comparisons of capabilities (`sel4_cspace/src/cap/mod.rs`,
`cap/zombie.rs` and the architecture modules).
-/

namespace Rel4.CSpace
open Lib.Bitfield Common

variable (a : Arch)

/-! ## Accessors -/

/-- `get_cap_type` -/
def getCapType (c : CapT) : CapTag := CapTag.ofWord (Field.capType.stored c)

def getUntypedFreeIndex (c : CapT) : Word := (Field.untypedFreeIndex a).get (signExt a) c
def getUntypedIsDevice (c : CapT) : Word := Field.untypedIsDevice.get (signExt a) c
def getUntypedBlockSize (c : CapT) : Word := Field.untypedBlockSize.get (signExt a) c
def getUntypedPtr (c : CapT) : Word := (Field.untypedPtr a).get (signExt a) c
def getEpBadge (c : CapT) : Word := Field.epBadge.get (signExt a) c
def getEpCanGrantReply (c : CapT) : Word := Field.epCanGrantReply.get (signExt a) c
def getEpCanGrant (c : CapT) : Word := Field.epCanGrant.get (signExt a) c
def getEpCanSend (c : CapT) : Word := Field.epCanSend.get (signExt a) c
def getEpCanReceive (c : CapT) : Word := Field.epCanReceive.get (signExt a) c
def getEpPtr (c : CapT) : Word := (Field.epPtr a).get (signExt a) c
def getNfBadge (c : CapT) : Word := Field.nfBadge.get (signExt a) c
def getNfCanReceive (c : CapT) : Word := Field.nfCanReceive.get (signExt a) c
def getNfCanSend (c : CapT) : Word := Field.nfCanSend.get (signExt a) c
def getNfPtr (c : CapT) : Word := (Field.nfPtr a).get (signExt a) c
def getReplyCanGrant (c : CapT) : Word := Field.replyCanGrant.get (signExt a) c
def getReplyMaster (c : CapT) : Word := Field.replyMaster.get (signExt a) c
def getReplyTcbPtr (c : CapT) : Word := Field.replyTcbPtr.get (signExt a) c
def getCNodeRadix (c : CapT) : Word := Field.cnodeRadix.get (signExt a) c
def getCNodeGuardSize (c : CapT) : Word := Field.cnodeGuardSize.get (signExt a) c
def getCNodeGuard (c : CapT) : Word := Field.cnodeGuard.get (signExt a) c
def getCNodePtr (c : CapT) : Word := (Field.cnodePtr a).get (signExt a) c
def getTcbPtr (c : CapT) : Word := (Field.tcbPtr a).get (signExt a) c
def getIrqHandler (c : CapT) : Word := Field.irqHandler.get (signExt a) c
def getZombieId (c : CapT) : Word := Field.zombieId.get (signExt a) c
def getZombieType (c : CapT) : Word := Field.zombieType.get (signExt a) c
def getFrameBasePtr (c : CapT) : Word := (Field.frameBasePtr a).get (signExt a) c
def getFrameSize (c : CapT) : Word := Field.frameSize.get (signExt a) c
def getFrameIsDevice (c : CapT) : Word := (Field.frameIsDevice a).get (signExt a) c
def getPtBasePtr (c : CapT) : Word := (Field.ptBasePtr a).get (signExt a) c
def getPtIsMapped (c : CapT) : Word := (Field.ptIsMapped a).get (signExt a) c
def getVsBasePtr (c : CapT) : Word := Field.vsBasePtr.get (signExt a) c
def getVsIsMapped (c : CapT) : Word := Field.vsIsMapped.get (signExt a) c
def getAsidPool (c : CapT) : Word := (Field.asidPool a).get (signExt a) c

def setUntypedFreeIndex (c : CapT) (v : Word) : CapT := (Field.untypedFreeIndex a).set c v

/-- `isArchCap`: the tag is odd. -/
def isArchCap (c : CapT) : Bool := (getCapType c).isArch

/-! ## Zombies -/

/-- `ZombieType_ZombieTCB` -/
def zombieTcb : Word := 64

/-- `TCB_CNODE_RADIX` -/
def tcbCNodeRadix : Word := 4

/-- `ZombieType_ZombieCNode` -/
def zombieCNode (n : Word) : Word := n &&& mask 6

def getZombieBit (c : CapT) : Word :=
  let type := getZombieType a c
  if type = zombieTcb then tcbCNodeRadix else zombieCNode type

def getZombiePtr (c : CapT) : Word := getZombieId a c &&& ~~~mask (getZombieBit a c + 1)

def getZombieNumber (c : CapT) : Word := getZombieId a c &&& mask (getZombieBit a c + 1)

def setZombieNumber (c : CapT) (n : Word) : CapT :=
  let m := mask (getZombieBit a c + 1)
  Field.zombieId.set c ((getZombieId a c &&& ~~~m) ||| (n &&& m))

/-- `Zombie_new` -/
def zombieNew (number type ptr : Word) : CapT :=
  let m := if type = zombieTcb then mask (tcbCNodeRadix + 1) else mask (type + 1)
  newZombieCap ((ptr &&& ~~~m) ||| (number &&& m)) type

/-- `capCyclicZombie`: a zombie stored in the first slot of its own object. -/
def capCyclicZombie (c : CapT) (slot : Word) : Bool :=
  getCapType c = .zombieCap ∧ getZombiePtr a c = slot

/-! ## Regions and objects -/

/-- `get_cap_ptr` -/
def getCapPtr (c : CapT) : Word :=
  match getCapType c with
  | .untypedCap => getUntypedPtr a c
  | .endpointCap => getEpPtr a c
  | .notificationCap => getNfPtr a c
  | .cnodeCap => getCNodePtr a c
  | .threadCap => getTcbPtr a c
  | .zombieCap => getZombiePtr a c
  | .frameCap => getFrameBasePtr a c
  | .pageTableCap => getPtBasePtr a c
  | .vspaceCap => getVsBasePtr a c
  | .asidPoolCap => getAsidPool a c
  | _ => 0

/-- `get_cap_size_bits` -/
def getCapSizeBits (c : CapT) : Word :=
  match getCapType c with
  | .untypedCap => getUntypedBlockSize a c
  | .endpointCap => endpointBits
  | .notificationCap => notificationBits
  | .cnodeCap => getCNodeRadix a c + slotBits
  | .pageTableCap => ptSizeBits
  | .replyCap => replyBits
  | _ => 0

/-- `get_cap_is_physical`; the list has no entry for VSpace caps. -/
def getCapIsPhysical (c : CapT) : Bool :=
  match getCapType c with
  | .untypedCap | .endpointCap | .notificationCap | .cnodeCap | .frameCap | .asidPoolCap
  | .pageTableCap | .zombieCap | .threadCap => true
  | _ => false

/-- `same_region_as`; frames and VSpaces fall through to `false`. -/
def sameRegionAs (c1 c2 : CapT) : Bool :=
  match getCapType c1 with
  | .untypedCap =>
    if getCapIsPhysical c2 then
      let aBase := getUntypedPtr a c1
      let bBase := getCapPtr a c2
      let aTop := aBase + mask (getUntypedBlockSize a c1)
      let bTop := bBase + mask (getCapSizeBits a c2)
      aBase ≤ bBase ∧ bTop ≤ aTop ∧ bBase ≤ bTop
    else false
  | .endpointCap | .notificationCap | .pageTableCap | .asidPoolCap | .threadCap =>
    getCapType c2 = getCapType c1 ∧ getCapPtr a c1 = getCapPtr a c2
  | .asidControlCap | .domainCap => getCapType c2 = getCapType c1
  | .cnodeCap =>
    getCapType c2 = .cnodeCap ∧ getCNodePtr a c1 = getCNodePtr a c2 ∧
      getCNodeRadix a c1 = getCNodeRadix a c2
  | .irqControlCap => getCapType c2 = .irqControlCap ∨ getCapType c2 = .irqHandlerCap
  | .irqHandlerCap =>
    getCapType c2 = .irqHandlerCap ∧ getIrqHandler a c1 = getIrqHandler a c2
  | _ => false

/-- `arch_same_object_as`, with `arch_same_region_as` for the pairs that are not
two frames. On riscv64 the device bits are compared after a test against zero,
which for one-bit fields is the same comparison. -/
def archSameObjectAs (c1 c2 : CapT) : Bool :=
  match getCapType c1 with
  | .frameCap =>
    getCapType c2 = .frameCap ∧ getFrameBasePtr a c1 = getFrameBasePtr a c2 ∧
      getFrameSize a c1 = getFrameSize a c2 ∧ getFrameIsDevice a c1 = getFrameIsDevice a c2
  | .pageTableCap => getCapType c2 = .pageTableCap ∧ getPtBasePtr a c1 = getPtBasePtr a c2
  | .vspaceCap => getCapType c2 = .vspaceCap ∧ getVsBasePtr a c1 = getVsBasePtr a c2
  | .asidControlCap => getCapType c2 = .asidControlCap
  | .asidPoolCap => getCapType c2 = .asidPoolCap ∧ getAsidPool a c1 = getAsidPool a c2
  | _ => false

/-- `same_object_as` -/
def sameObjectAs (c1 c2 : CapT) : Bool :=
  if getCapType c1 = .untypedCap then false
  else if getCapType c1 = .irqControlCap ∧ getCapType c2 = .irqHandlerCap then false
  else if isArchCap c1 ∧ isArchCap c2 then archSameObjectAs a c1 c2
  else sameRegionAs a c1 c2

/-- `is_cap_revocable` -/
def isCapRevocable (derivedCap srcCap : CapT) : Exec Bool :=
  if isArchCap derivedCap then .ok false
  else match getCapType derivedCap with
  | .endpointCap => do
    ensure (getCapType srcCap = .endpointCap)
    return getEpBadge a derivedCap ≠ getEpBadge a srcCap
  | .notificationCap => do
    ensure (getCapType srcCap = .notificationCap)
    return getNfBadge a derivedCap ≠ getNfBadge a srcCap
  | .irqHandlerCap => .ok (getCapType srcCap = .irqControlCap)
  | .untypedCap => .ok true
  | _ => .ok false

/-- `update_data` -/
def updateData (c : CapT) (preserve : Bool) (newData : Word) : CapT :=
  if isArchCap c then c
  else match getCapType c with
  | .endpointCap =>
    if preserve = false ∧ getEpBadge a c = 0 then Field.epBadge.set c newData else newNullCap
  | .notificationCap =>
    if preserve = false ∧ getNfBadge a c = 0 then Field.nfBadge.set c newData else newNullCap
  | .cnodeCap =>
    let guardSize := newData &&& 0x3f
    if guardSize + getCNodeRadix a c > wordBits then newNullCap
    else
      let guard := ((newData &&& 0xffffffffffffffc0) >>> 6) &&& mask guardSize
      Field.cnodeGuardSize.set (Field.cnodeGuard.set c guard) guardSize
  | _ => c

/-- `cap_removable`; only null caps and zombies may come here. -/
def capRemovable (c : CapT) (slot : Word) : Exec Bool :=
  match getCapType c with
  | .nullCap => .ok true
  | .zombieCap =>
    let n := getZombieNumber a c
    .ok (n = 0 ∨ (n = 1 ∧ slot = getZombiePtr a c))
  | _ => .error .panicked

end Rel4.CSpace
