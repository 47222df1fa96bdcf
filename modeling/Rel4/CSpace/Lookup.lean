import Rel4.CSpace.Cte

/-!
Resolving a capability address in the CSpace (`resolve_address_bits` in
`sel4_cspace/src/cte.rs`).
-/

namespace Rel4.CSpace
open Lib.Bitfield Common

/-- The address of slot `i` of an array of slots at `base`. -/
def offsetSlot (base i : Word) : Word := base + 32 * i

/-- `resolveAddressBits_ret_t` -/
structure ResolveAddressBitsRet where
  status : ExceptionT
  slot : Word
  bitsRemaining : Word
  deriving DecidableEq, Repr

variable (a : Arch)

/-- The bits of `capPtr` that are compared with the guard of a node. The shift is
evaluated before it is known that so many bits are left. -/
def levelGuard (capPtr : Word) (nodeCap : CapT) (nBits : Word) : Word :=
  let guardBits := getCNodeGuardSize a nodeCap
  (capPtr >>> ((nBits - guardBits) &&& mask 6).toNat) &&& mask guardBits

/-- The index of the slot in a node. -/
def levelOffset (capPtr : Word) (nodeCap : CapT) (nBits : Word) : Word :=
  let radixBits := getCNodeRadix a nodeCap
  let levelBits := radixBits + getCNodeGuardSize a nodeCap
  (capPtr >>> ((nBits - levelBits) &&& 63).toNat) &&& mask radixBits

/-- The loop of `resolve_address_bits`; the fuel is the number of turns. -/
def resolveLevels (σ : Slots) (capPtr total : Word) :
    Nat → CapT → Word → Exec ResolveAddressBitsRet
  | 0, _, _ => .error .outOfFuel
  | fuel + 1, nodeCap, nBits => do
    let radixBits := getCNodeRadix a nodeCap
    let guardBits := getCNodeGuardSize a nodeCap
    let levelBits := radixBits + guardBits
    ensure (levelBits ≠ 0)
    if guardBits > nBits ∨ levelGuard a capPtr nodeCap nBits ≠ getCNodeGuard a nodeCap then
      return ⟨.lookupFault, 0, total⟩
    if levelBits > nBits then return ⟨.lookupFault, 0, total⟩
    let slot := offsetSlot (getCNodePtr a nodeCap) (levelOffset a capPtr nodeCap nBits)
    if nBits = levelBits then return ⟨.none, slot, 0⟩
    let nodeCap := (σ slot).cap
    if getCapType nodeCap ≠ .cnodeCap then return ⟨.none, slot, nBits - levelBits⟩
    resolveLevels σ capPtr total fuel nodeCap (nBits - levelBits)

/-- `resolve_address_bits`. Every level consumes at least one bit, so that there
are never more levels than bits. -/
def resolveAddressBits (σ : Slots) (nodeCap : CapT) (capPtr nBits : Word) :
    Exec ResolveAddressBitsRet :=
  if getCapType nodeCap ≠ .cnodeCap then .ok ⟨.lookupFault, 0, nBits⟩
  else resolveLevels a σ capPtr nBits (nBits.toNat + 1) nodeCap nBits

end Rel4.CSpace
