import Rel4.Lib.Bitfield

/-!
Constants, architectures and object types of the kernel (`sel4_common`).

The source is compiled for one architecture at a time; here the architecture
is an argument, so that one theorem covers both builds.
-/

namespace Rel4.Common
open Lib.Bitfield

variable {α : Type} {p : Prop}

inductive Arch where
  | riscv64
  | aarch64
  deriving DecidableEq, Repr

/-- Why the kernel stops instead of returning. The last two are the model's own:
`outOfFuel` marks a bounded recursion that was not given enough steps, and
`neighbourSwap` a run that was asked to stop where it exchanges two neighbours. -/
inductive Abort where
  | assertFailed
  | panicked
  | unwrapNone
  | outOfRange
  | outOfFuel
  | neighbourSwap
  | wildPointer
  deriving DecidableEq, Repr

abbrev Exec := Except Abort

/-- `assert!` -/
def ensure (p : Prop) [Decidable p] : Exec Unit :=
  if p then .ok () else .error .assertFailed

/-- The assertion of `convert_to_type_ref` and `convert_to_mut_type_ref` and the `unwrap` of
`ptr_to_mut`: an address that is made a reference is not null. -/
def convertToTypeRef (addr : BitVec 64) : Exec Unit := ensure (addr ≠ 0)

/-! A computation that returns went through both of its halves. -/

theorem bind_eq_ok {x : Exec α} {f : α → Exec β} {r : β} :
    (x >>= f) = .ok r ↔ ∃ v, x = .ok v ∧ f v = .ok r := by
  cases x with
  | error e =>
    constructor
    · intro h
      cases h
    · rintro ⟨v, h, -⟩
      cases h
  | ok v =>
    constructor
    · intro h
      exact ⟨v, rfl, h⟩
    · rintro ⟨w, hw, h⟩
      cases hw
      exact h

theorem bind_eq_error {x : Exec α} {f : α → Exec β} {e : Abort} :
    (x >>= f) = .error e ↔ x = .error e ∨ ∃ v, x = .ok v ∧ f v = .error e := by
  cases x with
  | error e' =>
    constructor
    · intro h
      cases h
      exact .inl rfl
    · rintro (h | ⟨v, h, -⟩)
      · cases h
        rfl
      · cases h
  | ok v =>
    constructor
    · intro h
      exact .inr ⟨v, rfl, h⟩
    · rintro (h | ⟨w, hw, h⟩)
      · cases h
      · cases hw
        exact h

theorem pure_eq_ok : (pure x : Exec α) = .ok r ↔ x = r := by
  constructor
  · intro h
    cases h
    rfl
  · rintro rfl
    rfl

theorem ensure_eq_ok [Decidable p] : ensure p = .ok u ↔ p := by
  by_cases h : p
  · simp [ensure, h]
  · simp [ensure, h]

theorem exists_ok_iff {x : Exec α} {r : α} (h : x = .ok r) {P : α → Prop} :
    (∃ v, x = .ok v ∧ P v) ↔ P r := by
  subst h
  constructor
  · rintro ⟨v, hv, hp⟩
    cases hv
    exact hp
  · intro hp
    exact ⟨r, rfl, hp⟩

theorem ensure_of [Decidable p] (h : p) : ensure p = .ok () := if_pos h

theorem convertToTypeRef_of {addr : BitVec 64} (h : addr ≠ 0) : convertToTypeRef addr = .ok () :=
  ensure_of h

theorem checked_eq_ok {addr : BitVec 64} {v w : α} :
    (convertToTypeRef addr >>= fun _ => (pure v : Exec α)) = .ok w ↔ w = v ∧ addr ≠ 0 := by
  constructor
  · intro h
    obtain ⟨_, hne, h⟩ := bind_eq_ok.mp h
    exact ⟨(pure_eq_ok.mp h).symm, ensure_eq_ok.mp hne⟩
  · rintro ⟨rfl, hne⟩
    exact bind_eq_ok.mpr ⟨(), ensure_of hne, rfl⟩

/-- The computation ends with a value that passes the test. -/
def Exec.satisfies {α : Type} (x : Exec α) (p : α → Bool) : Bool :=
  match x with
  | .ok v => p v
  | .error _ => false

theorem Exec.satisfies_iff {x : Exec α} {p : α → Bool} :
    x.satisfies p = true ↔ ∃ v, x = .ok v ∧ p v = true := by
  cases x with
  | ok v => simp [Exec.satisfies]
  | error e => simp [Exec.satisfies]

inductive ExceptionT where
  | none
  | fault
  | lookupFault
  | syscallError
  | preempted
  deriving DecidableEq, Repr

/-! ## Word macros

Release builds wrap on overflow and mask shift amounts to six bits. -/

/-- `1usize << n` -/
def bit (n : Word) : Word := (1 : Word) <<< (n &&& 63).toNat

/-- `MASK!(n)` -/
def mask (n : Word) : Word := bit n - 1

/-- `ROUND_DOWN!(n, b)` -/
def roundDown (n : Word) (b : Nat) : Word := (n >>> b) <<< b

/-- `b as usize` -/
def flag (b : Bool) : Word := if b then 1 else 0

theorem flag_zero_or_one (b : Bool) : flag b = 0 ∨ flag b = 1 := by
  cases b
  · exact .inl rfl
  · exact .inr rfl

theorem toNat_flag_lt (b : Bool) : (flag b).toNat < 2 := by
  cases b <;> decide

/-! ## Sizes (`sel4_config.rs`) -/

def wordRadix : Nat := 6
def wordBits : Word := 64
def endpointBits : Word := 4
def notificationBits : Word := 4
def slotBits : Word := 5
def replyBits : Word := 4
def minUntypedBits : Word := 4
def maxUntypedBits : Word := 38
def ptSizeBits : Word := 12
def pageBits : Word := 12
def largePageBits : Word := 21
def hugePageBits : Word := 30
def vspaceBits : Word := 12

/-- `pageBitsForSize` -/
def pageBitsForSize (size : Word) : Exec Word :=
  match size.toNat with
  | 0 => .ok pageBits
  | 1 => .ok largePageBits
  | 2 => .ok hugePageBits
  | _ => .error .panicked

def tcbBits : Arch → Word
  | .riscv64 => 10
  | .aarch64 => 11

/-- `TCB_OFFSET`: the TCB structure fills the upper half of its object, the
slots of the TCB the lower half. -/
def tcbOffset (a : Arch) : Word := bit (tcbBits a - 1)

/-- `n` bytes at `p` and `m` bytes at `q` have none in common. -/
def Apart (p : Word) (n : Nat) (q : Word) (m : Nat) : Prop :=
  p.toNat + n ≤ q.toNat ∨ q.toNat + m ≤ p.toNat

instance (p q : Word) (n m : Nat) : Decidable (Apart p n q m) :=
  inferInstanceAs (Decidable (_ ∨ _))

def tcbCTable : Word := 0
def tcbVTable : Word := 1
def tcbReply : Word := 2
def tcbCaller : Word := 3
def tcbBuffer : Word := 4
def tcbCNodeEntries : Word := 5

/-- `MAX_FREE_INDEX` -/
def maxFreeIndex (bits : Word) : Word := bit (bits - minUntypedBits)

/-- The start of the kernel window. -/
def pptrBase : Arch → Word
  | .riscv64 => 0xFFFFFFC000000000
  | .aarch64 => 0xffffff8000000000

def pptrTop : Arch → Word
  | .riscv64 => 0xFFFFFFFF80000000
  | .aarch64 => 0xffffffffc0000000

/-- Sign extension of bitfield reads (`plus_define_bitfield!`). -/
def signExt : Arch → SignExt
  | .riscv64 => ⟨38, 0xffffff8000000000⟩
  | .aarch64 => ⟨47, 0xffff800000000000⟩

/-! ## Object types (`arch/*/object.rs`, `object.rs`) -/

/-- The object types of both architectures. `gigaPage`, `normalPage`,
`megaPage` and `pageTable` exist on riscv64; the `arm` types on aarch64. -/
inductive ObjectType where
  | untyped
  | tcb
  | endpoint
  | notification
  | capTable
  | gigaPage
  | normalPage
  | megaPage
  | pageTable
  | armHugePage
  | armVSpace
  | armSmallPage
  | armLargePage
  | armPageTable
  deriving DecidableEq, Repr

namespace ObjectType

/-- `ObjectType::from_usize` -/
def fromUsize (a : Arch) (value : Word) : Option ObjectType :=
  match a, value.toNat with
  | _, 0 => some .untyped
  | _, 1 => some .tcb
  | _, 2 => some .endpoint
  | _, 3 => some .notification
  | _, 4 => some .capTable
  | .riscv64, 5 => some .gigaPage
  | .riscv64, 6 => some .normalPage
  | .riscv64, 7 => some .megaPage
  | .riscv64, 8 => some .pageTable
  | .aarch64, 5 => some .armHugePage
  | .aarch64, 6 => some .armVSpace
  | .aarch64, 7 => some .armSmallPage
  | .aarch64, 8 => some .armLargePage
  | .aarch64, 9 => some .armPageTable
  | _, _ => none

/-- The architecture's `ObjectType` has this type. -/
def admitted (a : Arch) : ObjectType → Bool
  | .untyped | .tcb | .endpoint | .notification | .capTable => true
  | .gigaPage | .normalPage | .megaPage | .pageTable => a = .riscv64
  | .armHugePage | .armVSpace | .armSmallPage | .armLargePage | .armPageTable => a = .aarch64

/-- `get_object_size`, with `arch_get_object_size` for the later types. -/
def getObjectSize (a : Arch) (t : ObjectType) (userObjectSize : Word) : Word :=
  match t with
  | .untyped => userObjectSize
  | .tcb => tcbBits a
  | .endpoint => endpointBits
  | .notification => notificationBits
  | .capTable => slotBits + userObjectSize
  | .gigaPage | .armHugePage => hugePageBits
  | .normalPage | .pageTable | .armSmallPage | .armPageTable => pageBits
  | .megaPage | .armLargePage => largePageBits
  | .armVSpace => vspaceBits

/-- `is_arch_type`; riscv64 does not count page tables. -/
def isArchType : ObjectType → Bool
  | .gigaPage | .normalPage | .megaPage => true
  | .armHugePage | .armSmallPage | .armLargePage | .armPageTable | .armVSpace => true
  | _ => false

/-- The types whose objects are frames. -/
def isFrame : ObjectType → Bool
  | .gigaPage | .normalPage | .megaPage => true
  | .armHugePage | .armSmallPage | .armLargePage => true
  | _ => false

theorem fromUsize_admitted {t : ObjectType} (h : fromUsize a value = some t) :
    admitted a t = true := by
  unfold fromUsize at h
  split at h <;> cases h <;> rfl

end ObjectType

end Rel4.Common
