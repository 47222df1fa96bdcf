import Rel4.Ipc.Transfer
import Rel4.Kernel.MdbRun
import Rel4.Kernel.RetypeSteps

/-!
Runs of the calls that change the capability space.

A run starts at a boot state, whose caps are not linked and name objects apart
from each other, and continues with invocations of untyped caps and of CNodes
and with caps that travel in messages. `CapRun` is parameterised by a condition
on each call; `KernelCall.Safe` is the condition under which every call takes
steps of the capability space, and `KernelCall.Clean` adds that there are no
notifications, whose structure is larger than their memory: a store to one would
change the slot or the object behind it.
From the invariant of such runs follow how the memory of two caps can overlap
and what a revocation leaves.
-/

namespace Rel4.Kernel
open Lib.Bitfield Lib.DList Lib.Objects Common CSpace Rel4.Task

/-- A state after boot: every cap has been written into its slot by
`write_slot`, and has no relatives. -/
structure Boot (a : Arch) (static : Word → Prop) (s : KernelState) : Prop where
  finite : ∃ roots : List Word, roots.Nodup ∧ ∀ x, x ∈ roots ↔ s.ctes.capType x ≠ .nullCap
  unlinked : ∀ x, s.ctes.next a x = 0 ∧ s.ctes.prev a x = 0
  flags : ∀ x, s.ctes.capType x ≠ .nullCap → s.ctes.flags a x = (1, 1)
  ok : ∀ x, s.ctes.capType x ≠ .nullCap → CapOK a (s.ctes x).cap
  apart : ∀ x y, s.ctes.capType x ≠ .nullCap → s.ctes.capType y ≠ .nullCap → x ≠ y →
    ¬ (extent a (s.ctes x).cap).Overlaps (extent a (s.ctes y).cap)
  resident : ∀ x, s.ctes.capType x ≠ .nullCap → (capSpace s).Reached a static x
  static_addr : ∀ x, static x → SlotAddr a x
  static_free : ∀ x u, static x → s.ctes.capType u = .untypedCap →
    ¬ Covers (extent a (s.ctes u).cap) x
  roots : ∀ x, s.ctes.capType x ≠ .nullCap → (s.origin x).ancestors = [] ∧
    (s.origin x).object = (s.origin x).id ∧ (s.origin x).id < s.fresh
  inj : ∀ x y, s.ctes.capType x ≠ .nullCap → s.ctes.capType y ≠ .nullCap →
    (s.origin x).id = (s.origin y).id → x = y

/-- A state after boot without notifications. -/
structure CleanBoot (a : Arch) (static : Word → Prop) (s : KernelState) : Prop
    extends Boot a static s where
  noNotification : ∀ x, s.ctes.capType x ≠ .notificationCap

/-- A call: the invocation of an untyped cap or of a CNode cap in `slot`, a cap
that a message carries into `dest`, or anything that leaves all caps alone. -/
inductive KernelCall where
  | untyped (label : MessageLabel) (length slot buffer : Word)
  | cnode (fuel : Nat) (label : MessageLabel) (length slot buffer : Word)
  | transfer (slot dest : Word)
  | other

namespace KernelCall

variable (a : Arch)

/-- The call leads from `s` to `s'`. -/
def Runs (s s' : KernelState) : KernelCall → Prop
  | .untyped label length slot buffer =>
    s.ctes.capType slot = .untypedCap ∧ ∃ st,
      decodeUntypedInvocation a s label length slot (s.ctes slot).cap buffer = .ok (s', st)
  | .cnode fuel label length slot buffer =>
    derivesOrDeletes label ∧ ∃ st,
      decodeCNodeInvocation a false fuel s label length (s.ctes slot).cap buffer = .ok (s', st)
  | .transfer slot dest =>
    NodeSlot a s.ctes dest ∧ Ipc.transferCap a s slot dest = .ok (some s')
  | .other => capSpace s' = capSpace s

/-- The call makes no VSpace, its reset stays inside the block, and its deletion
exchanges no neighbours. -/
def Safe (s : KernelState) : KernelCall → Prop
  | .untyped _ _ slot buffer =>
    ObjectType.fromUsize a (getSyscallArg a s 0 buffer) ≠ some .armVSpace ∧
      (ensureNoChildren a s.ctes slot = .none → ResetFits a (s.ctes slot).cap)
  | .cnode fuel label length slot buffer =>
    decodeCNodeInvocation a true fuel s label length (s.ctes slot).cap buffer ≠
      .error .neighbourSwap
  | _ => True

/-- The call does not ask for notifications. -/
def MakesNoNotification (s : KernelState) : KernelCall → Prop
  | .untyped _ _ _ buffer =>
    ObjectType.fromUsize a (getSyscallArg a s 0 buffer) ≠ some .notification
  | _ => True

def Clean (s : KernelState) (call : KernelCall) : Prop :=
  call.Safe a s ∧ call.MakesNoNotification a s

end KernelCall

/-- `s` is reached from `s₀` by calls that meet `cond`. -/
inductive CapRun (a : Arch) (cond : KernelState → KernelCall → Prop) (s₀ : KernelState) :
    KernelState → Prop
  | refl : CapRun a cond s₀ s₀
  | step {s s' : KernelState} (call : KernelCall) :
    CapRun a cond s₀ s → cond s call → call.Runs a s s' → CapRun a cond s₀ s'

variable {a : Arch} {static : Word → Prop} {s s' s₀ : KernelState}
  {call : KernelCall} {u x : Word}

theorem CapRun.mono {cond cond' : KernelState → KernelCall → Prop} (h : CapRun a cond s₀ s)
    (hcond : ∀ s call, cond s call → cond' s call) : CapRun a cond' s₀ s := by
  induction h with
  | refl => exact .refl
  | step call _ hc hruns ih => exact .step call ih (hcond _ _ hc) hruns

/-! ## Boot -/

theorem flatten_map_singleton (roots : List Word) : (roots.map ([·])).flatten = roots := by
  induction roots with
  | nil => rfl
  | cons x roots ih => simp [ih]

theorem Boot.slotAddr (h : Boot a static s) (hx : s.ctes.capType x ≠ .nullCap) : SlotAddr a x := by
  rcases h.resident x hx with hs | ⟨y, hy, hs⟩
  · exact h.static_addr x hs
  · exact hs.slotAddr (h.ok y hy)

theorem Boot.mdbInv (h : Boot a static s) {roots : List Word} (hnd : roots.Nodup)
    (hroots : ∀ x, x ∈ roots ↔ s.ctes.capType x ≠ .nullCap) :
    MdbInv a s.ctes (roots.map ([·])) := by
  have hmem : ∀ x, x ∈ (roots.map ([·])).flatten ↔ s.ctes.capType x ≠ .nullCap := by
    intro x
    rw [flatten_map_singleton, hroots]
  refine ⟨⟨?_, ?_, ?_, ?_⟩, fun x hx => h.slotAddr ((hmem x).mp hx), hmem, fun x _ => h.unlinked x⟩
  · rw [flatten_map_singleton]
    exact hnd
  · intro h0
    exact (h.slotAddr ((hmem 0).mp h0)).1 rfl
  · intro l hl x hx
    obtain ⟨y, -, rfl⟩ := List.mem_map.mp hl
    obtain rfl := List.mem_singleton.mp hx
    exact (h.unlinked x).1.trans (by simp [succIn])
  · intro l hl x hx
    obtain ⟨y, -, rfl⟩ := List.mem_map.mp hl
    obtain rfl := List.mem_singleton.mp hx
    exact (h.unlinked x).2.trans (by simp [predIn])

theorem Boot.objInv (h : Boot a static s) : ObjInv ((capSpace s).refs a) := by
  have hanc : ∀ {x c}, (capSpace s).refs a x = some c →
      s.ctes.capType x ≠ .nullCap ∧ c = refOf a (s.ctes x).cap (s.origin x) ∧ c.anc = [] ∧
        c.object = c.id := by
    intro x c hx
    obtain ⟨hl, rfl⟩ := refs_eq_some.mp hx
    obtain ⟨h1, h2, -⟩ := h.roots x hl
    exact ⟨hl, rfl, h1, h2⟩
  have hsame : ∀ {x y c d}, (capSpace s).refs a x = some c → (capSpace s).refs a y = some d →
      c.id = d.id → x = y := by
    intro x y c d hx hy he
    obtain ⟨hxl, rfl, -⟩ := hanc hx
    obtain ⟨hyl, rfl, -⟩ := hanc hy
    exact h.inj x y hxl hyl he
  refine ⟨?_, ?_, ?_, ?_, ?_, ?_, ?_⟩
  · intro x c hx hc
    obtain ⟨hxl, rfl, -⟩ := hanc hx
    have hu := refOf_container.mp hc
    have hfree := (h.ok x hxl).free hu
    simp only [refOf, hu, if_true, extent_physical (physical_untyped hu)]
    omega
  · intro x y c d _ hy _ hm
    rw [(hanc hy).2.2.1] at hm
    cases hm
  · intro x y c d hx hy hne ho
    obtain ⟨hxl, rfl, -⟩ := hanc hx
    obtain ⟨hyl, rfl, -⟩ := hanc hy
    exact absurd ho (h.apart x y hxl hyl hne)
  · intro x c hx _
    exact .inl (hanc hx).2.2.2
  · intro x y c d hx hy hc hd
    obtain ⟨-, -, hda, -⟩ := hanc hy
    have he : c.id = d.id := by
      rw [Ref.DescendsFrom, hda, (hanc hx).2.2.2] at hd
      simpa using hd
    obtain rfl := hsame hx hy he
    obtain rfl := Option.some.inj (hx.symm.trans hy)
    exact ⟨hc, rfl⟩
  · intro x y c d hx hy _ _ he
    rw [(hanc hx).2.2.2, (hanc hy).2.2.2] at he
    obtain rfl := hsame hx hy he
    obtain rfl := Option.some.inj (hx.symm.trans hy)
    rfl
  · intro x y c d hx hy _ _ _ he
    rw [(hanc hx).2.2.2, (hanc hy).2.2.2] at he
    exact hsame hx hy he

theorem Boot.capInv (h : Boot a static s) : ∃ ls, CapInv a static (capSpace s) ls := by
  obtain ⟨roots, hnd, hroots⟩ := h.finite
  have hmdb := h.mdbInv hnd hroots
  have hlive : ∀ {x}, x ∈ (roots.map ([·])).flatten → s.ctes.capType x ≠ .nullCap :=
    fun hx => (hmdb.live _).mp hx
  have hanc : ∀ {x}, x ∈ (roots.map ([·])).flatten → (capSpace s).ancestors x = [] :=
    fun hx => (h.roots _ (hlive hx)).1
  refine ⟨roots.map ([·]), hmdb, ?_, ?_, fun x hx => h.ok x (hlive hx), h.objInv,
    fun x hx => h.resident x (hlive hx), h.static_addr, h.static_free, ?_⟩
  · refine ⟨fun x hx y hy he => h.inj x y (hlive hx) (hlive hy) he,
      fun x hx => (h.roots x (hlive hx)).2.2, ?_, ?_, ?_, ?_⟩
    · intro x hx i hi
      rw [hanc hx] at hi
      cases hi
    · intro x hx y hy hm
      rw [hanc hy] at hm
      cases hm
    · intro x hx y hy hm
      rw [hanc hy] at hm
      cases hm
    · intro i
      by_cases hi : ∃ d ∈ (roots.map ([·])).flatten, (capSpace s).id d = i
      · obtain ⟨d, hd, hid⟩ := hi
        refine Contiguous.of_unique (d := d) hmdb.rep.nodup fun x hx hP => ?_
        have hP : i = (capSpace s).id x := by simpa [hanc hx] using hP
        exact h.inj x d (hlive hx) (hlive hd) (hP.symm.trans hid.symm)
      · refine Contiguous.of_unique (d := 0) hmdb.rep.nodup fun x hx hP => ?_
        have hP : i = (capSpace s).id x := by simpa [hanc hx] using hP
        exact absurd ⟨x, hx, hP.symm⟩ hi
  · intro x hx
    have := (h.roots x (hlive hx)).2
    show (s.origin x).object < s.fresh
    omega
  · intro x hx _
    exact congrArg Prod.fst (h.flags x (hlive hx))

/-! ## Calls -/

theorem decodeCNodeInvocation_agrees :
    Agrees (decodeCNodeInvocation a true fuel s label length cap buffer)
      (decodeCNodeInvocation a false fuel s label length cap buffer) := by
  refine .ite (fun _ => .refl) fun _ => .ite (fun _ => .refl) fun _ => .bind .refl fun v => ?_
  obtain ⟨s₁, status, dest⟩ := v
  refine .ite (fun _ => .refl) fun _ => ?_
  cases label <;> try exact .refl
  case cnodeRevoke => exact revoke_agrees fuel _
  case cnodeDelete => exact (deletion_agrees fuel).2.1 _ _ _

theorem transferCap_stored (h : Ipc.transferCap a s slot dest = .ok (some s')) :
    Stored a (capSpace s) dest (capSpace s') := by
  obtain ⟨⟨st, c⟩, hd, h⟩ := bind_eq_ok.mp h
  simp only at h
  split at h
  · cases h
  next hc =>
    obtain ⟨s₁, hins, h⟩ := bind_eq_ok.mp h
    cases h
    rw [not_or] at hc
    obtain ⟨hσ, hcs⟩ := insertCap_effect hins
    rw [hcs]
    exact .derived slot c _ (deriveCap_derivedTo hd) hc.2 hσ

/-- A safe call takes steps of the capability space. -/
theorem KernelCall.Runs.steps (h : call.Runs a s s') (hsafe : call.Safe a s)
    (hinv : CapInv a static (capSpace s) ls) : CapSteps a static (capSpace s) (capSpace s') := by
  cases call with
  | untyped label length slot buffer =>
    obtain ⟨hu, st, h⟩ := h
    exact decodeUntypedInvocation_steps hinv hu hsafe.1 hsafe.2 h
  | cnode fuel label length slot buffer =>
    obtain ⟨hl, st, h⟩ := h
    rw [← decodeCNodeInvocation_agrees.resolve_left hsafe] at h
    exact decodeCNodeInvocation_steps hinv hl h
  | transfer slot dest => exact (transferCap_stored h.2).steps h.1.reached
  | other =>
    have h : capSpace s' = capSpace s := h
    rw [h]
    exact .refl

/-- In every state that safe calls reach, the invariant holds. -/
theorem CapRun.capInv (h : CapRun a (fun s call => call.Safe a s) s₀ s) (h₀ : Boot a static s₀) :
    ∃ ls, CapInv a static (capSpace s) ls := by
  induction h with
  | refl => exact h₀.capInv
  | step call _ hsafe hruns ih =>
    obtain ⟨ls, hinv⟩ := ih
    exact hinv.capSteps (hruns.steps hsafe hinv)

theorem CapRun.capInv_of_clean (h : CapRun a (fun s call => call.Clean a s) s₀ s)
    (h₀ : CleanBoot a static s₀) : ∃ ls, CapInv a static (capSpace s) ls :=
  (h.mono fun _ _ hc => hc.1).capInv h₀.toBoot

/-! ## A boot state

A CNode of 16 slots with a cap to itself and a cap to 16 KiB of memory, which
may be device memory. -/

def bootSlot (a : Arch) (i : Word) : Word := offsetSlot (pptrBase a + 0x1000) i

def bootCNodeCap (a : Arch) : CapT := newCNodeCap a 4 60 0 (pptrBase a + 0x1000)

def bootUntypedCap (a : Arch) (device : Bool) : CapT :=
  newUntypedCap a 0 (flag device) 14 (pptrBase a + 0x400000)

def bootState (a : Arch) (device : Bool) : KernelState :=
  { KernelState.zero with
    ctes := writeSlot (writeSlot (fun _ => emptyCte) (bootSlot a 0) (bootCNodeCap a))
      (bootSlot a 1) (bootUntypedCap a device)
    origin := Function.update (fun _ => ⟨0, [], 0⟩) (bootSlot a 1) ⟨1, [], 1⟩
    fresh := 2 }

/-- The message of a retype into the CNode of the boot state, at every thread. -/
def withRetypeArgs (a : Arch) (s : KernelState) (type size offset window : Word) : KernelState :=
  { s with
    tcbs := fun x =>
      { s.tcbs x with
        registers := fun r =>
          if r = (ArchReg.msg 0).toIndex a then type
          else if r = (ArchReg.msg 1).toIndex a then size
          else 0 }
    userMemory := fun x =>
      if x = bufferMsg 0 4 then offset else if x = bufferMsg 0 5 then window else 0
    currentExtraCaps := fun i => if i = 0 then bootSlot a 0 else 0 }

theorem bootState_live (hx : (bootState a device).ctes.capType x ≠ .nullCap) :
    x = bootSlot a 0 ∨ x = bootSlot a 1 := by
  by_contra hne
  rw [not_or] at hne
  apply hx
  simp only [bootState, writeSlot, Slots.capType_setMdb, Slots.capType_setCap, if_neg hne.1,
    if_neg hne.2]
  exact capType_newNullCap

theorem unlinked_empty (x : Word) :
    Slots.next a (fun _ => emptyCte) x = 0 ∧ Slots.prev a (fun _ => emptyCte) x = 0 :=
  ⟨getNext_default, getPrev_default⟩

/-- `write_slot` links nothing. -/
theorem unlinked_writeSlot (h : ∀ x, σ.next a x = 0 ∧ σ.prev a x = 0) (x : Word) :
    (writeSlot σ slot cap).next a x = 0 ∧ (writeSlot σ slot cap).prev a x = 0 := by
  have hnext : getNext a (Field.mdbFirstBadged.set (Field.mdbRevocable.set defaultMdbNode 1) 1) =
      0 := by cases a <;> decide
  have hprev : getPrev a (Field.mdbFirstBadged.set (Field.mdbRevocable.set defaultMdbNode 1) 1) =
      0 := by cases a <;> decide
  rw [writeSlot, Slots.next_setMdb, Slots.prev_setMdb, Slots.next_setCap, Slots.prev_setCap]
  split
  · exact ⟨hnext, hprev⟩
  · exact h x

theorem bootState_boot : Boot a (fun _ => False) (bootState a device) where
  finite := by
    refine ⟨[bootSlot a 0, bootSlot a 1], by cases a <;> decide, fun x => ⟨?_, fun hx => ?_⟩⟩
    · intro hx
      rcases List.mem_pair.mp hx with rfl | rfl <;> cases a <;> cases device <;> decide
    · rw [List.mem_pair]
      exact bootState_live hx
  unlinked x := by
    simp only [bootState]
    exact unlinked_writeSlot (unlinked_writeSlot unlinked_empty) x
  flags x hx := by
    rcases bootState_live hx with rfl | rfl <;> cases a <;> cases device <;> decide
  ok x hx := by
    rcases bootState_live hx with rfl | rfl <;> cases a <;> cases device <;> constructor <;> decide
  apart x y hx hy hne := by
    rcases bootState_live hx with rfl | rfl <;> rcases bootState_live hy with rfl | rfl
    · exact absurd rfl hne
    · rintro ⟨-, h1, h2⟩
      revert h1 h2
      cases a <;> cases device <;> decide
    · rintro ⟨-, h1, h2⟩
      revert h1 h2
      cases a <;> cases device <;> decide
    · exact absurd rfl hne
  resident x hx := by
    refine .inr ⟨bootSlot a 0, by cases a <;> cases device <;> decide, ?_⟩
    rcases bootState_live hx with rfl | rfl
    · exact ⟨0, by cases a <;> cases device <;> decide, by cases a <;> cases device <;> decide⟩
    · exact ⟨1, by cases a <;> cases device <;> decide, by cases a <;> cases device <;> decide⟩
  static_addr x h := h.elim
  static_free x u h := h.elim
  roots x hx := by
    rcases bootState_live hx with rfl | rfl <;> cases a <;> cases device <;> decide
  inj x y hx hy he := by
    rcases bootState_live hx with rfl | rfl <;> rcases bootState_live hy with rfl | rfl
    · rfl
    · revert he
      cases a <;> cases device <;> decide
    · revert he
      cases a <;> cases device <;> decide
    · rfl

theorem bootState_noNotification (x : Word) :
    (bootState a device).ctes.capType x ≠ .notificationCap := by
  intro hx
  have hlive : (bootState a device).ctes.capType x ≠ .nullCap := by rw [hx]; decide
  rcases bootState_live hlive with rfl | rfl
  · revert hx
    cases a <;> cases device <;> decide
  · revert hx
    cases a <;> cases device <;> decide

theorem bootState_clean : CleanBoot a (fun _ => False) (bootState a device) :=
  ⟨bootState_boot, bootState_noNotification⟩

/-! ## What the kernel reads off the mapping database -/

/-- A retype of the untyped cap of the boot state, after its message has been written. -/
theorem retype_bootState (a : Arch) (device : Bool) (type size offset window : Word)
    [DecidablePred P]
    (h : (decodeUntypedInvocation a (withRetypeArgs a (bootState a device) type size offset window)
      .untypedRetype 6 (bootSlot a 1) ((bootState a device).ctes (bootSlot a 1)).cap 0).satisfies
        (fun r => P r.1) = true)
    (hother : C (bootState a device) .other)
    (hretype : C (withRetypeArgs a (bootState a device) type size offset window)
      (.untyped .untypedRetype 6 (bootSlot a 1) 0)) :
    ∃ s, P s ∧ CapRun a C (bootState a device) s := by
  obtain ⟨⟨s, st⟩, hrun, hs⟩ := Exec.satisfies_iff.mp h
  have hu : (bootState a device).ctes.capType (bootSlot a 1) = .untypedCap := by
    cases a <;> cases device <;> decide
  let s₁ := withRetypeArgs a (bootState a device) type size offset window
  exact ⟨s, of_decide_eq_true hs, .step (.untyped .untypedRetype 6 (bootSlot a 1) 0)
    (.step .other .refl hother (rfl : capSpace s₁ = _)) hretype ⟨hu, st, hrun⟩⟩

/-- To ask for an endpoint is a clean call. -/
theorem retype_endpoint_clean : KernelCall.Clean .riscv64
    (withRetypeArgs .riscv64 (bootState .riscv64 false) 2 0 2 1)
    (.untyped .untypedRetype 6 (bootSlot .riscv64 1) 0) :=
  ⟨⟨by decide, fun _ => by decide⟩, (by decide :
    ObjectType.fromUsize .riscv64 (getSyscallArg .riscv64 _ 0 0) ≠ some .notification)⟩

/-- `x` descends from the untyped cap in `u` and lies in the used part of its block. -/
def TakenFrom (a : Arch) (s : KernelState) (u x : Word) : Prop :=
  s.ctes.capType u = .untypedCap ∧ (s.origin u).id ∈ (s.origin x).ancestors ∧
    (extent a (s.ctes x).cap).Within (refOf a (s.ctes u).cap (s.origin u)).usedExtent

/-- The caps are caps to one object, or one of them was taken from the other. -/
def SharesMemory (a : Arch) (s : KernelState) (x y : Word) : Prop :=
  (s.ctes.capType x ≠ .untypedCap ∧ s.ctes.capType y ≠ .untypedCap ∧
      objKey a (s.ctes x).cap = objKey a (s.ctes y).cap) ∨
    TakenFrom a s x y ∨ TakenFrom a s y x

theorem CapInv.sharesMemory (hinv : CapInv a static (capSpace s) ls)
    (hx : s.ctes.capType x ≠ .nullCap) (hy : s.ctes.capType y ≠ .nullCap) (hne : x ≠ y)
    (ho : (extent a (s.ctes x).cap).Overlaps (extent a (s.ctes y).cap)) : SharesMemory a s x y := by
  rcases hinv.obj.laminar x y _ _ (refs_of_live hx) (refs_of_live hy) hne ho with
    ⟨hxu, hyu, hobj⟩ | ⟨hu, hd⟩ | ⟨hu, hd⟩
  · have hxu := refOf_not_container.mp hxu
    have hyu := refOf_not_container.mp hyu
    exact .inl ⟨hxu, hyu, hinv.key_eq_of_object hx hy hxu hyu hobj⟩
  · have hu := refOf_container.mp hu
    exact .inr (.inl ⟨hu, hd, hinv.contained hu hy hd⟩)
  · have hu := refOf_container.mp hu
    exact .inr (.inr ⟨hu, hd, hinv.contained hu hx hd⟩)

/-- An endpoint taken from the boot untyped cap, which can be revoked. -/
theorem retype_endpoint : ∃ s,
    (s.ctes.capType (bootSlot .riscv64 2) = .endpointCap ∧
      s.ctes.capType (bootSlot .riscv64 1) = .untypedCap ∧
      (extent .riscv64 (s.ctes (bootSlot .riscv64 1)).cap).Overlaps
        (extent .riscv64 (s.ctes (bootSlot .riscv64 2)).cap) ∧
      (revoke .riscv64 true 5 s (bootSlot .riscv64 1)).satisfies (fun r => r.2 = .none ∧
        r.1.ctes.capType (bootSlot .riscv64 1) = .untypedCap) = true) ∧
    CapRun .riscv64 (fun s call => call.Clean .riscv64 s) (bootState .riscv64 false) s :=
  retype_bootState .riscv64 false 2 0 2 1 (by decide +kernel) ⟨trivial, trivial⟩
    retype_endpoint_clean

/-- A revocation succeeds where its test of the next slot stops it. -/
theorem revoke_stops (h : revoke a strict fuel s u = .ok (s', .none)) :
    getVolatileValue a s'.ctes u = 0 ∨
      isMdbParentOf a (s'.ctes u) (s'.ctes (getVolatileValue a s'.ctes u)) = false := by
  induction fuel generalizing s with
  | zero => cases h
  | succ fuel ih =>
    rw [revoke] at h
    split at h
    next hzero =>
      cases h
      exact .inl hzero
    split at h
    next hparent =>
      cases h
      exact .inr hparent
    obtain ⟨⟨s₁, st⟩, -, h⟩ := bind_eq_ok.mp h
    simp only at h
    split at h
    next hst => exact absurd (congrArg Prod.snd (Except.ok.inj h)) hst
    split at h
    next hst => exact absurd (congrArg Prod.snd (Except.ok.inj h)) hst
    exact ih h

/-- In the order of the database no child follows a slot that was revoked. -/
theorem CapInv.ensureNoChildren_of_revoke (hinv : CapInv a static (capSpace s') ls)
    (hstatic : ∀ x, static x → pptrBase a ≤ x) (h : revoke a strict fuel s u = .ok (s', .none)) :
    ensureNoChildren a s'.ctes u = .none := by
  have hnext : s'.ctes.next a u = 0 ∨ pptrBase a ≤ s'.ctes.next a u := by
    by_cases h0 : s'.ctes.next a u = 0
    · exact .inl h0
    · rcases hinv.resident _ (hinv.live.mpr (hinv.mdb.next_live h0).2) with hs | ⟨y, hy, hs⟩
      · exact .inr (hstatic _ hs)
      · exact .inr (hs.window (hinv.capOK hy))
  have hstop := revoke_stops h
  rw [getVolatileValue_eq hnext] at hstop
  refine if_neg fun hchild => ?_
  rcases hstop with hzero | hparent
  · exact hchild.1 hzero
  · cases hchild.2.symm.trans hparent

end Rel4.Kernel
