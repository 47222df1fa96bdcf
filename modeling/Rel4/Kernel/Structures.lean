import Rel4.Kernel.AsidTable
import Rel4.Kernel.Device

/-!
The structures that the kernel lays over the memory of objects.

A retype reserves `2 ^ get_object_size` bytes for an object, and the kernel
treats the memory at the pointer of a cap as a Rust structure. The memory of
different objects is apart, and so are the structures where they fit into it.
`notification_t` does not: it has four words, and 16 bytes are reserved for it.
-/

namespace Rel4.Kernel
open Lib.Bitfield Lib.Objects Common CSpace Rel4.Task VSpace
open Task.KernelState

variable {e : Extent Space} {a : Arch} {static : Word → Prop} {s s' s₀ : KernelState} {c : CapT}
  {x y : Word}

/-! ## Sizes -/

/-- The bytes of `n` words. -/
def wordBytes (n : Nat) : Nat := 8 * n

/-- `endpoint_t` -/
def endpointSize : Nat := wordBytes 2

/-- `notification_t` -/
def notificationSize : Nat := wordBytes 4

/-- `cte_t`: a cap and an MDB node. -/
def cteSize : Nat := wordBytes 2 + wordBytes 2

/-- `ArchTCB`: the registers, and on aarch64 the state of the FPU with two 32-bit words. -/
def archTcbSize : Arch → Nat
  | .riscv64 => wordBytes 35
  | .aarch64 => wordBytes 37 + (wordBytes 64 + 4 + 4)

/-- `tcb_t`: the registers, the state, the bound notification, the fault, the lookup failure,
six words from the domain to the IPC buffer, and the links of the two queues. -/
def tcbSize (a : Arch) : Nat :=
  archTcbSize a + wordBytes 3 + wordBytes 1 + wordBytes 2 + wordBytes 2 + wordBytes 6 + wordBytes 4

/-- A page table: 512 entries. -/
def pageTableSize : Nat := wordBytes 512

/-- `asid_pool_t` -/
def asidPoolSize : Nat := wordBytes (2 ^ asidLowBits)

/-- A structure of `n` bytes at `p`. -/
def structureAt (p : Word) (n : Nat) : Extent Space := ⟨.memory, p.toNat, p.toNat + n⟩

/-- What the kernel reads and writes through a cap. A TCB has its slots in front of it, which
`get_cspace` finds by masking its address. -/
def structures (a : Arch) (c : CapT) : List (Extent Space) :=
  match getCapType c with
  | .threadCap =>
    [structureAt (getCspace a (getTcbPtr a c) 0) (tcbCNodeEntries.toNat * cteSize),
      structureAt (getTcbPtr a c) (tcbSize a)]
  | .endpointCap => [structureAt (getEpPtr a c) endpointSize]
  | .notificationCap => [structureAt (getNfPtr a c) notificationSize]
  | .cnodeCap => [structureAt (getCNodePtr a c) (2 ^ (getCNodeRadix a c).toNat * cteSize)]
  | .zombieCap => [structureAt (getZombiePtr a c) ((getZombieNumber a c).toNat * cteSize)]
  | .pageTableCap => [structureAt (getPtBasePtr a c) pageTableSize]
  | .asidPoolCap => [structureAt (getAsidPool a c) asidPoolSize]
  | _ => []

/-! ## Structures and memory -/

theorem within_of_le (hp : getCapIsPhysical c) (hbase : objBase a c = p)
    (hn : n ≤ 2 ^ objBits a c) : (structureAt p n).Within (extent a c) := by
  rw [extent_physical hp, hbase]
  exact ⟨rfl, Nat.le_refl _, Nat.add_le_add_left hn _⟩

/-- The slots of a TCB end before it, and it ends within its memory. -/
theorem tcb_within (hc : CapOK a c) (ht : getCapType c = .threadCap) (he : e ∈ structures a c) :
    e.Within (extent a c) := by
  have hp := physical_thread ht
  have hptr := hc.toNat_tcbPtr ht
  have hbits : objBits a c = (tcbBits a).toNat := by simp [objBits, ht]
  simp only [structures, ht, List.mem_cons, List.not_mem_nil, or_false] at he
  rcases he with rfl | rfl
  · refine within_of_le hp ?_ ?_
    · rw [objBase_thread ht, getCspace]
      simp
    · rw [hbits]
      cases a <;> decide
  · rw [extent_physical hp, hbits]
    refine ⟨rfl, ?_, ?_⟩
    · show (objBase a c).toNat ≤ (getTcbPtr a c).toNat
      omega
    · show (getTcbPtr a c).toNat + tcbSize a ≤ (objBase a c).toNat + 2 ^ (tcbBits a).toNat
      have hsize : (tcbOffset a).toNat + tcbSize a ≤ 2 ^ (tcbBits a).toNat := by
        cases a <;> decide
      omega

/-- Every structure but that of a notification fits into the memory of its object. -/
theorem structures_within (hc : CapOK a c) (hn : getCapType c ≠ .notificationCap)
    (he : e ∈ structures a c) : e.Within (extent a c) := by
  have hslots := hc.slots
  cases ht : getCapType c
  case threadCap => exact tcb_within hc ht he
  case notificationCap => exact absurd ht hn
  all_goals
    simp only [structures, ht, List.mem_cons, List.not_mem_nil, or_false] at he
  case endpointCap =>
    subst he
    exact within_of_le (by simp [getCapIsPhysical, ht]) (by simp [objBase, getCapPtr, ht])
      (by simp only [objBits, ht]; decide)
  case cnodeCap =>
    subst he
    refine within_of_le (physical_cnode ht) (objBase_cnode ht) ?_
    simp only [slotCount, ht] at hslots
    rw [cteSize, wordBytes]
    omega
  case zombieCap =>
    subst he
    refine within_of_le (physical_zombie ht) (objBase_zombie ht) ?_
    rw [slotCount_zombie ht] at hslots
    rw [cteSize, wordBytes]
    omega
  case pageTableCap =>
    subst he
    exact within_of_le (by simp [getCapIsPhysical, ht]) (by simp [objBase, getCapPtr, ht])
      (by simp only [objBits, ht]; decide)
  case asidPoolCap =>
    subst he
    exact within_of_le (physical_pool ht) (objBase_pool ht) (by rw [objBits_pool ht]; decide)

/-- That of a notification has twice the size of its memory. -/
theorem notification_not_within (ht : getCapType c = .notificationCap) :
    ∃ e ∈ structures a c, ¬e.Within (extent a c) := by
  refine ⟨structureAt (getNfPtr a c) notificationSize, by simp [structures, ht], ?_⟩
  have hext : extent a c = ⟨.memory, (getNfPtr a c).toNat, (getNfPtr a c).toNat + 2 ^ 4⟩ := by
    rw [extent_physical (by simp [getCapIsPhysical, ht])]
    simp [objBase, objBits, getCapPtr, ht, notificationBits]
  rw [hext]
  rintro ⟨-, -, hle⟩
  have hle : (getNfPtr a c).toNat + 32 ≤ (getNfPtr a c).toNat + 2 ^ 4 := hle
  omega

/-- Every structure fits into the memory of its object, and structures of different objects
are apart. Two caps name one object if `same_object_as` finds nothing to tell them apart by. -/
structure StructuresOk (a : Arch) (s : KernelState) : Prop where
  fits : ∀ x, s.ctes.capType x ≠ .nullCap → ∀ e ∈ structures a (s.ctes x).cap,
    e.Within (extent a (s.ctes x).cap)
  apart : ∀ x y, s.ctes.capType x ≠ .nullCap → s.ctes.capType y ≠ .nullCap →
    objKey a (s.ctes x).cap ≠ objKey a (s.ctes y).cap →
    ∀ e ∈ structures a (s.ctes x).cap, ∀ f ∈ structures a (s.ctes y).cap, ¬e.Overlaps f

theorem structures_untyped (ht : getCapType c = .untypedCap) : structures a c = [] := by
  simp [structures, ht]

/-- Structures within the memory of their objects are apart. -/
theorem CapInv.structures_apart (h : CapInv a static (capSpace s) ls)
    (hx : s.ctes.capType x ≠ .nullCap) (hy : s.ctes.capType y ≠ .nullCap)
    (hkey : objKey a (s.ctes x).cap ≠ objKey a (s.ctes y).cap)
    (he : e ∈ structures a (s.ctes x).cap) (hf : f ∈ structures a (s.ctes y).cap)
    (hew : e.Within (extent a (s.ctes x).cap)) (hfw : f.Within (extent a (s.ctes y).cap)) :
    ¬e.Overlaps f := by
  have hxu : s.ctes.capType x ≠ .untypedCap := fun ht => by
    rw [structures_untyped ht] at he
    cases he
  have hyu : s.ctes.capType y ≠ .untypedCap := fun ht => by
    rw [structures_untyped ht] at hf
    cases hf
  intro ho
  have hext : (extent a (s.ctes x).cap).Overlaps (extent a (s.ctes y).cap) :=
    ((ho.of_within hfw).symm.of_within hew).symm
  exact hkey (h.key_eq_of_object hx hy hxu hyu (h.object_eq_of_overlaps hx hy hxu hyu hext))

/-- Where the structures are right, no cap is for a notification. -/
theorem StructuresOk.noNotification (h : StructuresOk a s) (x : Word) :
    s.ctes.capType x ≠ .notificationCap := by
  intro hx
  obtain ⟨e, he, hnot⟩ := notification_not_within hx
  exact hnot (h.fits x (by rw [hx]; decide) e he)

theorem CapInv.structuresOk (h : CapInv a static (capSpace s) ls)
    (hnone : ∀ x, s.ctes.capType x ≠ .notificationCap) : StructuresOk a s := by
  have hfits : ∀ x, s.ctes.capType x ≠ .nullCap → ∀ e ∈ structures a (s.ctes x).cap,
      e.Within (extent a (s.ctes x).cap) :=
    fun x hx e he => structures_within (h.capOK hx) (hnone x) he
  exact ⟨hfits, fun x y hx hy hkey e he f hf =>
    h.structures_apart hx hy hkey he hf (hfits x hx e he) (hfits y hy f hf)⟩

/-! ## Where caps come from -/

/-- A kind of cap that is there afterwards was there before. -/
def NoneMade (t : CapTag) (σ σ' : Slots) : Prop :=
  ∀ x, σ'.capType x = t → ∃ y, σ.capType y = t

namespace NoneMade

variable {t : CapTag}

theorem refl (t : CapTag) (σ : Slots) : NoneMade t σ σ := fun x hx => ⟨x, hx⟩

theorem trans (h : NoneMade t σ σ') (h' : NoneMade t σ' σ'') : NoneMade t σ σ'' := by
  intro x hx
  obtain ⟨y, hy⟩ := h' x hx
  exact h y hy

end NoneMade

variable {t : CapTag}

/-- Caps to the memory of caps before are of their kinds, or zombies. -/
theorem OldCaps.noneMade (h : OldCaps a σ σ') (hnull : t ≠ .nullCap) (hzombie : t ≠ .zombieCap) :
    NoneMade t σ σ' := by
  intro x hx
  have hx : getCapType (σ' x).cap = t := hx
  obtain ⟨y, -, hal⟩ := (h x).resolve_left (hx ▸ hnull)
  exact ⟨y, (hal.type.resolve_right (hx ▸ hzombie)).symm.trans hx⟩

/-! ### Retypes -/

section Retype

variable {r : RetypeRequest} {slot : Word}

/-- A retype makes caps of the kind that it is asked for. -/
theorem noneMade_untyped (hu : s.ctes.capType slot = .untypedCap) (hnull : t ≠ .nullCap)
    (hzombie : t ≠ .zombieCap)
    (htype : ∀ o, ObjectType.fromUsize a (getSyscallArg a s 0 buffer) = some o → objectTag o ≠ t)
    (h : decodeUntypedInvocation a s label length slot (s.ctes slot).cap buffer = .ok (s', st)) :
    NoneMade t s.ctes s'.ctes := by
  rcases decodeUntypedInvocation_retypes h with ⟨-, he, -⟩ | ⟨-, r, s₁, reset, idx, hr⟩
  · rw [show s'.ctes = s.ctes from congrArg CapSpace.slots he]
    exact .refl t _
  intro x hx
  rw [Slots.capType] at hx
  rcases hr.cap hu x with ⟨hold, -⟩ | ⟨i, -, hnew⟩
  · obtain ⟨y, -, hal⟩ := hold.resolve_left (hx ▸ hnull)
    exact ⟨y, (hal.type.resolve_right (hx ▸ hzombie)).symm.trans hx⟩
  · rw [hnew, RetypeRequest.newCap, getCapType_objectCap] at hx
    exact absurd hx (htype _ hr.asks.type)

end Retype

/-- `decode_asid_control` makes a cap for a pool. -/
theorem noneMade_makesPool {parent : Word} {i : Nat} (h : MakesPool a s s' parent dest i)
    (hc : CapInv a static (capSpace s) ls) (hnull : t ≠ .nullCap) (hpool : t ≠ .asidPoolCap) :
    NoneMade t s.ctes s'.ctes := by
  intro x hx
  rw [Slots.capType, h.cap_eq hc] at hx
  split at hx
  · rw [poolCapOf, getCapType_newAsidPoolCap] at hx
    exact absurd hx.symm hpool
  unfold blockSlots at hx
  split at hx
  · exact absurd (hx.symm.trans capType_newNullCap) hnull
  refine ⟨x, Eq.trans ?_ hx⟩
  refine (Slots.capType_setCap.trans ?_).symm
  split
  next hx =>
    rw [hx]
    exact getCapType_setUntypedFreeIndex _ _
  next => rfl

/-! ## Runs -/

/-- Runs of the calls that change the capability space and of those that make pools. -/
inductive ObjectRun (a : Arch) (cond : KernelState → KernelCall → Prop) (s₀ : KernelState) :
    KernelState → Prop
  | refl : ObjectRun a cond s₀ s₀
  | call {s s' : KernelState} (call : KernelCall) :
    ObjectRun a cond s₀ s → cond s call → call.Runs a s s' → ObjectRun a cond s₀ s'
  | makePool {s s' : KernelState} (label : MessageLabel) (length buffer : Word) (e : ExceptionT) :
    ObjectRun a cond s₀ s → decodeAsidControl a s label length buffer = .ok (s', e) →
    ObjectRun a cond s₀ s'

theorem CapRun.objectRun {cond : KernelState → KernelCall → Prop} (h : CapRun a cond s₀ s) :
    ObjectRun a cond s₀ s := by
  induction h with
  | refl => exact .refl
  | step call _ hcond hruns ih => exact .call call ih hcond hruns

theorem ObjectRun.mono {cond cond' : KernelState → KernelCall → Prop}
    (h : ObjectRun a cond s₀ s) (hcond : ∀ s call, cond s call → cond' s call) :
    ObjectRun a cond' s₀ s := by
  induction h with
  | refl => exact .refl
  | call call _ hc hruns ih => exact .call call ih (hcond _ _ hc) hruns
  | makePool label length buffer e _ hdec ih => exact .makePool label length buffer e ih hdec

theorem ObjectRun.capInv (h : ObjectRun a (fun s call => call.Safe a s) s₀ s)
    (h₀ : Boot a static s₀) : ∃ ls, CapInv a static (capSpace s) ls := by
  induction h with
  | refl => exact h₀.capInv
  | call call _ hsafe hruns ih =>
    obtain ⟨ls, hinv⟩ := ih
    exact hinv.capSteps (hruns.steps hsafe hinv)
  | makePool label length buffer e _ hdec ih =>
    obtain ⟨ls, hinv⟩ := ih
    rcases decodeAsidControl_cases hdec with ⟨-, hrep⟩ | ⟨-, parent, dest, i, hmakes⟩
    · rw [hrep.proj capSpace]
      exact ⟨ls, hinv⟩
    · exact hmakes.capInv hinv

/-- One call. -/
theorem KernelCall.Runs.noneMade {call : KernelCall} (h : call.Runs a s s')
    (hsafe : call.Safe a s) (hno : call.MakesNoNotification a s)
    (hinv : CapInv a static (capSpace s) ls) : NoneMade .notificationCap s.ctes s'.ctes := by
  have hdest : ∀ {dest}, NodeSlot a s.ctes dest → Storable a dest :=
    fun hnode => (hinv.slotAddr_of_reached hnode.reached).2
  show NoneMade .notificationCap (capSpace s).slots (capSpace s').slots
  cases call with
  | untyped label length slot buffer =>
    obtain ⟨hu, st, h⟩ := h
    refine noneMade_untyped hu (by decide) (by decide) (fun o ho => ?_) h
    cases o <;> first | exact absurd ho hno | exact nofun
  | cnode fuel label length slot buffer =>
    obtain ⟨hl, st, h⟩ := h
    rw [← decodeCNodeInvocation_agrees.resolve_left hsafe] at h
    rcases decodeCNodeInvocation_cases hinv hl h with ⟨dest, hnode, hstored⟩ | hrun
    · exact (oldCaps_stored hstored (hdest hnode)).noneMade (by decide) (by decide)
    · exact (oldCaps_delRun hrun).noneMade (by decide) (by decide)
  | transfer slot dest =>
    exact (oldCaps_stored (transferCap_stored h.2) (hdest h.1)).noneMade (by decide) (by decide)
  | other =>
    have h : capSpace s' = capSpace s := h
    rw [h]
    exact .refl _ _

theorem ObjectRun.noneMade
    (h : ObjectRun a (fun s call => call.Safe a s ∧ call.MakesNoNotification a s) s₀ s)
    (h₀ : Boot a static s₀) : NoneMade .notificationCap s₀.ctes s.ctes := by
  induction h with
  | refl => exact .refl _ _
  | call call hrun hcond hruns ih =>
    obtain ⟨ls, hinv⟩ := (hrun.mono fun _ _ hc => hc.1).capInv h₀
    exact ih.trans (hruns.noneMade hcond.1 hcond.2 hinv)
  | makePool label length buffer e hrun hdec ih =>
    obtain ⟨ls, hinv⟩ := (hrun.mono fun _ _ hc => hc.1).capInv h₀
    rcases decodeAsidControl_cases hdec with ⟨-, hrep⟩ | ⟨-, parent, dest, i, hmakes⟩
    · rw [hrep.proj (·.ctes)]
      exact ih
    · exact ih.trans (noneMade_makesPool hmakes hinv (by decide) (by decide))

theorem ObjectRun.structuresOk
    (h : ObjectRun a (fun s call => call.Safe a s ∧ call.MakesNoNotification a s) s₀ s)
    (h₀ : CleanBoot a static s₀) : StructuresOk a s := by
  obtain ⟨ls, hinv⟩ := (h.mono fun _ _ hc => hc.1).capInv h₀.toBoot
  refine hinv.structuresOk fun x hx => ?_
  obtain ⟨y, hy⟩ := h.noneMade h₀.toBoot x hx
  exact h₀.noNotification y hy

/-- In a run that makes no notifications, the structures of the objects fit into their memory
and are apart; in a state with a cap for a notification, one does not fit. -/
theorem objectRun_structuresOk (h₀ : Boot a static s₀)
    (hnone : ∀ x, s₀.ctes.capType x ≠ .notificationCap) :
    (∀ s, ObjectRun a (fun s call => call.Safe a s ∧ call.MakesNoNotification a s) s₀ s →
      StructuresOk a s) ∧
    ∀ s, StructuresOk a s → ∀ x, s.ctes.capType x ≠ .notificationCap :=
  ⟨fun _ h => h.structuresOk ⟨h₀, hnone⟩, fun _ h => h.noNotification⟩

/-- A TCB from the boot untyped cap. -/
theorem objectRun_structuresOk_tcb : ∃ s, ObjectRun .riscv64 (fun s call => call.Safe .riscv64 s ∧
        call.MakesNoNotification .riscv64 s) (bootState .riscv64 false) s ∧
      s.ctes.capType (bootSlot .riscv64 2) = .threadCap ∧ StructuresOk .riscv64 s := by
  obtain ⟨s, hs, hrun⟩ := retype_bootState .riscv64 false 1 0 2 1
    (C := fun s call => call.Safe .riscv64 s ∧ call.MakesNoNotification .riscv64 s)
    (P := fun s => s.ctes.capType (bootSlot .riscv64 2) = .threadCap) (by decide +kernel)
    ⟨trivial, trivial⟩
    ⟨⟨by decide +kernel, fun _ => by decide +kernel⟩, (by decide +kernel :
      ObjectType.fromUsize .riscv64 (getSyscallArg .riscv64 _ 0 0) ≠ some .notification)⟩
  exact ⟨s, hrun.objectRun, hs,
    (objectRun_structuresOk bootState_boot bootState_noNotification).1 s hrun.objectRun⟩

/-- Two notifications made by one retype: the first reaches into the second. -/
theorem notifications_overlap : ∃ s₀ s x y, Boot .riscv64 (fun _ => False) s₀ ∧
      (∀ x, s₀.ctes.capType x ≠ .notificationCap) ∧
      ObjectRun .riscv64 (fun s call => call.Safe .riscv64 s) s₀ s ∧
      s.ctes.capType x = .notificationCap ∧ s.ctes.capType y = .notificationCap ∧
      objKey .riscv64 (s.ctes x).cap ≠ objKey .riscv64 (s.ctes y).cap ∧
      ∃ e ∈ structures .riscv64 (s.ctes x).cap, ∃ f ∈ structures .riscv64 (s.ctes y).cap,
        e.Overlaps f := by
  obtain ⟨s, ⟨hx, hy, hptr, hptr'⟩, hrun⟩ := retype_bootState .riscv64 false 3 0 2 2
    (C := fun s call => call.Safe .riscv64 s)
    (P := fun s => s.ctes.capType (bootSlot .riscv64 2) = .notificationCap ∧
      s.ctes.capType (bootSlot .riscv64 3) = .notificationCap ∧
      getNfPtr .riscv64 (s.ctes (bootSlot .riscv64 2)).cap = pptrBase .riscv64 + 0x400000 ∧
      getNfPtr .riscv64 (s.ctes (bootSlot .riscv64 3)).cap = pptrBase .riscv64 + 0x400010)
    (by decide +kernel) trivial ⟨by decide +kernel, fun _ => by decide +kernel⟩
  have hx' : getCapType (s.ctes (bootSlot .riscv64 2)).cap = .notificationCap := hx
  have hy' : getCapType (s.ctes (bootSlot .riscv64 3)).cap = .notificationCap := hy
  refine ⟨_, s, bootSlot .riscv64 2, bootSlot .riscv64 3, bootState_boot,
    bootState_noNotification, hrun.objectRun, hx, hy, ?_,
    structureAt (pptrBase .riscv64 + 0x400000) notificationSize, ?_,
    structureAt (pptrBase .riscv64 + 0x400010) notificationSize, ?_,
    rfl, by decide, by decide⟩
  · simp only [objKey, hx', hy', getCapPtr, hptr, hptr']
    decide
  · simp only [structures, hx', hptr]
    exact List.mem_singleton_self _
  · simp only [structures, hy', hptr']
    exact List.mem_singleton_self _

end Rel4.Kernel
