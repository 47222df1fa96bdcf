import Rel4.Kernel.CapRun

/-!
Device memory.

The decoder of a retype reads the device bit of the untyped cap with the
accessor for frames, which looks at a bit of another field, and its test for
kernel objects is inverted. `KernelCall.DeviceOK` says when neither matters.
Then the memory of every cap is memory of a cap of the boot state with the same
device bit.
-/

namespace Rel4.Kernel
open Lib.Bitfield Common CSpace Rel4.Task

variable {t : ObjectType}
  {s : KernelState} {r : RetypeRequest}

/-! ## The caps that a retype makes -/

theorem cap_insertObject :
    ((s.insertObject a parent dest c).ctes x).cap = if x = dest then c else (s.ctes x).cap := by
  show (insertNewCap a s.ctes parent dest c x).cap = _
  simp only [insertNewCap, Slots.cap_patchPrev, Slots.cap_setNext, Slots.cap_setMdb,
    Slots.cap_setCap]

theorem cap_createNewObjects (hn : n ≤ r.nodeWindow.toNat) :
    ∀ {s s' : KernelState}, s' = createNewObjects a r.newType slot (getCNodePtr a r.nodeCap)
        r.nodeOffset r.nodeWindow.toNat start r.userSize d n s →
      (s'.ctes x).cap = (s.ctes x).cap ∨
        ∃ i < r.nodeWindow.toNat, (s'.ctes x).cap = r.newCap a start d i := by
  induction n with
  | zero =>
    rintro s s' rfl
    exact .inl rfl
  | succ n ih =>
    intro s s' h
    rw [createNewObjects] at h
    rcases ih (Nat.le_of_succ_le hn) h with e | e
    · have hcs : capSpace (createObject a s r.newType (r.objectBase a start
          (r.nodeWindow.toNat - (n + 1))) r.userSize d).1 = capSpace s := capSpace_createObject
      rw [e, cap_insertObject]
      split
      · exact .inr ⟨_, by omega, rfl⟩
      · exact .inl (congrArg CteT.cap (congrFun (congrArg CapSpace.slots hcs) x))
    · exact .inr e

theorem getFrameIsDevice_objectCap (ht : t.isFrame) (hd : d.toNat < 2) :
    getFrameIsDevice a (objectCap a t base userSize d) = d := by
  have hdev : (Field.frameIsDevice a).Canonical (signExt a) d := by
    cases a <;> exact canonical_of_lt rfl rfl (by decide) hd
  rw [objectCap_frame ht]
  cases a with
  | riscv64 => exact get_build (i := 4) rfl rfl hdev
  | aarch64 => exact get_build (i := 0) rfl rfl hdev

theorem isFrame_of_tag (h : objectTag t = .frameCap) : t.isFrame = true := by
  cases t <;> first | rfl | cases h

theorem isArchType_of_isFrame (h : t.isFrame = true) : t.isArchType = true := by
  cases t <;> first | rfl | cases h

/-! ## Where the memory of a cap comes from -/

/-- The device bit of a cap. Kernel objects are not in device memory. -/
def deviceBit (a : Arch) (c : CapT) : Word :=
  match getCapType c with
  | .untypedCap => getUntypedIsDevice a c
  | .frameCap => getFrameIsDevice a c
  | _ => 0

/-- Every cap afterwards is to memory of a cap before, with the same device bit. -/
def SameDevice (a : Arch) (σ σ' : Slots) : Prop :=
  ∀ x, σ'.capType x ≠ .nullCap → ∃ y, σ.capType y ≠ .nullCap ∧
    (extent a (σ' x).cap).Within (extent a (σ y).cap) ∧
    deviceBit a (σ' x).cap = deviceBit a (σ y).cap

theorem SameDevice.refl (a : Arch) (σ : Slots) : SameDevice a σ σ :=
  fun x hx => ⟨x, hx, .refl _, rfl⟩

theorem SameDevice.trans (h : SameDevice a σ σ') (h' : SameDevice a σ' σ'') :
    SameDevice a σ σ'' := by
  intro x hx
  obtain ⟨y, hy, hw, hd⟩ := h' x hx
  obtain ⟨z, hz, hw', hd'⟩ := h y hy
  exact ⟨z, hz, hw.trans hw', hd.trans hd'⟩

/-- `c'` is a cap to the memory of `c`, of its kind or a zombie. -/
structure Alike (a : Arch) (c c' : CapT) : Prop where
  extent_eq : extent a c' = extent a c
  device_eq : deviceBit a c' = deviceBit a c
  type : getCapType c' = getCapType c ∨ getCapType c' = .zombieCap

theorem Alike.refl (a : Arch) (c : CapT) : Alike a c c := ⟨rfl, rfl, .inl rfl⟩

theorem Alike.trans (h : Alike a c c') (h' : Alike a c' c'') : Alike a c c'' := by
  refine ⟨h'.extent_eq.trans h.extent_eq, h'.device_eq.trans h.device_eq, ?_⟩
  rcases h'.type with e | e
  · rw [e]
    exact h.type
  · exact .inr e

theorem deviceBit_zombie (h : getCapType c = .zombieCap) : deviceBit a c = 0 := by
  simp only [deviceBit, h]

theorem alike_sameTarget (h : SameTarget a c c') : Alike a c c' := by
  refine ⟨h.extent_eq, ?_, .inl h.capType_eq⟩
  have ht := h.capType_eq
  rcases h with rfl | ⟨hn, hk⟩
  · rfl
  have hu := (CapTag.ne_of_named hn).2.1
  unfold deviceBit
  rw [ht]
  split
  next e => exact absurd e hu
  next e =>
    have hdev := congrArg ObjKey.device hk
    simpa [objKey, ht, e] using hdev
  next => rfl

theorem alike_setFreeIndex (hu : getCapType c = .untypedCap) :
    Alike a c (setUntypedFreeIndex a c idx) := by
  refine ⟨extent_setFreeIndex hu, ?_, .inl (getCapType_setUntypedFreeIndex _ _)⟩
  simp only [deviceBit, getCapType_setUntypedFreeIndex, hu]
  exact get_set_of_disjoint (by cases a <;> decide)

theorem alike_sourceCapAfter : Alike a c (sourceCapAfter a c c') := by
  unfold sourceCapAfter
  split
  next h => exact alike_setFreeIndex h.1
  next => exact .refl a c

theorem alike_zombieOf (ht : getCapType c = .cnodeCap ∨ getCapType c = .threadCap)
    (hz : ZombieOf a c z) : Alike a c z := by
  have hp : getCapIsPhysical c = true := ht.elim physical_cnode physical_thread
  refine ⟨?_, ?_, .inr hz.isZombie⟩
  · rw [extent_physical (physical_zombie hz.isZombie), extent_physical hp, hz.base_eq, hz.bits_eq]
  · rw [deviceBit_zombie hz.isZombie]
    rcases ht with e | e <;> simp only [deviceBit, e]

theorem alike_setZombieNumber (hz : getCapType c = .zombieCap) :
    Alike a c (setZombieNumber a c number) := by
  have hz' : getCapType (setZombieNumber a c number) = .zombieCap :=
    capType_setZombieNumber.trans hz
  refine ⟨?_, ?_, .inr hz'⟩
  · rw [extent_physical (physical_zombie hz'), extent_physical (physical_zombie hz),
      objBase_zombie hz', objBase_zombie hz, objBits_zombie hz', objBits_zombie hz,
      getZombiePtr_setZombieNumber, getZombieType_setZombieNumber, getZombieBit_setZombieNumber]
  · rw [deviceBit_zombie hz', deviceBit_zombie hz]

/-- The cap is to memory of a cap in `σ`. -/
def OldCap (a : Arch) (σ : Slots) (c : CapT) : Prop :=
  getCapType c = .nullCap ∨ ∃ y, σ.capType y ≠ .nullCap ∧ Alike a (σ y).cap c

def OldCaps (a : Arch) (σ σ' : Slots) : Prop := ∀ x, OldCap a σ (σ' x).cap

theorem OldCap.of_alike (y : Word) (h : Alike a (σ y).cap c)
    (ht : getCapType c = getCapType (σ y).cap) : OldCap a σ c := by
  by_cases hy : σ.capType y = .nullCap
  · exact .inl (ht.trans hy)
  · exact .inr ⟨y, hy, h⟩

theorem OldCap.of_slot (σ : Slots) (x : Word) : OldCap a σ (σ x).cap :=
  .of_alike x (.refl a _) rfl

theorem OldCaps.refl (a : Arch) (σ : Slots) : OldCaps a σ σ := .of_slot σ

theorem OldCaps.trans (h : OldCaps a σ σ') (h' : OldCaps a σ' σ'') : OldCaps a σ σ'' := by
  intro x
  rcases h' x with e | ⟨y, hy, hal⟩
  · exact .inl e
  · obtain ⟨z, hz, hal'⟩ := (h y).resolve_left hy
    exact .inr ⟨z, hz, hal'.trans hal⟩

theorem OldCaps.sameDevice (h : OldCaps a σ σ') : SameDevice a σ σ' := by
  intro x hx
  obtain ⟨y, hy, hal⟩ := (h x).resolve_left hx
  exact ⟨y, hy, hal.extent_eq ▸ .refl _, hal.device_eq⟩

theorem oldCaps_delStep (h : DelStep a w w') : OldCaps a w.slots w'.slots := by
  intro x
  cases h with
  | erase slot he =>
    rw [cap_setEmpty]
    split
    · exact .inl capType_newNullCap
    · exact .of_slot _ x
  | zombify slot z hx hz hlast =>
    rw [CapSpace.cap_setCap]
    split
    · exact .inr ⟨slot, hx.elim (fun h => by rw [h]; decide) fun h => by rw [h]; decide,
        alike_zombieOf hx hz⟩
    · exact .of_slot _ x
  | shrink slot hx hn hend =>
    rw [CapSpace.cap_setCap]
    split
    · exact .of_alike slot (alike_setZombieNumber hx) capType_setZombieNumber
    · exact .of_slot _ x
  | swap slot hx hn hne hfar =>
    rw [cap_cteSwap]
    split
    · exact .of_slot _ _
    · split
      · exact .of_slot _ _
      · exact .of_slot _ x

theorem oldCaps_delRun (h : DelRun a w w') : OldCaps a w.slots w'.slots := by
  induction h with
  | refl => exact .refl a _
  | tail _ hstep ih => exact ih.trans (oldCaps_delStep hstep)

theorem oldCaps_stored (h : Stored a w dest w') (hdest : Storable a dest) :
    OldCaps a w.slots w'.slots := by
  intro x
  cases h with
  | same => exact .of_slot _ x
  | derived src c σ' hd hc hins =>
    show OldCap a w.slots (σ' x).cap
    rw [cap_cteInsert hins]
    split
    · cases hd with
      | null h => exact absurd h hc
      | object hn hst => exact .of_alike src (alike_sameTarget hst) hst.capType_eq
      | untyped hu h =>
        rw [h]
        exact .of_slot _ src
    · split
      · exact .of_alike src alike_sourceCapAfter getCapType_sourceCapAfter
      · exact .of_slot _ x
  | moved src c σ' hsrc hst hmove =>
    show OldCap a w.slots (σ' x).cap
    rw [(cteMove_effect hmove hdest).2.cap]
    split
    · exact .inl capType_newNullCap
    · split
      · exact .of_alike src (alike_sameTarget hst) hst.capType_eq
      · exact .of_slot _ x

/-- After a retype every cap is to memory of a cap before or a new one, and what appears in an empty
slot is a new one. -/
theorem Retypes.cap (h : Retypes a s s' slot buffer r s₁ reset idx)
    (hu : s.ctes.capType slot = .untypedCap) (x : Word) :
    OldCap a s.ctes (s'.ctes x).cap ∧
        (s.ctes.capType x = .nullCap → s'.ctes.capType x = .nullCap) ∨
      ∃ i < r.nodeWindow.toNat, (s'.ctes x).cap = r.newCap a (alignUp (getFreeRef
        (getUntypedPtr a (s.ctes slot).cap) idx) (r.bits a))
        (flag (deviceMem a (s.ctes slot).cap)) i := by
  obtain ⟨σ', hσ, hset⟩ := h.clears
  rw [h.run, invokeUntypedRetype]
  refine (cap_createNewObjects (Nat.le_refl _) rfl).imp (fun hcap => ?_) id
  rw [Slots.capType, Slots.capType, hcap, hset, Slots.cap_setCap]
  split
  next hx =>
    have ht : ∀ i, getCapType (setUntypedFreeIndex a (σ' slot).cap i) = getCapType (σ' slot).cap :=
      fun _ => getCapType_setUntypedFreeIndex _ _
    rw [hx]
    rcases hσ slot with e | e <;> rw [e] at ht ⊢
    · exact ⟨.of_alike slot (alike_setFreeIndex hu) (ht _), (ht _).trans⟩
    · exact ⟨.inl ((ht _).trans capType_newNullCap), fun _ => (ht _).trans capType_newNullCap⟩
  next =>
    rcases hσ x with e | e <;> rw [e]
    · exact ⟨.of_slot _ x, id⟩
    · exact ⟨.inl capType_newNullCap, fun _ => capType_newNullCap⟩

/-! ## Retypes -/

/-- The device bit that the decoder reads is the one of the cap where the type
of the objects makes a difference: an untyped or architecture type is retyped
under the cap's own bit, and any other type from memory that is no device. -/
def DeviceAgrees (a : Arch) (cap : CapT) (t : ObjectType) : Prop :=
  (t = .untyped ∨ t.isArchType → (deviceMem a cap ↔ getUntypedIsDevice a cap ≠ 0)) ∧
    (¬ (t = .untyped ∨ t.isArchType) → getUntypedIsDevice a cap = 0)

instance (cap : CapT) (t : ObjectType) : Decidable (DeviceAgrees a cap t) :=
  inferInstanceAs (Decidable (_ ∧ _))

/-- What a retype has to do with device memory: new caps have the device bit of the
untyped cap; from device memory only untyped and frame objects are made; and from
other memory a request is not rejected for its type unless the size is too small. -/
structure KeepsDevice (a : Arch) (s s' : KernelState) (slot : Word) (request : Option ObjectType)
    (userSize : Word) (st : ExceptionT) : Prop where
  device : ∀ x, s.ctes.capType x = .nullCap → s'.ctes.capType x ≠ .nullCap →
    deviceBit a (s'.ctes x).cap = getUntypedIsDevice a (s.ctes slot).cap
  kinds : getUntypedIsDevice a (s.ctes slot).cap ≠ 0 → st = .none →
    ∃ t, request = some t ∧ (t = .untyped ∨ t.isFrame)
  accepted : getUntypedIsDevice a (s.ctes slot).cap = 0 → st ≠ .none → SizeError s' →
    ∃ t, request = some t ∧ TooSmall t userSize

def KernelCall.DeviceOK (a : Arch) (s : KernelState) : KernelCall → Prop
  | .untyped _ _ slot buffer =>
    ∀ t, ObjectType.fromUsize a (getSyscallArg a s 0 buffer) = some t →
      DeviceAgrees a (s.ctes slot).cap t
  | _ => True

theorem getUntypedIsDevice_zero_or_one (cap : CapT) :
    getUntypedIsDevice a cap = 0 ∨ getUntypedIsDevice a cap = 1 := by
  have h : (getUntypedIsDevice a cap).toNat < 2 ^ 1 := toNat_get_lt rfl rfl (by decide)
  have h : (getUntypedIsDevice a cap).toNat = 0 ∨ (getUntypedIsDevice a cap).toNat = 1 := by omega
  exact h.imp (fun e => BitVec.eq_of_toNat_eq e) fun e => BitVec.eq_of_toNat_eq e

/-- Where the bit that is read is the bit of the cap, so is the bit of the new caps. -/
theorem flag_deviceMem (h : DeviceAgrees a cap t) (ht : t = .untyped ∨ t.isArchType = true) :
    flag (deviceMem a cap) = getUntypedIsDevice a cap := by
  have h := h.1 ht
  rcases getUntypedIsDevice_zero_or_one cap with e | e
  · have hmem : deviceMem a cap = false := Bool.eq_false_iff.mpr fun hm => h.mp hm e
    rw [hmem, e]
    rfl
  · rw [h.mpr (by rw [e]; decide), e]
    rfl

/-- The requests that are not rejected. -/
theorem kinds_of_deviceAgrees (hok : DeviceAgrees a cap t) (hrej : deviceRejects a cap t = false)
    (hdev : getUntypedIsDevice a cap ≠ 0) : t = .untyped ∨ t.isFrame = true := by
  by_contra hkind
  rw [not_or] at hkind
  by_cases harch : t.isArchType = true
  · rw [deviceRejects, decide_eq_false_iff_not] at hrej
    exact hrej ⟨(hok.1 (.inr harch)).mpr hdev, harch, hkind.1⟩
  · exact hdev (hok.2 (not_or.mpr ⟨hkind.1, harch⟩))

/-- A new cap has the device bit of the untyped cap. -/
theorem deviceBit_objectCap (hok : DeviceAgrees a cap t) (hrej : deviceRejects a cap t = false) :
    deviceBit a (objectCap a t base userSize (flag (deviceMem a cap))) =
      getUntypedIsDevice a cap := by
  have hd := toNat_flag_lt (deviceMem a cap)
  unfold deviceBit
  rw [getCapType_objectCap]
  split
  next htag =>
    obtain rfl : t = .untyped := by cases t <;> first | rfl | cases htag
    refine Eq.trans ?_ (flag_deviceMem hok (.inl rfl))
    exact get_build (i := 1) rfl rfl (canonical_of_lt rfl rfl (by decide) hd)
  next htag =>
    have ht := isFrame_of_tag htag
    rw [getFrameIsDevice_objectCap ht hd]
    exact flag_deviceMem hok (.inr (isArchType_of_isFrame ht))
  next hne hne' =>
    by_contra hdev
    rcases kinds_of_deviceAgrees hok hrej (Ne.symm hdev) with rfl | hframe
    · exact hne rfl
    · exact hne' (by cases t <;> first | rfl | cases hframe)

/-- A retype takes memory from the block of the untyped cap, under its device bit. -/
theorem keepsDevice_untyped (hinv : CapInv a static (capSpace s) ls)
    (hu : s.ctes.capType slot = .untypedCap)
    (hvs : ObjectType.fromUsize a (getSyscallArg a s 0 buffer) ≠ some .armVSpace)
    (hok : KernelCall.DeviceOK a s (.untyped label length slot buffer))
    (h : decodeUntypedInvocation a s label length slot (s.ctes slot).cap buffer = .ok (s', st)) :
    SameDevice a s.ctes s'.ctes ∧
      KeepsDevice a s s' slot (ObjectType.fromUsize a (getSyscallArg a s 0 buffer))
        (getSyscallArg a s 1 buffer) st := by
  rcases decodeUntypedInvocation_retypes h with ⟨hst, hcs, herr⟩ | ⟨hst, r, s₁, reset, idx, hr⟩
  · have hslots : s'.ctes = s.ctes := congrArg CapSpace.slots hcs
    refine ⟨hslots ▸ .refl a _, fun x hx hx' => absurd hx (hslots ▸ hx'), fun _ e => absurd e hst,
      fun hd _ e => ?_⟩
    obtain ⟨t, ht, hsmall | hrej⟩ := herr e
    · exact ⟨t, ht, hsmall⟩
    -- a rejected type is an architecture type, and the bit that is read is clear
    rw [deviceRejects, decide_eq_true_eq] at hrej
    exact absurd hd (((hok t ht).1 (.inr hrej.2.1)).mp hrej.1)
  have hok : DeviceAgrees a (s.ctes slot).cap r.newType := hok r.newType hr.asks.type
  have hul : s.ctes.capType slot ≠ .nullCap := by rw [hu]; decide
  have hcok : CapOK a (s.ctes slot).cap := hinv.capOK hul
  refine ⟨fun x hx => ?_, fun x hx hx' => ?_, fun hdev _ => ?_, fun _ e => absurd hst e⟩
  · rcases hr.cap hu x with ⟨hold, -⟩ | ⟨i, hi, hnew⟩
    · obtain ⟨y, hy, hal⟩ := hold.resolve_left hx
      exact ⟨y, hy, hal.extent_eq ▸ .refl _, hal.device_eq⟩
    have har := hr.area hcok hu
    have hne : r.newType ≠ .armVSpace := fun e => hvs (e ▸ hr.asks.type)
    have hext := (RetypeRequest.newCap_ok har hcok hu hr.checked.size hne
      (toNat_flag_lt (deviceMem a (s.ctes slot).cap)) hi).2
    refine ⟨slot, hul, ?_, ?_⟩
    · rw [hnew, hext, extent_physical (physical_untyped hu)]
      have hmul : (i + 1) * 2 ^ (r.bits a).toNat ≤ r.nodeWindow.toNat * 2 ^ (r.bits a).toNat :=
        Nat.mul_le_mul_right _ hi
      have habove := har.above
      have hbelow := har.below
      refine ⟨rfl, ?_, ?_⟩
      · show (objBase a (s.ctes slot).cap).toNat ≤ _ + i * 2 ^ (r.bits a).toNat
        omega
      · show _ + (i + 1) * 2 ^ (r.bits a).toNat ≤ (objBase a (s.ctes slot).cap).toNat + _
        omega
    · have hu : getCapType (s.ctes slot).cap = .untypedCap := hu
      rw [hnew, RetypeRequest.newCap, deviceBit_objectCap hok hr.accepted]
      simp only [deviceBit, hu]
  · obtain ⟨i, -, hnew⟩ := (hr.cap hu x).resolve_left fun h => hx' (h.2 hx)
    rw [hnew]
    exact deviceBit_objectCap hok hr.accepted
  · exact ⟨r.newType, hr.asks.type, kinds_of_deviceAgrees hok hr.accepted hdev⟩

/-! ## Runs -/

/-- A call with the states before and after it. -/
structure CallStep where
  before : KernelState
  call : KernelCall
  after : KernelState

/-- A run with all of its calls, also those that are refused. -/
inductive CallRun (a : Arch) (s₀ : KernelState) : List CallStep → KernelState → Prop
  | nil : CallRun a s₀ [] s₀
  | snoc {steps : List CallStep} {s s' : KernelState} (call : KernelCall)
    (h : CallRun a s₀ steps s) (hruns : call.Runs a s s') :
    CallRun a s₀ (steps ++ [⟨s, call, s'⟩]) s'

theorem CallRun.capRun {cond : KernelState → KernelCall → Prop} (h : CallRun a s₀ steps s)
    (hcond : ∀ st ∈ steps, cond st.before st.call) : CapRun a cond s₀ s := by
  induction h with
  | nil => exact .refl
  | snoc call h hruns ih =>
    exact .step call (ih fun st hst => hcond st (List.mem_append_left _ hst))
      (hcond ⟨_, call, _⟩ (List.mem_append_right _ (List.mem_singleton_self _))) hruns

/-- What the call has to do with device memory, whatever its result is. -/
def CallStep.KeepsDevices (a : Arch) (st : CallStep) : Prop :=
  SameDevice a st.before.ctes st.after.ctes ∧
    match st.call with
    | .untyped label length slot buffer =>
      ∃ e, decodeUntypedInvocation a st.before label length slot (st.before.ctes slot).cap buffer =
          .ok (st.after, e) ∧
        KeepsDevice a st.before st.after slot
          (ObjectType.fromUsize a (getSyscallArg a st.before 0 buffer))
          (getSyscallArg a st.before 1 buffer) e
    | _ => True

/-- One call. -/
theorem keepsDevices_of_deviceOK {call : KernelCall} (hinv : CapInv a static (capSpace s) ls)
    (hruns : call.Runs a s s') (hsafe : call.Safe a s) (hok : call.DeviceOK a s) :
    CallStep.KeepsDevices a ⟨s, call, s'⟩ := by
  have hdest : ∀ {dest}, NodeSlot a s.ctes dest → Storable a dest :=
    fun hnode => (hinv.slotAddr_of_reached hnode.reached).2
  have hold : OldCaps a (capSpace s).slots (capSpace s').slots → SameDevice a s.ctes s'.ctes :=
    OldCaps.sameDevice
  cases call with
  | untyped label length slot buffer =>
    obtain ⟨hu, st, h⟩ := hruns
    obtain ⟨hsame, hkeeps⟩ := keepsDevice_untyped hinv hu hsafe.1 hok h
    exact ⟨hsame, st, h, hkeeps⟩
  | cnode fuel label length slot buffer =>
    obtain ⟨hl, st, h⟩ := hruns
    rw [← decodeCNodeInvocation_agrees.resolve_left hsafe] at h
    refine ⟨hold ?_, trivial⟩
    rcases decodeCNodeInvocation_cases hinv hl h with ⟨dest, hnode, hstored⟩ | hrun
    · exact oldCaps_stored hstored (hdest hnode)
    · exact oldCaps_delRun hrun
  | transfer slot dest =>
    exact ⟨hold (oldCaps_stored (transferCap_stored hruns.2) (hdest hruns.1)), trivial⟩
  | other =>
    have h : capSpace s' = capSpace s := hruns
    refine ⟨hold ?_, trivial⟩
    rw [h]
    exact .refl a _

/-- The run that writes the message of a retype of the boot untyped cap and then makes the call. -/
theorem callRun_retype (a : Arch) (device : Bool) (type size : Word) [DecidablePred P]
    (h : (decodeUntypedInvocation a (withRetypeArgs a (bootState a device) type size 2 1)
      .untypedRetype 6 (bootSlot a 1) ((bootState a device).ctes (bootSlot a 1)).cap 0).satisfies
        (fun r => P r) = true) :
    ∃ s st, decodeUntypedInvocation a (withRetypeArgs a (bootState a device) type size 2 1)
        .untypedRetype 6 (bootSlot a 1) ((bootState a device).ctes (bootSlot a 1)).cap 0 =
        .ok (s, st) ∧ P (s, st) ∧
      CallRun a (bootState a device)
        ([⟨bootState a device, .other, withRetypeArgs a (bootState a device) type size 2 1⟩] ++
          [⟨withRetypeArgs a (bootState a device) type size 2 1,
            .untyped .untypedRetype 6 (bootSlot a 1) 0, s⟩]) s := by
  obtain ⟨⟨s, st⟩, hrun, hs⟩ := Exec.satisfies_iff.mp h
  have hu : (bootState a device).ctes.capType (bootSlot a 1) = .untypedCap := by
    cases a <;> cases device <;> decide
  let s₁ := withRetypeArgs a (bootState a device) type size 2 1
  exact ⟨s, st, hrun, of_decide_eq_true hs, .snoc (.untyped .untypedRetype 6 (bootSlot a 1) 0)
    (.snoc .other .nil (rfl : capSpace s₁ = _)) ⟨hu, st, hrun⟩⟩

end Rel4.Kernel
