import Rel4.Kernel.Derive
import Rel4.Kernel.RetypeArea

/-!
A retype as steps of the capability space.

`decodeUntypedInvocation_cases` says what an invocation of an untyped cap can
do: it fails and leaves the caps alone, or it has checked everything about its
request. In the second case the retype clears memory without caps, moves the
free index and makes one new cap per object.
-/

namespace Rel4.Kernel
open Lib.Bitfield Common CSpace Rel4.Task Function
open BitVec (ofNat toNat_add toNat_mul toNat_ofNat)

variable {w w' : CapSpace} {idx offset start u userSize window : Word} {σ σ' : Slots}
  {nodeCap : CapT} {i n : Nat} {a : Arch} {s s' s₁ : KernelState}
  {cap : CapT} {slot buffer : Word} {st : ExceptionT}
  {static : Word → Prop}

/-! ## Decoding -/

/-- The arguments of a retype; `nodeCap` is the cap of the destination CNode. -/
structure RetypeRequest where
  newType : ObjectType
  userSize : Word
  nodeCap : CapT
  nodeOffset : Word
  nodeWindow : Word

namespace RetypeRequest

/-- The `i`-th destination slot. -/
def dest (a : Arch) (r : RetypeRequest) (i : Nat) : Word :=
  offsetSlot (getCNodePtr a r.nodeCap) (r.nodeOffset + ofNat 64 i)

/-- `log2` of the size of one object. -/
def bits (a : Arch) (r : RetypeRequest) : Word := r.newType.getObjectSize a r.userSize

/-- What has been checked before the free memory is looked at. -/
structure Checked (a : Arch) (σ : Slots) (r : RetypeRequest) : Prop where
  size : SizeOK a r.newType r.userSize
  node : NodeCap σ r.nodeCap
  window : 1 ≤ r.nodeWindow.toNat ∧ r.nodeWindow.toNat ≤ 256
  inside : r.nodeOffset.toNat + r.nodeWindow.toNat ≤ 2 ^ (getCNodeRadix a r.nodeCap).toNat
  empty : ∀ i < r.nodeWindow.toNat, σ.capType (r.dest a i) = .nullCap

/-- The message asks for `r`. -/
structure Asks (a : Arch) (s : KernelState) (buffer : Word) (r : RetypeRequest) : Prop where
  type : ObjectType.fromUsize a (getSyscallArg a s 0 buffer) = some r.newType
  size : r.userSize = getSyscallArg a s 1 buffer
  node : ∃ root s', getExtraCapByIndex s 0 = some root ∧
    getTargetCNode a s (getSyscallArg a s 2 buffer) (getSyscallArg a s 3 buffer) root =
      .ok (s', .none, r.nodeCap)
  offset : r.nodeOffset = getSyscallArg a s 4 buffer
  window : r.nodeWindow = getSyscallArg a s 5 buffer

end RetypeRequest

/-- The objects of this type are larger. -/
def TooSmall (t : ObjectType) (userSize : Word) : Prop :=
  (t = .capTable ∧ userSize = 0) ∨ (t = .untyped ∧ userSize < minUntypedBits)

/-- The last error blames the size argument. The test for device memory reports
the same error as the test of the size. -/
def SizeError (s : KernelState) : Prop :=
  s.currentSyscallError.type = .invalidArgument ∧ s.currentSyscallError.invalidArgumentNumber = 1

theorem not_sizeError (h : s.currentSyscallError.type ≠ .invalidArgument) : ¬ SizeError s :=
  fun e => h e.1

theorem lookupSlotForCNodeOp_error
    (h : lookupSlotForCNodeOp a s isSource root capPtr depth = .ok (s', st, slot))
    (hst : st ≠ .none) : ¬ SizeError s' := by
  apply not_sizeError
  rcases lookupSlotForCNodeOp_cases h with ⟨-, -, htype | htype⟩ | ⟨hnone, -⟩
  · rw [htype]
    decide
  · rw [htype]
    decide
  · exact absurd hnone hst

/-- The size is too small, or the object can be made. -/
theorem checkObjectType_cases (hadm : t.admitted a)
    (hrange : ¬ (userSize ≥ wordBits ∨ t.getObjectSize a userSize > maxUntypedBits))
    (h : checkObjectType s t userSize = (s', st)) :
    (st ≠ .none ∧ capSpace s' = capSpace s ∧ TooSmall t userSize) ∨
      (st = .none ∧ s' = s ∧ SizeOK a t userSize) := by
  rw [not_or] at hrange
  have hu : userSize.toNat < 64 := BitVec.not_le.mp hrange.1
  have hle : (t.getObjectSize a userSize).toNat ≤ 38 := BitVec.not_lt.mp hrange.2
  unfold checkObjectType at h
  split at h
  next hcnode =>
    cases h
    exact .inl ⟨by decide, rfl, .inl hcnode⟩
  rename_i hcnode
  split at h
  next huntyped =>
    cases h
    exact .inl ⟨by decide, rfl, .inr huntyped⟩
  rename_i huntyped
  cases h
  refine .inr ⟨rfl, rfl, hadm, hu, hle, fun e h0 => hcnode ⟨e, h0⟩, fun e => ?_⟩
  exact BitVec.not_lt.mp fun h => huntyped ⟨e, h⟩

theorem getTargetCNode_effect
    (h : getTargetCNode a s nodeIndex nodeDepth root = .ok (s', st, nodeCap)) :
    capSpace s' = capSpace s ∧ (st = .none → NodeCap s.ctes nodeCap) ∧
      (st ≠ .none → ¬ SizeError s') := by
  obtain ⟨⟨s₁, st₁, c⟩, h₁, h⟩ := bind_eq_ok.mp h
  have hlook : capSpace s₁ = capSpace s ∧ (∃ y, (s.ctes y).cap = c) ∧
      (st₁ ≠ .none → ¬ SizeError s₁) := by
    unfold lookupTargetCNode at h₁
    simp only at h₁
    split at h₁
    · cases h₁
      exact ⟨rfl, ⟨root, rfl⟩, fun e => absurd rfl e⟩
    obtain ⟨⟨s₂, st₂, x⟩, h₂, h₁⟩ := bind_eq_ok.mp h₁
    cases h₁
    obtain ⟨hcs, -⟩ := lookupSlotForCNodeOp_effect h₂
    have hslots : s₂.ctes = s.ctes := congrArg CapSpace.slots hcs
    exact ⟨hcs, ⟨x, by rw [hslots]⟩, lookupSlotForCNodeOp_error h₂⟩
  obtain ⟨hcs, hcap, herr⟩ := hlook
  simp only at h
  split at h
  next hst =>
    cases h
    exact ⟨hcs, fun e => absurd e hst, herr⟩
  rename_i hst
  split at h
  · cases h
    refine ⟨hcs, fun e => ?_, fun _ => not_sizeError fun e => ?_⟩
    · cases e
    · cases e
  next ht =>
    cases h
    exact ⟨hcs, fun _ => ⟨not_not.mp ht, hcap⟩, fun e => absurd rfl e⟩

/-- The window is rejected, or it lies in the CNode and is empty. -/
theorem checkCNodeSlot_cases (h : checkCNodeSlot a s nodeCap offset window = (s', st)) :
    (st ≠ .none ∧ capSpace s' = capSpace s ∧ ¬ SizeError s') ∨
      (st = .none ∧ s' = s ∧ (1 ≤ window.toNat ∧ window.toNat ≤ 256) ∧
        offset.toNat + window.toNat ≤ 2 ^ (getCNodeRadix a nodeCap).toNat ∧
        windowEmpty s.ctes (getCNodePtr a nodeCap) offset window = true) := by
  have hradix : (getCNodeRadix a nodeCap).toNat < 2 ^ 6 := toNat_get_lt rfl rfl (by decide)
  have hbit := toNat_bit hradix
  have hpos := Nat.two_pow_pos (getCNodeRadix a nodeCap).toNat
  unfold checkCNodeSlot at h
  simp only at h
  split at h
  · cases h
    exact .inl ⟨by decide, rfl, fun e => by cases e.1⟩
  rename_i hoff
  split at h
  · cases h
    exact .inl ⟨by decide, rfl, fun e => by cases e.1⟩
  rename_i hwin
  split at h
  · cases h
    exact .inl ⟨by decide, rfl, fun e => by cases e.1⟩
  rename_i hfit
  split at h
  · cases h
    exact .inl ⟨by decide, rfl, fun e => by cases e.1⟩
  rename_i hempty
  cases h
  rw [not_or] at hwin
  have h1 : 1 ≤ window.toNat := BitVec.not_lt.mp hwin.1
  have h2 : window.toNat ≤ 256 := BitVec.not_lt.mp hwin.2
  have hoff : offset.toNat ≤ (bit (getCNodeRadix a nodeCap) - 1).toNat := BitVec.not_lt.mp hoff
  have hmask := toNat_mask hradix
  rw [mask] at hmask
  rw [hmask] at hoff
  have hfit : window.toNat ≤ (bit (getCNodeRadix a nodeCap) - offset).toNat := BitVec.not_lt.mp hfit
  rw [BitVec.toNat_sub_of_le (by rw [BitVec.le_def]; omega), hbit] at hfit
  exact .inr ⟨rfl, rfl, ⟨h1, h2⟩, by omega, Bool.eq_true_of_not_eq_false hempty⟩

/-- An invocation of an untyped cap fails and leaves the caps alone, or all of
its request but the free memory has been checked. -/
theorem decodeUntypedInvocation_cases
    (h : decodeUntypedInvocation a s label length slot cap buffer = .ok (s', st)) :
    (st ≠ .none ∧ capSpace s' = capSpace s ∧ (SizeError s' →
      ∃ t, ObjectType.fromUsize a (getSyscallArg a s 0 buffer) = some t ∧
        TooSmall t (getSyscallArg a s 1 buffer))) ∨
      ∃ (s₁ : KernelState) (r : RetypeRequest), capSpace s₁ = capSpace s ∧ r.Checked a s.ctes ∧
        r.Asks a s buffer ∧ (s', st) = decodeRetypeInto a s₁ slot cap r.newType r.userSize
          r.nodeCap r.nodeOffset r.nodeWindow := by
  unfold decodeUntypedInvocation at h
  split at h
  · cases h
    exact .inl ⟨by decide, rfl, fun e => by cases e.1⟩
  split at h
  · cases h
    exact .inl ⟨by decide, rfl, fun e => by cases e.1⟩
  split at h
  · cases h
    exact .inl ⟨by decide, rfl, fun e => by cases e.1⟩
  rename_i root hroot
  split at h
  · cases h
    exact .inl ⟨by decide, rfl, fun e => by cases e.2⟩
  rename_i newType htype
  simp only at h
  split at h
  · cases h
    exact .inl ⟨by decide, rfl, fun e => by cases e.1⟩
  rename_i hrange
  generalize hobj : checkObjectType s newType (getSyscallArg a s 1 buffer) = o at h
  obtain ⟨s₁, st₁⟩ := o
  rcases checkObjectType_cases (ObjectType.fromUsize_admitted htype) hrange hobj with
    ⟨hst₁, hcs, hsmall⟩ | ⟨rfl, rfl, hsize⟩
  · rw [if_pos hst₁] at h
    cases h
    exact .inl ⟨hst₁, hcs, fun _ => ⟨newType, htype, hsmall⟩⟩
  rw [if_neg (not_not.mpr rfl)] at h
  obtain ⟨⟨s₂, st₂, nodeCap⟩, htarget, h⟩ := bind_eq_ok.mp h
  obtain ⟨hcs₂, hnode, herr₂⟩ := getTargetCNode_effect htarget
  split at h
  next hst₂ =>
    cases h
    exact .inl ⟨hst₂, hcs₂, fun e => absurd e (herr₂ hst₂)⟩
  rename_i hst₂
  obtain rfl := not_not.mp hst₂
  generalize hslots : checkCNodeSlot a s₂ nodeCap (getSyscallArg a s₁ 4 buffer)
    (getSyscallArg a s₁ 5 buffer) = o at h
  obtain ⟨s₃, st₃⟩ := o
  rcases checkCNodeSlot_cases hslots with
    ⟨hst₃, hcs₃, herr₃⟩ | ⟨rfl, rfl, hwin, hin, hempty⟩
  · rw [if_pos hst₃] at h
    cases h
    exact .inl ⟨hst₃, hcs₃.trans hcs₂, fun e => absurd e herr₃⟩
  rw [if_neg (not_not.mpr rfl)] at h
  have hctes : s₃.ctes = s₁.ctes := congrArg CapSpace.slots hcs₂
  simp only [hctes, windowEmpty, List.all_eq_true, List.mem_range, decide_eq_true_eq] at hempty
  exact .inr ⟨s₃, ⟨newType, _, nodeCap, _, _⟩, hcs₂, ⟨hsize, hnode rfl, hwin, hin, hempty⟩,
    ⟨htype, rfl, ⟨root, s₃, hroot, htarget⟩, rfl, rfl⟩, (pure_eq_ok.mp h).symm⟩

/-! ## The loop over the objects -/

theorem capSpace_initTcb : capSpace (initTcb a s tcb) = capSpace s := rfl

theorem capSpace_createObject : capSpace (createObject a s t base userSize d).1 = capSpace s := by
  unfold createObject
  split
  · exact capSpace_initTcb
  · rfl

theorem capSpace_insertObject (h : capSpace s = w) :
    capSpace (s.insertObject a parent dest c) =
      w.inserted (insertNewCap a w.slots parent dest c) parent dest w.fresh := by
  rw [← h]
  rfl

namespace RetypeRequest

/-- The address of the `i`-th object. -/
def objectBase (a : Arch) (r : RetypeRequest) (start : Word) (i : Nat) : Word :=
  start + ofNat 64 i <<< (r.bits a &&& 63).toNat

/-- The `i`-th new cap. -/
def newCap (a : Arch) (r : RetypeRequest) (start d : Word) (i : Nat) : CapT :=
  objectCap a r.newType (r.objectBase a start i) r.userSize d

/-- Before the last `n` objects are made: `u` holds the untyped cap, whose
descendants end below the next object, and the destinations that are left are
empty. -/
structure Pending (a : Arch) (static : Word → Prop) (r : RetypeRequest) (u start : Word)
    (uCap : CapT) (n : Nat) (w : CapSpace) : Prop where
  inv : ∃ ls, CapInv a static w ls
  cap : (w.slots u).cap = uCap
  below : ∀ y, w.slots.capType y ≠ .nullCap → w.id u ∈ w.ancestors y →
    (extent a (w.slots y).cap).hi ≤
      start.toNat + (r.nodeWindow.toNat - n) * 2 ^ (r.bits a).toNat
  empty : ∀ i, r.nodeWindow.toNat - n ≤ i → i < r.nodeWindow.toNat →
    w.slots.capType (r.dest a i) = .nullCap
  reached : ∀ i < r.nodeWindow.toNat, w.Reached a static (r.dest a i)

variable {r : RetypeRequest} {u start : Word} {uCap : CapT} {n : Nat} {w : CapSpace}

theorem dest_inj (hw : r.nodeWindow.toNat ≤ 256) (hi : i < r.nodeWindow.toNat)
    (hj : j < r.nodeWindow.toNat) (h : r.dest a i = r.dest a j) : i = j := by
  have h := congrArg BitVec.toNat h
  rw [dest, dest, offsetSlot, offsetSlot] at h
  have h32 : (32 : Word).toNat = 32 := rfl
  simp only [toNat_add, toNat_mul, toNat_ofNat, h32] at h
  omega

section

variable (har : Area a uCap used start r.nodeWindow (r.bits a)) (hok : CapOK a uCap)
  (hu : getCapType uCap = .untypedCap)
include har hok hu

theorem toNat_objectBase (hi : i < r.nodeWindow.toNat) :
    (r.objectBase a start i).toNat = start.toNat + i * 2 ^ (r.bits a).toNat :=
  har.toNat_object hok hu hi

/-- The `i`-th new cap names the `i`-th part of the area. -/
theorem newCap_ok (hsize : SizeOK a r.newType r.userSize) (hvs : r.newType ≠ .armVSpace)
    (hd : d.toNat < 2) (hi : i < r.nodeWindow.toNat) :
    CapOK a (r.newCap a start d i) ∧ extent a (r.newCap a start d i) =
      ⟨.memory, start.toNat + i * 2 ^ (r.bits a).toNat,
        start.toNat + (i + 1) * 2 ^ (r.bits a).toNat⟩ := by
  have hbase := toNat_objectBase har hok hu hi
  have hwin : pptrBase a ≤ r.objectBase a start i := by
    have h1 := hok.window (physical_untyped hu)
    have h2 := har.above
    rw [BitVec.le_def] at h1 ⊢
    omega
  have hal : (r.objectBase a start i).toNat % 2 ^ (r.bits a).toNat = 0 := by
    rw [hbase, Nat.add_mul_mod_self_right]
    exact har.aligned
  obtain ⟨h1, h2⟩ := objectCap_object hsize hvs hwin hal hd
  refine ⟨objectCap_ok hsize hvs hwin hal hd, ?_⟩
  rw [newCap, extent_physical (objectCap_physical hvs), h1, h2, hbase, Nat.succ_mul,
    ← Nat.add_assoc]
  rfl

end

/-- What one turn of the loop does. -/
theorem Pending.step (h : r.Pending a static u start uCap (n + 1) w)
    (har : Area a uCap used start r.nodeWindow (r.bits a)) (hu : getCapType uCap = .untypedCap)
    (hfree : (objBase a uCap).toNat + 16 * (getUntypedFreeIndex a uCap).toNat =
      start.toNat + r.nodeWindow.toNat * 2 ^ (r.bits a).toNat)
    (hsize : SizeOK a r.newType r.userSize) (hvs : r.newType ≠ .armVSpace)
    (hwin : r.nodeWindow.toNat ≤ 256) (hn : n + 1 ≤ r.nodeWindow.toNat)
    (hi : i = r.nodeWindow.toNat - (n + 1)) (hc : c = r.newCap a start (flag (deviceMem a uCap)) i)
    (hw' : w' = w.inserted (insertNewCap a w.slots u (r.dest a i) c) u (r.dest a i) w.fresh) :
    CapStep a static w w' ∧ r.Pending a static u start uCap n w' := by
  obtain ⟨ls, hinv⟩ := h.inv
  have hut : w.slots.capType u = .untypedCap := by rw [Slots.capType, h.cap, hu]
  have hul : w.slots.capType u ≠ .nullCap := by rw [hut]; decide
  have hok : CapOK a uCap := h.cap ▸ hinv.capOK hul
  have hlt : i < r.nodeWindow.toNat := by omega
  obtain ⟨hcok, hext⟩ := newCap_ok har hok hu hsize hvs (toNat_flag_lt _) hlt
  rw [← hc] at hcok hext
  have hnull := h.empty i (by omega) hlt
  have hreach := h.reached i hlt
  have hmul : (i + 1) * 2 ^ (r.bits a).toNat ≤ r.nodeWindow.toNat * 2 ^ (r.bits a).toNat :=
    Nat.mul_le_mul_right _ hlt
  have hbelow : ∀ y, w.slots.capType y ≠ .nullCap → w.id u ∈ w.ancestors y →
      (extent a (w.slots y).cap).hi ≤ start.toNat + i * 2 ^ (r.bits a).toNat := by
    intro y hy hd
    have := h.below y hy hd
    rwa [← hi] at this
  have hstep : CapStep a static w w' := by
    rw [hw']
    refine .object u (r.dest a i) r.newType (r.objectBase a start i) r.userSize c ?_ hut hnull
      hreach hcok ?_ ?_ ?_
    · rw [h.cap, hc, newCap]
    · rw [hc]
      exact objectCap_ne_zombie
    · rw [h.cap, refOf_usedExtent hu, hext]
      have habove := har.above
      refine ⟨rfl, ?_, ?_⟩
      · show (objBase a uCap).toNat ≤ start.toNat + i * 2 ^ (r.bits a).toNat
        omega
      · show start.toNat + (i + 1) * 2 ^ (r.bits a).toNat ≤ (objBase a uCap).toNat + _
        omega
    · rintro y hy hd ⟨-, -, hov⟩
      have := hbelow y hy hd
      rw [hext] at hov
      have hov : start.toNat + i * 2 ^ (r.bits a).toNat < _ := hov
      omega
  refine ⟨hstep, ?_⟩
  have hstor := (hinv.slotAddr_of_reached hreach).2
  have hcap : ∀ y, (w'.slots y).cap = if y = r.dest a i then c else (w.slots y).cap := by
    intro y
    rw [hw']
    refine ((insertNewCap_effect hstor).cap y).trans ?_
    split
    · rfl
    · split
      next e => rw [e]
      next => rfl
  have hcap_ne : ∀ {y}, w.slots.capType y ≠ .nullCap → (w'.slots y).cap = (w.slots y).cap := by
    intro y hy
    rw [hcap, if_neg]
    rintro rfl
    exact hy hnull
  have horigin : ∀ y, w'.origin y = if y = r.dest a i then
      ⟨w.fresh, w.id u :: w.ancestors u, w.fresh⟩ else w.origin y := by
    intro y
    rw [hw']
    exact update_apply _ _ _ _
  have hune : u ≠ r.dest a i := by
    intro e
    exact hul (e ▸ hnull)
  have hlive : ∀ {y}, y ≠ r.dest a i → w'.slots.capType y = w.slots.capType y := by
    intro y hy
    rw [Slots.capType, hcap, if_neg hy, Slots.capType]
  constructor
  · exact hinv.capStep hstep
  · rw [hcap_ne hul, h.cap]
  · intro y hy hd
    have hnext : r.nodeWindow.toNat - n = i + 1 := by omega
    rw [hnext]
    by_cases hyd : y = r.dest a i
    · rw [hcap, if_pos hyd, hext]
    rw [hlive hyd] at hy
    rw [hcap, if_neg hyd]
    have hd : w.id u ∈ w.ancestors y := by
      rw [CapSpace.id, CapSpace.ancestors, horigin, horigin, if_neg hune, if_neg hyd] at hd
      exact hd
    have := hbelow y hy hd
    have : i * 2 ^ (r.bits a).toNat ≤ (i + 1) * 2 ^ (r.bits a).toNat :=
      Nat.mul_le_mul_right _ (Nat.le_succ i)
    omega
  · intro j hj hjlt
    have hne : r.dest a j ≠ r.dest a i := by
      intro e
      have := dest_inj hwin hjlt hlt e
      omega
    rw [hlive hne]
    exact h.empty j (by omega) hjlt
  · intro j hj
    rcases h.reached j hj with hs | ⟨y, hy, hs⟩
    · exact .inl hs
    have hyd : y ≠ r.dest a i := by
      rintro rfl
      exact hy hnull
    refine .inr ⟨y, ?_, ?_⟩
    · rw [hlive hyd]
      exact hy
    · rw [hcap_ne hy]
      exact hs

/-- The loop makes the objects that are left. -/
theorem Pending.createNewObjects (har : Area a uCap used start r.nodeWindow (r.bits a))
    (hu : getCapType uCap = .untypedCap)
    (hfree : (objBase a uCap).toNat + 16 * (getUntypedFreeIndex a uCap).toNat =
      start.toNat + r.nodeWindow.toNat * 2 ^ (r.bits a).toNat)
    (hsize : SizeOK a r.newType r.userSize) (hvs : r.newType ≠ .armVSpace)
    (hwin : r.nodeWindow.toNat ≤ 256) (hn : n ≤ r.nodeWindow.toNat) :
    ∀ {s : KernelState}, r.Pending a static u start uCap n (capSpace s) →
      CapSteps a static (capSpace s) (capSpace (createNewObjects a r.newType u
        (getCNodePtr a r.nodeCap) r.nodeOffset r.nodeWindow.toNat start r.userSize
        (flag (deviceMem a uCap)) n s)) := by
  induction n with
  | zero =>
    intro s _
    exact .refl
  | succ n ih =>
    intro s h
    rw [Kernel.createNewObjects]
    have hcs : capSpace (createObject a s r.newType (r.objectBase a start
        (r.nodeWindow.toNat - (n + 1))) r.userSize (flag (deviceMem a uCap))).1 = capSpace s :=
      capSpace_createObject
    obtain ⟨hstep, hp⟩ := h.step har hu hfree hsize hvs hwin hn rfl rfl (capSpace_insertObject hcs)
    exact Relation.ReflTransGen.head hstep (ih (by omega) hp)

end RetypeRequest

/-! ## Clearing the block -/

section

variable (h : CapInv a static w ls) (hu : w.slots.capType u = .untypedCap)
  (hnone : ∀ y, w.slots.capType y ≠ .nullCap → w.id u ∉ w.ancestors y)
include h hu hnone

/-- No object lies in the block of an untyped cap without descendants. -/
theorem CapInv.block_apart (hy : w.slots.capType y ≠ .nullCap)
    (hyu : w.slots.capType y ≠ .untypedCap) :
    ¬ (extent a (w.slots u).cap).Overlaps (extent a (w.slots y).cap) := by
  intro hov
  have hul : w.slots.capType u ≠ .nullCap := by rw [hu]; decide
  have hne : u ≠ y := by
    rintro rfl
    exact hyu hu
  rcases h.obj.laminar u y _ _ (refs_of_live hul) (refs_of_live hy) hne hov with h1 | h1 | h1
  · exact refOf_not_container.mp h1.1 hu
  · exact hnone y hy h1.2
  · exact hyu (refOf_container.mp h1.1)

/-- No slot that holds a cap lies in the block of an untyped cap without
descendants. -/
theorem CapInv.block_empty (hcov : Covers (extent a (w.slots u).cap) x) :
    w.slots.capType x = .nullCap := by
  by_contra hx
  rcases h.resident x (h.live.mpr hx) with hs | ⟨y, hy, hs⟩
  · exact h.static_free x u hs hu hcov
  refine h.block_apart hu hnone hy (fun e => not_hasSlot_untyped e hs) ?_
  obtain ⟨h1, h2, h3⟩ := hcov
  obtain ⟨h4, h5, h6⟩ := HasSlot.covers hs (h.capOK hy)
  exact ⟨h1.trans h4.symm, by omega, by omega⟩

end

/-- `σ'` is `σ` but for slots of a range, which are cleared. -/
def Cleared (σ σ' : Slots) (lo len : Nat) : Prop :=
  ∀ x, σ' x = σ x ∨ (σ' x = emptyCte ∧ lo ≤ x.toNat ∧ x.toNat < lo + len)

theorem clearMemory_ctes (hb : bits.toNat < 64) (hend : ptr.toNat + 2 ^ bits.toNat ≤ 2 ^ 64)
    (x : Word) :
    (clearMemory s ptr bits).ctes x =
      if ptr.toNat ≤ x.toNat ∧ x.toNat < ptr.toNat + 2 ^ bits.toNat then emptyCte
      else s.ctes x := by
  show (if x - ptr < bit bits then emptyCte else s.ctes x) = _
  simp only [BitVec.lt_def, toNat_bit hb, sub_lt_iff hend]

theorem clearChunks_ctes (hend : base.toNat + 256 * n ≤ 2 ^ 64) (x : Word) :
    ∀ {s : KernelState}, (clearChunks s base n).ctes x =
      if base.toNat ≤ x.toNat ∧ x.toNat < base.toNat + 256 * n then emptyCte else s.ctes x := by
  induction n with
  | zero =>
    intro s
    rw [if_neg (by omega)]
    rfl
  | succ n ih =>
    intro s
    have hptr : (base + ofNat 64 n * bit resetChunkBits).toNat = base.toNat + 256 * n := by
      have h256 : (bit resetChunkBits).toNat = 256 := by decide
      rw [toNat_add, toNat_mul, toNat_ofNat, h256]
      omega
    rw [clearChunks, ih (by omega)]
    generalize base + ofNat 64 n * bit resetChunkBits = ptr at *
    have hptr_end : ptr.toNat + 256 ≤ 2 ^ 64 := by
      rw [hptr, Nat.add_assoc, ← Nat.mul_succ]
      exact hend
    have hchunk : (clearMemory s ptr resetChunkBits).ctes x =
        if ptr.toNat ≤ x.toNat ∧ x.toNat < ptr.toNat + 256 then emptyCte else s.ctes x :=
      clearMemory_ctes (by decide) hptr_end x
    rw [hchunk, hptr]
    -- the chunk ends where the chunks behind it begin
    split
    · rw [if_pos (by omega)]
    · split
      · rw [if_pos (by omega)]
      · rw [if_neg (by omega)]

theorem clearChunks_history : ∀ {s : KernelState},
    (clearChunks s base n).origin = s.origin ∧ (clearChunks s base n).fresh = s.fresh := by
  induction n with
  | zero =>
    intro s
    exact ⟨rfl, rfl⟩
  | succ n ih =>
    intro s
    exact ih

theorem cleared_of_eq {lo len : Nat}
    (h : ∀ x, σ' x = if lo ≤ x.toNat ∧ x.toNat < lo + len then emptyCte else σ x) :
    Cleared σ σ' lo len := by
  intro x
  rw [h]
  split
  next hx => exact .inr ⟨rfl, hx⟩
  next => exact .inl rfl

/-- The reset clears whole chunks: a block smaller than a chunk must not be
reset, unless nothing is in use or the device bit that is read is set. -/
def ResetFits (a : Arch) (cap : CapT) : Prop :=
  8 ≤ (getUntypedBlockSize a cap).toNat ∨ getUntypedFreeIndex a cap = 0 ∨
    getFrameIsDevice a cap ≠ 0

instance : Decidable (ResetFits a cap) := inferInstanceAs (Decidable (_ ∨ _ ∨ _))

theorem capSpace_setFreeIndex (h : capSpace s = w) : capSpace (setFreeIndex a s slot idx) =
      w.setCap slot (setUntypedFreeIndex a (w.slots slot).cap idx) := by
  rw [← h]
  rfl

theorem Slots.setCap_setFreeIndex {i : Word}
    (h : σ' = σ.setCap slot (setUntypedFreeIndex a (σ slot).cap i)) :
    σ'.setCap slot (setUntypedFreeIndex a (σ' slot).cap j) =
      σ.setCap slot (setUntypedFreeIndex a (σ slot).cap j) := by
  subst h
  have hcap : (σ.setCap slot (setUntypedFreeIndex a (σ slot).cap i) slot).cap =
      setUntypedFreeIndex a (σ slot).cap i := by
    rw [Slots.cap_setCap, if_pos rfl]
  rw [hcap, setUntypedFreeIndex, setUntypedFreeIndex, set_set]
  simp only [Slots.setCap, update_self, update_idem]
  rfl

theorem CapSpace.setCap_setFreeIndex {i : Word}
    (h : w' = w.setCap slot (setUntypedFreeIndex a (w.slots slot).cap i)) :
    w'.setCap slot (setUntypedFreeIndex a (w'.slots slot).cap j) =
      w.setCap slot (setUntypedFreeIndex a (w.slots slot).cap j) := by
  subst h
  exact congrArg (fun σ => CapSpace.mk σ w.origin w.fresh) (Slots.setCap_setFreeIndex rfl)

/-- The chunks up to the free index end within the block. -/
theorem chunks_le {b : Nat} (hne : offset ≠ 0) (hoff : offset.toNat = used) (hb : 8 ≤ b)
    (hused : used ≤ 2 ^ b) : 256 * (((offset - 1) >>> 8).toNat + 1) ≤ 2 ^ b := by
  have hpos : offset.toNat ≠ 0 := fun e => hne (BitVec.eq_of_toNat_eq e)
  have hsub : (offset - 1).toNat = offset.toNat - 1 := by
    rw [BitVec.toNat_sub_of_le (by rw [BitVec.le_def]; exact Nat.one_le_iff_ne_zero.mpr hpos)]
    rfl
  obtain ⟨k, rfl⟩ := Nat.exists_eq_add_of_le hb
  rw [BitVec.toNat_ushiftRight, hsub, Nat.shiftRight_eq_div_pow]
  rw [Nat.pow_add] at hused ⊢
  omega

/-- A reset, together with the write of the free index that follows it. -/
theorem resetUntypedCap_effect (hu : s.ctes.capType slot = .untypedCap)
    (hc : CapOK a (s.ctes slot).cap) (hfit : ResetFits a (s.ctes slot).cap) :
    ∃ σ', Cleared s.ctes σ' (objBase a (s.ctes slot).cap).toNat
        (2 ^ objBits a (s.ctes slot).cap) ∧
      ∀ idx, capSpace (setFreeIndex a (resetUntypedCap a s slot) slot idx) =
        CapSpace.setCap ⟨σ', s.origin, s.fresh⟩ slot (setUntypedFreeIndex a (σ' slot).cap idx) := by
  have hp := physical_untyped hu
  have hend := hc.end_le hp
  have hle := hc.bits_le
  have hidx := hc.free hu
  have hoff := toNat_freeIndexToOffset hle hidx
  have hbs := objBits_untyped (a := a) hu
  have hbase := objBase_untyped (a := a) hu
  unfold resetUntypedCap
  simp only
  split
  · exact ⟨s.ctes, fun x => .inl rfl, fun idx => capSpace_setFreeIndex rfl⟩
  rename_i hne
  split
  · refine ⟨(clearMemory s (getUntypedPtr a (s.ctes slot).cap)
      (getUntypedBlockSize a (s.ctes slot).cap)).ctes, ?_, fun idx => ?_⟩
    · rw [hbs, hbase] at hend ⊢
      exact cleared_of_eq (clearMemory_ctes (by omega) hend)
    · rw [capSpace_setFreeIndex rfl]
      exact CapSpace.setCap_setFreeIndex (capSpace_setFreeIndex rfl)
  next hdev =>
    have hoff0 : freeIndexToOffset (getUntypedFreeIndex a (s.ctes slot).cap) ≠ 0 := hne
    have hbig : 8 ≤ (getUntypedBlockSize a (s.ctes slot).cap).toNat := by
      rcases hfit with h | h | h
      · exact h
      · exact absurd (by rw [h]; rfl) hne
      · exact Nat.le_of_not_lt fun hlt => hdev ⟨h, hlt⟩
    have hchunks := chunks_le hne hoff (hbs ▸ hbig) hidx
    rw [← hbase]
    have hchunks_end := Nat.le_trans (Nat.add_le_add_left hchunks _) hend
    have h1 := cleared_of_eq fun x => clearChunks_ctes hchunks_end x (s := s)
    obtain ⟨h2, h3⟩ := clearChunks_history
    refine ⟨_, fun x => (h1 x).imp_right fun h => ⟨h.1, h.2.1, ?_⟩, fun idx => ?_⟩
    · exact Nat.lt_of_lt_of_le h.2.2 (Nat.add_le_add_left hchunks _)
    · rw [capSpace_setFreeIndex rfl]
      refine CapSpace.setCap_setFreeIndex (capSpace_setFreeIndex ?_)
      rw [capSpace, h2, h3]

/-! ## The retype -/

theorem deviceMem_setFreeIndex : deviceMem a (setUntypedFreeIndex a cap idx) = deviceMem a cap := by
  have h : getFrameIsDevice a (setUntypedFreeIndex a cap idx) = getFrameIsDevice a cap :=
    get_set_of_disjoint (by cases a <;> decide)
  rw [deviceMem, h, deviceMem]

/-- The free index after a retype, and the area for the cap that has it. -/
theorem Area.setFreeIndex {count bits : Word} (h : Area a cap used start count bits)
    (hu : getCapType cap = .untypedCap) :
    Area a (setUntypedFreeIndex a cap idx) used start count bits := by
  refine ⟨h.bits_le, h.aligned, ?_, ?_⟩
  · rw [objBase_setFreeIndex hu]
    exact h.above
  · rw [objBase_setFreeIndex hu, objBits_setFreeIndex hu]
    exact h.below

theorem RetypeRequest.Checked.hasSlot {r : RetypeRequest} (hr : r.Checked a σ)
    (hi : i < r.nodeWindow.toNat) : HasSlot a r.nodeCap (r.dest a i) := by
  have hin := hr.inside
  have hwin := hr.window
  have hradix : (getCNodeRadix a r.nodeCap).toNat < 2 ^ 6 := toNat_get_lt rfl rfl (by decide)
  have hpow : 2 ^ (getCNodeRadix a r.nodeCap).toNat ≤ 2 ^ 63 :=
    Nat.pow_le_pow_right (by decide) (by omega)
  have hsum : (r.nodeOffset + ofNat 64 i).toNat = r.nodeOffset.toNat + i := by
    rw [toNat_add, toNat_ofNat]
    omega
  refine ⟨(r.nodeOffset + ofNat 64 i).toNat, ?_, ?_⟩
  · have hcount : slotCount a r.nodeCap = 2 ^ (getCNodeRadix a r.nodeCap).toNat := by
      simp [slotCount, hr.node.1]
    rw [hcount, hsum]
    omega
  · rw [objBase_cnode hr.node.1, BitVec.ofNat_toNat, BitVec.setWidth_eq]
    rfl

theorem RetypeRequest.Checked.reached {r : RetypeRequest} (hr : r.Checked a w.slots)
    (hcap : ∀ y, w.slots.capType y = .cnodeCap → (w'.slots y).cap = (w.slots y).cap)
    (hi : i < r.nodeWindow.toNat) : w'.Reached a static (r.dest a i) := by
  have hslot := hr.hasSlot hi
  obtain ⟨ht, y, hy⟩ := hr.node
  have hyt : w.slots.capType y = .cnodeCap := by rw [Slots.capType, hy, ht]
  refine .inr ⟨y, ?_, ?_⟩
  · rw [Slots.capType, hcap y hyt, hy, ht]
    decide
  · rw [hcap y hyt, hy]
    exact hslot

/-- The part of a retype before the loop: memory without caps is cleared and
the free index is moved to the end of the area. -/
theorem CapInv.retypeStart {r : RetypeRequest} (hinv : CapInv a static w ls)
    (hu : w.slots.capType u = .untypedCap) (hr : r.Checked a w.slots)
    (har : Area a (w.slots u).cap used start r.nodeWindow (r.bits a))
    (hσ : ∀ x, σ' x = w.slots x ∨ (σ' x = emptyCte ∧ w.slots.capType x = .nullCap))
    (hused : ∀ y, w.slots.capType y ≠ .nullCap → w.id u ∈ w.ancestors y →
      (extent a (w.slots y).cap).hi ≤ (objBase a (w.slots u).cap).toNat + used)
    (hidx : idx = getFreeIndex (getUntypedPtr a (w.slots u).cap)
      (start + r.nodeWindow <<< (r.bits a &&& 63).toNat))
    (hw' : w' = CapSpace.setCap ⟨σ', w.origin, w.fresh⟩ u (setUntypedFreeIndex a (σ' u).cap idx)) :
    CapSteps a static w w' ∧ r.Pending a static u start
      (setUntypedFreeIndex a (w.slots u).cap idx) r.nodeWindow.toNat w' := by
  have hul : w.slots.capType u ≠ .nullCap := by rw [hu]; decide
  have hok := hinv.capOK hul
  have hlive : ∀ {y}, w.slots.capType y ≠ .nullCap → σ' y = w.slots y := by
    intro y hy
    exact (hσ y).resolve_right fun h => hy h.2
  have hnull : ∀ {y}, w.slots.capType y = .nullCap → σ'.capType y = .nullCap := by
    intro y hy
    rcases hσ y with e | ⟨e, -⟩
    · rw [Slots.capType, e]
      exact hy
    · rw [Slots.capType, e]
      exact capType_newNullCap
  have hlive' : ∀ {y}, σ'.capType y ≠ .nullCap → w.slots.capType y ≠ .nullCap :=
    fun hy e => hy (hnull e)
  rw [hlive hul] at hw'
  have hend := har.freeIndex hok hu hr.size.four_le
  rw [← hidx] at hend
  have habove := har.above
  have hbelow := har.below
  have hclear : CapStep a static w ⟨σ', w.origin, w.fresh⟩ := .clear σ' hσ
  have hset : CapStep a static ⟨σ', w.origin, w.fresh⟩ w' := by
    have hcap : (σ' u).cap = (w.slots u).cap := by rw [hlive hul]
    rw [hw', ← hcap]
    refine .setFreeIndex u idx ?_ ?_ ?_
    · show getCapType (σ' u).cap = _
      rw [hcap]
      exact hu
    · rw [hcap]
      omega
    · intro y hy hd
      have hy : w.slots.capType y ≠ .nullCap := hlive' hy
      have h1 := hused y hy hd
      show (extent a (σ' y).cap).hi ≤ (objBase a (σ' u).cap).toNat + _
      rw [hcap, hlive hy]
      omega
  have hsteps : CapSteps a static w w' := (Relation.ReflTransGen.single hclear).tail hset
  refine ⟨hsteps, hinv.capSteps hsteps, ?_, ?_, ?_, ?_⟩
  · rw [hw', CapSpace.cap_setCap, if_pos rfl]
  · intro y hy hd
    rw [Nat.sub_self, Nat.zero_mul, Nat.add_zero]
    have hd : w.id u ∈ w.ancestors y := by
      rw [hw'] at hd
      exact hd
    have hyl : w.slots.capType y ≠ .nullCap := by
      by_cases hyu : y = u
      · rw [hyu]
        exact hul
      · rw [hw', CapSpace.capType_setCap, if_neg hyu] at hy
        exact hlive' hy
    have hext : extent a (w'.slots y).cap = extent a (w.slots y).cap := by
      rw [hw', CapSpace.cap_setCap]
      split
      next hyu => rw [extent_setFreeIndex hu, hyu]
      next => rw [show (σ' y).cap = _ from congrArg CteT.cap (hlive hyl)]
    have := hused y hyl hd
    rw [hext]
    omega
  · intro i _ hi
    have hnull' := hr.empty i hi
    have hne : r.dest a i ≠ u := by
      intro e
      rw [e] at hnull'
      exact hul hnull'
    rw [hw', CapSpace.capType_setCap, if_neg hne]
    exact hnull hnull'
  · intro i hi
    refine hr.reached (fun y hy => ?_) hi
    have hyl : w.slots.capType y ≠ .nullCap := by rw [hy]; decide
    have hyu : y ≠ u := by
      rintro rfl
      rw [hu] at hy
      cases hy
    rw [hw', CapSpace.cap_setCap, if_neg hyu]
    exact congrArg CteT.cap (hlive hyl)

theorem getUntypedFreeIndex_retyped {r : RetypeRequest} (hok : CapOK a cap)
    (hu : getCapType cap = .untypedCap) (hr : r.Checked a σ)
    (har : Area a cap used start r.nodeWindow (r.bits a))
    (hidx : idx = getFreeIndex (getUntypedPtr a cap)
      (start + r.nodeWindow <<< (r.bits a &&& 63).toNat)) :
    (objBase a (setUntypedFreeIndex a cap idx)).toNat +
        16 * (getUntypedFreeIndex a (setUntypedFreeIndex a cap idx)).toNat =
      start.toNat + r.nodeWindow.toNat * 2 ^ (r.bits a).toNat := by
  have hend := har.freeIndex hok hu hr.size.four_le
  rw [← hidx] at hend
  have hbelow := har.below
  have hle : 16 * idx.toNat ≤ 2 ^ objBits a cap := by omega
  obtain ⟨-, hget⟩ := CapOK.setFreeIndex hu hok hle
  rw [objBase_setFreeIndex hu, hget]
  exact hend

/-- A retype whose request has been checked. -/
theorem invokeUntypedRetype_steps {r : RetypeRequest} {reset : Bool}
    (hinv : CapInv a static (capSpace s) ls) (hu : s.ctes.capType slot = .untypedCap)
    (hr : r.Checked a s.ctes) (hvs : r.newType ≠ .armVSpace)
    (hreset : reset = true → ensureNoChildren a s.ctes slot = .none ∧
      ResetFits a (s.ctes slot).cap)
    (hidx : idx = if reset then 0 else getUntypedFreeIndex a (s.ctes slot).cap)
    (hfit : ¬ (bit (getUntypedBlockSize a (s.ctes slot).cap) - freeIndexToOffset idx) >>>
      (r.bits a &&& 63).toNat < r.nodeWindow) :
    CapSteps a static (capSpace s) (capSpace (invokeUntypedRetype a s slot reset
      (alignUp (getFreeRef (getUntypedPtr a (s.ctes slot).cap) idx) (r.bits a)) r.newType
      r.userSize (getCNodePtr a r.nodeCap) r.nodeOffset r.nodeWindow
      (flag (deviceMem a (s.ctes slot).cap)))) := by
  have hul : s.ctes.capType slot ≠ .nullCap := by rw [hu]; decide
  have hok : CapOK a (s.ctes slot).cap := hinv.capOK hul
  have hfree := hok.free hu
  have hle : 16 * idx.toNat ≤ 2 ^ objBits a (s.ctes slot).cap := by
    rw [hidx]
    split
    · exact Nat.zero_le _
    · exact hfree
  have har : Area a (s.ctes slot).cap (16 * idx.toNat) (alignUp (getFreeRef
      (getUntypedPtr a (s.ctes slot).cap) idx) (r.bits a)) r.nodeWindow (r.bits a) :=
    area_of_fits hok hu hr.size.le hle hr.window.1 hfit
  rw [invokeUntypedRetype]
  generalize hstart : alignUp (getFreeRef (getUntypedPtr a (s.ctes slot).cap) idx) (r.bits a) =
    start at har ⊢
  -- the state before the loop
  have hpre : ∃ σ', (∀ x, σ' x = s.ctes x ∨ (σ' x = emptyCte ∧ s.ctes.capType x = .nullCap)) ∧
      ∀ i, capSpace (setFreeIndex a (if reset then resetUntypedCap a s slot else s) slot i) =
        CapSpace.setCap ⟨σ', s.origin, s.fresh⟩ slot (setUntypedFreeIndex a (σ' slot).cap i) := by
    cases reset with
    | false => exact ⟨s.ctes, fun x => .inl rfl, fun i => capSpace_setFreeIndex rfl⟩
    | true =>
      obtain ⟨hnc, hrf⟩ := hreset rfl
      obtain ⟨σ', hcl, he⟩ := resetUntypedCap_effect hu hok hrf
      refine ⟨σ', fun x => (hcl x).imp_right fun h => ⟨h.1, ?_⟩, he⟩
      refine hinv.block_empty hu (fun y hy => hinv.no_descendants hu hnc hy) ?_
      show Covers (extent a (s.ctes slot).cap) x
      rw [extent_physical (physical_untyped hu)]
      exact ⟨rfl, h.2⟩
  have hused : ∀ y, s.ctes.capType y ≠ .nullCap → (capSpace s).id slot ∈ (capSpace s).ancestors y →
      (extent a (s.ctes y).cap).hi ≤ (objBase a (s.ctes slot).cap).toNat + 16 * idx.toNat := by
    intro y hy hd
    cases reset with
    | false =>
      have hw : (extent a (s.ctes y).cap).Within
          (refOf a (s.ctes slot).cap (s.origin slot)).usedExtent := hinv.contained hu hy hd
      rw [refOf_usedExtent hu] at hw
      rw [hidx]
      exact hw.2.2
    | true => exact absurd hd (hinv.no_descendants hu (hreset rfl).1 hy)
  obtain ⟨σ', hσ, hcs⟩ := hpre
  obtain ⟨hsteps, hpend⟩ := hinv.retypeStart hu hr har hσ hused rfl (hcs _)
  refine hsteps.trans ?_
  have hdev : deviceMem a (s.ctes slot).cap = deviceMem a (setUntypedFreeIndex a
      (s.ctes slot).cap (getFreeIndex (getUntypedPtr a (s.ctes slot).cap)
        (start + r.nodeWindow <<< (r.bits a &&& 63).toNat))) := deviceMem_setFreeIndex.symm
  rw [hdev]
  exact RetypeRequest.Pending.createNewObjects (har.setFreeIndex hu)
    ((getCapType_setUntypedFreeIndex _ _).trans hu)
    (getUntypedFreeIndex_retyped hok hu hr har rfl) hr.size hvs hr.window.2 (Nat.le_refl _) hpend

/-- What the decoder does once the destination has been checked. -/
theorem decodeRetypeInto_cases {r : RetypeRequest}
    (h : (s', st) = decodeRetypeInto a s slot cap r.newType r.userSize r.nodeCap r.nodeOffset
      r.nodeWindow) :
    (st ≠ .none ∧ capSpace s' = capSpace s ∧
      (SizeError s' → deviceRejects a cap r.newType = true)) ∨
      (st = .none ∧ deviceRejects a cap r.newType = false ∧
        ∃ (s₁ : KernelState) (reset : Bool) (idx : Word), capSpace s₁ = capSpace s ∧
        (reset = true ↔ ensureNoChildren a s.ctes slot = .none) ∧
        (idx = if reset then 0 else getUntypedFreeIndex a cap) ∧
        ¬ (bit (getUntypedBlockSize a cap) - freeIndexToOffset idx) >>> (r.bits a &&& 63).toNat <
          r.nodeWindow ∧
        s' = invokeUntypedRetype a s₁ slot reset
          (alignUp (getFreeRef (getUntypedPtr a cap) idx) (r.bits a)) r.newType r.userSize
          (getCNodePtr a r.nodeCap) r.nodeOffset r.nodeWindow (flag (deviceMem a cap))) := by
  unfold decodeRetypeInto at h
  dsimp only at h
  generalize hreset : decide (ensureNoChildren a s.ctes slot = .none) = reset at h
  have hfailed : capSpace (if reset then s else (s.fail fun e => { e with type := .revokeFirst }).1) =
      capSpace s := by
    cases reset <;> rfl
  generalize (if reset then s else (s.fail fun e => { e with type := .revokeFirst }).1) = s₁ at *
  generalize hidx : (if reset then 0 else getUntypedFreeIndex a cap) = idx at h
  split at h
  · cases h
    exact .inl ⟨by decide, hfailed, fun e => by cases e.1⟩
  rename_i hfit
  split at h
  next hrej =>
    cases h
    exact .inl ⟨by decide, hfailed, fun _ => hrej⟩
  rename_i hrej
  cases h
  refine .inr ⟨rfl, Bool.eq_false_iff.mpr hrej, _, reset, idx, ?_, ?_, hidx.symm, hfit, rfl⟩
  · exact capSpace_setRestart.trans hfailed
  · rw [← hreset, decide_eq_true_iff]

theorem clearChunks_clears {base : Word} : ∀ {s : KernelState},
    (clearChunks s base n).ctes x = s.ctes x ∨ (clearChunks s base n).ctes x = emptyCte := by
  induction n with
  | zero =>
    intro s
    exact .inl rfl
  | succ n ih =>
    intro s
    rw [clearChunks]
    rcases ih (s := clearMemory s (base + BitVec.ofNat 64 n * bit resetChunkBits) resetChunkBits)
      with e | e
    · rw [e]
      exact ite_eq_or_eq _ _ _ |>.symm
    · exact .inr e

/-- A reset clears slots and writes the free index, which the retype sets next. -/
theorem resetUntypedCap_clears (s : KernelState) (reset : Bool) :
    ∃ σ' : Slots, (∀ x, σ' x = s.ctes x ∨ σ' x = emptyCte) ∧ ∀ index,
      (setFreeIndex a (if reset then resetUntypedCap a s slot else s) slot index).ctes =
        σ'.setCap slot (setUntypedFreeIndex a (σ' slot).cap index) := by
  cases reset with
  | false => exact ⟨s.ctes, fun x => .inl rfl, fun index => rfl⟩
  | true =>
  rw [if_pos rfl]
  have hset : ∀ {s₁ : KernelState} {i index : Word}, (setFreeIndex a (setFreeIndex a s₁ slot i) slot
      index).ctes = s₁.ctes.setCap slot (setUntypedFreeIndex a (s₁.ctes slot).cap index) :=
    fun {_ _ _} => Slots.setCap_setFreeIndex rfl
  unfold resetUntypedCap
  simp only
  split
  · exact ⟨s.ctes, fun x => .inl rfl, fun index => rfl⟩
  · split
    · exact ⟨_, fun x => ite_eq_or_eq _ _ _ |>.symm, fun index => hset⟩
    · exact ⟨_, fun x => clearChunks_clears, fun index => hset⟩

/-- A retype that goes through: what was asked for, and how it was done. -/
structure Retypes (a : Arch) (s s' : KernelState) (slot buffer : Word) (r : RetypeRequest)
    (s₁ : KernelState) (reset : Bool) (idx : Word) : Prop where
  checked : r.Checked a s.ctes
  asks : r.Asks a s buffer
  accepted : deviceRejects a (s.ctes slot).cap r.newType = false
  same : capSpace s₁ = capSpace s
  reset_iff : reset = true ↔ ensureNoChildren a s.ctes slot = .none
  index : idx = if reset then 0 else getUntypedFreeIndex a (s.ctes slot).cap
  fits : ¬ (bit (getUntypedBlockSize a (s.ctes slot).cap) - freeIndexToOffset idx) >>>
    (r.bits a &&& 63).toNat < r.nodeWindow
  run : s' = invokeUntypedRetype a s₁ slot reset
    (alignUp (getFreeRef (getUntypedPtr a (s.ctes slot).cap) idx) (r.bits a)) r.newType r.userSize
    (getCNodePtr a r.nodeCap) r.nodeOffset r.nodeWindow (flag (deviceMem a (s.ctes slot).cap))

/-- An invocation of an untyped cap fails and leaves the caps alone, or is such a retype. -/
theorem decodeUntypedInvocation_retypes
    (h : decodeUntypedInvocation a s label length slot (s.ctes slot).cap buffer = .ok (s', st)) :
    (st ≠ .none ∧ capSpace s' = capSpace s ∧ (SizeError s' →
      ∃ t, ObjectType.fromUsize a (getSyscallArg a s 0 buffer) = some t ∧
        (TooSmall t (getSyscallArg a s 1 buffer) ∨ deviceRejects a (s.ctes slot).cap t = true))) ∨
      st = .none ∧ ∃ r s₁ reset idx, Retypes a s s' slot buffer r s₁ reset idx := by
  rcases decodeUntypedInvocation_cases h with ⟨hst, he, herr⟩ | ⟨s₁, r, hcs₁, hr, hasks, h⟩
  · exact .inl ⟨hst, he, fun e => (herr e).imp fun t ht => ⟨ht.1, .inl ht.2⟩⟩
  rcases decodeRetypeInto_cases h with
    ⟨hst, he, herr⟩ | ⟨hst, hrej, s₂, reset, idx, hcs₂, hrs, hidx, hfit, hrun⟩
  · exact .inl ⟨hst, he.trans hcs₁, fun e => ⟨_, hasks.type, .inr (herr e)⟩⟩
  rw [show s₁.ctes = s.ctes from congrArg CapSpace.slots hcs₁] at hrs
  exact .inr ⟨hst, r, s₂, reset, idx, hr, hasks, hrej, hcs₂.trans hcs₁, hrs, hidx, hfit, hrun⟩

namespace Retypes

variable (h : Retypes a s s' slot buffer r s₁ reset idx)
include h

theorem slots : s₁.ctes = s.ctes := congrArg CapSpace.slots h.same

theorem clears : ∃ σ' : Slots, (∀ x, σ' x = s.ctes x ∨ σ' x = emptyCte) ∧ ∀ index,
    (setFreeIndex a (if reset then resetUntypedCap a s₁ slot else s₁) slot index).ctes =
      σ'.setCap slot (setUntypedFreeIndex a (σ' slot).cap index) :=
  h.slots ▸ resetUntypedCap_clears s₁ reset

theorem area (hok : CapOK a (s.ctes slot).cap) (hu : s.ctes.capType slot = .untypedCap) :
    Area a (s.ctes slot).cap (16 * idx.toNat) (alignUp (getFreeRef
      (getUntypedPtr a (s.ctes slot).cap) idx) (r.bits a)) r.nodeWindow (r.bits a) := by
  refine area_of_fits hok hu h.checked.size.le ?_ h.checked.window.1 h.fits
  rw [h.index]
  split
  · exact Nat.zero_le _
  · exact hok.free hu

end Retypes

/-- An invocation of an untyped cap takes steps of the capability space, unless
it makes VSpaces or its reset clears more than the block. -/
theorem decodeUntypedInvocation_steps (hinv : CapInv a static (capSpace s) ls)
    (hu : s.ctes.capType slot = .untypedCap)
    (hvs : ObjectType.fromUsize a (getSyscallArg a s 0 buffer) ≠ some .armVSpace)
    (hreset : ensureNoChildren a s.ctes slot = .none → ResetFits a (s.ctes slot).cap)
    (h : decodeUntypedInvocation a s label length slot (s.ctes slot).cap buffer =
      .ok (s', st)) : CapSteps a static (capSpace s) (capSpace s') := by
  rcases decodeUntypedInvocation_retypes h with ⟨-, he, -⟩ | ⟨-, r, s₁, reset, idx, hr⟩
  · rw [he]
    exact .refl
  have hne : r.newType ≠ .armVSpace := fun e => hvs (e ▸ hr.asks.type)
  have hrs := hr.reset_iff
  have hchecked := hr.checked
  have hidx := hr.index
  have hfit := hr.fits
  rw [hr.run, ← hr.same]
  rw [← hr.same] at hinv
  rw [← hr.slots] at hu hreset hrs hchecked hidx hfit ⊢
  exact invokeUntypedRetype_steps hinv hu hchecked hne (fun e => ⟨hrs.mp e, hreset (hrs.mp e)⟩) hidx
    hfit

end Rel4.Kernel
