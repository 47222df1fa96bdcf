import Mathlib.Order.Bounds.Basic
import Rel4.Ipc.Payload
import Rel4.Ipc.ReceiveSlot
import Rel4.Kernel.Derive

/-!
The caps of a message.

The sender names up to three slots; `lookup_extra_caps` puts them into an array and
stops at the first pointer that leads nowhere. `set_transfer_caps` goes through the
array up to the first zero: caps to the endpoint of the message are unwrapped, one
other cap goes to the receive slot. Nothing tells it that the array is incomplete.
-/

namespace Rel4.Ipc
open Lib.Bitfield Common CSpace Rel4.Task Kernel Function
open Task.KernelState
open Common.Field (miExtraCaps miCapsUnwrapped)
open List (mem_append mem_singleton length_append mem_cons_self mem_append_right take_left)

variable {info : MessageInfo} {s₁ : KernelState} {i j n : Nat} {buffer y : Word} {rest : List Word}
  {a : Arch} {s s' : KernelState} {t receiver : Word} {endpoint dest : Option Word} {σ σ' : Slots}
  {l p : List Word} {x d : Word} {c : CapT}

/-! ## What can be transferred -/

/-- The cap in slot `x` can be derived. -/
def Derives (a : Arch) (σ : Slots) (x : Word) : Prop :=
  ∃ c, deriveCap a σ x (σ x).cap = .ok (.none, c) ∧ getCapType c ≠ .nullCap

/-- The cap in slot `x` is sent as its badge. -/
def Unwraps (a : Arch) (σ : Slots) (endpoint : Option Word) (x : Word) : Bool :=
  isUnwrapped a (σ x).cap endpoint

/-- The caps in the slots `l` can be transferred together: all but at most one are
unwrapped, and this one can be derived to the receive slot `dest`. -/
structure Processable (a : Arch) (σ : Slots) (endpoint dest : Option Word) (l : List Word) :
    Prop where
  one : (l.filter fun x => !Unwraps a σ endpoint x).length ≤ 1
  derives : ∀ x ∈ l, Unwraps a σ endpoint x = false → dest ≠ none ∧ Derives a σ x

theorem processable_nil : Processable a σ endpoint dest [] :=
  ⟨Nat.zero_le 1, fun _ h => absurd h List.not_mem_nil⟩

theorem Processable.sublist (h : Processable a σ endpoint dest l) (hl : l'.Sublist l) :
    Processable a σ endpoint dest l' :=
  ⟨Nat.le_trans (hl.filter _).length_le h.one, fun x hx => h.derives x (hl.subset hx)⟩

/-- One more cap that is unwrapped. -/
theorem Processable.append_unwraps (h : Processable a σ endpoint dest l)
    (hx : Unwraps a σ endpoint x = true) : Processable a σ endpoint dest (l ++ [x]) := by
  refine ⟨?_, fun y hy hw => ?_⟩
  · simpa [hx] using h.one
  · rcases mem_append.mp hy with hy | hy
    · exact h.derives y hy hw
    · rw [mem_singleton.mp hy, hx] at hw
      cases hw

/-- One more cap that is derived, the first one. -/
theorem processable_append_derives (hl : ∀ y ∈ l, Unwraps a σ endpoint y = true)
    (hdest : dest ≠ none) (hx : Derives a σ x) : Processable a σ endpoint dest (l ++ [x]) := by
  refine ⟨?_, fun y hy hw => ?_⟩
  · rw [List.filter_append, List.filter_eq_nil_iff.mpr fun y hy => by simp [hl y hy],
      List.nil_append]
    exact List.length_filter_le _ _
  · rcases mem_append.mp hy with hy | hy
    · rw [hl y hy] at hw
      cases hw
    · rw [mem_singleton.mp hy]
      exact ⟨hdest, hx⟩

/-- There is no second cap that is not unwrapped. -/
theorem not_processable_append (hy : y ∈ l) (hwy : Unwraps a σ endpoint y = false)
    (hwx : Unwraps a σ endpoint x = false) : ¬Processable a σ endpoint dest (l ++ [x]) := by
  intro h
  have hone := h.one
  have hmem : y ∈ l.filter fun x => !Unwraps a σ endpoint x :=
    List.mem_filter.mpr ⟨hy, by simp [hwy]⟩
  have hpos := List.length_pos_of_mem hmem
  rw [List.filter_append, length_append, List.filter_singleton] at hone
  simp only [hwx, Bool.not_false, cond_true, List.length_singleton] at hone
  omega

/-- `n` is the length of the longest part of `l` from its beginning that can be
transferred. -/
def Longest (a : Arch) (σ : Slots) (endpoint dest : Option Word) (l : List Word) (n : Nat) : Prop :=
  IsGreatest {m | m ≤ l.length ∧ Processable a σ endpoint dest (l.take m)} n

/-! ## The slots that the sender names -/

/-- The slot that a pointer leads to. -/
def capSlot (a : Arch) (s : KernelState) (t cptr : Word) : Option Word :=
  match s.lookupSlot a t cptr with
  | .ok lu => if lu.status = .none then some lu.slot else none
  | .error _ => none

/-- The slots that the pointers in the buffer of `t` lead to. -/
def sentSlots (a : Arch) (s : KernelState) (t : Word) : List (Option Word) :=
  match s.lookupIpcBuffer a t false with
  | .ok (some buffer) => (List.range (sentTag a s t).getExtraCaps.toNat).map fun i =>
      capSlot a s t (s.userMemory (bufferCapsOrBadges buffer i))
  | _ => []

/-- The slots before the first pointer that leads nowhere. -/
def foundBefore : List (Option Word) → List Word
  | some x :: l => x :: foundBefore l
  | _ => []

/-- The slot that `get_receive_slot` finds. -/
def receiveSlot (a : Arch) (s : KernelState) (t : Word) : Option Word :=
  match s.getReceiveSlot a t with
  | .ok slot => slot
  | .error _ => none

theorem getD_append_singleton (x : Word) :
    update (fun j => p.getD j 0) p.length x = fun j => (p ++ [x]).getD j 0 := by
  funext j
  by_cases hj : j = p.length
  · subst hj
    simp
  rw [update_of_ne hj]
  by_cases hlt : j < p.length
  · exact (List.getD_append _ _ _ _ hlt).symm
  have hge : (p ++ [x]).length ≤ j := by
    rw [length_append, List.length_singleton]
    omega
  rw [List.getD_eq_default _ _ (by omega), List.getD_eq_default _ _ hge]

/-- The loop of `lookup_extra_caps` fills the array with the slots up to the first
failure; `p` are those that it has found before. -/
theorem lookupExtraCapsFrom_eq (hσ : CNodesOk a s.ctes) (buffer : Word) (n : Nat) (p : List Word) :
    ∃ fault, s.lookupExtraCapsFrom a t buffer p.length n (fun j => p.getD j 0) =
      .ok (fun j => (p ++ foundBefore ((List.range' p.length n).map fun i =>
        capSlot a s t (s.userMemory (bufferCapsOrBadges buffer i)))).getD j 0, fault) := by
  induction n generalizing p with
  | zero =>
    refine ⟨none, ?_⟩
    have hzero : update (fun j => p.getD j 0) p.length 0 = fun j => p.getD j 0 :=
      update_eq_self_iff.mpr (List.getD_eq_default _ _ (Nat.le_refl _)).symm
    rw [lookupExtraCapsFrom, hzero, ite_self]
    simp [foundBefore]
  | succ n ih =>
    obtain ⟨lu, hlu⟩ : ∃ lu, s.lookupSlot a t
        (s.userMemory (bufferCapsOrBadges buffer p.length)) = .ok lu := ⟨_, lookupSlot_eq hσ _⟩
    rw [lookupExtraCapsFrom]
    simp only [hlu, List.range'_succ, List.map_cons, capSlot]
    by_cases hst : lu.status = .none
    · obtain ⟨fault, hrest⟩ := ih (p ++ [lu.slot])
      rw [length_append, List.length_singleton, ← getD_append_singleton] at hrest
      refine ⟨fault, bind_eq_ok.mpr ⟨lu, rfl, ?_⟩⟩
      rw [if_neg (not_not.mpr hst), if_pos hst, hrest]
      simp [foundBefore, capSlot]
    · refine ⟨some (newCapFault (s.userMemory (bufferCapsOrBadges buffer p.length)) 0),
        bind_eq_ok.mpr ⟨lu, rfl, ?_⟩⟩
      rw [if_pos hst, if_neg hst, foundBefore, List.append_nil]
      · rfl
      · rintro x l ⟨⟩

/-- If no lookup fails, all slots are found. -/
theorem foundBefore_map_some (l : List Word) : foundBefore (l.map some) = l := by
  induction l with
  | nil => rfl
  | cons x l ih => exact congrArg (x :: ·) ih

theorem mem_of_mem_foundBefore {l : List (Option Word)} (h : x ∈ foundBefore l) : some x ∈ l := by
  induction l with
  | nil => cases h
  | cons o l ih =>
    cases o with
    | none => cases h
    | some y =>
      rcases List.mem_cons.mp h with rfl | h
      · exact mem_cons_self
      · exact List.mem_cons_of_mem _ (ih h)

/-- The slots that reach `set_transfer_caps`. -/
def grantedSlots (a : Arch) (s : KernelState) (t : Word) (canGrant : Bool) : List Word :=
  if canGrant then foundBefore (sentSlots a s t) else []

theorem grantedCaps_eq (hσ : CNodesOk a s.ctes) {buffer : Option Word}
    (hb : s.lookupIpcBuffer a t false = .ok buffer) (canGrant : Bool) :
    grantedCaps a s t canGrant = .ok fun j => (grantedSlots a s t canGrant).getD j 0 := by
  unfold grantedCaps grantedSlots sentSlots
  cases canGrant with
  | false => rfl
  | true =>
    rw [if_pos rfl, if_pos rfl, lookupExtraCaps, hb]
    cases buffer with
    | none => rfl
    | some buffer =>
      obtain ⟨fault, hfound⟩ := lookupExtraCapsFrom_eq hσ buffer
        (sentTag a s t).getExtraCaps.toNat []
      refine bind_eq_ok.mpr ⟨_, hfound, ?_⟩
      rw [List.range_eq_range']
      rfl

theorem length_foundBefore_le (l : List (Option Word)) : (foundBefore l).length ≤ l.length := by
  induction l with
  | nil => exact Nat.le_refl 0
  | cons o l ih =>
    cases o with
    | none => exact Nat.zero_le _
    | some x => exact Nat.succ_le_succ ih

theorem length_grantedSlots_le (a : Arch) (s : KernelState) (t : Word) (canGrant : Bool) :
    (grantedSlots a s t canGrant).length ≤ msgMaxExtraCaps := by
  have hsent : (sentSlots a s t).length ≤ msgMaxExtraCaps := by
    unfold sentSlots
    split
    · rw [List.length_map, List.length_range]
      have : (sentTag a s t).getExtraCaps.toNat < 2 ^ 2 := toNat_stored_lt (by decide)
      exact Nat.le_of_lt_succ this
    · exact Nat.zero_le _
  unfold grantedSlots
  split
  · exact Nat.le_trans (length_foundBefore_le _) hsent
  · exact Nat.zero_le _

/-! ## Inserting -/

/-- A slot that `cte_insert` accepts. -/
def EmptySlot (a : Arch) (σ : Slots) (d : Word) : Prop :=
  σ.capType d = .nullCap ∧ σ.next a d = 0 ∧ σ.prev a d = 0

/-- `derive_cap` keeps the type of the cap or gives a null cap. -/
theorem getCapType_deriveCap (h : deriveCap a σ x c = .ok (st, c')) :
    getCapType c' = .nullCap ∨ getCapType c' = getCapType c := by
  cases deriveCap_derivedTo h with
  | null hn => exact .inl hn
  | object _ hsame => exact .inr hsame.capType_eq
  | untyped _ he _ => exact .inr (congrArg getCapType he)

/-- All caps are of types that the kernel has. -/
def CapsDefined (a : Arch) (σ : Slots) : Prop :=
  ∀ x, σ.capType x ≠ .undefined ∧ (a = .riscv64 → σ.capType x ≠ .vspaceCap)

theorem CapsDefined.update {p : Word} {c : CteT} (h : CapsDefined a σ)
    (hc : getCapType c.cap ≠ .undefined ∧ (a = .riscv64 → getCapType c.cap ≠ .vspaceCap)) :
    CapsDefined a (update σ p c) := by
  intro y
  by_cases hy : y = p
  · subst hy
    simp only [Slots.capType, update_self]
    exact hc
  · simp only [Slots.capType, update_of_ne hy]
    exact h y

theorem deriveCap_ok (h : getCapType c ≠ .undefined ∧ (a = .riscv64 → getCapType c ≠ .vspaceCap)) :
    ∃ r, deriveCap a σ x c = .ok r := by
  obtain ⟨hundef, hvspace⟩ := h
  unfold deriveCap
  cases ht : getCapType c <;> simp only
  case undefined => exact absurd ht hundef
  case vspaceCap =>
    cases a with
    | riscv64 => exact absurd ht (hvspace rfl)
    | aarch64 =>
      simp only
      split <;> exact ⟨_, rfl⟩
  case untypedCap | pageTableCap => split <;> exact ⟨_, rfl⟩
  case frameCap => cases a <;> exact ⟨_, rfl⟩
  all_goals exact ⟨_, rfl⟩

/-- An endpoint cap is derived to itself. -/
theorem deriveCap_endpoint (h : deriveCap a σ x c = .ok (st, c'))
    (ht : getCapType c' = .endpointCap) : c' = c := by
  have hc : getCapType c = .endpointCap := by
    rcases getCapType_deriveCap h with hn | hs
    · rw [ht] at hn
      cases hn
    · rw [← hs, ht]
  simp only [deriveCap, hc] at h
  cases h
  rfl

theorem isCapRevocable_ok (h : getCapType c' = .nullCap ∨ getCapType c' = getCapType c) :
    ∃ r, isCapRevocable a c' c = .ok r := by
  unfold isCapRevocable
  split
  · exact ⟨false, rfl⟩
  cases ht : getCapType c' <;> simp only <;> try exact ⟨_, rfl⟩
  case endpointCap | notificationCap =>
    rw [ht] at h
    rw [ensure_of (h.resolve_left (by decide)).symm]
    exact ⟨_, rfl⟩

theorem emptySlot_of_cteInsert (h : cteInsert a σ c x d = .ok σ') : EmptySlot a σ d := by
  obtain ⟨_, -, h⟩ := bind_eq_ok.mp h
  obtain ⟨_, hnull, h⟩ := bind_eq_ok.mp h
  obtain ⟨_, hlinks, h⟩ := bind_eq_ok.mp h
  exact ⟨ensure_eq_ok.mp hnull, ensure_eq_ok.mp hlinks⟩

theorem cteInsert_ok (hc : getCapType c = .nullCap ∨ getCapType c = σ.capType x)
    (hd : EmptySlot a σ d) : ∃ σ', cteInsert a σ c x d = .ok σ' := by
  obtain ⟨r, hr⟩ := isCapRevocable_ok hc
  exact ⟨_, bind_eq_ok.mpr ⟨r, hr, bind_eq_ok.mpr ⟨(), ensure_eq_ok.mpr hd.1,
    bind_eq_ok.mpr ⟨(), ensure_eq_ok.mpr hd.2, bind_eq_ok.mpr ⟨_, setUntypedCapAsFull_eq, rfl⟩⟩⟩⟩⟩

/-- The transfer of one cap derives it to an empty slot, does nothing if it cannot be
derived, and aborts if the slot is occupied. -/
theorem transferCap_cases (hd : ∃ r, deriveCap a s.ctes x (s.ctes x).cap = .ok r) :
    (transferCap a s x d = .ok none ∧ ¬Derives a s.ctes x) ∨
      (∃ c s₁, transferCap a s x d = .ok (some s₁) ∧
        deriveCap a s.ctes x (s.ctes x).cap = .ok (.none, c) ∧ getCapType c ≠ .nullCap ∧
        cteInsert a s.ctes c x d = .ok s₁.ctes ∧ s₁.tcbs = s.tcbs ∧ s₁.userMemory = s.userMemory) ∨
      ((∃ e, transferCap a s x d = .error e) ∧ Derives a s.ctes x ∧ ¬EmptySlot a s.ctes d) := by
  obtain ⟨⟨st, c⟩, hderive⟩ := hd
  have hstart : transferCap a s x d = if st ≠ .none ∨ getCapType c = .nullCap then pure none else do
        let s ← s.insertCap a c x d
        return some s := by
    rw [transferCap, hderive]
    rfl
  rw [hstart]
  by_cases hgive : st ≠ .none ∨ getCapType c = .nullCap
  · refine .inl ⟨if_pos hgive, ?_⟩
    rintro ⟨c', hc', hn⟩
    cases hderive.symm.trans hc'
    exact hgive.elim (fun h => h rfl) hn
  obtain ⟨hst, hn⟩ := not_or.mp hgive
  obtain rfl := not_not.mp hst
  rw [if_neg hgive, insertCap]
  by_cases hempty : EmptySlot a s.ctes d
  · obtain ⟨σ', hσ'⟩ := cteInsert_ok (getCapType_deriveCap hderive) hempty
    rw [hσ']
    exact .inr (.inl ⟨c, _, rfl, hderive, hn, hσ', rfl, rfl⟩)
  refine .inr (.inr ⟨?_, ⟨c, hderive, hn⟩, hempty⟩)
  cases hins : cteInsert a s.ctes c x d with
  | ok σ' => exact absurd (emptySlot_of_cteInsert hins) hempty
  | error e => exact ⟨e, rfl⟩

/-! ## The loop -/

/-- What the transfer of the caps in the slots `p` has made of the slots and of the
receive slot: the one cap that was not unwrapped has been inserted. -/
inductive Inserted (a : Arch) (σ : Slots) (endpoint dest : Option Word) (p : List Word) :
    Slots → Option Word → Prop
  | unwrapped (h : ∀ x ∈ p, Unwraps a σ endpoint x = true) : Inserted a σ endpoint dest p σ dest
  | one {x d : Word} {c : CapT} {σ' : Slots} (hx : x ∈ p) (hw : Unwraps a σ endpoint x = false)
    (hdest : dest = some d) (hd : deriveCap a σ x (σ x).cap = .ok (.none, c))
    (hn : getCapType c ≠ .nullCap) (hins : cteInsert a σ c x d = .ok σ') :
    Inserted a σ endpoint dest p σ' none

namespace Inserted

/-- The caps that are unwrapped are still there, and there are no new ones. -/
theorem cap (h : Inserted a σ endpoint dest p σ' dest') (y : Word) :
    Unwraps a σ' endpoint y = Unwraps a σ endpoint y ∧
      (Unwraps a σ endpoint y = true → (σ' y).cap = (σ y).cap) := by
  cases h with
  | unwrapped => exact ⟨rfl, fun _ => rfl⟩
  | @one x d c σ' hx hw hdest hd hn hins =>
    have hcap := cap_cteInsert hins y
    have htype : ∀ {z : CapT}, getCapType z ≠ .endpointCap → isUnwrapped a z endpoint = false :=
      fun hz => by simp [isUnwrapped, hz]
    unfold Unwraps at hw ⊢
    split at hcap
    next hy =>
      -- the cap in the receive slot is not to the endpoint, since its source is not
      subst hy
      have hempty := (emptySlot_of_cteInsert hins).1
      have hold : isUnwrapped a (σ y).cap endpoint = false := htype fun ht => by
          rw [Slots.capType, ht] at hempty
          cases hempty
      have hnew : isUnwrapped a (σ' y).cap endpoint = false := by
        rw [hcap]
        by_cases ht : getCapType c = .endpointCap
        · rw [deriveCap_endpoint hd ht, hw]
        · exact htype ht
      rw [hold, hnew]
      exact ⟨rfl, by simp⟩
    next =>
      split at hcap
      next hy =>
        subst hy
        have hnew : isUnwrapped a (σ' y).cap endpoint = false := by
          by_cases ht : getCapType (σ y).cap = .endpointCap
          · have hsource : sourceCapAfter a (σ y).cap c = (σ y).cap := if_neg fun h => by
                rw [ht] at h
                cases h.1
            rw [hcap, hsource, hw]
          · exact htype (by rwa [hcap, getCapType_sourceCapAfter])
        rw [hw, hnew]
        exact ⟨rfl, by simp⟩
      next =>
        rw [hcap]
        exact ⟨rfl, fun _ => rfl⟩

theorem append_unwraps (h : Inserted a σ endpoint dest p σ' dest')
    (hx : Unwraps a σ endpoint x = true) : Inserted a σ endpoint dest (p ++ [x]) σ' dest' := by
  cases h with
  | unwrapped h =>
    refine .unwrapped fun y hy => ?_
    rcases mem_append.mp hy with hy | hy
    · exact h y hy
    · rw [mem_singleton.mp hy, hx]
  | one hy hw hdest hd hn hins => exact .one (List.mem_append_left _ hy) hw hdest hd hn hins

/-- As long as there is a receive slot, nothing has been inserted. -/
theorem of_some (h : Inserted a σ endpoint dest p σ' (some d)) :
    σ' = σ ∧ dest = some d ∧ ∀ x ∈ p, Unwraps a σ endpoint x = true := by
  generalize hdest' : some d = dest' at h
  cases h with
  | unwrapped h => exact ⟨rfl, rfl, h⟩
  | one => cases hdest'

theorem eq_of_nil (h : Inserted a σ endpoint dest [] σ' dest') : σ' = σ := by
  cases h with
  | unwrapped => rfl
  | one hx => cases hx

/-- Without a receive slot a cap that is not unwrapped cannot be processed. -/
theorem not_processable (h : Inserted a σ endpoint dest p σ' none)
    (hx : Unwraps a σ endpoint x = false) : ¬Processable a σ endpoint dest (p ++ [x]) := by
  generalize hdest' : (none : Option Word) = dest' at h
  cases h with
  | unwrapped h =>
    intro hp
    exact (hp.derives x (mem_append_right p mem_cons_self) hx).1 hdest'.symm
  | one hy hw => exact not_processable_append hy hw hx

end Inserted

/-- The state after the caps in the slots `p` have been transferred. -/
structure Progress (a : Arch) (s₀ : KernelState) (endpoint : Option Word) (buffer : Word)
    (dest₀ : Option Word) (p : List Word) (s : KernelState) (info : MessageInfo)
    (dest : Option Word) : Prop where
  processable : Processable a s₀.ctes endpoint dest₀ p
  inserted : Inserted a s₀.ctes endpoint dest₀ p s.ctes dest
  unwrapped : ∀ j, info.getCapsUnwrapped.getLsbD j = true ↔
    ∃ x, p[j]? = some x ∧ Unwraps a s₀.ctes endpoint x = true
  badges : ∀ j x, p[j]? = some x → Unwraps a s₀.ctes endpoint x = true →
    s.userMemory (bufferCapsOrBadges buffer j) = getEpBadge a (s₀.ctes x).cap
  memory : ∀ q, (∀ j x, p[j]? = some x → Unwraps a s₀.ctes endpoint x = true →
    q ≠ bufferCapsOrBadges buffer j) → s.userMemory q = s₀.userMemory q

/-- The words for the badges are apart. -/
theorem bufferCapsOrBadges_inj (hi : i < 3) (hj : j < 3)
    (h : bufferCapsOrBadges buffer i = bufferCapsOrBadges buffer j) : i = j := by
  rw [bufferCapsOrBadges_eq, bufferCapsOrBadges_eq] at h
  have heq := congrArg BitVec.toNat h
  rw [BitVec.toNat_add, BitVec.toNat_add, toNat_wordOffset (by omega),
    toNat_wordOffset (by omega)] at heq
  omega

theorem getCapsUnwrapped_unwrapCap (hi : i < 3) (j : Nat) :
    (unwrapCap info i).getCapsUnwrapped.getLsbD j =
      (info.getCapsUnwrapped.getLsbD j || decide (j = i)) := by
  have hi' : (BitVec.ofNat 64 i).toNat = i := by
    rw [BitVec.toNat_ofNat, Nat.mod_eq_of_lt (by omega)]
  have hbit : (bit (BitVec.ofNat 64 i)).getLsbD j = decide (i = j) := by
    rw [← BitVec.testBit_toNat, toNat_bit (by omega), hi', Nat.testBit_two_pow]
  have hshift : miCapsUnwrapped.shift + j = j := Nat.zero_add j
  have hnew : (unwrapCap info i).getCapsUnwrapped.getLsbD j =
      ((info.getCapsUnwrapped.getLsbD j || decide (i = j)) && decide (j < 64) &&
        decide (j < miCapsUnwrapped.bits)) := by
    rw [unwrapCap, MessageInfo.getCapsUnwrapped, stored_set_self (by decide), getLsbD_raw,
      hshift, BitVec.getLsbD_or, hbit]
  rw [hnew]
  by_cases hj : j < miCapsUnwrapped.bits
  · have hj' : j < 3 := hj
    simp [hj, show j < 64 by omega, eq_comm]
  have hj' : ¬j < 3 := hj
  have hold : info.getCapsUnwrapped.getLsbD j = false := by
    rw [MessageInfo.getCapsUnwrapped, getLsbD_stored]
    simp [hj]
  simp [hj, hold, show j ≠ i by omega]

section Loop

variable {s₀ : KernelState} {buffer : Word} {dest₀ : Option Word} {info : MessageInfo}

theorem getElem?_append_singleton :
    (p ++ [x])[j]? = some y ↔ p[j]? = some y ∨ (j = p.length ∧ y = x) := by
  rw [List.getElem?_append]
  split
  next hj => exact ⟨.inl, fun h => h.resolve_right fun h => by omega⟩
  next hj =>
    have hnone : p[j]? = none := List.getElem?_eq_none (by omega)
    rw [hnone, List.getElem?_singleton]
    split
    next hz => exact ⟨fun h => .inr ⟨by omega, (Option.some.inj h).symm⟩,
      fun h => by rw [(h.resolve_left nofun).2]⟩
    next hz => exact ⟨nofun, fun h => by have := (h.resolve_left nofun).1; omega⟩

/-- A cap to the endpoint is unwrapped. -/
theorem Progress.unwrap (h : Progress a s₀ endpoint buffer dest₀ p s info dest)
    (hx : Unwraps a s₀.ctes endpoint x = true) (hp : p.length < 3) :
    Progress a s₀ endpoint buffer dest₀ (p ++ [x])
      (s.setUserWord (bufferCapsOrBadges buffer p.length) (getEpBadge a (s.ctes x).cap))
      (unwrapCap info p.length) dest := by
  have hlt : ∀ {j y}, p[j]? = some y → j < p.length := fun hj =>
    (List.getElem?_eq_some_iff.mp hj).1
  refine ⟨h.processable.append_unwraps hx, h.inserted.append_unwraps hx, fun j => ?_,
    fun j y hy hw => ?_, fun q hq => ?_⟩
  · rw [getCapsUnwrapped_unwrapCap hp, Bool.or_eq_true, decide_eq_true_eq, h.unwrapped]
    simp only [getElem?_append_singleton]
    constructor
    · rintro (⟨y, hy, hw⟩ | rfl)
      · exact ⟨y, .inl hy, hw⟩
      · exact ⟨x, .inr ⟨rfl, rfl⟩, hx⟩
    · rintro ⟨y, hy | ⟨rfl, rfl⟩, hw⟩
      · exact .inl ⟨y, hy, hw⟩
      · exact .inr rfl
  · rcases getElem?_append_singleton.mp hy with hy | ⟨rfl, rfl⟩
    · have hj := hlt hy
      refine (update_of_ne (fun he => ?_) _ _).trans (h.badges j y hy hw)
      have := bufferCapsOrBadges_inj (by omega) hp he
      omega
    · rw [← (h.inserted.cap y).2 hw]
      exact update_self ..
  · refine (update_of_ne (hq p.length x ?_ hx) _ _).trans (h.memory q fun j y hy => ?_)
    · exact getElem?_append_singleton.mpr (.inr ⟨rfl, rfl⟩)
    · exact hq j y (getElem?_append_singleton.mpr (.inl hy))

/-- Another cap is inserted, if it is the first one. -/
theorem Progress.insert (h : Progress a s₀ endpoint buffer dest₀ p s info (some d))
    (hx : Unwraps a s₀.ctes endpoint x = false)
    (hd : deriveCap a s.ctes x (s.ctes x).cap = .ok (.none, c)) (hn : getCapType c ≠ .nullCap)
    (hins : cteInsert a s.ctes c x d = .ok s₁.ctes) (hmem : s₁.userMemory = s.userMemory) :
    Progress a s₀ endpoint buffer dest₀ (p ++ [x]) s₁ info none := by
  -- nothing has been inserted yet, since there still is a receive slot
  obtain ⟨hctes, hdest, hp⟩ := h.inserted.of_some
  rw [hctes] at hd hins
  have hunwraps : ∀ (j : Nat) y, (p ++ [x])[j]? = some y → Unwraps a s₀.ctes endpoint y = true →
      p[j]? = some y := by
    intro j y hy hw
    rcases getElem?_append_singleton.mp hy with hy | ⟨rfl, rfl⟩
    · exact hy
    · rw [hx] at hw
      cases hw
  have hsame : ∀ (j : Nat) y, p[j]? = some y → (p ++ [x])[j]? = some y := fun j y hy =>
    getElem?_append_singleton.mpr (.inl hy)
  refine ⟨processable_append_derives hp (by rw [hdest]; nofun) ⟨c, hd, hn⟩,
    .one (mem_append_right p mem_cons_self) hx hdest hd hn hins, fun j => ?_,
    fun j y hy hw => ?_, fun q hq => ?_⟩
  · rw [h.unwrapped]
    exact ⟨fun ⟨y, hy, hw⟩ => ⟨y, hsame j y hy, hw⟩, fun ⟨y, hy, hw⟩ => ⟨y, hunwraps j y hy hw, hw⟩⟩
  · rw [hmem]
    exact h.badges j y (hunwraps j y hy hw) hw
  · rw [hmem]
    exact h.memory q fun j y hy => hq j y (hsame j y hy)

/-- A cap would have to be inserted into a slot that is not empty. -/
def Blocked (a : Arch) (σ : Slots) (endpoint dest : Option Word) (l : List Word) : Prop :=
  ∃ p x d, p ++ [x] <+: l ∧ (∀ y ∈ p, Unwraps a σ endpoint y = true) ∧
    Unwraps a σ endpoint x = false ∧ dest = some d ∧ Derives a σ x ∧ ¬EmptySlot a σ d

/-- The end of the loop: a part of the caps, as long as can be, has been transferred. -/
structure Transferred (a : Arch) (s₀ : KernelState) (endpoint : Option Word) (buffer : Word)
    (dest₀ : Option Word) (l : List Word) (s : KernelState) (info : MessageInfo) (n : Nat) :
    Prop where
  progress : ∃ dest, Progress a s₀ endpoint buffer dest₀ (l.take n) s info dest
  longest : Longest a s₀.ctes endpoint dest₀ l n

/-- If the loop has ended, no cap was blocked. -/
theorem Inserted.not_blocked (h : Inserted a σ endpoint dest (l.take n) σ' dest')
    (hn : Longest a σ endpoint dest l n) : ¬Blocked a σ endpoint dest l := by
  rintro ⟨p, x, d, ⟨rest, rfl⟩, hp, hx, hdest, hderives, hfull⟩
  -- the blocked cap could be processed, so it was
  have hlen : (p ++ [x]).length ≤ n := by
    refine hn.2 ⟨?_, ?_⟩
    · exact (List.prefix_append (p ++ [x]) rest).length_le
    · rw [take_left]
      exact processable_append_derives hp (by rw [hdest]; nofun) hderives
  have hmem : x ∈ (p ++ [x] ++ rest).take n := by
    refine (List.take_prefix_take_left hlen).subset ?_
    rw [take_left]
    exact mem_append_right p mem_cons_self
  cases h with
  | unwrapped h =>
    rw [h x hmem] at hx
    cases hx
  | one _ _ hdest' _ _ hins =>
    cases hdest.symm.trans hdest'
    exact hfull (emptySlot_of_cteInsert hins)

/-- The loop ends where no further cap can be processed. -/
theorem Progress.stop (h : Progress a s₀ endpoint buffer dest₀ p s info dest)
    (hstop : ∀ x rest', rest = x :: rest' → ¬Processable a s₀.ctes endpoint dest₀ (p ++ [x])) :
    Transferred a s₀ endpoint buffer dest₀ (p ++ rest) s info p.length := by
  have htake : (p ++ rest).take p.length = p := take_left
  have hlen : (p ++ rest).length = p.length + rest.length := length_append
  refine ⟨⟨dest, htake.symm ▸ h⟩, ⟨by omega, htake.symm ▸ h.processable⟩, fun m hm => ?_⟩
  by_contra hlt
  have hnext := hm.2.sublist (List.take_sublist_take_left (show p.length + 1 ≤ m by omega))
  cases rest with
  | nil => exact hlt (Nat.le_trans hm.1 (Nat.le_of_eq hlen))
  | cons x rest' =>
    rw [List.take_length_add_append, List.take_succ_cons, List.take_zero] at hnext
    exact hstop x rest' rfl hnext

/-- What the loop can come to. -/
def LoopEnds (a : Arch) (s₀ : KernelState) (endpoint : Option Word) (buffer : Word)
    (dest₀ : Option Word) (l : List Word) : Exec (KernelState × MessageInfo × Nat) → Prop
  | .ok (s, info, n) => Transferred a s₀ endpoint buffer dest₀ l s info n
  | .error _ => Blocked a s₀.ctes endpoint dest₀ l

/-- The loop of `set_transfer_caps` from `p` on, if `p` has been transferred. -/
theorem loopEnds_transferCapsFrom
    (hderive : ∀ x ∈ rest, ∃ r, deriveCap a s₀.ctes x (s₀.ctes x).cap = .ok r)
    (hne : ∀ x ∈ rest, x ≠ 0) (hn : p.length + n = msgMaxExtraCaps) (hrest : rest.length ≤ n)
    (h : Progress a s₀ endpoint buffer dest₀ p s info dest) :
    LoopEnds a s₀ endpoint buffer dest₀ (p ++ rest)
      (transferCapsFrom a endpoint buffer (fun j => (p ++ rest).getD j 0) p.length n s info
        dest) := by
  induction n generalizing p rest s info dest with
  | zero =>
    obtain rfl : rest = [] := List.length_eq_zero_iff.mp (Nat.le_zero.mp hrest)
    exact h.stop nofun
  | succ n ih =>
    rw [transferCapsFrom]
    cases rest with
    | nil =>
      rw [if_pos (by simp)]
      exact h.stop nofun
    | cons x rest =>
      have hx : (p ++ x :: rest).getD p.length 0 = x := by simp
      -- the remaining turns, once `x` has been transferred
      have hnext : ∀ {s₁ info₁ dest₁},
          Progress a s₀ endpoint buffer dest₀ (p ++ [x]) s₁ info₁ dest₁ →
          LoopEnds a s₀ endpoint buffer dest₀ (p ++ x :: rest)
            (transferCapsFrom a endpoint buffer (fun j => (p ++ x :: rest).getD j 0)
              (p.length + 1) n s₁ info₁ dest₁) := by
        intro s₁ info₁ dest₁ h₁
        have hlen : (p ++ [x]).length = p.length + 1 := length_append
        rw [List.append_cons, ← hlen]
        refine ih (fun y hy => hderive y (.tail x hy)) (fun y hy => hne y (.tail x hy)) ?_ ?_ h₁
        · rw [hlen]
          omega
        · simpa using hrest
      simp only [hx]
      rw [if_neg (hne x mem_cons_self)]
      have hsame : isUnwrapped a (s.ctes x).cap endpoint = Unwraps a s₀.ctes endpoint x :=
        (h.inserted.cap x).1
      rw [hsame]
      cases hw : Unwraps a s₀.ctes endpoint x with
      | true => exact hnext (h.unwrap hw (by rw [msgMaxExtraCaps] at hn; omega))
      | false =>
        rw [if_neg Bool.false_ne_true]
        cases dest with
        | none =>
          refine h.stop ?_
          rintro _ _ ⟨⟩
          exact h.inserted.not_processable hw
        | some d =>
          obtain ⟨hctes, hdest, hp⟩ := h.inserted.of_some
          have hd := hderive x mem_cons_self
          rw [← hctes] at hd
          rcases transferCap_cases (d := d) hd with
            ⟨htr, hnot⟩ | ⟨c, s₁, htr, hc, hnull, hins, -, hmem⟩ | ⟨⟨e, htr⟩, hderives, hfull⟩
          · simp only [htr]
            refine h.stop ?_
            rintro _ _ ⟨⟩ hproc
            rw [hctes] at hnot
            exact hnot (hproc.derives x (mem_append_right p mem_cons_self) hw).2
          · simp only [htr]
            exact hnext (h.insert hw hc hnull hins hmem)
          · simp only [htr]
            rw [hctes] at hderives hfull
            exact ⟨p, x, d, ⟨rest, (List.append_cons ..).symm⟩, hp, hw, hdest, hderives, hfull⟩

end Loop

/-! ## The receive slot -/

/-- Both lookups find the same buffer. -/
theorem lookupMutIpcBuffer_of_lookup (h : s.lookupIpcBuffer a t isReceiver = .ok (some buffer)) :
    s.lookupMutIpcBuffer a t isReceiver = .ok (some buffer) := by
  unfold lookupIpcBuffer at h
  unfold lookupMutIpcBuffer
  simp only at h ⊢
  split at h
  · cases h
  rename_i ht
  rw [if_neg ht]
  split at h
  · cases h
  · exact h

theorem getReceiveSlot_ok (hσ : CNodesOk a s.ctes) (hb : BufferOk a s t) :
    s.getReceiveSlot a t = .ok (receiveSlot a s t) := by
  have hok : ∃ r, s.getReceiveSlot a t = .ok r := by
    obtain ⟨buffer, hbuffer, -⟩ := lookupIpcBuffer_ok hb true
    unfold getReceiveSlot
    rw [hbuffer]
    cases buffer with
    | none => exact ⟨none, rfl⟩
    | some buffer =>
      obtain ⟨lu, hlu⟩ : ∃ lu, s.lookupSlot a t (s.userMemory (bufferReceiveCNode buffer)) =
        .ok lu := ⟨_, lookupSlot_eq hσ _⟩
      obtain ⟨lus, hlus⟩ : ∃ lus, resolveAddressBits a s.ctes (s.ctes lu.slot).cap
        (s.userMemory (bufferReceiveIndex buffer)) (s.userMemory (bufferReceiveDepth buffer)) =
        .ok lus := ⟨_, resolveAddressBits_eq_walk (hσ lu.slot) hσ⟩
      simp only [bind, Except.bind, hlu, hlus]
      split
      · exact ⟨none, rfl⟩
      · split <;> exact ⟨_, rfl⟩
  obtain ⟨r, hr⟩ := hok
  rw [receiveSlot, hr]

/-- The words of a message do not name the receive slot. -/
theorem getReceiveSlot_congr (hctes : s'.ctes = s.ctes)
    (hbuffer : s'.lookupIpcBuffer a t true = s.lookupIpcBuffer a t true)
    (hwords : ∀ buffer, s.lookupIpcBuffer a t true = .ok (some buffer) →
      ∀ k : Word, 125 ≤ k.toNat → k.toNat < 128 →
        s'.userMemory (buffer + 8 * k) = s.userMemory (buffer + 8 * k)) :
    s'.getReceiveSlot a t = s.getReceiveSlot a t := by
  unfold getReceiveSlot
  rw [hbuffer]
  cases hb : s.lookupIpcBuffer a t true with
  | error e => simp only [bind, Except.bind]
  | ok buffer =>
    cases buffer with
    | none => simp only [bind, Except.bind]
    | some buffer =>
      have hcnode : s'.userMemory (bufferReceiveCNode buffer) =
        s.userMemory (bufferReceiveCNode buffer) := hwords buffer hb 125 (by decide) (by decide)
      have hindex : s'.userMemory (bufferReceiveIndex buffer) =
        s.userMemory (bufferReceiveIndex buffer) := hwords buffer hb 126 (by decide) (by decide)
      have hdepth : s'.userMemory (bufferReceiveDepth buffer) =
        s.userMemory (bufferReceiveDepth buffer) := hwords buffer hb 127 (by decide) (by decide)
      simp only [bind, Except.bind, lookupSlot, hctes, hcnode, hindex, hdepth]

/-! ## Messages with caps -/

/-- The buffer of the receiver. -/
def recvBuffer (a : Arch) (s : KernelState) (t : Word) : Option Word :=
  match s.lookupMutIpcBuffer a t true with
  | .ok buffer => buffer
  | .error _ => none

/-- No cap is inserted and no badge is unwrapped. -/
structure NothingTransferred (a : Arch) (s s' : KernelState) (receiver : Word) : Prop where
  ctes : s'.ctes = s.ctes
  extraCaps : (deliveredInfo a s' receiver).getExtraCaps = 0
  capsUnwrapped : (deliveredInfo a s' receiver).getCapsUnwrapped = 0
  badges : ∀ b, recvBuffer a s receiver = some b → ∀ j < msgMaxExtraCaps,
    s'.userMemory (bufferCapsOrBadges b j) = s.userMemory (bufferCapsOrBadges b j)

/-- The first `n` caps in the slots `l` have been transferred, in order: those to the
endpoint as their badges, and at most one other into the receive slot. -/
structure CapsTransferred (a : Arch) (s s' : KernelState) (receiver : Word)
    (endpoint : Option Word) (b : Word) (l : List Word) (n : Nat) : Prop where
  longest : Longest a s.ctes endpoint (receiveSlot a s receiver) l n
  extraCaps : (deliveredInfo a s' receiver).getExtraCaps.toNat = n
  inserted : ∃ dest, Inserted a s.ctes endpoint (receiveSlot a s receiver) (l.take n) s'.ctes dest
  capsUnwrapped : ∀ j, (deliveredInfo a s' receiver).getCapsUnwrapped.getLsbD j = true ↔
    ∃ x, (l.take n)[j]? = some x ∧ Unwraps a s.ctes endpoint x = true
  badges : ∀ j x, (l.take n)[j]? = some x → Unwraps a s.ctes endpoint x = true →
    s'.userMemory (bufferCapsOrBadges b j) = getEpBadge a (s.ctes x).cap
  words : ∀ j < msgMaxExtraCaps, (∀ x, (l.take n)[j]? = some x →
      Unwraps a s.ctes endpoint x = false) →
    s'.userMemory (bufferCapsOrBadges b j) = s.userMemory (bufferCapsOrBadges b j)

/-- Without a buffer of the receiver nothing is transferred. -/
def CapsDelivered (a : Arch) (s s' : KernelState) (receiver : Word) (endpoint : Option Word)
    (l : List Word) : Prop :=
  match recvBuffer a s receiver with
  | none => NothingTransferred a s s' receiver
  | some b => ∃ n, CapsTransferred a s s' receiver endpoint b l n

/-- A transfer of caps as it should be: it returns; if a lookup fails or there is no
right to grant, nothing is transferred; otherwise the caps are. -/
def CapTransferExact (a : Arch) (s : KernelState) (t receiver : Word) (endpoint : Option Word)
    (badge : Word) (canGrant : Bool) : Prop :=
  ∃ s', doNormalTransfer a s t receiver endpoint badge canGrant = .ok s' ∧
    (canGrant = false ∨ none ∈ sentSlots a s t → NothingTransferred a s s' receiver) ∧
    ∀ l : List Word, canGrant = true → sentSlots a s t = l.map some →
      CapsDelivered a s s' receiver endpoint l

/-- The first cap cannot be processed. -/
def HeadStops (a : Arch) (σ : Slots) (endpoint dest : Option Word) (l : List Word) : Prop :=
  ∀ x, l.head? = some x → ¬Processable a σ endpoint dest [x]

/-- If a lookup fails, the first cap must be one that cannot be processed; if none
fails, the receive slot must be empty when it is needed. -/
def CapTransferOk (a : Arch) (s : KernelState) (t receiver : Word) (endpoint : Option Word)
    (canGrant : Bool) : Prop :=
  canGrant = true → recvBuffer a s receiver ≠ none →
    if none ∈ sentSlots a s t then
      HeadStops a s.ctes endpoint (receiveSlot a s receiver) (foundBefore (sentSlots a s t))
    else ¬Blocked a s.ctes endpoint (receiveSlot a s receiver) (foundBefore (sentSlots a s t))

/-! ## The message info -/

/-- The message info at the start of `set_transfer_caps`. -/
def clearedInfo (info : MessageInfo) : MessageInfo :=
  miCapsUnwrapped.set (miExtraCaps.set info 0) 0

theorem getCapsUnwrapped_clearedInfo (info : MessageInfo) :
    (clearedInfo info).getCapsUnwrapped = 0 := by
  rw [clearedInfo, MessageInfo.getCapsUnwrapped, stored_set_self (by decide)]
  decide

theorem getExtraCaps_clearedInfo (info : MessageInfo) : (clearedInfo info).getExtraCaps = 0 := by
  rw [clearedInfo, MessageInfo.getExtraCaps, stored_set_of_disjoint (by decide),
    stored_set_self (by decide)]
  decide

theorem getCapsUnwrapped_set (h : miCapsUnwrapped.Disjoint f) :
    MessageInfo.getCapsUnwrapped (f.set info w) = info.getCapsUnwrapped :=
  stored_set_of_disjoint h

theorem toNat_getExtraCaps_set (hk : k ≤ msgMaxExtraCaps) :
    (MessageInfo.getExtraCaps (miExtraCaps.set info (BitVec.ofNat 64 k))).toNat = k := by
  have hlt : k < 4 := Nat.lt_succ_of_le hk
  have hk' : (BitVec.ofNat 64 k).toNat = k := by
    rw [BitVec.toNat_ofNat, Nat.mod_eq_of_lt (by omega)]
  have hraw : miExtraCaps.raw (BitVec.ofNat 64 k) = BitVec.ofNat 64 k :=
    raw_of_lt rfl (by decide) (by rw [hk']; exact hlt)
  rw [MessageInfo.getExtraCaps, stored_set_self (by decide), hraw, hk']

/-! ## `set_transfer_caps` -/

section SetTransferCaps

variable {s₀ : KernelState} {b : Word} {dest₀ : Option Word} {info : MessageInfo} {n : Nat}

/-- What `set_transfer_caps` makes of the caps in the slots `l`. -/
def CapsEnd (a : Arch) (s : KernelState) (t : Word) (endpoint : Option Word) (l : List Word) :
    Exec (KernelState × MessageInfo) → Prop
  | .ok (s', info) =>
    match recvBuffer a s t with
    | none => s' = s ∧ info.getExtraCaps = 0 ∧ info.getCapsUnwrapped = 0
    | some b => Transferred a s endpoint b (receiveSlot a s t) l s' info info.getExtraCaps.toNat
  | .error _ => recvBuffer a s t ≠ none ∧ Blocked a s.ctes endpoint (receiveSlot a s t) l

theorem capsEnd_setTransferCaps (endpoint : Option Word) (hσ : CNodesOk a s.ctes) (hr : BufferOk a s t)
    (hderive : ∀ x ∈ l, ∃ r, deriveCap a s.ctes x (s.ctes x).cap = .ok r)
    (hl : ∀ x ∈ l, x ≠ 0) (hlen : l.length ≤ msgMaxExtraCaps) (info : MessageInfo) :
    CapsEnd a s t endpoint l (setTransferCaps a s t endpoint info fun j => l.getD j 0) := by
  obtain ⟨buffer, hbuffer, -⟩ := lookupMutIpcBuffer_ok hr true
  have hrecv : recvBuffer a s t = buffer := by rw [recvBuffer, hbuffer]
  unfold setTransferCaps
  simp only [hbuffer]
  cases buffer with
  | none =>
    show CapsEnd a s t endpoint l (.ok (s, clearedInfo info))
    simp only [CapsEnd, hrecv]
    exact ⟨trivial, getExtraCaps_clearedInfo info, getCapsUnwrapped_clearedInfo info⟩
  | some b =>
    have hstart : Progress a s endpoint b (receiveSlot a s t) [] s (clearedInfo info)
        (receiveSlot a s t) :=
      ⟨processable_nil, .unwrapped nofun, fun j => by rw [getCapsUnwrapped_clearedInfo]; simp,
        nofun, fun _ _ => rfl⟩
    have hloop := loopEnds_transferCapsFrom hderive hl rfl hlen hstart
    simp only [List.nil_append, List.length_nil] at hloop
    show CapsEnd a s t endpoint l (if l.getD 0 0 = 0 then .ok (s, clearedInfo info) else _)
    split
    next hzero =>
      -- without a cap there is nothing to do
      have hnil : l = [] := by
        cases l with
        | nil => rfl
        | cons x l => exact absurd hzero (hl x mem_cons_self)
      subst hnil
      simp only [CapsEnd, hrecv, getExtraCaps_clearedInfo]
      have hend : Transferred a s endpoint b (receiveSlot a s t) ([] ++ []) s (clearedInfo info)
        0 := hstart.stop nofun
      exact hend
    next =>
      rw [getReceiveSlot_ok hσ hr]
      show CapsEnd a s t endpoint l (transferCapsFrom a endpoint b (fun j => l.getD j 0) 0
        msgMaxExtraCaps s (clearedInfo info) (receiveSlot a s t) >>= _)
      cases hres : transferCapsFrom a endpoint b (fun j => l.getD j 0) 0 msgMaxExtraCaps s
        (clearedInfo info) (receiveSlot a s t) with
      | error e =>
        rw [hres] at hloop
        exact ⟨by rw [hrecv]; nofun, hloop⟩
      | ok r =>
        obtain ⟨s', info', n⟩ := r
        rw [hres] at hloop
        have hn : n ≤ msgMaxExtraCaps := Nat.le_trans hloop.longest.1.1 hlen
        show CapsEnd a s t endpoint l (.ok (s', miExtraCaps.set info' _))
        simp only [CapsEnd, hrecv, toNat_getExtraCaps_set hn]
        obtain ⟨⟨dest, hp⟩, hlongest⟩ := hloop
        refine ⟨⟨dest, hp.processable, hp.inserted, fun j => ?_, hp.badges, hp.memory⟩, hlongest⟩
        rw [getCapsUnwrapped_set (by decide)]
        exact hp.unwrapped j

end SetTransferCaps

/-! ## `do_normal_transfer` -/

/-- The words of a message are copied: slots and what is behind the message in the
buffer of the receiver stay as they are. -/
structure CopiesMessage (a : Arch) (s s₁ : KernelState) (receiver : Word) : Prop where
  ctes : s₁.ctes = s.ctes
  tcbIPCBuffer : (s₁.tcbs receiver).tcbIPCBuffer = (s.tcbs receiver).tcbIPCBuffer
  words : ∀ b, s.lookupMutIpcBuffer a receiver true = .ok (some b) → ∀ k, 121 ≤ k → k < 128 →
    s₁.userMemory (b + 8 * BitVec.ofNat 64 k) = s.userMemory (b + 8 * BitVec.ofNat 64 k)

section CopiesMessage

variable {s₁ : KernelState} (h : CopiesMessage a s s₁ receiver)
include h

theorem CopiesMessage.lookupMutIpcBuffer (isReceiver : Bool) :
    s₁.lookupMutIpcBuffer a receiver isReceiver = s.lookupMutIpcBuffer a receiver isReceiver := by
  simp only [KernelState.lookupMutIpcBuffer, ipcBufferInFrame, h.ctes, h.tcbIPCBuffer]

theorem CopiesMessage.lookupIpcBuffer (isReceiver : Bool) :
    s₁.lookupIpcBuffer a receiver isReceiver = s.lookupIpcBuffer a receiver isReceiver := by
  simp only [KernelState.lookupIpcBuffer, ipcBufferInFrame, h.ctes, h.tcbIPCBuffer]

theorem CopiesMessage.bufferOk (hr : BufferOk a s receiver) : BufferOk a s₁ receiver := by
  refine ⟨h.tcbIPCBuffer.symm ▸ hr.aligned, ?_⟩
  rw [h.ctes]
  exact hr.frame

theorem CopiesMessage.recvBuffer : Ipc.recvBuffer a s₁ receiver = Ipc.recvBuffer a s receiver := by
  rw [Ipc.recvBuffer, h.lookupMutIpcBuffer, Ipc.recvBuffer]

theorem CopiesMessage.receiveSlot :
    Ipc.receiveSlot a s₁ receiver = Ipc.receiveSlot a s receiver := by
  rw [Ipc.receiveSlot, getReceiveSlot_congr h.ctes (h.lookupIpcBuffer true), Ipc.receiveSlot]
  intro b hb k hk hk'
  have hword := h.words b (lookupMutIpcBuffer_of_lookup hb) k.toNat (by omega) hk'
  rwa [BitVec.ofNat_toNat, BitVec.setWidth_eq] at hword

end CopiesMessage

theorem copyMrs_copiesMessage (hne : t ≠ receiver) (ht : BufferOk a s t)
    (hr : BufferOk a s receiver) : ∃ s₁ m,
    s.copyMrs a t receiver (sentTag a s t).getLength.toNat = .ok (s₁, m) ∧
      CopiesMessage a s s₁ receiver := by
  obtain ⟨src, hsrc, hsrca⟩ := lookupIpcBuffer_ok ht false
  obtain ⟨dst, hdst, hdsta⟩ := lookupMutIpcBuffer_ok hr true
  have hlen : (sentTag a s t).getLength.toNat ≤ 120 := by
    rw [sentTag, toNat_getLength_fromWordSecurity]
    omega
  obtain ⟨regs, mem, hcopy, -, hwords, hnone⟩ := copyMrs_eq hne hsrc hdst hsrca hdsta hlen
  refine ⟨_, _, hcopy, rfl, ?_, fun b hb k hk hk' => ?_⟩
  · show ((s.withRegisters receiver regs).tcbs receiver).tcbIPCBuffer = _
    simp [withRegisters, modifyTcb]
  · cases hdst.symm.trans hb
    cases src with
    | none => exact congrFun (hnone (.inl rfl)) _
    | some src =>
      refine (hwords src b rfl rfl).rest _ fun i hi hil he => ?_
      rw [bufferMsg_eq] at he
      have := (bufferWord_inj (hdsta b rfl) (hdsta b rfl) hk' (by omega) he).2
      omega

/-- What the message info of the receiver says in the end. -/
theorem capsDelivered_finish (hcopies : CopiesMessage a s s₁ receiver)
    (hlen : l.length ≤ msgMaxExtraCaps) (h : CapsEnd a s₁ receiver endpoint l (.ok (s₂, info)))
    (badge : Word) :
    CapsDelivered a s (finishTransfer a s₂ receiver badge info m) receiver endpoint l := by
  have hextra : (deliveredInfo a (finishTransfer a s₂ receiver badge info m) receiver).getExtraCaps =
      info.getExtraCaps := by
    rw [deliveredInfo_finishTransfer]
    exact stored_set_of_disjoint (by decide)
  have hunwrapped : (deliveredInfo a (finishTransfer a s₂ receiver badge info m)
      receiver).getCapsUnwrapped = info.getCapsUnwrapped := by
    rw [deliveredInfo_finishTransfer]
    exact getCapsUnwrapped_set (by decide)
  have hctes : (finishTransfer a s₂ receiver badge info m).ctes = s₂.ctes := rfl
  have hmem : (finishTransfer a s₂ receiver badge info m).userMemory = s₂.userMemory := rfl
  unfold CapsDelivered
  simp only [CapsEnd, hcopies.recvBuffer, hcopies.receiveSlot] at h
  cases hb : recvBuffer a s receiver with
  | none =>
    rw [hb] at h
    obtain ⟨rfl, hextra', hunwrapped'⟩ := h
    refine ⟨hcopies.ctes, hextra.trans hextra', hunwrapped.trans hunwrapped', fun b hb' => ?_⟩
    rw [hb] at hb'
    cases hb'
  | some b =>
    rw [hb] at h
    have hwords : ∀ j < msgMaxExtraCaps, s₁.userMemory (bufferCapsOrBadges b j) =
        s.userMemory (bufferCapsOrBadges b j) := by
      intro j hj
      have hj : j < 3 := hj
      rw [bufferCapsOrBadges_eq]
      refine hcopies.words b ?_ _ (by omega) (by omega)
      unfold recvBuffer at hb
      split at hb
      next hlook => rw [hlook, hb]
      next => cases hb
    obtain ⟨⟨dest, hp⟩, hlongest⟩ := h
    rw [hcopies.ctes] at hlongest
    refine ⟨info.getExtraCaps.toNat, hlongest, by rw [hextra], ⟨dest, ?_⟩, fun j => ?_,
      fun j x hj hw => ?_, fun j hj hrest => ?_⟩
    · rw [hctes, ← hcopies.ctes]
      exact hp.inserted
    · rw [hunwrapped, ← hcopies.ctes]
      exact hp.unwrapped j
    · rw [hmem, ← hcopies.ctes]
      exact hp.badges j x hj (hcopies.ctes.symm ▸ hw)
    · rw [hmem, hp.memory _ fun i x hi hw he => ?_, hwords j hj]
      have hi3 : i < 3 := by
        have hlt := (List.getElem?_eq_some_iff.mp hi).1
        rw [List.length_take] at hlt
        have : l.length ≤ 3 := hlen
        omega
      obtain rfl := bufferCapsOrBadges_inj hj hi3 he
      have hnot := hrest x hi
      rw [← hcopies.ctes, hw] at hnot
      cases hnot

/-- What `do_normal_transfer` makes of the caps in the slots `l`. -/
def DeliveryEnds (a : Arch) (s : KernelState) (receiver : Word) (endpoint : Option Word)
    (l : List Word) : Exec KernelState → Prop
  | .ok s' => CapsDelivered a s s' receiver endpoint l
  | .error _ => recvBuffer a s receiver ≠ none ∧
      Blocked a s.ctes endpoint (receiveSlot a s receiver) l

section Stops

variable {n : Nat} {b : Word}

theorem Longest.headStops (h : Longest a σ endpoint dest l 0) : HeadStops a σ endpoint dest l := by
  intro x hx hproc
  cases l with
  | nil => cases hx
  | cons y l =>
    cases hx
    have : 1 ≤ 0 := h.2 ⟨Nat.succ_le_succ (Nat.zero_le _), hproc⟩
    omega

theorem Longest.eq_zero (h : Longest a σ endpoint dest l n)
    (hstops : HeadStops a σ endpoint dest l) : n = 0 := by
  obtain ⟨⟨hn, hproc⟩, -⟩ := h
  cases l with
  | nil => exact Nat.le_zero.mp hn
  | cons x l =>
    cases n with
    | zero => rfl
    | succ n =>
      rw [List.take_succ_cons] at hproc
      exact absurd (hproc.sublist (List.singleton_sublist.mpr mem_cons_self)) (hstops x rfl)

/-- A cap that is blocked can be processed, and so can the first one. -/
theorem Blocked.not_headStops (h : Blocked a σ endpoint dest l) :
    ¬HeadStops a σ endpoint dest l := by
  obtain ⟨p, x, d, ⟨rest, rfl⟩, hp, -, hdest, hderives, -⟩ := h
  have hproc := processable_append_derives hp (by rw [hdest]; nofun : dest ≠ none) hderives
  intro hstops
  cases p with
  | nil => exact hstops x rfl hproc
  | cons y p =>
    exact hstops y rfl (hproc.sublist (List.singleton_sublist.mpr mem_cons_self))

theorem CapsTransferred.nothing (h : CapsTransferred a s s' receiver endpoint b l 0)
    (hb : recvBuffer a s receiver = some b) : NothingTransferred a s s' receiver where
  ctes := by
    obtain ⟨dest, hins⟩ := h.inserted
    exact hins.eq_of_nil
  extraCaps := BitVec.eq_of_toNat_eq h.extraCaps
  capsUnwrapped := by
    refine BitVec.eq_of_getLsbD_eq fun j _ => ?_
    show _ = (0#64).getLsbD j
    rw [BitVec.getLsbD_zero, ← Bool.not_eq_true, h.capsUnwrapped]
    rintro ⟨x, hx, -⟩
    cases hx
  badges b' hb' j hj := by
    cases hb.symm.trans hb'
    exact h.words j hj fun x hx => by cases hx

/-- Nothing is transferred if the first cap cannot be processed. -/
theorem CapsDelivered.nothing (h : CapsDelivered a s s' receiver endpoint l)
    (hstops : recvBuffer a s receiver ≠ none →
      HeadStops a s.ctes endpoint (receiveSlot a s receiver) l) :
    NothingTransferred a s s' receiver := by
  unfold CapsDelivered at h
  split at h
  · exact h
  rename_i b hb
  obtain ⟨n, hn⟩ := h
  obtain rfl := hn.longest.eq_zero (hstops (by rw [hb]; nofun))
  exact hn.nothing hb

end Stops

section Delivery

variable (hne : t ≠ receiver) (ht : BufferOk a s t) (hr : BufferOk a s receiver)
  (hσ : CNodesOk a s.ctes)
  (hdefined : CapsDefined a s.ctes) (hslots : ∀ x, some x ∈ sentSlots a s t → x ≠ 0)
include hne ht hr hσ hdefined hslots

theorem deliveryEnds_doNormalTransfer (endpoint : Option Word) (badge : Word) (canGrant : Bool) :
    DeliveryEnds a s receiver endpoint (grantedSlots a s t canGrant)
      (doNormalTransfer a s t receiver endpoint badge canGrant) := by
  obtain ⟨sendBuffer, hsend, -⟩ := lookupIpcBuffer_ok ht false
  obtain ⟨s₁, m, hcopy, hcopies⟩ := copyMrs_copiesMessage hne ht hr
  have hlen := length_grantedSlots_le a s t canGrant
  have hsent : ∀ x ∈ grantedSlots a s t canGrant, some x ∈ sentSlots a s t := by
    intro x hx
    unfold grantedSlots at hx
    split at hx
    · exact mem_of_mem_foundBefore hx
    · cases hx
  have hcaps := capsEnd_setTransferCaps endpoint (hcopies.ctes.symm ▸ hσ) (hcopies.bufferOk hr)
    (fun x _ => hcopies.ctes.symm ▸ deriveCap_ok (hdefined x))
    (fun x hx => hslots x (hsent x hx)) hlen (sentTag a s t)
  rw [doNormalTransfer_eq, grantedCaps_eq hσ hsend]
  rw [hcopy]
  show DeliveryEnds a s receiver endpoint _
    (setTransferCaps a s₁ receiver endpoint (sentTag a s t) _ >>= _)
  cases hres : setTransferCaps a s₁ receiver endpoint (sentTag a s t)
    fun j => (grantedSlots a s t canGrant).getD j 0 with
  | error e =>
    rw [hres] at hcaps
    simp only [CapsEnd, hcopies.recvBuffer, hcopies.receiveSlot, hcopies.ctes] at hcaps
    exact hcaps
  | ok r =>
    obtain ⟨s₂, info⟩ := r
    rw [hres] at hcaps
    exact capsDelivered_finish hcopies hlen hcaps badge

/-- The caps of a message are transferred as they should be exactly if, after a failed
lookup, the first cap cannot be processed anyway, and otherwise the receive slot is
empty when it is needed. -/
theorem capTransferExact_iff (badge : Word) (canGrant : Bool) :
    CapTransferExact a s t receiver endpoint badge canGrant ↔
      CapTransferOk a s t receiver endpoint canGrant := by
  have hends := deliveryEnds_doNormalTransfer hne ht hr hσ hdefined hslots endpoint badge canGrant
  constructor
  · rintro ⟨s', hs', hfailed, hcaps⟩ rfl hrecv
    obtain ⟨b, hb⟩ := Option.ne_none_iff_exists'.mp hrecv
    rw [hs'] at hends
    unfold DeliveryEnds CapsDelivered at hends
    rw [hb] at hends
    obtain ⟨n, hn⟩ := hends
    split
    next hnone =>
      have hzero : n = 0 := by
        rw [← hn.extraCaps, (hfailed (.inr hnone)).extraCaps]
        rfl
      exact (hzero ▸ hn.longest).headStops
    next =>
      obtain ⟨dest, hins⟩ := hn.inserted
      exact hins.not_blocked hn.longest
  · intro hok
    -- neither an error nor a cap that goes through after a failed lookup
    have hstops : canGrant = false ∨ none ∈ sentSlots a s t → recvBuffer a s receiver ≠ none →
        HeadStops a s.ctes endpoint (receiveSlot a s receiver) (grantedSlots a s t canGrant) := by
      rintro (rfl | hnone) hrecv
      · exact nofun
      cases canGrant with
      | false => exact nofun
      | true =>
        have := hok rfl hrecv
        rwa [if_pos hnone] at this
    have hreturns : ∃ s', doNormalTransfer a s t receiver endpoint badge canGrant = .ok s' := by
      cases hres : doNormalTransfer a s t receiver endpoint badge canGrant with
      | ok s' => exact ⟨s', rfl⟩
      | error e =>
        rw [hres] at hends
        obtain ⟨hrecv, hblocked⟩ := hends
        by_cases hfailed : canGrant = false ∨ none ∈ sentSlots a s t
        · exact absurd (hstops hfailed hrecv) hblocked.not_headStops
        obtain ⟨hgrant, hfound⟩ := not_or.mp hfailed
        rw [Bool.not_eq_false] at hgrant
        subst hgrant
        have := hok rfl hrecv
        rw [if_neg hfound] at this
        exact absurd hblocked this
    obtain ⟨s', hs'⟩ := hreturns
    rw [hs'] at hends
    refine ⟨s', hs', fun hfailed => hends.nothing (hstops hfailed), ?_⟩
    rintro l rfl hl
    have hgranted : grantedSlots a s t true = l := by
      rw [grantedSlots, if_pos rfl, hl, foundBefore_map_some]
    exact hgranted ▸ hends

end Delivery

/-! A sender whose CSpace has two slots, with a cap to an endpoint in the first. -/

def grantedEndpoint : Word := pptrBase .riscv64 + 0x3000
def grantingCNode : Word := pptrBase .riscv64 + 0x4000

def grantingSlots : Slots :=
  let σ := update sharingFrame.ctes (getCspace .riscv64 senderTcb tcbCTable)
    ⟨newCNodeCap .riscv64 1 63 0 grantingCNode, defaultMdbNode⟩
  update σ grantingCNode
    ⟨newEndpointCap .riscv64 5 1 1 1 1 grantedEndpoint, defaultMdbNode⟩

/-- The message has `n` caps. The first pointer is to the first slot, the second one
leads nowhere. -/
def granting (n : Word) : KernelState :=
  { sharingFrame with
    ctes := grantingSlots
    tcbs := update sharingFrame.tcbs senderTcb
      { Tcb.zero with registers := fun r => if r = 10 then n <<< 7 else 0 }
    userMemory := fun p => if p = bufferCapsOrBadges (pptrBase .riscv64 + 0x8000) 1 then 2 else 0 }

theorem cnodesOk_granting (n : Word) : CNodesOk .riscv64 (granting n).ctes := by
  have hframe : getCapType sharedFrame ≠ .cnodeCap := by decide
  have hsend := (cnodesOk_empty .riscv64).update (p := getCspace .riscv64 senderTcb tcbBuffer)
    (c := ⟨sharedFrame, defaultMdbNode⟩) fun ht => absurd ht hframe
  have hpeer := hsend.update (p := getCspace .riscv64 peerTcb tcbBuffer)
    (c := ⟨sharedFrame, defaultMdbNode⟩) fun ht => absurd ht hframe
  have hroot := hpeer.update (p := getCspace .riscv64 senderTcb tcbCTable)
    (c := ⟨newCNodeCap .riscv64 1 63 0 grantingCNode, defaultMdbNode⟩)
    fun _ => ⟨by decide, by decide, by decide⟩
  exact hroot.update fun ht => absurd ht (by decide)

theorem capsDefined_granting (n : Word) : CapsDefined .riscv64 (granting n).ctes := by
  have hnull : getCapType emptyCte.cap = .nullCap := by decide
  have hempty : CapsDefined .riscv64 fun _ => emptyCte := fun _ => by
    simp [Slots.capType, hnull]
  exact (((hempty.update ⟨by decide, by decide⟩).update ⟨by decide, by decide⟩).update
    ⟨by decide, by decide⟩).update ⟨by decide, by decide⟩

/-- One cap, which is unwrapped. -/
theorem capTransferExact_iff_unwrapped : CapTransferExact .riscv64 (granting 1) senderTcb peerTcb
    (some grantedEndpoint) 0 true := by
  have hsent : sentSlots .riscv64 (granting 1) senderTcb = [some grantingCNode] := by rfl
  refine (capTransferExact_iff senderTcb_ne_peerTcb ⟨by decide, by decide⟩ ⟨by decide, by decide⟩
    (cnodesOk_granting 1) (capsDefined_granting 1) ?_ 0 true).mpr ?_
  · rw [hsent]
    intro x hx
    cases mem_singleton.mp hx
    decide
  · intro _ _
    rw [hsent, if_neg (by decide)]
    rintro ⟨p, x, d, hl, -, hw, -⟩
    have hx : x = grantingCNode := mem_singleton.mp (hl.subset (mem_append_right p mem_cons_self))
    subst hx
    exact absurd hw (by decide)

/-- The lookup of the second cap fails, and the first one is unwrapped all the same. -/
theorem doNormalTransfer_incomplete_caps : ¬CapTransferExact .riscv64 (granting 2) senderTcb peerTcb
    (some grantedEndpoint) 0 true := by
  rintro ⟨s', hs', hfailed, -⟩
  have hnone : none ∈ sentSlots .riscv64 (granting 2) senderTcb := by decide
  have hextra : (doNormalTransfer .riscv64 (granting 2) senderTcb peerTcb (some grantedEndpoint) 0
      true).map (fun s => (deliveredInfo .riscv64 s peerTcb).getExtraCaps) = .ok 1 := by rfl
  rw [hs'] at hextra
  have hone : (deliveredInfo .riscv64 s' peerTcb).getExtraCaps = 1 := Except.ok.inj hextra
  rw [(hfailed (.inr hnone)).extraCaps] at hone
  exact absurd hone (by decide)

end Rel4.Ipc
