import Mathlib.Data.BitVec
import Mathlib.Data.List.Basic

/-!
Fields packed into an array of 64-bit machine words.

A field is a bit range of one word. Reading shifts the range down, scales it
by `2 ^ shift`, and may copy a sign bit into the high bits; writing clears the
range and stores the value scaled down again. Two fields that share no bit
never disturb each other (`get_set_of_disjoint`), and a value that survives
truncation to the field is read back exactly (`get_set_self`). A `Layout` is
the list of fields of one variant; its `build` ORs the values into zeroed words
(`get_build`, `get_build_of_disjoint`).
-/

namespace Rel4.Lib.Bitfield
open Function
open BitVec (ofNat eq_of_getLsbD_eq getLsbD_or getLsbD_and getLsbD_not getLsbD_shiftLeft)

abbrev Word := BitVec 64

abbrev Words (n : Nat) := Fin n → Word

/-- `bits` bits of word `index`, starting at `offset`; the value stored there
is scaled by `2 ^ shift` and sign-extended when `signExt` is set. -/
structure Field (n : Nat) where
  index : Fin n
  offset : Nat
  bits : Nat
  shift : Nat
  signExt : Bool
  deriving DecidableEq, Repr

-- One constant for each size of the array, so that an index is one term in all modules.
instance neZero_one : NeZero 1 := ⟨by decide⟩
instance neZero_two : NeZero 2 := ⟨by decide⟩
instance neZero_four : NeZero 4 := ⟨by decide⟩

/-- Sign extension: when bit `bit` of a value is set, OR in `mask`. -/
structure SignExt where
  bit : Nat
  mask : Word
  deriving DecidableEq, Repr

def lowMask (bits : Nat) : Word := ofNat 64 (2 ^ bits - 1)

namespace Field

variable {n : Nat}

/-- The bits of `v` that a write to the field keeps. -/
def raw (f : Field n) (v : Word) : Word := (v >>> f.shift) &&& lowMask f.bits

/-- The bits the field occupies, moved down to bit 0. -/
def stored (f : Field n) (w : Words n) : Word :=
  (w f.index >>> f.offset) &&& lowMask f.bits

/-- From stored bits to the value a read returns. -/
def extend (x : SignExt) (f : Field n) (r : Word) : Word :=
  let ret := r <<< f.shift
  if f.signExt && ret.getLsbD x.bit then ret ||| x.mask else ret

def get (x : SignExt) (f : Field n) (w : Words n) : Word := f.extend x (f.stored w)

def set (f : Field n) (w : Words n) (v : Word) : Words n :=
  update w f.index
    ((w f.index &&& ~~~(lowMask f.bits <<< f.offset)) ||| (f.raw v <<< f.offset))

/-- OR a value into the field without clearing it first. -/
def orIn (f : Field n) (w : Words n) (v : Word) : Words n :=
  update w f.index (w f.index ||| (f.raw v <<< f.offset))

/-- The field lies inside its word. -/
def Fits (f : Field n) : Prop := f.offset + f.bits ≤ 64

instance (f : Field n) : Decidable f.Fits := inferInstanceAs (Decidable (_ ≤ _))

/-- The two fields share no bit. -/
def Disjoint (f g : Field n) : Prop :=
  f.index ≠ g.index ∨ f.offset + f.bits ≤ g.offset ∨ g.offset + g.bits ≤ f.offset

instance (f g : Field n) : Decidable (f.Disjoint g) :=
  inferInstanceAs (Decidable (_ ∨ _ ∨ _))

/-- `v` survives truncation to the field. -/
def Canonical (x : SignExt) (f : Field n) (v : Word) : Prop := f.extend x (f.raw v) = v

instance (x : SignExt) (f : Field n) (v : Word) : Decidable (f.Canonical x v) :=
  inferInstanceAs (Decidable (_ = _))

theorem Disjoint.symm {f g : Field n} (h : f.Disjoint g) : g.Disjoint f := by
  rcases h with h | h | h
  · exact .inl h.symm
  · exact .inr (.inr h)
  · exact .inr (.inl h)

end Field

/-- The fields of one variant: inside their words and pairwise disjoint. -/
structure Layout (n : Nat) where
  fields : List (Field n)
  fits : ∀ f ∈ fields, f.Fits
  disjoint : fields.Pairwise Field.Disjoint

/-- OR the values, in the order of the fields, into zeroed words. -/
def Layout.build {n : Nat} (l : Layout n) (values : List Word) : Words n :=
  (l.fields.zip values).foldl (fun w fv => fv.1.orIn w fv.2) (fun _ => 0)

/-! ## Bits -/

theorem getLsbD_lowMask (bits i : Nat) :
    (lowMask bits).getLsbD i = (decide (i < 64) && decide (i < bits)) := by
  simp [lowMask, BitVec.getLsbD_ofNat, Nat.testBit_two_pow_sub_one]

variable {n : Nat} {x : SignExt} {f g : Field n} {w : Words n} {v : Word}

theorem getLsbD_raw (i : Nat) :
    (f.raw v).getLsbD i = (v.getLsbD (f.shift + i) && decide (i < 64) && decide (i < f.bits)) := by
  simp [Field.raw, getLsbD_lowMask, Bool.and_assoc]

theorem getLsbD_stored (i : Nat) : (f.stored w).getLsbD i =
      ((w f.index).getLsbD (f.offset + i) && decide (i < 64) && decide (i < f.bits)) := by
  simp [Field.stored, getLsbD_lowMask, Bool.and_assoc]

/-! ## Reading what was written -/

theorem stored_set_self (hf : f.Fits) : f.stored (f.set w v) = f.raw v := by
  apply eq_of_getLsbD_eq
  intro i hi
  have hfits : f.offset + f.bits ≤ 64 := hf
  rw [getLsbD_stored]
  simp only [Field.set, update_self, getLsbD_or, getLsbD_and,
    getLsbD_not, getLsbD_shiftLeft, getLsbD_lowMask, getLsbD_raw]
  by_cases hb : i < f.bits
  · have h1 : f.offset + i < 64 := by omega
    have h2 : ¬ f.offset + i < f.offset := by omega
    simp [hb, hi, h1, h2]
  · simp [hb]

theorem stored_set_of_disjoint (h : f.Disjoint g) : f.stored (g.set w v) = f.stored w := by
  apply eq_of_getLsbD_eq
  intro i hi
  rw [getLsbD_stored, getLsbD_stored]
  by_cases hix : f.index = g.index
  · rw [Field.set, hix, update_self]
    simp only [getLsbD_or, getLsbD_and, getLsbD_not,
      getLsbD_shiftLeft, getLsbD_lowMask, getLsbD_raw]
    by_cases hb : i < f.bits
    · -- the bit lies below or above everything the write touches
      rcases h with h | h | h
      · exact absurd hix h
      · have hlt : f.offset + i < g.offset := by omega
        by_cases h64 : f.offset + i < 64
        · simp [hb, hi, hlt, h64]
        · simp [BitVec.getLsbD_of_ge _ _ (Nat.le_of_not_lt h64), h64]
      have hge : ¬ f.offset + i < g.offset := by omega
      have hout : ¬ f.offset + i - g.offset < g.bits := by omega
      by_cases h64 : f.offset + i < 64
      · simp [hb, hi, hge, hout, h64]
      · simp [BitVec.getLsbD_of_ge _ _ (Nat.le_of_not_lt h64), h64]
    · simp [hb]
  · rw [Field.set, update_of_ne hix]

/-- The last write to a field is the one that stays. -/
theorem set_set (v' : Word) : f.set (f.set w v) v' = f.set w v' := by
  rw [Field.set, Field.set, Field.set, update_idem, update_self]
  congr 2
  apply eq_of_getLsbD_eq
  intro i hi
  simp only [getLsbD_or, getLsbD_and, getLsbD_not, getLsbD_shiftLeft, getLsbD_lowMask, getLsbD_raw]
  by_cases h1 : i < f.offset
  · simp [h1]
  by_cases h2 : i - f.offset < f.bits
  · have h3 : i - f.offset < 64 := by omega
    simp [h1, h2, h3, hi]
  · simp [h1, h2]

theorem get_set_self (hf : f.Fits) (hv : f.Canonical x v) : f.get x (f.set w v) = v := by
  rw [Field.get, stored_set_self hf]
  exact hv

theorem get_set_of_disjoint (h : f.Disjoint g) : f.get x (g.set w v) = f.get x w := by
  rw [Field.get, Field.get, stored_set_of_disjoint h]

/-- The sign-extension mask overlaps the field in the sign bit at most. -/
def Field.SignBitOnly (x : SignExt) (f : Field n) : Prop :=
  f.shift + f.bits ≤ 64 ∧ ∀ i < f.bits, x.mask.getLsbD (f.shift + i) = true → f.shift + i = x.bit

instance (x : SignExt) (f : Field n) : Decidable (f.SignBitOnly x) :=
  inferInstanceAs (Decidable (_ ∧ _))

/-- Extending a value that fits the field keeps the bits of the field. -/
theorem raw_extend (hs : f.SignBitOnly x) (hr : ∀ i, f.bits ≤ i → r.getLsbD i = false) :
    f.raw (f.extend x r) = r := by
  apply eq_of_getLsbD_eq
  intro i hi
  rw [getLsbD_raw]
  by_cases hb : i < f.bits
  · have h64 : f.shift + i < 64 := by
      have := hs.1
      omega
    have hret : (r <<< f.shift).getLsbD (f.shift + i) = r.getLsbD i := by
      have hge : ¬ f.shift + i < f.shift := by omega
      rw [getLsbD_shiftLeft]
      simp [h64, hge]
    simp only [hi, hb, decide_true, Bool.and_true, Field.extend]
    split
    next hsign =>
      rw [getLsbD_or, hret]
      by_cases hm : x.mask.getLsbD (f.shift + i) = true
      · -- only the sign bit itself can be hit, and it is set
        rw [Bool.and_eq_true, ← hs.2 i hb hm, hret] at hsign
        rw [hm, hsign.2]
        rfl
      · simp [hm]
    next => exact hret
  · rw [hr i (by omega)]
    simp [hb]

/-- What a read returns can be written back without loss. -/
theorem canonical_get (hs : f.SignBitOnly x) : f.Canonical x (f.get x w) := by
  have hraw : f.raw (f.extend x (f.stored w)) = f.stored w := by
    refine raw_extend hs fun i hi => ?_
    rw [getLsbD_stored]
    simp [Nat.not_lt.mpr hi]
  rw [Field.Canonical, Field.get, hraw]

/-- A field that fills its word holds every value. -/
theorem canonical_of_full (hb : f.bits = 64) (hsh : f.shift = 0) (hse : f.signExt = false) :
    f.Canonical x v := by
  have hraw : f.raw v = v := by
    apply eq_of_getLsbD_eq
    intro i hi
    rw [getLsbD_raw, hb, hsh]
    simp [hi]
  rw [Field.Canonical, hraw, Field.extend, hse, hsh]
  simp

/-! ## Constructors -/

theorem stored_orIn_of_disjoint (h : f.Disjoint g) : f.stored (g.orIn w v) = f.stored w := by
  apply eq_of_getLsbD_eq
  intro i hi
  rw [getLsbD_stored, getLsbD_stored]
  by_cases hix : f.index = g.index
  · rw [Field.orIn, hix, update_self]
    simp only [getLsbD_or, getLsbD_shiftLeft, getLsbD_raw]
    by_cases hb : i < f.bits
    · rcases h with h | h | h
      · exact absurd hix h
      · have hlt : f.offset + i < g.offset := by omega
        simp [hb, hi, hlt]
      · have hout : ¬ f.offset + i - g.offset < g.bits := by omega
        simp [hb, hi, hout]
    · simp [hb]
  · rw [Field.orIn, update_of_ne hix]

theorem stored_orIn_self (hf : f.Fits) (h0 : f.stored w = 0) : f.stored (f.orIn w v) = f.raw v := by
  apply eq_of_getLsbD_eq
  intro i hi
  have hfits : f.offset + f.bits ≤ 64 := hf
  have hz : (f.stored w).getLsbD i = false := by simp [h0]
  rw [getLsbD_stored] at hz ⊢
  simp only [Field.orIn, update_self, getLsbD_or, getLsbD_shiftLeft, getLsbD_raw]
  by_cases hb : i < f.bits
  · have h1 : f.offset + i < 64 := by omega
    have h2 : ¬ f.offset + i < f.offset := by omega
    simp only [hi, hb, decide_true, Bool.and_true] at hz
    rw [hz]
    simp [hb, hi, h1, h2]
  · simp [hb]

private theorem stored_foldl_of_disjoint (fields : List (Field n × Word)) :
    ∀ w : Words n, (∀ gv ∈ fields, f.Disjoint gv.1) →
      f.stored (fields.foldl (fun w fv => fv.1.orIn w fv.2) w) = f.stored w := by
  induction fields with
  | nil => intro w _; rfl
  | cons gv rest ih =>
    intro w h
    rw [List.foldl_cons, ih _ (fun hv hm => h hv (List.mem_cons_of_mem _ hm)),
      stored_orIn_of_disjoint (h gv List.mem_cons_self)]

theorem stored_zero : f.stored (fun _ => 0) = 0 := by
  simp [Field.stored]

private theorem stored_foldl_of_mem (fields : List (Field n)) (hf : f.Fits) :
    ∀ (values : List Word) (i : Nat) (w : Words n), fields[i]? = some f → values[i]? = some v →
      fields.Pairwise Field.Disjoint → f.stored w = 0 →
      f.stored ((fields.zip values).foldl (fun w fv => fv.1.orIn w fv.2) w) = f.raw v := by
  induction fields with
  | nil => intro values i w hi; simp at hi
  | cons g rest ih =>
    intro values i w hi hv hd h0
    rw [List.pairwise_cons] at hd
    cases values with
    | nil => simp at hv
    | cons u values =>
      rw [List.zip_cons_cons, List.foldl_cons]
      cases i with
      | zero =>
        -- written now, and no later field touches it
        obtain rfl : g = f := by simpa using hi
        obtain rfl : u = v := by simpa using hv
        rw [stored_foldl_of_disjoint _ _ (fun gv hm => hd.1 gv.1 (List.of_mem_zip hm).1),
          stored_orIn_self hf h0]
      | succ i =>
        refine ih values i _ hi hv hd.2 ?_
        have hdis : g.Disjoint f := hd.1 f (List.mem_of_getElem? hi)
        rw [stored_orIn_of_disjoint hdis.symm, h0]

section

variable {l : Layout n} {values : List Word} {i : Nat} (hi : l.fields[i]? = some f)
  (hv : values[i]? = some v)
include hi hv

/-- What a constructor stores in its `i`-th field. -/
theorem stored_build : f.stored (l.build values) = f.raw v :=
  stored_foldl_of_mem l.fields (l.fits f (List.mem_of_getElem? hi)) values i _ hi hv l.disjoint
    stored_zero

/-- A constructor's argument is read back when the field can hold it. -/
theorem get_build (hc : f.Canonical x v) : f.get x (l.build values) = v := by
  rw [Field.get, stored_build hi hv]
  exact hc

end

end Rel4.Lib.Bitfield
