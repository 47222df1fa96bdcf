import Rel4.Lib.Bitfield
import Mathlib.Data.List.Forall2

/-!
The variants of a packed structure.

A variant is a list of fields next to a type tag. Where the fields and the tag
share no bit (`Separate`), what the constructor is given is read back, and a
write to one field changes nothing else (`Lossless`).
-/

namespace Rel4.Lib.Bitfield

variable {n : Nat} {x : SignExt} {f : Field n} {v : Word}

/-- The values of a field: within its width and with the low bits zero that the shift drops, or,
for a field that is sign-extended, what the extension can give. -/
def Field.Holds (x : SignExt) (f : Field n) (v : Word) : Prop :=
  if f.signExt then ∃ r : Word, r.toNat < 2 ^ f.bits ∧ f.extend x r = v
  else v.toNat < 2 ^ (f.shift + f.bits) ∧ 2 ^ f.shift ∣ v.toNat

theorem Field.Holds.canonical (hv : f.Holds x v) (hwidth : f.shift + f.bits ≤ 64)
    (hs : f.signExt = true → f.SignBitOnly x) : f.Canonical x v := by
  unfold Field.Holds at hv
  by_cases hsign : f.signExt = true
  · rw [if_pos hsign] at hv
    obtain ⟨r, hr, rfl⟩ := hv
    have hhigh : ∀ i, f.bits ≤ i → r.getLsbD i = false := fun i hi =>
      Nat.testBit_lt_two_pow (Nat.lt_of_lt_of_le hr (Nat.pow_le_pow_right (by decide) hi))
    rw [Field.Canonical, raw_extend (hs hsign) hhigh]
  · rw [if_neg hsign] at hv
    obtain ⟨hlt, q, hq⟩ := hv
    have hpos : 0 < 2 ^ f.shift := Nat.two_pow_pos _
    have hqlt : q < 2 ^ f.bits := by
      rw [hq, Nat.pow_add] at hlt
      exact Nat.lt_of_mul_lt_mul_left hlt
    have hmask : (lowMask f.bits).toNat = 2 ^ f.bits - 1 := by
      have hle : 2 ^ f.bits ≤ 2 ^ 64 := Nat.pow_le_pow_right (by decide) (by omega)
      rw [lowMask, BitVec.toNat_ofNat]
      exact Nat.mod_eq_of_lt (by omega)
    have hraw : (f.raw v).toNat = q := by
      rw [Field.raw, BitVec.toNat_and, hmask, BitVec.toNat_ushiftRight,
        Nat.and_two_pow_sub_one_eq_mod, Nat.shiftRight_eq_div_pow, hq, Nat.mul_div_cancel_left _ hpos]
      exact Nat.mod_eq_of_lt hqlt
    apply BitVec.eq_of_toNat_eq
    rw [Field.extend, Bool.eq_false_iff.mpr hsign]
    simp only [Bool.false_and, Bool.false_eq_true, if_false]
    rw [BitVec.toNat_shiftLeft, hraw, Nat.shiftLeft_eq, hq, Nat.mul_comm]
    exact Nat.mod_eq_of_lt (hq ▸ v.isLt)

/-- The constructor and the accessors of one variant lose nothing and keep the fields and the type
tag apart. -/
structure Lossless (x : SignExt) (type : Field n) (tag : Word) (fields : List (Field n))
    (new : List Word → Words n) : Prop where
  get_new : ∀ values, List.Forall₂ (Field.Holds x) fields values →
    (fields.map fun f => f.get x (new values)) = values ∧ type.get x (new values) = tag
  get_set : ∀ (w : Words n) (i : Nat) (f : Field n) (v : Word), fields[i]? = some f → f.Holds x v →
    f.get x (f.set w v) = v ∧
    (∀ (j : Nat) (g : Field n), j ≠ i → fields[j]? = some g → g.get x (f.set w v) = g.get x w) ∧
    type.get x (f.set w v) = type.get x w

/-- The fields of a variant as a table: they and the type tag share no bit. -/
structure Separate (x : SignExt) (type : Field n) (fields : List (Field n)) : Prop where
  fits : ∀ f ∈ fields, f.Fits ∧ f.shift + f.bits ≤ 64
  sign : ∀ f ∈ fields, f.signExt = true → f.SignBitOnly x
  disjoint : fields.Pairwise Field.Disjoint
  type : ∀ f ∈ fields, type.Disjoint f

instance (x : SignExt) (type : Field n) (fields : List (Field n)) :
    Decidable (Separate x type fields) :=
  decidable_of_iff ((∀ f ∈ fields, f.Fits ∧ f.shift + f.bits ≤ 64) ∧
      (∀ f ∈ fields, f.signExt = true → f.SignBitOnly x) ∧ fields.Pairwise Field.Disjoint ∧
      ∀ f ∈ fields, type.Disjoint f)
    ⟨fun h => ⟨h.1, h.2.1, h.2.2.1, h.2.2.2⟩, fun h => ⟨h.fits, h.sign, h.disjoint, h.type⟩⟩

theorem Separate.disjoint_of_ne {type : Field n} {fields : List (Field n)}
    (h : Separate x type fields) {i j : Nat} (hij : j ≠ i) (hf : fields[i]? = some f)
    (hg : fields[j]? = some g) : g.Disjoint f := by
  obtain ⟨hi, rfl⟩ := List.getElem?_eq_some_iff.mp hf
  obtain ⟨hj, rfl⟩ := List.getElem?_eq_some_iff.mp hg
  rcases Nat.lt_or_gt_of_ne hij with hlt | hlt
  · exact List.pairwise_iff_getElem.mp h.disjoint j i hj hi hlt
  · exact (List.pairwise_iff_getElem.mp h.disjoint i j hi hj hlt).symm

theorem Separate.lossless {type : Field n} {tag : Word} {fields : List (Field n)}
    {new : List Word → Words n} (h : Separate x type fields)
    (hnew : ∀ values, values.length = fields.length →
      (∀ (i : Nat) (f : Field n) (v : Word), fields[i]? = some f → values[i]? = some v → f.stored (new values) = f.raw v) ∧
      type.get x (new values) = tag) :
    Lossless x type tag fields new where
  get_new := by
    intro values hvalues
    have hlen := hvalues.length_eq
    obtain ⟨hstored, htag⟩ := hnew values hlen.symm
    refine ⟨List.ext_getElem (by rw [List.length_map, hlen]) fun i hi hi' => ?_, htag⟩
    have hf : i < fields.length := by rwa [List.length_map] at hi
    have hmem := List.getElem_mem hf
    have hholds := List.forall₂_iff_get.mp hvalues |>.2 i hf hi'
    have hcanon := hholds.canonical (h.fits _ hmem).2 (h.sign _ hmem)
    rw [List.getElem_map, Field.get, hstored i _ values[i] (List.getElem?_eq_getElem hf)
      (List.getElem?_eq_getElem hi')]
    exact hcanon
  get_set := by
    intro w i f v hf hv
    have hmem := List.mem_of_getElem? hf
    refine ⟨get_set_self (h.fits f hmem).1 (hv.canonical (h.fits f hmem).2 (h.sign f hmem)), ?_,
      get_set_of_disjoint (h.type f hmem)⟩
    intro j g hji hg
    exact get_set_of_disjoint (h.disjoint_of_ne hji hf hg)

end Rel4.Lib.Bitfield
