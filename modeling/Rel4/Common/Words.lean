import Rel4.Common.Config
import Mathlib.Data.Nat.Bitwise
import Mathlib.Tactic.Ring

/-!
The word macros of the kernel as arithmetic on natural numbers.
-/

namespace Rel4.Common
open Lib.Bitfield

variable {i : Nat} {x n : Word}

section

variable (h : n.toNat < 64)
include h

/-- Masking a shift amount changes nothing below 64. -/
theorem toNat_and_63 : (n &&& 63).toNat = n.toNat := by
  rw [BitVec.toNat_and]
  show n.toNat &&& (2 ^ 6 - 1) = n.toNat
  rw [Nat.and_two_pow_sub_one_eq_mod]
  exact Nat.mod_eq_of_lt h

theorem toNat_bit : (bit n).toNat = 2 ^ n.toNat := by
  rw [bit, toNat_and_63 h, BitVec.toNat_shiftLeft, Nat.shiftLeft_eq]
  show 1 * 2 ^ n.toNat % 2 ^ 64 = 2 ^ n.toNat
  rw [Nat.one_mul]
  exact Nat.mod_eq_of_lt (Nat.pow_lt_pow_right (by decide) h)

theorem bit_eq_ofNat : bit n = BitVec.ofNat 64 (2 ^ n.toNat) := by
  apply BitVec.eq_of_toNat_eq
  rw [toNat_bit h, BitVec.toNat_ofNat, Nat.mod_eq_of_lt (Nat.pow_lt_pow_right (by decide) h)]

theorem toNat_mask : (mask n).toNat = 2 ^ n.toNat - 1 := by
  have hpos : 0 < 2 ^ n.toNat := Nat.two_pow_pos _
  rw [mask, BitVec.toNat_sub_of_le, toNat_bit h]
  · rfl
  · rw [BitVec.le_def, toNat_bit h]
    exact hpos

theorem toNat_and_mask : (x &&& mask n).toNat = x.toNat % 2 ^ n.toNat := by
  rw [BitVec.toNat_and, toNat_mask h, Nat.and_two_pow_sub_one_eq_mod]

omit h in
theorem toNat_and_not_add (m : Word) : (x &&& ~~~m).toNat + (x &&& m).toNat = x.toNat := by
  have hdis : (x &&& ~~~m) &&& (x &&& m) = 0#64 := by
    ext i hi
    simp only [BitVec.getElem_and, BitVec.getElem_not, BitVec.getElem_zero]
    cases x[i] <;> cases m[i] <;> rfl
  have hor : (x &&& ~~~m) ||| (x &&& m) = x := by
    ext i hi
    simp only [BitVec.getElem_or, BitVec.getElem_and, BitVec.getElem_not]
    cases x[i] <;> cases m[i] <;> rfl
  rw [← BitVec.toNat_add_of_and_eq_zero hdis, BitVec.add_eq_or_of_and_eq_zero _ _ hdis, hor]

theorem toNat_and_not_mask : (x &&& ~~~mask n).toNat = x.toNat - x.toNat % 2 ^ n.toNat := by
  have hsum := toNat_and_not_add (x := x) (mask n)
  rw [toNat_and_mask h] at hsum
  omega

theorem toNat_shiftLeft_and (hb : x.toNat * 2 ^ n.toNat < 2 ^ 64) :
    (x <<< (n &&& 63).toNat).toNat = x.toNat * 2 ^ n.toNat := by
  rw [toNat_and_63 h, BitVec.toNat_shiftLeft, Nat.shiftLeft_eq]
  exact Nat.mod_eq_of_lt hb

end

theorem toNat_roundDown (b : Nat) : (roundDown x b).toNat = x.toNat / 2 ^ b * 2 ^ b := by
  rw [roundDown, BitVec.toNat_shiftLeft, BitVec.toNat_ushiftRight, Nat.shiftLeft_eq,
    Nat.shiftRight_eq_div_pow]
  exact Nat.mod_eq_of_lt ((Nat.div_mul_le_self _ _).trans_lt x.isLt)

/-- A range of addresses that does not wrap. -/
theorem sub_lt_iff (h : y.toNat + b ≤ 2 ^ 64) :
    (x - y).toNat < b ↔ y.toNat ≤ x.toNat ∧ x.toNat < y.toNat + b := by
  rw [BitVec.toNat_sub]
  have := x.isLt
  have := y.isLt
  omega

theorem toNat_add_of_le (h : y.toNat + b ≤ 2 ^ 64) (hx : x.toNat < b) :
    (y + x).toNat = y.toNat + x.toNat := by
  rw [BitVec.toNat_add]
  omega

/-- The index of the highest bit, as the source computes it. -/
theorem toNat_sub_clz (hx : x ≠ 0) : (wordBits - 1 - x.clz).toNat = 63 - x.clz.toNat := by
  have hlt : x.clz.toNat < 64 := BitVec.clz_lt_iff_ne_zero.mpr hx
  have h63 : wordBits - 1 = (63 : Word) := by decide
  rw [h63, BitVec.toNat_sub_of_le]
  · rfl
  · rw [BitVec.le_def]
    show x.clz.toNat ≤ 63
    omega

theorem toNat_ite_lt : (if y < x then y else x).toNat = min x.toNat y.toNat := by
  split <;> rename_i h <;> rw [BitVec.lt_def] at h <;> omega

/-- A word is a multiple of `2 ^ k` if it ends in `k` zeros. -/
theorem two_pow_dvd_iff_le_ctz (hk : k ≤ 64) : 2 ^ k ∣ x.toNat ↔ k ≤ x.ctz.toNat := by
  have hdvd : 2 ^ k ∣ x.toNat ↔ ∀ i < k, x.getLsbD i = false := by
    rw [Nat.dvd_iff_mod_eq_zero]
    constructor
    · intro hmod i hi
      have htest : (x.toNat % 2 ^ k).testBit i = false := by rw [hmod, Nat.zero_testBit]
      rw [Nat.testBit_mod_two_pow, decide_eq_true hi, Bool.true_and] at htest
      exact htest
    · intro hall
      apply Nat.eq_of_testBit_eq
      intro i
      rw [Nat.testBit_mod_two_pow, Nat.zero_testBit]
      by_cases hi : i < k
      · rw [decide_eq_true hi, Bool.true_and]
        exact hall i hi
      · rw [decide_eq_false hi, Bool.false_and]
  rw [hdvd]
  constructor
  · intro hall
    by_contra hlt
    have hne : x ≠ 0 := BitVec.ctz_lt_iff_ne_zero.mp (show x.ctz.toNat < 64 by omega)
    have htrue := BitVec.getLsbD_true_ctz_of_ne_zero hne
    rw [hall _ (by omega)] at htrue
    cases htrue
  · exact fun hle i hi => BitVec.getLsbD_false_of_lt_ctz (by omega)

/-! ## Values that fields hold -/

section Fields

variable {k : Nat} {f : Field k} {v : Word} {a : Arch}

theorem toNat_lowMask (m : Nat) (hm : m ≤ 64) : (lowMask m).toNat = 2 ^ m - 1 := by
  have hpos : 0 < 2 ^ m := Nat.two_pow_pos _
  have hle : 2 ^ m ≤ 2 ^ 64 := Nat.pow_le_pow_right (by decide) hm
  rw [lowMask, BitVec.toNat_ofNat]
  omega

theorem toNat_stored_lt (hf : f.bits ≤ 64) : (f.stored w).toNat < 2 ^ f.bits := by
  rw [Field.stored, BitVec.toNat_and, toNat_lowMask _ hf, Nat.and_two_pow_sub_one_eq_mod]
  exact Nat.mod_lt _ (Nat.two_pow_pos _)

theorem raw_of_lt (hsh : f.shift = 0) (hf : f.bits ≤ 64) (hv : v.toNat < 2 ^ f.bits) :
    f.raw v = v := by
  apply BitVec.eq_of_toNat_eq
  rw [Field.raw, hsh, BitVec.toNat_and, toNat_lowMask _ hf, Nat.and_two_pow_sub_one_eq_mod,
    BitVec.ushiftRight_zero]
  exact Nat.mod_eq_of_lt hv

/-- An unsigned field holds the numbers below `2 ^ bits`. -/
theorem canonical_of_lt (hs : f.signExt = false) (hsh : f.shift = 0) (hf : f.bits ≤ 64)
    (hv : v.toNat < 2 ^ f.bits) : f.Canonical e v := by
  rw [Field.Canonical, raw_of_lt hsh hf hv, Field.extend, hs, hsh]
  simp

theorem toNat_get_lt (hs : f.signExt = false) (hsh : f.shift = 0) (hf : f.bits ≤ 64) :
    (f.get e w).toNat < 2 ^ f.bits := by
  have hget : f.get e w = f.stored w := by
    simp [Field.get, Field.extend, hs, hsh]
  rw [hget]
  exact toNat_stored_lt hf

private theorem testBit_of_ge (hm : m < 2 ^ 64) (hj : 2 ^ 64 - 2 ^ j ≤ m) (hji : j ≤ i)
    (hi : i < 64) : m.testBit i = true := by
  have hpow : 2 ^ (64 - i) * 2 ^ i = 2 ^ 64 := by
    rw [← Nat.pow_add]
    congr 1
    omega
  have hle : 2 ^ j ≤ 2 ^ i := Nat.pow_le_pow_right (by decide) hji
  have hdiv : m / 2 ^ i = 2 ^ (64 - i) - 1 := by
    apply Nat.div_eq_of_lt_le
    · rw [Nat.sub_mul, hpow]
      omega
    · rw [Nat.sub_add_cancel (Nat.two_pow_pos _), hpow]
      exact hm
  have hodd : 2 ^ (64 - i) = 2 * 2 ^ (63 - i) := by
    rw [← Nat.pow_succ']
    congr 1
    omega
  have hpos : 0 < 2 ^ (63 - i) := Nat.two_pow_pos _
  rw [Nat.testBit_eq_decide_div_mod_eq, hdiv, decide_eq_true_eq]
  omega

theorem getLsbD_of_ge (h : 2 ^ 64 - 2 ^ j ≤ v.toNat) (hji : j ≤ i) (hi : i < 64) :
    v.getLsbD i = true := testBit_of_ge v.isLt h hji hi

theorem and_twoPow_ne_zero (hi : i < 64) : v &&& BitVec.twoPow 64 i ≠ 0 ↔ v.getLsbD i = true := by
  have hpow : BitVec.twoPow 64 i ≠ 0 := by
    intro h
    have hbit := congrArg (BitVec.getLsbD · i) h
    simp [hi] at hbit
  rw [BitVec.and_twoPow]
  split
  next h => exact iff_of_true hpow h
  next h => exact iff_of_false (not_not.mpr rfl) h

/-- The sign bit of an address of the kernel window and all bits above it are set. -/
theorem getLsbD_of_window (h : pptrBase a ≤ v) (hi : (signExt a).bit ≤ i) (hi' : i < 64) :
    v.getLsbD i = true := by
  rw [BitVec.getLsbD]
  have hv := v.isLt
  cases a with
  | riscv64 =>
    have hb : 2 ^ 64 - 2 ^ 38 ≤ v.toNat := h
    exact testBit_of_ge hv hb hi hi'
  | aarch64 =>
    have hb : 2 ^ 64 - 2 ^ 39 ≤ v.toNat := h
    have hi : 47 ≤ i := hi
    exact testBit_of_ge hv hb (by omega) hi'

/-- What a field keeps of a value with enough trailing zeros: the bits up to the sign bit. -/
theorem getLsbD_raw_shiftLeft (hbits : f.shift + f.bits = b + 1) (hlow : v.toNat % 2 ^ f.shift = 0)
    (hi : i < 64) : (f.raw v <<< f.shift).getLsbD i = (decide (i ≤ b) && v.getLsbD i) := by
  rw [BitVec.getLsbD_shiftLeft, getLsbD_raw]
  by_cases hlo : i < f.shift
  · have hz : v.getLsbD i = false := by
      rw [BitVec.getLsbD, Nat.testBit_eq_decide_div_mod_eq, decide_eq_false_iff_not]
      obtain ⟨q, hq⟩ := Nat.dvd_of_mod_eq_zero hlow
      have hsplit : 2 ^ f.shift = 2 ^ i * (2 * 2 ^ (f.shift - i - 1)) := by
        rw [← Nat.pow_succ', ← Nat.pow_add]
        congr 1
        omega
      rw [hq, hsplit, Nat.mul_assoc, Nat.mul_div_cancel_left _ (Nat.two_pow_pos _), Nat.mul_assoc]
      omega
    simp [hlo, hz]
  · have he : f.shift + (i - f.shift) = i := by omega
    have hlt : i - f.shift < 64 := by omega
    have hiff : (i - f.shift < f.bits) = (i ≤ b) := by
      apply propext
      omega
    rw [he]
    simp only [hi, hlo, hlt, hiff, decide_true, decide_false, Bool.not_false, Bool.true_and,
      Bool.and_true]
    exact Bool.and_comm _ _

/-- A pointer field holds the addresses of the kernel window with enough
trailing zeros. -/
theorem canonical_of_window (hs : f.signExt = true)
    (hbits : f.shift + f.bits = (signExt a).bit + 1) (h : pptrBase a ≤ v)
    (hlow : v.toNat % 2 ^ f.shift = 0) : f.Canonical (signExt a) v := by
  have hb : (signExt a).bit < 64 := by cases a <;> decide
  have hmask : ∀ i < 64, (signExt a).mask.getLsbD i = true → (signExt a).bit ≤ i := by
    cases a <;> decide
  have hmask' : ∀ i < 64, (signExt a).bit < i → (signExt a).mask.getLsbD i = true := by
    cases a <;> decide
  have hshifted : ∀ i < 64, (f.raw v <<< f.shift).getLsbD i =
      (decide (i ≤ (signExt a).bit) && v.getLsbD i) :=
    fun i hi => getLsbD_raw_shiftLeft hbits hlow hi
  have hsign : (f.raw v <<< f.shift).getLsbD (signExt a).bit = true := by
    rw [hshifted _ hb, getLsbD_of_window h (Nat.le_refl _) hb]
    simp
  rw [Field.Canonical, Field.extend]
  simp only [hs, hsign, Bool.and_self, if_true]
  apply BitVec.eq_of_getLsbD_eq
  intro i hi
  rw [BitVec.getLsbD_or, hshifted i hi]
  by_cases hib : (signExt a).bit < i
  · rw [hmask' i hi hib, getLsbD_of_window h (Nat.le_of_lt hib) hi]
    simp
  · have hle : i ≤ (signExt a).bit := Nat.le_of_not_lt hib
    by_cases hm : (signExt a).mask.getLsbD i = true
    · rw [hm, getLsbD_of_window h (hmask i hi hm) hi]
      simp
    · simp [hle, hm]

end Fields

theorem update_zero_or (f : Word → Word) (x y : Word) :
    Function.update f x 0 y = f y ∨ Function.update f x 0 y = 0 := by
  by_cases hy : y = x
  · subst hy
    exact .inr (Function.update_self ..)
  · exact .inl (Function.update_of_ne hy ..)

end Rel4.Common
