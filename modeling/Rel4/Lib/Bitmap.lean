import Mathlib.Logic.Function.Basic

/-!
Two-level bitmaps.

A set of numbers is kept as bits of words, and one more word says which of them
are not empty. The largest number of the set is then found with two counts of
leading zeros, however many words there are.
-/

namespace Rel4.Lib.Bitmap
open Function
open BitVec (twoPow getLsbD_or getLsbD_twoPow getLsbD_and getLsbD_not)

variable {w : Nat}

theorem getLsbD_le_of_clz {x : BitVec w} {j : Nat} (hj : x.getLsbD j = true) :
    j ≤ w - 1 - x.clz.toNat := by
  by_contra hlt
  have hpow : x.toNat < 2 ^ j :=
    Nat.lt_of_lt_of_le BitVec.toNat_lt_two_pow_sub_clz (Nat.pow_le_pow_right (by decide) (by omega))
  rw [← BitVec.testBit_toNat, Nat.testBit_lt_two_pow hpow] at hj
  cases hj

structure TwoLevel (w : Nat) where
  hi : BitVec w
  lo : Nat → BitVec w

namespace TwoLevel

def Mem (b : TwoLevel w) (n : Nat) : Prop := (b.lo (n / w)).getLsbD (n % w) = true

/-- The upper word marks the lower words that are not empty. -/
def Consistent (b : TwoLevel w) : Prop := ∀ i, b.hi.getLsbD i = true ↔ b.lo i ≠ 0

def insert (b : TwoLevel w) (n : Nat) : TwoLevel w where
  hi := b.hi ||| twoPow w (n / w)
  lo := update b.lo (n / w) (b.lo (n / w) ||| twoPow w (n % w))

def erase (b : TwoLevel w) (n : Nat) : TwoLevel w :=
  let word := b.lo (n / w) &&& ~~~twoPow w (n % w)
  { hi := if word = 0 then b.hi &&& ~~~twoPow w (n / w) else b.hi
    lo := update b.lo (n / w) word }

/-- The largest number, when there is one. -/
def highest (b : TwoLevel w) : Nat :=
  let i := w - 1 - b.hi.clz.toNat
  w * i + (w - 1 - (b.lo i).clz.toNat)

variable {b : TwoLevel w} {n m : Nat}

/-- In one word, numbers differ by their places. -/
theorem eq_iff_mod_eq (hd : m / w = n / w) : m = n ↔ n % w = m % w := by
  constructor
  · rintro rfl
    rfl
  · intro hm
    rw [← Nat.div_add_mod m w, ← Nat.div_add_mod n w, hd, hm]

theorem mem_insert (hw : 0 < w) : (b.insert n).Mem m ↔ m = n ∨ b.Mem m := by
  have hlt := Nat.mod_lt n hw
  unfold Mem insert
  by_cases hd : m / w = n / w
  · simp only [hd, update_self, getLsbD_or, getLsbD_twoPow, hlt, decide_true,
      Bool.true_and, Bool.or_eq_true, decide_eq_true_eq, eq_iff_mod_eq hd]
    exact or_comm
  · have hne : m ≠ n := fun e => hd (by rw [e])
    simp only [update_of_ne hd, hne, false_or]

theorem mem_erase (hw : 0 < w) : (b.erase n).Mem m ↔ m ≠ n ∧ b.Mem m := by
  have hlt := Nat.mod_lt n hw
  have hlt' := Nat.mod_lt m hw
  unfold Mem erase
  by_cases hd : m / w = n / w
  · simp only [hd, update_self, getLsbD_and, getLsbD_not,
      getLsbD_twoPow, hlt, hlt', decide_true, Bool.true_and, Bool.and_eq_true,
      Bool.not_eq_eq_eq_not, Bool.not_true, decide_eq_false_iff_not, ne_eq, eq_iff_mod_eq hd]
    exact and_comm
  · have hne : m ≠ n := fun e => hd (by rw [e])
    simp only [update_of_ne hd, hne, ne_eq, not_false_eq_true, true_and]

theorem or_twoPow_ne_zero (hi : i < w) : x ||| twoPow w i ≠ 0 := by
  intro h
  have hbit := congrArg (·.getLsbD i) h
  simp [hi] at hbit

theorem Consistent.insert (h : b.Consistent) (hw : 0 < w) (hn : n / w < w) :
    (b.insert n).Consistent := by
  intro i
  unfold TwoLevel.insert
  by_cases hi : i = n / w
  · subst hi
    simp only [update_self, getLsbD_or, getLsbD_twoPow, hn, decide_true,
      Bool.and_self, Bool.or_true, true_iff]
    exact or_twoPow_ne_zero (Nat.mod_lt n hw)
  · simp only [update_of_ne hi, getLsbD_or, getLsbD_twoPow, Ne.symm hi,
      decide_false, Bool.and_false, Bool.or_false]
    exact h i

theorem Consistent.erase (h : b.Consistent) : (b.erase n).Consistent := by
  intro i
  unfold TwoLevel.erase
  simp only
  by_cases hi : i = n / w
  · subst hi
    rw [update_self]
    split
    · rename_i hz
      simp [hz, getLsbD_twoPow]
    · rename_i hz
      refine ⟨fun _ => hz, fun _ => (h _).mpr fun h0 => hz ?_⟩
      rw [h0]
      simp
  · rw [update_of_ne hi, ← h i]
    split
    · simp only [getLsbD_and, getLsbD_not, getLsbD_twoPow, Ne.symm hi,
        decide_false, Bool.and_false, Bool.not_false, Bool.and_true, Bool.and_eq_true,
        decide_eq_true_eq]
      exact ⟨fun hb => hb.1, fun hb => ⟨hb, BitVec.lt_of_getLsbD hb⟩⟩
    · rfl

theorem highest_mem (h : b.Consistent) (hw : 0 < w) (hhi : b.hi ≠ 0) : b.Mem b.highest := by
  have hword : b.lo (w - 1 - b.hi.clz.toNat) ≠ 0 :=
    (h _).mp (BitVec.getLsbD_true_clz_of_ne_zero hw hhi)
  have hlt : w - 1 - (b.lo (w - 1 - b.hi.clz.toNat)).clz.toNat < w := by omega
  unfold Mem highest
  rw [Nat.mul_add_div hw, Nat.div_eq_of_lt hlt, Nat.add_zero, Nat.mul_add_mod,
    Nat.mod_eq_of_lt hlt]
  exact BitVec.getLsbD_true_clz_of_ne_zero hw hword

/-- The word that a member's bit is in is marked. -/
theorem Mem.marked (hn : b.Mem n) (h : b.Consistent) : b.hi.getLsbD (n / w) = true := by
  refine (h _).mpr fun h0 => ?_
  rw [Mem, h0] at hn
  simp at hn

theorem Mem.hi_ne_zero (hn : b.Mem n) (h : b.Consistent) : b.hi ≠ 0 := by
  intro h0
  have hbit := hn.marked h
  rw [h0] at hbit
  simp at hbit

theorem le_highest (h : b.Consistent) (hn : b.Mem n) : n ≤ b.highest := by
  have hhi : n / w ≤ w - 1 - b.hi.clz.toNat := getLsbD_le_of_clz (hn.marked h)
  have hdiv := Nat.div_add_mod n w
  unfold highest
  simp only
  rcases Nat.lt_or_eq_of_le hhi with hlt | heq
  · -- an earlier word: all of its numbers are below the words that follow
    have hmod : n % w < w := BitVec.lt_of_getLsbD hn
    have hmul : w * (n / w + 1) ≤ w * (w - 1 - b.hi.clz.toNat) := Nat.mul_le_mul_left w hlt
    rw [Nat.mul_add, Nat.mul_one] at hmul
    omega
  · rw [← heq]
    have hbit := getLsbD_le_of_clz hn
    omega

end TwoLevel

end Rel4.Lib.Bitmap
