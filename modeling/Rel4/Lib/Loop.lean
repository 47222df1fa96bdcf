import Mathlib.Logic.Function.Basic

/-!
Counting loops.

`forLoop f i n` runs `f` for the `n` numbers from `i` on. What a loop keeps is
proved of one turn and carried to the end by `forLoop_induct`.
-/

namespace Rel4.Lib.Loop
open Function

universe u

variable {i n : Nat} {σ : Type u}

/-- `for j in i..i + n` -/
def forLoop (f : Nat → σ → σ) : Nat → Nat → σ → σ
  | _, 0, s => s
  | i, n + 1, s => forLoop f (i + 1) n (f i s)

variable {f : Nat → σ → σ} {s : σ}

theorem forLoop_induct {P : Nat → σ → Prop} (h0 : P i s)
    (hstep : ∀ j s, i ≤ j → j < i + n → P j s → P (j + 1) (f j s)) :
    P (i + n) (forLoop f i n s) := by
  induction n generalizing i s with
  | zero => exact h0
  | succ n ih =>
    have h1 : P (i + 1) (f i s) := hstep i s (Nat.le_refl _) (by omega) h0
    have := ih h1 fun j s hi hj => hstep j s (by omega) (by omega)
    rwa [show i + 1 + n = i + (n + 1) by omega] at this

/-- What every turn keeps, the loop keeps. -/
theorem forLoop_preserves {P : σ → Prop} (h0 : P s)
    (hstep : ∀ j s, i ≤ j → j < i + n → P s → P (f j s)) : P (forLoop f i n s) :=
  forLoop_induct h0 hstep

theorem forLoop_congr (h : ∀ j s, i ≤ j → j < i + n → f j s = g j s) :
    forLoop f i n s = forLoop g i n s := by
  induction n generalizing i s with
  | zero => rfl
  | succ n ih =>
    rw [forLoop, forLoop, h i s (Nat.le_refl i) (by omega)]
    exact ih fun j s hi hj => h j s (by omega) (by omega)

/-- A loop is a loop over the first numbers and one over the others. -/
theorem forLoop_add (f : Nat → σ → σ) (i m n : Nat) (s : σ) :
    forLoop f i (m + n) s = forLoop f (i + m) n (forLoop f i m s) := by
  induction m generalizing i s with
  | zero => rw [Nat.zero_add, forLoop, Nat.add_zero]
  | succ m ih =>
    rw [show m + 1 + n = m + n + 1 by omega, forLoop, forLoop, ih,
      show i + 1 + m = i + (m + 1) by omega]

theorem forLoop_shift (f : Nat → σ → σ) (k i n : Nat) (s : σ) :
    forLoop (fun j => f (j + k)) i n s = forLoop f (i + k) n s := by
  induction n generalizing i s with
  | zero => rfl
  | succ n ih =>
    rw [forLoop, forLoop, ih, show i + 1 + k = i + k + 1 by omega]

/-- Two loops over a sequence in two parts, the first of length `m`: the second
loop counts from the start of its own part. -/
theorem forLoop_join (hi : i ≤ min n m) (hn : n ≤ m + k) (hf : ∀ j s, j < m → f j s = h j s)
    (hg : ∀ j s, g j s = h (j + m) s) :
    forLoop g 0 (min (n - m) k) (forLoop f i (min n m - i) s) = forLoop h i (n - i) s := by
  have hlen : n - i = min n m - i + min (n - m) k := by omega
  have hfirst : forLoop f i (min n m - i) s = forLoop h i (min n m - i) s :=
    forLoop_congr fun j s _ hj => hf j s (by omega)
  have hsecond : ∀ s, forLoop g 0 (min (n - m) k) s =
      forLoop h (0 + m) (min (n - m) k) s := by
    intro s
    rw [← forLoop_shift]
    exact forLoop_congr fun j s _ _ => hg j s
  rw [hlen, forLoop_add, hfirst, hsecond]
  by_cases hnm : n ≤ m
  · have hnone : min (n - m) k = 0 := by omega
    rw [hnone, forLoop, forLoop]
  · rw [show i + (min n m - i) = 0 + m by omega]

/-- A loop that writes one entry of a function in each turn. No entry is written
twice, and what a turn writes does not depend on what earlier turns have written. -/
theorem forLoop_update {α : Type*} {β : Type*} [DecidableEq α] {p : Nat → α} {v : Nat → (α → β) → β}
    {m : α → β} (hp : ∀ j k, i ≤ j → j < k → k < i + n → p k ≠ p j)
    (hv : ∀ k m', i ≤ k → k < i + n → (∀ x, (∀ j, i ≤ j → j < k → x ≠ p j) → m' x = m x) →
      v k m' = v k m) :
    (∀ k, i ≤ k → k < i + n →
        forLoop (fun k m => update m (p k) (v k m)) i n m (p k) = v k m) ∧
      ∀ x, (∀ k, i ≤ k → k < i + n → x ≠ p k) →
        forLoop (fun k m => update m (p k) (v k m)) i n m x = m x := by
  refine forLoop_induct (P := fun e (m' : α → β) => (∀ k, i ≤ k → k < e → m' (p k) = v k m) ∧
    ∀ x, (∀ k, i ≤ k → k < e → x ≠ p k) → m' x = m x) ⟨fun k _ _ => by omega, fun _ _ => rfl⟩ ?_
  intro e m' hie hen ⟨hwritten, hrest⟩
  refine ⟨fun k hik hke => ?_, fun x hx => ?_⟩
  · by_cases hk : k = e
    · subst hk
      rw [update_self]
      exact hv k m' hie hen hrest
    · rw [update_of_ne (hp k e hik (by omega) hen).symm]
      exact hwritten k hik (by omega)
  · rw [update_of_ne (hx e hie (by omega))]
    exact hrest x fun k hik hke => hx k hik (by omega)

end Rel4.Lib.Loop
