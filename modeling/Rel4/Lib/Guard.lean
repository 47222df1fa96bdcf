import Mathlib.Logic.Basic

/-!
Computations that must not end with one particular error.

`Avoids bad P r` is a postcondition for `Except`: `r` does not fail with `bad`,
and whatever it returns satisfies `P`. Other errors are let through, so an
invariant can be carried along a program that also has assertions.
-/

namespace Rel4.Lib.Guard

variable {α : Type} {bad : ε} {P : α → Prop}

def Avoids (bad : ε) (P : α → Prop) : Except ε α → Prop
  | .ok v => P v
  | .error e => e ≠ bad

namespace Avoids

theorem mono (h : Avoids bad P r) (hpq : ∀ v, P v → Q v) : Avoids bad Q r := by
  cases r with
  | ok v => exact hpq v h
  | error e => exact h

theorem bind (h : Avoids bad P r) (hf : ∀ v, P v → Avoids bad R (f v)) :
    Avoids bad R (r >>= f) := by
  cases r with
  | ok v => exact hf v h
  | error e => exact h

theorem ite [Decidable c] (h : c → Avoids bad P r) (h' : ¬ c → Avoids bad P r') :
    Avoids bad P (if c then r else r') := by
  split
  next hc => exact h hc
  next hc => exact h' hc

theorem of_eq_ok (h : Avoids bad P r) (hr : r = .ok v) : P v := by
  rw [hr] at h
  exact h

/-- A loop of steps that keep an invariant keeps it. -/
theorem foldlM {step : α → β → Except ε α} {bs : List β}
    (hstep : ∀ b ∈ bs, ∀ v, P v → Avoids bad P (step v b)) {v : α} (hv : P v) :
    Avoids bad P (bs.foldlM step v) := by
  induction bs generalizing v with
  | nil => exact hv
  | cons b bs ih =>
    rw [List.foldlM_cons]
    refine (hstep b List.mem_cons_self v hv).bind fun v' hv' => ?_
    exact ih (fun c hc => hstep c (List.mem_cons_of_mem b hc)) hv'

end Avoids

end Rel4.Lib.Guard
