import Mathlib.Data.List.Rotate
import Mathlib.Logic.Function.Basic

/-!
Round robin.

The members of a ring take turns. The one in front has the turn, and each member
has a part of its quantum left. A tick uses up one unit; the last unit ends the
turn and renews the quantum. Yielding ends the turn and keeps what is left. The
owners of successive turns go round the ring (`turns_getElem`), so that a window
as long as the ring has every member in it once (`turns_window`).
-/

namespace Rel4.Lib.RoundRobin
open Function

inductive Move where
  | tick
  | yield
  deriving DecidableEq, Repr

structure Robin (α : Type*) where
  front : α
  rest : List α
  left : α → Nat

namespace Robin

variable {α : Type*} {r : Robin α} {m : Move} {ms : List Move}

def ring (r : Robin α) : List α := r.front :: r.rest

/-- The member in front goes to the back. -/
def pass (r : Robin α) : Robin α :=
  match r.rest with
  | [] => r
  | x :: xs => ⟨x, xs ++ [r.front], r.left⟩

def endsTurn (r : Robin α) : Move → Bool
  | .tick => r.left r.front ≤ 1
  | .yield => true

variable [DecidableEq α] (quantum : Nat)

def step (r : Robin α) : Move → Robin α
  | .tick =>
    if r.left r.front ≤ 1 then
      pass { r with left := update r.left r.front quantum }
    else { r with left := update r.left r.front (r.left r.front - 1) }
  | .yield => r.pass

def run (r : Robin α) (ms : List Move) : Robin α := ms.foldl (step quantum) r

/-- The members whose turns end, in order. -/
def turns : Robin α → List Move → List α
  | _, [] => []
  | r, m :: ms =>
    let owners := turns (r.step quantum m) ms
    if r.endsTurn m then r.front :: owners else owners

/-! ## The ring -/

omit [DecidableEq α] in
theorem ring_pass : r.pass.ring = r.ring.rotate 1 := by
  obtain ⟨front, rest, left⟩ := r
  cases rest with
  | nil => exact (List.rotate_singleton front 1).symm
  | cons x xs => simp [pass, ring]

omit [DecidableEq α] in
theorem left_pass : r.pass.left = r.left := by
  unfold pass
  split <;> rfl

variable {quantum}

theorem ring_step_of_ends (h : r.endsTurn m = true) :
    (r.step quantum m).ring = r.ring.rotate 1 := by
  cases m with
  | tick =>
    have hle : r.left r.front ≤ 1 := of_decide_eq_true h
    rw [step, if_pos hle, ring_pass]
    rfl
  | yield => exact ring_pass

theorem ring_step_of_not_ends (h : r.endsTurn m = false) : (r.step quantum m).ring = r.ring := by
  cases m with
  | tick =>
    have hlt : ¬r.left r.front ≤ 1 := of_decide_eq_false h
    rw [step, if_neg hlt]
    rfl
  | yield => cases h

theorem mem_ring_step : x ∈ (r.step quantum m).ring ↔ x ∈ r.ring := by
  cases h : r.endsTurn m with
  | true => rw [ring_step_of_ends h, List.mem_rotate]
  | false => rw [ring_step_of_not_ends h]

theorem mem_ring_run : x ∈ (r.run quantum ms).ring ↔ x ∈ r.ring := by
  induction ms generalizing r with
  | nil => rfl
  | cons m ms ih => exact (ih).trans mem_ring_step

/-! ## The turns -/

theorem turns_append :
    turns quantum r (ms ++ ns) = turns quantum r ms ++ turns quantum (r.run quantum ms) ns := by
  induction ms generalizing r with
  | nil => rfl
  | cons m ms ih =>
    have htail : turns quantum (r.step quantum m) (ms ++ ns) =
        turns quantum (r.step quantum m) ms ++ turns quantum (r.run quantum (m :: ms)) ns := ih
    rw [List.cons_append, turns, htail, turns]
    split <;> rfl

/-- The turns go round the ring. -/
theorem turns_getElem (hi : i < (turns quantum r ms).length) :
    (turns quantum r ms)[i]? = r.ring[i % r.ring.length]? := by
  induction ms generalizing r i with
  | nil => cases hi
  | cons m ms ih =>
    rw [turns] at hi ⊢
    cases hm : r.endsTurn m with
    | false =>
      simp only [hm, Bool.false_eq_true, if_false] at hi ⊢
      rw [ih hi, ring_step_of_not_ends hm]
    | true =>
      simp only [hm, if_true] at hi ⊢
      cases i with
      | zero => rfl
      | succ i =>
        have hpos : 0 < r.ring.length := Nat.succ_pos _
        rw [List.getElem?_cons_succ, ih (Nat.lt_of_succ_lt_succ hi), ring_step_of_ends hm,
          List.length_rotate, List.getElem?_rotate (Nat.mod_lt _ hpos), Nat.mod_add_mod]

/-- In a window as long as the ring every member has one turn. -/
theorem turns_window (hi : i + r.ring.length ≤ (turns quantum r ms).length) :
    ((turns quantum r ms).drop i).take r.ring.length = r.ring.rotate i := by
  apply List.ext_getElem?
  intro j
  by_cases hj : j < r.ring.length
  · have hij : i + j < (turns quantum r ms).length := by omega
    rw [List.getElem?_take_of_lt hj, List.getElem?_drop, turns_getElem hij,
      List.getElem?_rotate hj, Nat.add_comm]
  have hshort : (((turns quantum r ms).drop i).take r.ring.length).length ≤ j := by
    rw [List.length_take]
    omega
  have hlong : (r.ring.rotate i).length ≤ j := by
    rw [List.length_rotate]
    omega
  rw [List.getElem?_eq_none hshort, List.getElem?_eq_none hlong]

/-! ## The quantum -/

theorem left_step_yield : (r.step quantum .yield).left = r.left := left_pass

/-- As long as something is left, ticks leave the turn where it is. -/
theorem run_ticks (hn : n < r.left r.front) : r.run quantum (List.replicate n .tick) =
        { r with left := update r.left r.front (r.left r.front - n) } ∧
      turns quantum r (List.replicate n .tick) = [] := by
  induction n generalizing r with
  | zero => exact ⟨by rw [Nat.sub_zero, update_eq_self]; rfl, rfl⟩
  | succ n ih =>
    have hlt : ¬r.left r.front ≤ 1 := by omega
    have hends : r.endsTurn .tick = false := decide_eq_false hlt
    have hstep : r.step quantum .tick =
        { r with left := update r.left r.front (r.left r.front - 1) } := if_neg hlt
    have hleft : (r.step quantum .tick).left (r.step quantum .tick).front = r.left r.front - 1 := by
      rw [hstep]
      exact update_self ..
    obtain ⟨hrun, hturns⟩ := ih (r := r.step quantum .tick) (by omega)
    constructor
    · refine Eq.trans hrun ?_
      rw [hleft, hstep]
      simp only [update_idem, Nat.sub_sub, Nat.add_comm 1 n]
    · rw [List.replicate_succ, turns, hturns, hends]
      rfl

variable (quantum) in
/-- The tick that uses up what is left ends the turn and renews the quantum. -/
theorem run_out (h0 : 0 < r.left r.front) : r.run quantum (List.replicate (r.left r.front) .tick) =
        pass { r with left := update r.left r.front quantum } ∧
      turns quantum r (List.replicate (r.left r.front) .tick) = [r.front] := by
  obtain ⟨n, hn⟩ := Nat.exists_eq_add_of_lt h0
  rw [Nat.zero_add] at hn
  -- one unit is left before the last tick
  obtain ⟨hrun, hturns⟩ : r.run quantum (List.replicate n .tick) =
        { r with left := update r.left r.front (r.left r.front - n) } ∧
      turns quantum r (List.replicate n .tick) = [] := run_ticks (by omega)
  have hlast : (r.run quantum (List.replicate n .tick)).left
      (r.run quantum (List.replicate n .tick)).front ≤ 1 := by
    rw [hrun]
    show update r.left r.front _ r.front ≤ 1
    rw [update_self]
    omega
  have hends : (r.run quantum (List.replicate n .tick)).endsTurn .tick = true :=
    decide_eq_true hlast
  rw [hn, List.replicate_succ']
  constructor
  · rw [run, List.foldl_append]
    show (r.run quantum (List.replicate n .tick)).step quantum .tick = _
    rw [step, if_pos hlast, hrun]
    simp only [update_idem]
  · rw [turns_append, hturns, turns, hends, hrun]
    rfl

end Robin

end Rel4.Lib.RoundRobin
