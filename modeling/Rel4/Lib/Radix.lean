import Mathlib.Data.Nat.Basic
import Mathlib.Tactic.Ring

/-!
Graphs of guarded radix nodes.

An address is read from its leading bit on: `read n w` are the `w` bits below bit
`n`. A node expects its guard in the next bits and selects one of its `2 ^ radix`
slots by the bits behind the guard; the slot may lead to another node. Every node
has at least two slots, so that each level consumes a bit and a walk ends even in
a graph with cycles.
-/

namespace Rel4.Lib.Radix

universe u

variable {α : Type u}

/-- The `w` bits of `x` below bit `n`. -/
def chunk (x n w : Nat) : Nat := x / 2 ^ (n - w) % 2 ^ w

theorem chunk_lt (x n w : Nat) : chunk x n w < 2 ^ w := Nat.mod_lt _ (Nat.two_pow_pos w)

/-- The chunk read from the other end: `x` is shifted up in a word of `m` bits
until bit `n` falls out, and the bits below the chunk are shifted out again. -/
theorem chunk_eq_of_le (hw : w ≤ n) (hm : n ≤ m) :
    x * 2 ^ (m - n) % 2 ^ m / 2 ^ (m - w) = chunk x n w := by
  have hsplit : 2 ^ m = 2 ^ w * 2 ^ (m - w) := by
    rw [← Nat.pow_add]
    congr 1
    omega
  have hshift : 2 ^ (m - w) = 2 ^ (n - w) * 2 ^ (m - n) := by
    rw [← Nat.pow_add]
    congr 1
    omega
  rw [hsplit, Nat.mul_comm (2 ^ w), Nat.mod_mul_right_div_self, hshift,
    Nat.mul_div_mul_right _ _ (Nat.two_pow_pos _)]
  rfl

structure Node (α : Type u) where
  guardBits : Nat
  guard : Nat
  radix : Nat
  radix_pos : 0 < radix
  slot : Fin (2 ^ radix) → α

namespace Node

/-- The bits that one level consumes. -/
def bits (node : Node α) : Nat := node.guardBits + node.radix

theorem bits_pos (node : Node α) : 0 < node.bits := Nat.lt_add_left _ node.radix_pos

/-- `n` bits of the address are enough for the node and begin with its guard. -/
def Admits (node : Node α) (read : Nat → Nat → Nat) (n : Nat) : Prop :=
  node.bits ≤ n ∧ read n node.guardBits = node.guard

instance (node : Node α) (read : Nat → Nat → Nat) (n : Nat) : Decidable (node.Admits read n) :=
  inferInstanceAs (Decidable (_ ∧ _))

/-- The slot that the bits behind the guard select. -/
def select (node : Node α) (read : Nat → Nat → Nat) (n : Nat) : α :=
  node.slot ⟨read (n - node.guardBits) node.radix % 2 ^ node.radix,
    Nat.mod_lt _ (Nat.two_pow_pos _)⟩

/-- Where the `n` low bits of the address lead: to a slot, with the number of bits
that are left there, or nowhere. The walk stops at the first slot without a node. -/
def resolve (next : α → Option (Node α)) (read : Nat → Nat → Nat) (node : Node α) (n : Nat) :
    Option (α × Nat) :=
  if node.Admits read n then
    if n = node.bits then some (node.select read n, 0)
    else match next (node.select read n) with
      | none => some (node.select read n, n - node.bits)
      | some node' => resolve next read node' (n - node.bits)
  else none
termination_by n
decreasing_by
  have := node.bits_pos
  have : node.bits ≤ n := And.left ‹node.Admits read n›
  omega

/-- The number of nodes that the walk comes to. -/
def levels (next : α → Option (Node α)) (read : Nat → Nat → Nat) (node : Node α) (n : Nat) : Nat :=
  if node.Admits read n then
    if n = node.bits then 1
    else match next (node.select read n) with
      | none => 1
      | some node' => 1 + levels next read node' (n - node.bits)
  else 1
termination_by n
decreasing_by
  have := node.bits_pos
  have : node.bits ≤ n := And.left ‹node.Admits read n›
  omega

variable {next : α → Option (Node α)} {read : Nat → Nat → Nat} {node node' : Node α} {n : Nat}

theorem resolve_of_not_admits (h : ¬node.Admits read n) : node.resolve next read n = none := by
  rw [resolve, if_neg h]

theorem resolve_last (h : node.Admits read n) (hn : n = node.bits) :
    node.resolve next read n = some (node.select read n, 0) := by
  rw [resolve, if_pos h, if_pos hn]

section

variable (h : node.Admits read n) (hn : n ≠ node.bits)
include h hn

theorem resolve_stop (hnext : next (node.select read n) = none) :
    node.resolve next read n = some (node.select read n, n - node.bits) := by
  rw [resolve, if_pos h, if_neg hn, hnext]

theorem resolve_next (hnext : next (node.select read n) = some node') :
    node.resolve next read n = node'.resolve next read (n - node.bits) := by
  rw [resolve, if_pos h, if_neg hn, hnext]

theorem levels_next (hnext : next (node.select read n) = some node') :
    node.levels next read n = 1 + node'.levels next read (n - node.bits) := by
  rw [levels, if_pos h, if_neg hn, hnext]

end

/-- The walk ends at the node. -/
theorem levels_end (h : node.Admits read n → n ≠ node.bits → next (node.select read n) = none) :
    node.levels next read n = 1 := by
  rw [levels]
  split
  next ha =>
    split
    · rfl
    next hn => rw [h ha hn]
  · rfl

theorem levels_pos : 0 < node.levels next read n := by
  rw [levels]
  split
  · split
    · exact Nat.one_pos
    · split <;> omega
  · exact Nat.one_pos

/-- Every level consumes a bit. -/
theorem levels_le (hn : 0 < n) : node.levels next read n ≤ n := by
  induction n using Nat.strong_induction_on generalizing node with
  | h n ih =>
    by_cases hend : node.Admits read n → n ≠ node.bits → next (node.select read n) = none
    · rw [levels_end hend]
      exact hn
    obtain ⟨ha, hne, hnext⟩ : node.Admits read n ∧ n ≠ node.bits ∧
        next (node.select read n) ≠ none := by simpa using hend
    obtain ⟨node', hnode⟩ := Option.ne_none_iff_exists'.mp hnext
    have hbits := node.bits_pos
    have hle : node.bits ≤ n := ha.1
    have : node'.levels next read (n - node.bits) ≤ n - node.bits :=
      ih (n - node.bits) (by omega) (by omega)
    rw [levels_next ha hne hnode]
    omega

theorem levels_le_succ : node.levels next read n ≤ n + 1 := by
  rcases Nat.eq_zero_or_pos n with rfl | hn
  · rw [levels_end fun ha => absurd ha.1 (Nat.not_le.mpr node.bits_pos)]
  · exact Nat.le_succ_of_le (levels_le hn)

theorem rest_le_of_resolve {slot : α} {k : Nat} (h : node.resolve next read n = some (slot, k)) :
    k ≤ n := by
  induction n using Nat.strong_induction_on generalizing node with
  | h n ih =>
    have hbits := node.bits_pos
    rw [resolve] at h
    split at h
    next ha =>
      have hle : node.bits ≤ n := ha.1
      split at h
      · cases h
        exact Nat.zero_le n
      split at h
      · cases h
        exact Nat.sub_le _ _
      · have := ih (n - node.bits) (by omega) h
        omega
    · cases h

/-- Only bits below bit `n` are read. -/
theorem resolve_congr (h : ∀ m w, w ≤ m → m ≤ n → read m w = read' m w) :
    node.resolve next read n = node.resolve next read' n := by
  induction n using Nat.strong_induction_on generalizing node with
  | h n ih =>
    have hbits := node.bits_pos
    have hsum : node.bits = node.guardBits + node.radix := rfl
    by_cases hle : node.bits ≤ n
    · have hadmits : node.Admits read n ↔ node.Admits read' n := by
        rw [Admits, Admits, h n node.guardBits (by omega) (Nat.le_refl n)]
      have hselect : node.select read n = node.select read' n := by
        simp only [select, h (n - node.guardBits) node.radix (by omega) (by omega)]
      have hrec : ∀ node', resolve next read node' (n - node.bits) =
          resolve next read' node' (n - node.bits) := fun node' =>
        ih _ (by omega) fun m w hw hm => h m w hw (by omega)
      rw [resolve, resolve, if_congr hadmits rfl rfl, hselect]
      simp only [hrec]
    · rw [resolve_of_not_admits fun ha => hle ha.1, resolve_of_not_admits fun ha => hle ha.1]

end Node

end Rel4.Lib.Radix
