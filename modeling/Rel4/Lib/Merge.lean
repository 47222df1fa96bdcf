import Mathlib.Data.List.Basic

/-!
Values that are merged until they are taken.

A place keeps the join of the values that were sent to it until somebody takes
it; a value that comes while nothing is kept may also be handed over at once.
`Merged` says that nothing got lost or came twice on the way: what was sent falls
into consecutive groups, each value that was taken is the join of its group, and
what is kept is the join of the rest.
-/

namespace Rel4.Lib.Merge

universe u

variable {α : Type u} (op : α → α → α) (e : α)

def join (l : List α) : α := l.foldl op e

/-- The join of the values that are kept, if there are any. -/
def keep (l : List α) : Option α := if l.isEmpty then none else some (join op e l)

def Merged (sent got : List α) (kept : Option α) : Prop :=
  ∃ (groups : List (List α)) (rest : List α), sent = groups.flatten ++ rest ∧ got = groups.map (join op e) ∧
    kept = keep op e rest

variable {op e} {sent got : List α} {x : α}

theorem join_concat (l : List α) (x : α) : join op e (l ++ [x]) = op (join op e l) x := by
  simp [join, List.foldl_append]

theorem keep_eq_none (h : keep op e l = none) : l = [] := by
  unfold keep at h
  split at h
  · exact List.isEmpty_iff.mp ‹_›
  · cases h

theorem keep_eq_some (h : keep op e l = some w) : join op e l = w := by
  unfold keep at h
  split at h
  · cases h
  · exact Option.some.inj h

theorem keep_concat (l : List α) (x : α) : keep op e (l ++ [x]) = some (op (join op e l) x) := by
  rw [keep, if_neg (by simp), join_concat]

namespace Merged

theorem nil : Merged op e [] [] none := ⟨[], [], rfl, rfl, rfl⟩

/-- The first value to be kept. -/
theorem send_first (he : op e x = x) (h : Merged op e sent got none) :
    Merged op e (sent ++ [x]) got (some x) := by
  obtain ⟨groups, rest, rfl, rfl, hk⟩ := h
  obtain rfl := keep_eq_none hk.symm
  refine ⟨groups, [x], by simp, rfl, ?_⟩
  rw [← List.nil_append [x], keep_concat]
  exact congrArg some he.symm

/-- A value is added to those that are kept. -/
theorem send_more (h : Merged op e sent got (some w)) :
    Merged op e (sent ++ [x]) got (some (op w x)) := by
  obtain ⟨groups, rest, rfl, rfl, hk⟩ := h
  refine ⟨groups, rest ++ [x], by simp, rfl, ?_⟩
  rw [keep_concat, keep_eq_some hk.symm]

/-- A value is handed over at once. -/
theorem send_through (he : op e x = x) (h : Merged op e sent got none) :
    Merged op e (sent ++ [x]) (got ++ [x]) none := by
  obtain ⟨groups, rest, rfl, rfl, hk⟩ := h
  obtain rfl := keep_eq_none hk.symm
  refine ⟨groups ++ [[x]], [], by simp, ?_, rfl⟩
  rw [List.map_append]
  exact congrArg (groups.map (join op e) ++ [·]) he.symm

/-- What is kept is taken. -/
theorem take (h : Merged op e sent got (some w)) : Merged op e sent (got ++ [w]) none := by
  obtain ⟨groups, rest, rfl, rfl, hk⟩ := h
  refine ⟨groups ++ [rest], [], by simp, ?_, rfl⟩
  rw [List.map_append, ← keep_eq_some hk.symm]
  rfl

/-- Where nothing is kept, nothing is taken. -/
theorem take_nothing (h : Merged op e sent got none) : Merged op e sent (got ++ [e]) none := by
  obtain ⟨groups, rest, rfl, rfl, hk⟩ := h
  obtain rfl := keep_eq_none hk.symm
  exact ⟨groups ++ [[]], [], by simp, by simp [join], rfl⟩

end Merged

section Total

variable [Std.Associative op] [Std.LawfulIdentity op e]

theorem join_append (l l' : List α) :
    join op e (l ++ l') = op (join op e l) (join op e l') := by
  have hid : op (l.foldl op e) e = l.foldl op e := Std.LawfulRightIdentity.right_id _
  have hassoc : l'.foldl op (op (l.foldl op e) e) = op (l.foldl op e) (l'.foldl op e) :=
    List.foldl_assoc
  rw [join, List.foldl_append, join, join, ← hassoc, hid]

theorem join_flatten (groups : List (List α)) :
    join op e groups.flatten = join op e (groups.map (join op e)) := by
  induction groups with
  | nil => rfl
  | cons l groups ih =>
    rw [List.flatten_cons, List.map_cons, join_append, ih, ← List.singleton_append, join_append]
    exact congrArg (op · _) (Std.LawfulLeftIdentity.left_id _).symm

/-- All that was sent is what was taken and what is kept. -/
theorem Merged.join_eq (h : Merged op e sent got kept) :
    join op e sent = op (join op e got) (kept.getD e) := by
  obtain ⟨groups, rest, rfl, rfl, rfl⟩ := h
  rw [join_append, join_flatten]
  congr 1
  unfold keep
  split
  next hnil =>
    rw [List.isEmpty_iff.mp hnil]
    rfl
  · rfl

end Total

end Rel4.Lib.Merge
