import Mathlib.Algebra.BigOperators.Group.List.Basic
import Mathlib.Algebra.GroupWithZero.Nat

/-!
# Sums over the parts of a state

What a state counts is often the sum of what its parts have contributed.  One part
changes at a time, and the sum changes with it.
-/

namespace Transition

theorem sum_map_set {α : Type*} (count : α → ℕ) {list : List α} {index : ℕ} {old : α}
    (h : list[index]? = some old) (new : α) :
    ((list.set index new).map count).sum + count old = (list.map count).sum + count new := by
  induction list generalizing index with
  | nil => simp at h
  | cons head tail ih =>
      cases index with
      | zero =>
          obtain rfl : head = old := by simpa using h
          simp only [List.set_cons_zero, List.map_cons, List.sum_cons]
          omega
      | succ index =>
          have := ih (by simpa using h)
          simp only [List.set_cons_succ, List.map_cons, List.sum_cons]
          omega

/-- A part that changes in other respects leaves what is read off all parts as it was. -/
theorem map_set_of_eq {α β : Type*} (read : α → β) {list : List α} {index : ℕ} {old new : α}
    (h : list[index]? = some old) (hsame : read new = read old) :
    (list.set index new).map read = list.map read := by
  obtain ⟨hindex, rfl⟩ := List.getElem?_eq_some_iff.mp h
  have hmapped : index < (list.map read).length := by simpa using hindex
  calc (list.set index new).map read
    _ = (list.map read).set index (read list[index]) := by rw [List.map_set, hsame]
    _ = (list.map read).set index (list.map read)[index] := by rw [List.getElem_map]
    _ = list.map read := List.set_getElem_self hmapped

/-- Two sums over the same list differ by the number of parts in which one has one more. -/
theorem sum_map_add_countP {α : Type*} {list : List α} {after before : α → ℕ} {more : α → Bool}
    (h : ∀ part ∈ list, after part = before part + if more part then 1 else 0) :
    (list.map after).sum = (list.map before).sum + list.countP more := by
  induction list with
  | nil => rfl
  | cons head tail ih =>
      have htail := ih fun part hmem => h part (List.mem_cons_of_mem _ hmem)
      have hhead := h head List.mem_cons_self
      rw [List.map_cons, List.map_cons, List.sum_cons, List.sum_cons, List.countP_cons]
      omega

/-- Two sums over the same list differ by one summand. -/
theorem sum_map_of_single {α : Type*} [DecidableEq α] {list : List α} (hnodup : list.Nodup)
    {single : α} (hmem : single ∈ list) {after before : α → ℕ}
    (hother : ∀ other, other ≠ single → after other = before other) :
    (list.map after).sum + before single = (list.map before).sum + after single := by
  have hrest : (list.erase single).map after = (list.erase single).map before := by
    refine List.map_congr_left fun other hin => hother other ?_
    rintro rfl
    exact hnodup.not_mem_erase hin
  rw [← List.sum_map_erase after hmem, ← List.sum_map_erase before hmem, hrest]
  omega

end Transition
