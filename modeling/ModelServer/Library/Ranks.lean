import Mathlib.Algebra.Order.Ring.Cast
import Mathlib.Data.List.Sort
import Mathlib.Order.Bounds.Basic

/-!
# Nearest ranks

An element of a list covers those that are not greater.  `NearestRank` is the element
that covers at least `threshold` of them, while fewer are less than it: so it is the
least element with that coverage (`NearestRank.isLeast`).  In a sorted list the covered
elements come first (`getElem_le_iff_lt_countP`), and the nearest rank stands where the
threshold is reached (`nearestRank_getElem`), whatever ties there are.
-/

namespace Ranks

variable {α K : Type*} [LinearOrder α] {list : List α}

/-! ## Counting -/

/-- What is not greater than `x` is less than anything greater. -/
theorem countP_le_le_countP_lt {x y : α} (h : x < y) :
    list.countP (· ≤ x) ≤ list.countP (· < y) := by
  refine List.countP_mono_left fun z _ hz => ?_
  rw [decide_eq_true_eq] at hz ⊢
  exact hz.trans_lt h

/-- What comes first is not greater. -/
theorem lt_countP_le_getElem (h : list.SortedLE) {i : ℕ} (hi : i < list.length) :
    i < list.countP (· ≤ list[i]) := by
  have htake : (list.take (i + 1)).countP (· ≤ list[i]) = (list.take (i + 1)).length := by
    rw [List.countP_eq_length]
    intro x hx
    obtain ⟨k, hk, rfl⟩ := List.mem_iff_getElem.mp hx
    rw [List.length_take] at hk
    rw [List.getElem_take, decide_eq_true_eq]
    exact h.getElem_le_getElem_of_le (by omega)
  have hlength : i < (list.take (i + 1)).length := by
    rw [List.length_take]
    omega
  rw [← htake] at hlength
  exact hlength.trans_le (List.take_sublist (i + 1) list).countP_le

/-- Only what comes before is less. -/
theorem countP_lt_getElem_le (h : list.SortedLE) {i : ℕ} (hi : i < list.length) :
    list.countP (· < list[i]) ≤ i := by
  have hdrop : (list.drop i).countP (· < list[i]) = 0 := by
    rw [List.countP_eq_zero]
    intro x hx
    obtain ⟨k, hk, rfl⟩ := List.mem_iff_getElem.mp hx
    rw [List.getElem_drop, decide_eq_true_eq, not_lt]
    exact h.getElem_le_getElem_of_le (by omega)
  calc list.countP (· < list[i])
      = (list.take i ++ list.drop i).countP (· < list[i]) := by rw [List.take_append_drop]
    _ = (list.take i).countP (· < list[i]) := by rw [List.countP_append, hdrop, Nat.add_zero]
    _ ≤ (list.take i).length := List.countP_le_length
    _ ≤ i := List.length_take_le i list

/-- The elements that are not greater than `x` come first. -/
theorem getElem_le_iff_lt_countP (h : list.SortedLE) {i : ℕ} (hi : i < list.length) {x : α} :
    list[i] ≤ x ↔ i < list.countP (· ≤ x) := by
  constructor
  · intro hle
    refine (lt_countP_le_getElem h hi).trans_le (List.countP_mono_left fun y _ hy => ?_)
    rw [decide_eq_true_eq] at hy ⊢
    exact hy.trans hle
  · intro hcount
    by_contra hless
    have hfewer : list.countP (· ≤ x) ≤ list.countP (· < list[i]) :=
      countP_le_le_countP_lt (not_le.mp hless)
    have hbound := countP_lt_getElem_le h hi
    omega

/-! ## The nearest rank -/

variable [Semiring K] [PartialOrder K] {data data' : List α} {threshold : K} {x : α}

structure NearestRank (data : List α) (threshold : K) (x : α) : Prop where
  mem : x ∈ data
  covers : threshold ≤ data.countP (· ≤ x)
  fewer : (data.countP (· < x) : K) < threshold

theorem NearestRank.of_perm (h : NearestRank data threshold x) (hperm : data.Perm data') :
    NearestRank data' threshold x where
  mem := hperm.mem_iff.mp h.mem
  covers := hperm.countP_eq (· ≤ x) ▸ h.covers
  fewer := hperm.countP_eq (· < x) ▸ h.fewer

variable [IsStrictOrderedRing K]

/-- An element with that coverage is not less, because it would be one of the fewer. -/
theorem NearestRank.le (h : NearestRank data threshold x) {y : α}
    (hcovers : threshold ≤ data.countP (· ≤ y)) : x ≤ y := by
  by_contra hless
  have hcount : data.countP (· ≤ y) ≤ data.countP (· < x) :=
    countP_le_le_countP_lt (not_le.mp hless)
  have hfew : threshold < threshold :=
    calc threshold ≤ data.countP (· ≤ y) := hcovers
      _ ≤ data.countP (· < x) := Nat.cast_le.mpr hcount
      _ < threshold := h.fewer
  exact lt_irrefl threshold hfew

theorem NearestRank.isLeast (h : NearestRank data threshold x) :
    IsLeast {y | y ∈ data ∧ threshold ≤ data.countP (· ≤ y)} x :=
  ⟨⟨h.mem, h.covers⟩, fun _ hy => h.le hy.2⟩

/-- In a sorted list the position is the threshold, rounded up, less one. -/
theorem nearestRank_getElem (h : data.SortedLE) {i : ℕ} (hi : i < data.length)
    (hbefore : (i : K) < threshold) (hreached : threshold ≤ (i + 1 : ℕ)) :
    NearestRank data threshold data[i] where
  mem := List.getElem_mem hi
  covers := hreached.trans (Nat.cast_le.mpr (lt_countP_le_getElem h hi))
  fewer := (Nat.cast_le.mpr (countP_lt_getElem_le h hi)).trans_lt hbefore

end Ranks
