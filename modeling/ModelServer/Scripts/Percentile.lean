import Mathlib.Algebra.Order.Floor.Ring
import Mathlib.Data.List.GetD
import Mathlib.Data.List.Sort
import Mathlib.Data.Rat.Floor
import ModelServer.Library.Ranks

/-!
# `percentile`

The values are exact.  A percentile does not depend on the order of the data
(`percentile_of_perm`), and a higher one is not less (`percentile_mono`).  It is the
least value that covers its share of the data (`percentile_nearestRank`).
-/

namespace ModelServer

open Ranks

/-- `sorted(data)`. -/
def sortedData (data : List ℚ) : List ℚ := data.insertionSort (· ≤ ·)

/-- The position that is read in a sorted list of this length. -/
def percentileIdx (length : ℕ) (pct : ℚ) : ℤ := max 0 (min (⌈pct * length⌉ - 1) (length - 1))

def percentile (data : List ℚ) (pct : ℚ) : ℚ :=
  if data = [] then 0
  else (sortedData data).getD (percentileIdx (sortedData data).length pct).toNat 0

@[simp] theorem length_sortedData (data : List ℚ) : (sortedData data).length = data.length :=
  List.length_insertionSort _ data

theorem sortedData_of_perm {data data' : List ℚ} (h : data.Perm data') :
    sortedData data = sortedData data' := by
  have hperm : (sortedData data).Perm (sortedData data') :=
    ((List.perm_insertionSort _ data).trans h).trans (List.perm_insertionSort _ data').symm
  exact hperm.eq_of_sortedLE List.sortedLE_insertionSort List.sortedLE_insertionSort

theorem percentile_of_perm {data data' : List ℚ} (h : data.Perm data') (pct : ℚ) :
    percentile data pct = percentile data' pct := by
  have hnil : data = [] ↔ data' = [] := ⟨fun hd => List.nil_perm.mp (hd ▸ h),
    fun hd => List.perm_nil.mp (hd ▸ h)⟩
  simp only [percentile, hnil, sortedData_of_perm h]

theorem percentileIdx_mono (length : ℕ) {low high : ℚ} (h : low ≤ high) :
    percentileIdx length low ≤ percentileIdx length high := by
  have hlength : (0 : ℚ) ≤ length := Nat.cast_nonneg length
  have hceil : ⌈low * length⌉ ≤ ⌈high * length⌉ :=
    Int.ceil_mono (mul_le_mul_of_nonneg_right h hlength)
  unfold percentileIdx
  omega

/-- The position is one of the list. -/
theorem percentileIdx_lt {length : ℕ} (h : 0 < length) (pct : ℚ) :
    (percentileIdx length pct).toNat < length := by
  unfold percentileIdx
  omega

/-- What is read is an entry of the sorted data. -/
theorem percentile_eq_getElem {data : List ℚ} (h : data ≠ []) (pct : ℚ)
    (hidx : (percentileIdx (sortedData data).length pct).toNat < (sortedData data).length) :
    percentile data pct =
      (sortedData data)[(percentileIdx (sortedData data).length pct).toNat] := by
  rw [percentile, if_neg h, List.getD_eq_getElem _ _ hidx]

theorem length_sortedData_pos {data : List ℚ} (h : data ≠ []) : 0 < (sortedData data).length := by
  rw [length_sortedData]
  exact List.length_pos_of_ne_nil h

theorem percentile_mono (data : List ℚ) {low high : ℚ} (h : low ≤ high) :
    percentile data low ≤ percentile data high := by
  by_cases hdata : data = []
  · simp [percentile, hdata]
  · have hlength := length_sortedData_pos hdata
    have hidx := Int.toNat_le_toNat (percentileIdx_mono (sortedData data).length h)
    rw [percentile_eq_getElem hdata low (percentileIdx_lt hlength low),
      percentile_eq_getElem hdata high (percentileIdx_lt hlength high)]
    exact List.sortedLE_insertionSort.getElem_le_getElem_of_le hidx

/-! ## The nearest rank -/

/-- Neither clamp does anything to a share of the data. -/
theorem percentileIdx_eq {length : ℕ} (h : 0 < length) {pct : ℚ} (hpos : 0 < pct)
    (hle : pct ≤ 1) : percentileIdx length pct = ⌈pct * length⌉ - 1 := by
  have hlength : (0 : ℚ) < length := Nat.cast_pos.mpr h
  have hfirst : 0 < ⌈pct * length⌉ := Int.ceil_pos.mpr (mul_pos hpos hlength)
  have hlast : ⌈pct * length⌉ ≤ length := by
    rw [Int.ceil_le, Int.cast_natCast]
    exact mul_le_of_le_one_left hlength.le hle
  unfold percentileIdx
  omega

/-- The position is the last one before the share is reached. -/
theorem share_bounds {length : ℕ} (h : 0 < length) {pct : ℚ} (hpos : 0 < pct) (hle : pct ≤ 1) :
    ((percentileIdx length pct).toNat : ℚ) < pct * length ∧
      pct * length ≤ ((percentileIdx length pct).toNat + 1 : ℕ) := by
  have hnonneg : 0 ≤ percentileIdx length pct := le_max_left _ _
  have hidx : ((percentileIdx length pct).toNat : ℚ) = ⌈pct * length⌉ - 1 := by
    rw [← Int.cast_natCast, Int.toNat_of_nonneg hnonneg, percentileIdx_eq h hpos hle]
    push_cast
    rfl
  rw [Nat.cast_add_one, hidx, sub_add_cancel, sub_lt_iff_lt_add]
  exact ⟨Int.ceil_lt_add_one _, Int.le_ceil _⟩

/-- **`percentile` is the nearest-rank percentile.**  It is a value of the data, at least
`pct` of them are at most as large and fewer are less, and it is the least such value. -/
theorem percentile_nearestRank (data : List ℚ) (hdata : data ≠ []) (pct : ℚ) (hpos : 0 < pct)
    (hle : pct ≤ 1) :
    percentile data pct ∈ data ∧
      pct * data.length ≤ data.countP (· ≤ percentile data pct) ∧
      data.countP (· < percentile data pct) < pct * data.length ∧
      IsLeast {x | x ∈ data ∧ pct * data.length ≤ data.countP (· ≤ x)} (percentile data pct) := by
  have hlength := length_sortedData_pos hdata
  have hidx := percentileIdx_lt hlength pct
  obtain ⟨hbefore, hreached⟩ := share_bounds hlength hpos hle
  have hsorted : NearestRank (sortedData data) (pct * (sortedData data).length)
      (percentile data pct) := by
    rw [percentile_eq_getElem hdata pct hidx]
    exact nearestRank_getElem List.sortedLE_insertionSort hidx hbefore hreached
  rw [length_sortedData] at hsorted
  have hrank : NearestRank data (pct * data.length) (percentile data pct) :=
    hsorted.of_perm (List.perm_insertionSort _ data)
  exact ⟨hrank.mem, hrank.covers, hrank.fewer, hrank.isLeast⟩

/-- Half of the data, and a tie at the value. -/
theorem percentile_nearestRank_tie :
    percentile [40, 10, 20, 20] (1 / 2) = 20 ∧
      IsLeast {x | x ∈ [40, 10, 20, 20] ∧ 1 / 2 * (4 : ℚ) ≤ [40, 10, 20, 20].countP (· ≤ x)}
        (percentile [40, 10, 20, 20] (1 / 2)) :=
  ⟨by decide +kernel, (percentile_nearestRank [40, 10, 20, 20] (by decide) (1 / 2) (by norm_num)
    (by norm_num)).2.2.2⟩

example : percentile [40, 10, 30, 20] (1 / 2) = 20 := by decide +kernel

end ModelServer
