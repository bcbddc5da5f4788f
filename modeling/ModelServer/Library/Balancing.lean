import Mathlib.Algebra.BigOperators.Group.Finset.Piecewise
import Mathlib.Algebra.Order.BigOperators.Group.Finset
import Mathlib.Algebra.GroupWithZero.Nat

/-!
# Filling evenly up to a limit

The members of a finite set have loads.  One unit at a time is given to a member
that is least loaded among those below a common limit.  `Filling` is what holds
after each unit: no two loads differ by more than one, none exceeds the limit, and
their sum is the number of units.  So there is room for one more exactly as long as
fewer units have been given than there are members times the limit
(`Filling.room_iff`), however ties were broken.
-/

namespace Balancing

variable {ι : Type*} {members : Finset ι} {limit count : ℕ} {load : ι → ℕ}

/-- After `count` units. -/
structure Filling (members : Finset ι) (limit count : ℕ) (load : ι → ℕ) : Prop where
  even : ∀ i ∈ members, ∀ j ∈ members, load i ≤ load j + 1
  le_limit : ∀ i ∈ members, load i ≤ limit
  sum_eq : ∑ i ∈ members, load i = count

namespace Filling

theorem empty (limit : ℕ) (h : ∀ i ∈ members, load i = 0) : Filling members limit 0 load where
  even i hi j _ := by simp [h i hi]
  le_limit i hi := by simp [h i hi]
  sum_eq := Finset.sum_eq_zero h

theorem congr {load' : ι → ℕ} (h : Filling members limit count load)
    (hload : ∀ i ∈ members, load' i = load i) : Filling members limit count load' where
  even i hi j hj := by
    rw [hload i hi, hload j hj]
    exact h.even i hi j hj
  le_limit i hi := by
    rw [hload i hi]
    exact h.le_limit i hi
  sum_eq := by
    rw [← h.sum_eq]
    exact Finset.sum_congr rfl hload

/-- There is room as long as not everything is given. -/
theorem room_iff (h : Filling members limit count load) :
    (∃ i ∈ members, load i < limit) ↔ count < members.card * limit := by
  have hfull : ∑ _i ∈ members, limit = members.card * limit := Finset.sum_const_nat fun _ _ => rfl
  rw [← h.sum_eq, ← hfull]
  constructor
  · rintro ⟨i, hi, hroom⟩
    exact Finset.sum_lt_sum h.le_limit ⟨i, hi, hroom⟩
  · intro hless
    exact Finset.exists_lt_of_sum_lt hless

/-- One more unit to a least loaded member below the limit. -/
theorem give [DecidableEq ι] (h : Filling members limit count load) {member : ι}
    (hmem : member ∈ members) (hroom : load member < limit)
    (hleast : ∀ other ∈ members, load other < limit → load member ≤ load other) :
    Filling members limit (count + 1) (Function.update load member (load member + 1)) where
  even i hi j hj := by
    -- a member at the limit has more than `member` as well
    have hall : load member ≤ load j := by
      by_cases hj' : load j < limit
      · exact hleast j hj hj'
      · omega
    have hbefore := h.even i hi j hj
    simp only [Function.update_apply]
    split_ifs with hi' hj' hj'
    · omega
    · omega
    · rw [hj'] at hbefore
      omega
    · exact hbefore
  le_limit i hi := by
    simp only [Function.update_apply]
    split_ifs
    · omega
    · exact h.le_limit i hi
  sum_eq := by
    have hrest := Finset.add_sum_erase members load hmem
    rw [Finset.sum_update_of_mem hmem, Finset.sdiff_singleton_eq_erase, ← h.sum_eq, ← hrest]
    omega

end Filling
end Balancing
