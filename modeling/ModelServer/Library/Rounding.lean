import Mathlib.Algebra.Order.Floor.Ring
import Mathlib.Algebra.Order.Round

/-!
# Rounding to the nearest, and ties to even

`halfEven` rounds to an integer and `roundTo` to a number of decimal places, as
`round` does in Python.  Both are monotone.
-/

namespace Rounding

variable {α : Type*} [Field α] [LinearOrder α] [FloorRing α]

/-- The nearer one of the two integers around `x`, and the even one halfway. -/
def halfEven (x : α) : ℤ :=
  if Int.fract x < 1 - Int.fract x then ⌊x⌋
  else if 1 - Int.fract x < Int.fract x then ⌊x⌋ + 1
  else if Even ⌊x⌋ then ⌊x⌋
  else ⌊x⌋ + 1

/-- `round(x, digits)`. -/
def roundTo (digits : ℕ) (x : α) : α := halfEven (x * 10 ^ digits) / 10 ^ digits

theorem floor_le_halfEven (x : α) : ⌊x⌋ ≤ halfEven x := by
  unfold halfEven
  split_ifs <;> omega

theorem halfEven_le_floor_add_one (x : α) : halfEven x ≤ ⌊x⌋ + 1 := by
  unfold halfEven
  split_ifs <;> omega

theorem halfEven_of_lt {x : α} (h : Int.fract x < 1 - Int.fract x) : halfEven x = ⌊x⌋ := if_pos h

theorem halfEven_of_gt {x : α} (h : 1 - Int.fract x < Int.fract x) : halfEven x = ⌊x⌋ + 1 := by
  rw [halfEven, if_neg h.not_gt, if_pos h]

variable [IsStrictOrderedRing α]

/-- Between two integers it depends on the fraction alone. -/
theorem halfEven_le_of_floor_eq {x y : α} (hfloor : ⌊x⌋ = ⌊y⌋)
    (hfract : Int.fract x ≤ Int.fract y) : halfEven x ≤ halfEven y := by
  by_cases hlow : Int.fract x < 1 - Int.fract x
  · rw [halfEven_of_lt hlow, hfloor]
    exact floor_le_halfEven y
  · rcases hfract.eq_or_lt with hsame | hless
    · unfold halfEven
      rw [hfloor, hsame]
    · have hhigh : 1 - Int.fract y < Int.fract y :=
        calc 1 - Int.fract y < 1 - Int.fract x := sub_lt_sub_left hless 1
          _ ≤ Int.fract x := not_lt.mp hlow
          _ < Int.fract y := hless
      rw [halfEven_of_gt hhigh, ← hfloor]
      exact halfEven_le_floor_add_one x

theorem halfEven_mono {x y : α} (h : x ≤ y) : halfEven x ≤ halfEven y := by
  rcases (Int.floor_mono h).eq_or_lt with hfloor | hfloor
  · apply halfEven_le_of_floor_eq hfloor
    rw [Int.fract, Int.fract, hfloor]
    exact sub_le_sub_right h _
  · calc halfEven x ≤ ⌊x⌋ + 1 := halfEven_le_floor_add_one x
      _ ≤ ⌊y⌋ := hfloor
      _ ≤ halfEven y := floor_le_halfEven y

theorem roundTo_mono (digits : ℕ) {x y : α} (h : x ≤ y) : roundTo digits x ≤ roundTo digits y := by
  have hpos : (0 : α) < 10 ^ digits := by positivity
  have hscaled : x * 10 ^ digits ≤ y * 10 ^ digits := mul_le_mul_of_nonneg_right h hpos.le
  unfold roundTo
  gcongr
  exact halfEven_mono hscaled

end Rounding
