import Mathlib.Algebra.BigOperators.Field
import Mathlib.Algebra.BigOperators.Fin
import Mathlib.Algebra.Order.BigOperators.Ring.Finset
import Mathlib.Algebra.Order.Field.Basic
import Mathlib.Tactic.Linarith

/-!
# Softmax

Softmax of a finite family of numbers in an ordered field, with the exponential as
a parameter: all that is used of it is in `Exponential`.

A common shift of the numbers changes nothing (`softmax_add_const`), which is why
the largest of them may be subtracted first; and the probabilities are in the order
of the numbers (`softmax_le_iff`).
-/

namespace Softmax

variable {K ι : Type*} [Field K] [LinearOrder K]

/-- What softmax needs of `exp`. -/
structure Exponential (exp : K → K) : Prop where
  pos : ∀ x, 0 < exp x
  add : ∀ x y, exp (x + y) = exp x * exp y
  strictMono : StrictMono exp

def softmax [Fintype ι] (exp : K → K) (x : ι → K) (i : ι) : K := exp (x i) / ∑ j, exp (x j)

section

variable [Fintype ι] {exp : K → K}

theorem softmax_add_const (hexp : Exponential exp) (x : ι → K) (c : K) :
    softmax exp (fun j => x j + c) = softmax exp x := by
  funext i
  have hc : exp c ≠ 0 := (hexp.pos c).ne'
  unfold softmax
  calc exp (x i + c) / ∑ j, exp (x j + c)
      = exp (x i) * exp c / ((∑ j, exp (x j)) * exp c) := by
        rw [Finset.sum_mul, hexp.add]
        exact congrArg _ (Finset.sum_congr rfl fun j _ => hexp.add (x j) c)
    _ = exp (x i) / ∑ j, exp (x j) := mul_div_mul_right _ _ hc

theorem softmax_sub_const (hexp : Exponential exp) (x : ι → K) (c : K) :
    softmax exp (fun j => x j - c) = softmax exp x := by
  simp only [sub_eq_add_neg]
  exact softmax_add_const hexp x (-c)

end

variable [IsStrictOrderedRing K] [Fintype ι] {exp : K → K}

theorem sum_exp_pos (hexp : Exponential exp) (x : ι → K) (i : ι) : 0 < ∑ j, exp (x j) :=
  Finset.sum_pos (fun j _ => hexp.pos (x j)) ⟨i, Finset.mem_univ i⟩

theorem sum_softmax [Nonempty ι] (hexp : Exponential exp) (x : ι → K) :
    ∑ i, softmax exp x i = 1 := by
  have hpos := sum_exp_pos hexp x (Classical.arbitrary ι)
  unfold softmax
  rw [← Finset.sum_div, div_self hpos.ne']

theorem softmax_le_iff (hexp : Exponential exp) (x : ι → K) {i j : ι} :
    softmax exp x i ≤ softmax exp x j ↔ x i ≤ x j := by
  unfold softmax
  rw [div_le_div_iff_of_pos_right (sum_exp_pos hexp x i), hexp.strictMono.le_iff_le]

/-- Of two, the one with at least half of the probability is the larger one. -/
theorem half_le_softmax_iff (hexp : Exponential exp) (x : Fin 2 → K) :
    1 / 2 ≤ softmax exp x 1 ↔ x 0 ≤ x 1 := by
  have hsum := sum_softmax hexp x
  rw [Fin.sum_univ_two] at hsum
  rw [← softmax_le_iff hexp x]
  constructor
  · intro h
    linarith
  · intro h
    linarith

end Softmax
