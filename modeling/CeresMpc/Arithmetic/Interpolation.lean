import Mathlib.Algebra.Polynomial.Eval.Degree
import Mathlib.Algebra.Polynomial.Degree.SmallDegree
import Mathlib.FieldTheory.Finite.Basic
import Mathlib.Tactic.FieldSimp
import Mathlib.Tactic.Ring

/-!
# Two points of a line

The value at zero of a line through two points, and inverses in a prime field as
powers.
-/

set_option autoImplicit false

namespace CeresMpc.Arithmetic

open Polynomial

/-- Lagrange interpolation at zero, for two points. -/
theorem line_at_zero {F : Type} [Field F] {x1 x2 : F} (distinct : x1 ≠ x2) {f : F[X]} (line : f.natDegree ≤ 1) :
    -x2 * (x1 - x2)⁻¹ * f.eval x1 + -x1 * (x2 - x1)⁻¹ * f.eval x2 = f.eval 0 := by
  obtain ⟨slope, start, rfl⟩ := exists_eq_X_add_C_of_natDegree_le_one line
  have apart : x1 - x2 ≠ 0 := sub_ne_zero.mpr distinct
  have flipped : (x2 - x1)⁻¹ = -(x1 - x2)⁻¹ := by rw [← neg_sub, inv_neg]
  simp only [eval_add, eval_mul, eval_C, eval_X, mul_zero, zero_add, flipped]
  field_simp
  ring

/-- Fermat's inverse. -/
theorem pow_eq_inv {p : Nat} [Fact p.Prime] (x : ZMod p) (large : 2 < p) : x ^ (p - 2) = x⁻¹ := by
  by_cases zero : x = 0
  · have positive : p - 2 ≠ 0 := by omega
    rw [zero, zero_pow positive, inv_zero]
  · have split : p - 1 = p - 2 + 1 := by omega
    have one := ZMod.pow_card_sub_one_eq_one zero
    rw [split, pow_succ] at one
    exact eq_inv_of_mul_eq_one_left one

end CeresMpc.Arithmetic
