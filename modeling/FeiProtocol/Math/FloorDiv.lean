import Mathlib.Algebra.BigOperators.Group.Finset.Basic
import Mathlib.Algebra.Order.BigOperators.Group.Finset
import Mathlib.Tactic.Ring
import Mathlib.Tactic.Linarith

/-!
# Rounding down, over many parts

Splitting an amount and rounding each part down never gives more than rounding
the whole, and gives at most one unit less for each cut.
-/

namespace FloorDiv

/-- The parts of a split, each rounded down, never exceed the rounded whole. -/
theorem sum_div_le (xs : List Nat) (d : Nat) : (xs.map (· / d)).sum ≤ xs.sum / d := by
  induction xs with
  | nil => simp
  | cons x xs ih =>
      calc ((x :: xs).map (· / d)).sum
        _ = x / d + (xs.map (· / d)).sum := by simp
        _ ≤ x / d + xs.sum / d := Nat.add_le_add_left ih _
        _ ≤ (x + xs.sum) / d := Nat.div_add_div_le_add_div
        _ = (x :: xs).sum / d := by simp

/-- Adding one part to a split loses at most one unit. -/
theorem add_div_le_succ (x y d : Nat) : (x + y) / d ≤ x / d + y / d + 1 := by
  rcases Nat.eq_zero_or_pos d with rfl | pos
  · simp
  · rw [Nat.add_div pos]
    split <;> omega

/-- The rounded whole exceeds the rounded parts by less than their number. -/
theorem div_sum_le (xs : List Nat) (d : Nat) :
    xs.sum / d ≤ (xs.map (· / d)).sum + (xs.length - 1) := by
  induction xs with
  | nil => simp
  | cons x xs ih =>
      cases xs with
      | nil => simp
      | cons y ys =>
          have cut := add_div_le_succ x (y :: ys).sum d
          simp only [List.sum_cons, List.map_cons, List.length_cons] at ih cut ⊢
          omega

/-- `x / y ≤ z / w` from the crosswise products. -/
theorem div_le_div_of_cross {x y z w : Nat} (hy : 0 < y) (hw : 0 < w)
    (cross : x * w ≤ z * y) : x / y ≤ z / w := by
  rw [Nat.le_div_iff_mul_le hw]
  have scaled : x / y * w * y ≤ z * y :=
    calc x / y * w * y
      _ = x / y * y * w := by ring
      _ ≤ x * w := Nat.mul_le_mul_right _ (Nat.div_mul_le_self _ _)
      _ ≤ z * y := cross
  exact Nat.le_of_mul_le_mul_right scaled hy

/-- Raising one summand by `p`, and lowering none, raises the sum by `p`. -/
theorem sum_add_le_sum {ι : Type} {S : Finset ι} {f g : ι → Nat} {i : ι} {p : Nat}
    (mem : i ∈ S) (others : ∀ j ∈ S, f j ≤ g j) (raised : f i + p ≤ g i) :
    ∑ j ∈ S, f j + p ≤ ∑ j ∈ S, g j := by
  classical
  rw [← Finset.add_sum_erase S f mem, ← Finset.add_sum_erase S g mem]
  have rest : ∑ j ∈ S.erase i, f j ≤ ∑ j ∈ S.erase i, g j :=
    Finset.sum_le_sum fun j hj => others j (Finset.mem_of_mem_erase hj)
  omega

end FloorDiv
