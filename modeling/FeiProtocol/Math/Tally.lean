import FeiProtocol.Math.Tables
import Mathlib.Algebra.Order.BigOperators.Group.Finset

/-!
# Tallies

Holders with weights, each of whom has chosen a representative. The tally of a representative
is the weight of all who have chosen it.

* `tally_weights`: a change of one holder's weight.
* `tally_choice`: a change of one holder's choice.
* `tally_le`: tallies are bounded by the total weight.
-/

namespace Tally

variable {H R : Type} [Fintype H] [DecidableEq R]
  {weight weight' : H → Nat} {choice choice' : H → R} {h : H} {r r' : R}

/-- The weight of those who have chosen `r`. -/
def tally (weight : H → Nat) (choice : H → R) (r : R) : Nat :=
  ∑ h, if choice h = r then weight h else 0

/-- One holder's weight changes. -/
theorem tally_weights (choice : H → R) (others : ∀ k, k ≠ h → weight' k = weight k) (r : R) :
    tally weight' choice r + (if choice h = r then weight h else 0) =
      tally weight choice r + if choice h = r then weight' h else 0 := by
  refine Tables.sum_change (f := fun k => if choice k = r then weight k else 0)
    (g := fun k => if choice k = r then weight' k else 0) (Finset.mem_univ h) fun k _ other => ?_
  rw [others k other]

/-- One holder chooses anew. -/
theorem tally_choice (weight : H → Nat) (others : ∀ k, k ≠ h → choice' k = choice k) (r : R) :
    tally weight choice' r + (if choice h = r then weight h else 0) =
      tally weight choice r + if choice' h = r then weight h else 0 := by
  refine Tables.sum_change (f := fun k => if choice k = r then weight k else 0)
    (g := fun k => if choice' k = r then weight k else 0) (Finset.mem_univ h) fun k _ other => ?_
  rw [others k other]

theorem tally_le (weight : H → Nat) (choice : H → R) (r : R) :
    tally weight choice r ≤ ∑ h, weight h := by
  refine Finset.sum_le_sum fun k _ => ?_
  split
  · exact Nat.le_refl _
  · exact Nat.zero_le _

end Tally
