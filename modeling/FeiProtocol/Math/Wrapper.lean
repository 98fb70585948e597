import Mathlib.Algebra.Order.Monoid.Canonical.Defs
import Mathlib.Logic.Relation

/-!
# One-for-one wrappers

A wrapper holds collateral against outstanding claims. Wrapping adds to both,
unwrapping takes from both, a claim can be given up and collateral can be
donated. No step lowers the surplus of collateral over claims:

* `Run.surplusLe`: nor does any sequence of steps.
* `Run.backed`: a wrapper that covers its claims keeps covering them.

Amounts are any canonically ordered monoid with cancellation.
-/

namespace Wrapper

structure Book (M : Type*) where
  collateral : M
  outstanding : M

variable {M : Type*} [AddCommMonoid M]

/-- One operation on a wrapper. -/
inductive Step (w w' : Book M) : Prop
  | wrap (n : M) (collateral : w'.collateral = w.collateral + n)
      (outstanding : w'.outstanding = w.outstanding + n) : Step w w'
  | unwrap (n : M) (collateral : w'.collateral + n = w.collateral)
      (outstanding : w'.outstanding + n = w.outstanding) : Step w w'
  | forfeit (n : M) (collateral : w'.collateral = w.collateral)
      (outstanding : w'.outstanding + n = w.outstanding) : Step w w'
  | donate (n : M) (collateral : w'.collateral = w.collateral + n)
      (outstanding : w'.outstanding = w.outstanding) : Step w w'

/-- Any number of operations. -/
abbrev Run : Book M → Book M → Prop :=
  Relation.ReflTransGen Step

variable [PartialOrder M]

/-- The claims are covered. -/
def Backed (w : Book M) : Prop :=
  w.outstanding ≤ w.collateral

/-- The surplus of `w'` is at least that of `w`, crosswise. -/
def SurplusLe (w w' : Book M) : Prop :=
  w.collateral + w'.outstanding ≤ w'.collateral + w.outstanding

variable {w w' w'' : Book M}

theorem SurplusLe.refl (w : Book M) : SurplusLe w w :=
  le_refl _

variable [IsOrderedCancelAddMonoid M]

theorem SurplusLe.trans (first : SurplusLe w w') (second : SurplusLe w' w'') :
    SurplusLe w w'' := by
  have both := add_le_add first second
  have crossed : (w.collateral + w''.outstanding) + (w'.outstanding + w'.collateral) ≤
      (w''.collateral + w.outstanding) + (w'.outstanding + w'.collateral) := by
    calc (w.collateral + w''.outstanding) + (w'.outstanding + w'.collateral)
        = (w.collateral + w'.outstanding) + (w'.collateral + w''.outstanding) := by
          ac_rfl
      _ ≤ (w'.collateral + w.outstanding) + (w''.collateral + w'.outstanding) := both
      _ = (w''.collateral + w.outstanding) + (w'.outstanding + w'.collateral) := by
          ac_rfl
  exact le_of_add_le_add_right crossed

theorem Backed.of_surplusLe (backed : Backed w) (better : SurplusLe w w') : Backed w' := by
  have covered : w.outstanding + w'.outstanding ≤ w.outstanding + w'.collateral := by
    calc w.outstanding + w'.outstanding
        ≤ w.collateral + w'.outstanding := by gcongr; exact backed
      _ ≤ w'.collateral + w.outstanding := better
      _ = w.outstanding + w'.collateral := add_comm _ _
  exact le_of_add_le_add_left covered

variable [CanonicallyOrderedAdd M]

/-- **Steps.** No operation lowers the surplus. -/
theorem Step.surplusLe (step : Step w w') : SurplusLe w w' := by
  unfold SurplusLe
  cases step with
  | wrap n collateral outstanding =>
      rw [collateral, outstanding]
      exact le_of_eq (by ac_rfl)
  | unwrap n collateral outstanding =>
      rw [← collateral, ← outstanding]
      exact le_of_eq (by ac_rfl)
  | forfeit n collateral outstanding =>
      rw [collateral, ← outstanding, ← add_assoc]
      exact le_add_of_nonneg_right zero_le
  | donate n collateral outstanding =>
      rw [collateral, outstanding, add_right_comm]
      exact le_add_of_nonneg_right zero_le

/-- **Runs.** No sequence of operations lowers the surplus. -/
theorem Run.surplusLe (run : Run w w') : SurplusLe w w' := by
  induction run with
  | refl => exact .refl _
  | tail _ step ih => exact ih.trans step.surplusLe

theorem Run.backed (run : Run w w') (backed : Backed w) : Backed w' :=
  backed.of_surplusLe run.surplusLe

end Wrapper
