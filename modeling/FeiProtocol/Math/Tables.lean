import FeiProtocol.Evm.Execution
import Mathlib.Algebra.BigOperators.Group.Finset.Basic
import Mathlib.Data.Fintype.BigOperators

/-!
# Totals of tables that change in one entry

A total changes by what the entry changes. The equations are additive on both sides, so
that they hold where there is no subtraction:

* `sum_change`: two families that differ at one index only.
* `sum_update₂`: a row of a table after an assignment to one of its entries.
-/

namespace Tables

open Evm

variable {M : Type} [AddCommMonoid M]

/-- Two families that agree away from `i`. -/
theorem sum_change {ι : Type} {S : Finset ι} {f g : ι → M} {i : ι} (mem : i ∈ S)
    (others : ∀ j ∈ S, j ≠ i → g j = f j) : ∑ j ∈ S, g j + f i = ∑ j ∈ S, f j + g i := by
  classical
  have rest : ∑ j ∈ S.erase i, g j = ∑ j ∈ S.erase i, f j :=
    Finset.sum_congr rfl fun j hj =>
      others j (Finset.mem_of_mem_erase hj) (Finset.ne_of_mem_erase hj)
  rw [← Finset.add_sum_erase S f mem, ← Finset.add_sum_erase S g mem, rest,
    add_comm (g i) _, add_right_comm, add_comm (∑ j ∈ S.erase i, f j) (f i)]

variable {A B C : Type} [DecidableEq A] [DecidableEq B] [Fintype B]

/-- The row of an assignment. -/
theorem sum_update₂ (f : C → M) (m : A → B → C) (a : A) (b : B) (v : C) :
    ∑ y, f (update₂ m a b v a y) + f (m a b) = ∑ y, f (m a y) + f v := by
  have change := sum_change (f := fun y => f (m a y)) (g := fun y => f (update₂ m a b v a y))
    (Finset.mem_univ b) fun y _ other => by
      rw [update₂_of_ne _ _ fun same => other same.2]
  rw [update₂_self] at change
  exact change

/-- Every other row. -/
theorem sum_update₂_of_ne (f : C → M) (m : A → B → C) {a a' : A} (b : B) (v : C)
    (other : a' ≠ a) : ∑ y, f (update₂ m a b v a' y) = ∑ y, f (m a' y) :=
  Finset.sum_congr rfl fun y _ => by rw [update₂_of_ne _ _ fun same => other same.1]

end Tables
