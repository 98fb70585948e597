import Mathlib.Algebra.BigOperators.Group.Finset.Basic
import Mathlib.Algebra.BigOperators.Group.List.Basic
import Mathlib.Data.List.Perm.Basic

/-!
# Lists with a total

A list of entries, each of which weighs something, and what its total becomes when one entry is
replaced or taken out. The equations add on both sides, so that they hold where there is no
subtraction.

* `sum_set`, `sum_eraseIdx`: the new total.
* `sum_getD`: the total by indexes.
* `fillGap_perm`: taking an entry out by moving the last one to its place.
-/

namespace Listings

variable {α M : Type} [AddCommMonoid M] (f : α → M) {l : List α} {i : Nat}

theorem sum_eraseIdx (inside : i < l.length) :
    f l[i] + ((l.eraseIdx i).map f).sum = (l.map f).sum := by
  have whole := (List.getElem_cons_eraseIdx_perm inside).map f
  rw [← whole.sum_eq, List.map_cons, List.sum_cons]

theorem sum_set (inside : i < l.length) (a : α) :
    ((l.set i a).map f).sum + f l[i] = (l.map f).sum + f a := by
  have changed := (List.set_perm_cons_eraseIdx inside a).map f
  rw [changed.sum_eq, List.map_cons, List.sum_cons, ← sum_eraseIdx f inside,
    add_comm (f a), add_comm (f l[i]), add_right_comm]

/-- The entries added up by their indexes. -/
theorem sum_getD (l : List M) : ∑ i ∈ Finset.range l.length, l.getD i 0 = l.sum := by
  induction l with
  | nil => rfl
  | cons a l ih =>
      rw [List.length_cons, Finset.sum_range_succ', List.sum_cons, add_comm]
      simp only [List.getD_cons_zero, List.getD_cons_succ, ih]

/-- The last entry takes the place of entry `i`, unless it is that entry. -/
def fillGap (l : List α) (i : Nat) (last : α) : List α :=
  (if l.length - 1 ≠ i then l.set i last else l).dropLast

theorem fillGap_perm {last : α} (inside : i < l.length) (isLast : l[l.length - 1]? = some last) :
    (fillGap l i last).Perm (l.eraseIdx i) := by
  rcases l.eq_nil_or_concat with none | ⟨init, a, some⟩
  · rw [none] at inside
    exact absurd inside (Nat.not_lt_zero _)
  · rw [List.concat_eq_append] at some
    subst some
    have same : a = last := by simpa using isLast
    subst same
    rw [List.length_append, List.length_singleton] at inside
    rw [fillGap, List.length_append, List.length_singleton, Nat.add_sub_cancel]
    by_cases end_ : init.length = i
    · subst end_
      rw [if_neg (not_not.mpr rfl), List.dropLast_concat,
        List.eraseIdx_append_of_length_le (Nat.le_refl _), Nat.sub_self, List.eraseIdx_cons_zero,
        List.append_nil]
    · have early : i < init.length := by omega
      rw [if_pos end_, List.set_append_left _ _ early, List.dropLast_concat,
        List.eraseIdx_append_of_lt_length early]
      exact (List.set_perm_cons_eraseIdx early a).trans (List.perm_append_singleton a _).symm

end Listings
