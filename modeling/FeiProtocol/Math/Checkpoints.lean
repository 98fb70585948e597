import Mathlib.Order.Interval.Set.Basic
import Mathlib.Order.Monotone.Basic

/-!
# Checkpoints

A record of a changing value: the first `n` entries of a table say from which key on the value
was which. `lookup` is the value at a key; `Bracket` is where a binary search for it stands.

* `lookup_eq`, `lookup_eq_zero`: which entry it is.
* `Bracket.center_le`, `Bracket.lt_center`, `Bracket.lookup_eq`: the steps of a binary search and
  its result.
-/

namespace Checkpoints

variable {V : Type} {zero : V} {key key' : Nat → Nat} {value value' : Nat → V} {n b : Nat}

/-- The value at key `b`: the last one whose key is not after `b`. -/
def lookup (zero : V) (key : Nat → Nat) (value : Nat → V) : Nat → Nat → V
  | 0, _ => zero
  | n + 1, b => if key n ≤ b then value n else lookup zero key value n b

/-- The keys of a record increase. -/
def Increasing (key : Nat → Nat) (n : Nat) : Prop :=
  StrictMonoOn key (Set.Iio n)

theorem lookup_congr (keys : ∀ i < n, key' i = key i) (values : ∀ i < n, value' i = value i)
    (b : Nat) : lookup zero key' value' n b = lookup zero key value n b := by
  induction n with
  | zero => rfl
  | succ n ih =>
      rw [lookup, lookup, keys n (Nat.lt_succ_self n), values n (Nat.lt_succ_self n),
        ih (fun i less => keys i (Nat.lt_succ_of_lt less))
          fun i less => values i (Nat.lt_succ_of_lt less)]

/-- An entry that starts later. -/
theorem lookup_succ_of_lt (later : b < key n) :
    lookup zero key value (n + 1) b = lookup zero key value n b :=
  if_neg (Nat.not_le.mpr later)

/-- After the last key. -/
theorem lookup_succ_of_le (reached : key n ≤ b) : lookup zero key value (n + 1) b = value n :=
  if_pos reached

/-- Before the first key. -/
theorem lookup_eq_zero (later : ∀ i < n, b < key i) : lookup zero key value n b = zero := by
  induction n with
  | zero => rfl
  | succ n ih =>
      rw [lookup_succ_of_lt (later n (Nat.lt_succ_self n))]
      exact ih fun i less => later i (Nat.lt_succ_of_lt less)

/-- The last entry whose key is not after `b`. -/
theorem lookup_eq {i : Nat} (inside : i < n) (reached : key i ≤ b)
    (later : ∀ j, i < j → j < n → b < key j) : lookup zero key value n b = value i := by
  induction n with
  | zero => exact absurd inside (Nat.not_lt_zero i)
  | succ n ih =>
      rcases Nat.lt_succ_iff_lt_or_eq.mp inside with less | last
      · rw [lookup_succ_of_lt (later n less (Nat.lt_succ_self n))]
        exact ih less fun j after less => later j after (Nat.lt_succ_of_lt less)
      · subst last
        exact lookup_succ_of_le reached

theorem Increasing.lt_of_lt (increasing : Increasing key n) {i j : Nat} (less : i < j)
    (inside : j < n) : key i < key j :=
  increasing (Set.mem_Iio.mpr (Nat.lt_trans less inside)) (Set.mem_Iio.mpr inside) less

theorem Increasing.le_of_le (increasing : Increasing key n) {i j : Nat} (le : i ≤ j)
    (inside : j < n) : key i ≤ key j := by
  rcases Nat.lt_or_eq_of_le le with less | same
  · exact Nat.le_of_lt (increasing.lt_of_lt less inside)
  · rw [same]

theorem Increasing.mono (increasing : Increasing key n) {m : Nat} (le : m ≤ n) :
    Increasing key m :=
  fun _ _ _ inside less => increasing.lt_of_lt less (Nat.lt_of_lt_of_le inside le)

/-- A new key after all others. -/
theorem Increasing.push (increasing : Increasing key n) (last : ∀ i < n, key i < key n) :
    Increasing key (n + 1) := by
  intro i inside j inside' less
  rcases Nat.lt_succ_iff_lt_or_eq.mp inside' with before | same
  · exact increasing.lt_of_lt less before
  · rw [same] at less ⊢
    exact last i less

theorem Increasing.congr (increasing : Increasing key n) (keys : ∀ i < n, key' i = key i) :
    Increasing key' n := by
  intro i inside j inside' less
  rw [keys i inside, keys j inside']
  exact increasing.lt_of_lt less inside'

/-- Increasing keys that start above zero exceed their indices. -/
theorem Increasing.lt_key (increasing : Increasing key n) (start : 0 < n → 0 < key 0) {i : Nat}
    (inside : i < n) : i < key i := by
  induction i with
  | zero => exact start inside
  | succ i ih =>
      have before := ih (Nat.lt_of_succ_lt inside)
      have step : key i < key (i + 1) := increasing.lt_of_lt (Nat.lt_succ_self i) inside
      exact Nat.lt_of_le_of_lt before step

/-! ## Binary search -/

/-- The entry that is looked for is between `lower` and `upper`. -/
structure Bracket (key : Nat → Nat) (n b lower upper : Nat) : Prop where
  ordered : lower ≤ upper
  inside : upper < n
  reached : key lower ≤ b
  later : ∀ i, upper < i → i < n → b < key i

/-- The search ends. -/
theorem Bracket.lookup_eq {i : Nat} (bracket : Bracket key n b i i) :
    lookup zero key value n b = value i :=
  Checkpoints.lookup_eq bracket.inside bracket.reached bracket.later

/-- The key itself is found. -/
theorem Bracket.found {lower upper center : Nat} (bracket : Bracket key n b lower upper)
    (increasing : Increasing key n) (le : center ≤ upper) (same : key center = b) :
    lookup zero key value n b = value center := by
  refine Checkpoints.lookup_eq (Nat.lt_of_le_of_lt le bracket.inside) (Nat.le_of_eq same)
    fun j after inside => ?_
  rw [← same]
  exact increasing.lt_of_lt after inside

theorem Bracket.center_le {lower upper center : Nat} (bracket : Bracket key n b lower upper)
    (le : center ≤ upper) (reached : key center ≤ b) : Bracket key n b center upper :=
  ⟨le, bracket.inside, reached, bracket.later⟩

theorem Bracket.lt_center {lower upper center : Nat} (bracket : Bracket key n b lower upper)
    (increasing : Increasing key n) (less : lower < center) (le : center ≤ upper)
    (later : b < key center) : Bracket key n b lower (center - 1) := by
  have inside := bracket.inside
  refine ⟨by omega, by omega, bracket.reached, fun i after inside => ?_⟩
  exact Nat.lt_of_lt_of_le later (increasing.le_of_le (by omega) inside)

end Checkpoints
