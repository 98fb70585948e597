import Mathlib.Algebra.Order.BigOperators.Group.List
import Mathlib.Algebra.Order.Ring.Nat

/-!
# Spaced events

Events at given times, any two of them at least `d` apart. A window of length
`L` then holds at most `1 + L / d` of them:

* `Spaced.length_window_le`: the number of events in a window.
* `Spaced.sum_window_le`: their total weight, when each weighs at most `w`.
-/

namespace Spacing

variable {α : Type*} (time : α → Nat) (d : Nat)

/-- Each event is at least `d` later than every event before it. -/
def Spaced (es : List α) : Prop :=
  es.Pairwise fun a b => time a + d ≤ time b

/-- The events in a closed window of length `L`. -/
def window (start L : Nat) (es : List α) : List α :=
  es.filter fun e => start ≤ time e && time e ≤ start + L

variable {time d} {e : α} {es : List α} {start stop L : Nat}

theorem Spaced.concat (spaced : Spaced time d es) (last : ∀ a ∈ es, time a + d ≤ time e) :
    Spaced time d (es ++ [e]) := by
  unfold Spaced
  rw [List.pairwise_append]
  refine ⟨spaced, List.pairwise_singleton _ _, ?_⟩
  intro a before b mem
  rw [List.mem_singleton.mp mem]
  exact last a before

theorem Spaced.window (spaced : Spaced time d es) (start L : Nat) :
    Spaced time d (window time start L es) :=
  List.Pairwise.sublist List.filter_sublist spaced

/-- From the first event on there is room for the gaps. -/
theorem Spaced.mul_length_le (spaced : Spaced time d (e :: es))
    (before : ∀ a ∈ e :: es, time a ≤ stop) : time e + es.length * d ≤ stop := by
  induction es generalizing e with
  | nil => simpa using before e List.mem_cons_self
  | cons a es ih =>
      obtain ⟨gaps, rest⟩ := List.pairwise_cons.mp spaced
      have gap : time e + d ≤ time a := gaps a List.mem_cons_self
      have later := ih rest fun b mem => before b (List.mem_cons_of_mem _ mem)
      rw [List.length_cons, Nat.succ_mul]
      omega

/-- **Counting.** A window of length `L` holds at most `1 + L / d` events. -/
theorem Spaced.length_window_le (spaced : Spaced time d es) (pos : 0 < d) (start L : Nat) :
    (Spacing.window time start L es).length ≤ 1 + L / d := by
  have inside : ∀ a ∈ Spacing.window time start L es, start ≤ time a ∧ time a ≤ start + L := by
    intro a mem
    simpa using (List.mem_filter.mp mem).2
  have gaps := spaced.window start L
  cases same : Spacing.window time start L es with
  | nil => exact Nat.zero_le _
  | cons e rest =>
      rw [same] at inside gaps
      have room := gaps.mul_length_le fun a mem => (inside a mem).2
      have first := (inside e List.mem_cons_self).1
      have fits : rest.length ≤ L / d := by
        rw [Nat.le_div_iff_mul_le pos]
        omega
      rw [List.length_cons]
      omega

/-- **Weighing.** With events of weight at most `w`, the window weighs at most
`w * (1 + L / d)`. -/
theorem Spaced.sum_window_le (spaced : Spaced time d es) (pos : 0 < d) {weight : α → Nat} {w : Nat}
    (light : ∀ a ∈ es, weight a ≤ w) (start L : Nat) :
    ((Spacing.window time start L es).map weight).sum ≤ w * (1 + L / d) := by
  have each : ∀ x ∈ (Spacing.window time start L es).map weight, x ≤ w := by
    intro x mem
    obtain ⟨a, inside, same⟩ := List.mem_map.mp mem
    rw [← same]
    exact light a (List.mem_of_mem_filter inside)
  calc ((Spacing.window time start L es).map weight).sum
      ≤ ((Spacing.window time start L es).map weight).length * w :=
        List.sum_le_card_nsmul _ w each
    _ = w * (Spacing.window time start L es).length := by rw [List.length_map, mul_comm]
    _ ≤ w * (1 + L / d) := Nat.mul_le_mul_left w (spaced.length_window_le pos start L)

end Spacing
