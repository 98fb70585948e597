import Mathlib.Algebra.Order.Ring.Nat

/-!
# Vesting

An account receives tokens and releases them on a schedule: what may have left by now
depends on what was received and on the time that has elapsed, and grows with both.

* `Step.within`: whatever is received and whenever, no more leaves than the schedule allows.
* `linear`, `quadratic`: two schedules, rounded down; both are `Complete`: nothing is due early,
  everything at the end.
-/

namespace Vesting

/-- What may have left, by the amount received and the time elapsed. -/
def Monotone (schedule : Nat → Nat → Nat) : Prop :=
  ∀ {r r' e e' : Nat}, r ≤ r' → e ≤ e' → schedule r e ≤ schedule r' e'

structure Account : Type where
  received : Nat
  released : Nat
  elapsed : Nat

variable {schedule : Nat → Nat → Nat} {a a' : Account}

/-- No more has left than the schedule allows. -/
def Within (schedule : Nat → Nat → Nat) (a : Account) : Prop :=
  a.released ≤ schedule a.received a.elapsed

/-- Receiving tokens and the passing of time, or a release within the schedule. -/
inductive Step (schedule : Nat → Nat → Nat) (a a' : Account) : Prop where
  | accrue (received : a.received ≤ a'.received) (elapsed : a.elapsed ≤ a'.elapsed)
    (released : a'.released = a.released)
  | release (received : a'.received = a.received) (elapsed : a'.elapsed = a.elapsed)
    (within : Within schedule a')

theorem Step.within (mono : Monotone schedule) (step : Step schedule a a')
    (before : Within schedule a) : Within schedule a' := by
  cases step with
  | accrue received elapsed released =>
      rw [Within, released]
      exact Nat.le_trans before (mono received elapsed)
  | release received elapsed within => exact within

/-! ## Schedules -/

/-- Proportional to the time elapsed. -/
def linear (duration received elapsed : Nat) : Nat :=
  received * elapsed / duration

/-- Proportional to the square of the time elapsed. -/
def quadratic (duration received elapsed : Nat) : Nat :=
  received * elapsed * elapsed / duration / duration

theorem monotone_linear (duration : Nat) : Monotone (linear duration) :=
  fun received elapsed => Nat.div_le_div_right (Nat.mul_le_mul received elapsed)

theorem monotone_quadratic (duration : Nat) : Monotone (quadratic duration) :=
  fun received elapsed => Nat.div_le_div_right (Nat.div_le_div_right
    (Nat.mul_le_mul (Nat.mul_le_mul received elapsed) elapsed))

/-- A schedule, by its duration, that never exceeds what was received and ends with all of it. -/
structure Complete (schedule : Nat → Nat → Nat → Nat) : Prop where
  mono : ∀ d, Monotone (schedule d)
  le : ∀ {d r e}, e ≤ d → schedule d r e ≤ r
  full : ∀ {d}, d ≠ 0 → ∀ r, schedule d r d = r

theorem complete_linear : Complete linear where
  mono := monotone_linear
  le := by
    intro d r e early
    exact Nat.div_le_of_le_mul (Nat.mul_comm d r ▸ Nat.mul_le_mul_left r early)
  full positive r := Nat.mul_div_cancel r (Nat.pos_of_ne_zero positive)

theorem complete_quadratic : Complete quadratic where
  mono := monotone_quadratic
  le := by
    intro d r e early
    apply Nat.div_le_of_le_mul
    apply Nat.div_le_of_le_mul
    calc r * e * e
      _ ≤ r * d * d := Nat.mul_le_mul (Nat.mul_le_mul_left r early) early
      _ = d * (d * r) := by rw [Nat.mul_comm (r * d), Nat.mul_comm r]
  full positive r := by
    rw [quadratic, Nat.mul_div_cancel _ (Nat.pos_of_ne_zero positive),
      Nat.mul_div_cancel r (Nat.pos_of_ne_zero positive)]

/-- Before the end a positive amount is not yet due in full. -/
theorem linear_lt {d r e : Nat} (early : e < d) (some : 0 < r) : linear d r e < r :=
  Nat.div_lt_of_lt_mul (Nat.mul_comm d r ▸ Nat.mul_lt_mul_of_pos_left early some)

end Vesting
