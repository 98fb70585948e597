import Mathlib.Algebra.BigOperators.Ring.Finset
import Mathlib.Algebra.Order.BigOperators.Group.Finset
import Mathlib.Tactic.Linarith
import Mathlib.Tactic.Ring

/-!
# Reward shares

Rewards that are distributed through one accumulator `A` per unit of stake, scaled by a
precision `P`. Each holder keeps a signed debt, what the accumulator had granted before the
holder's stake was there. Grants and debts are rounded down separately.

* `pending_enter`, `pending_leave`: entering can raise the pending reward by one unit, leaving
  in parts can lower it by one, and `carry` says when.
* `owed_enter`, `owed_leave`, `owed_settle`, `owed_grow`: the reward owed before rounding,
  scaled by `P`. Entering hands out the remainder that the debt leaves off.
* `sum_owed_grow_le`: what the accumulator grants to all holders when a reward is shared out
  over at least their stakes is at most the reward.
-/

namespace RewardShares

/-- One when two remainders add up to a unit, so that rounding the parts loses it. -/
def carry (P x y : Nat) : Nat :=
  if P ≤ x % P + y % P then 1 else 0

theorem add_div_eq {P : Nat} (pos : 0 < P) (x y : Nat) :
    (x + y) / P = x / P + y / P + carry P x y :=
  Nat.add_div pos

/-- The stake of a holder, and the rewards that are not the holder's. -/
structure Share : Type where
  amount : Nat
  debt : Int

namespace Share

variable (P A : Nat) (x : Share) (n : Nat)

/-- The rewards that are the holder's but have not been paid. -/
def pending : Int := ((x.amount * A / P : Nat) : Int) - x.debt

/-- The same before rounding, times the precision. -/
def owed : Int := x.amount * A - P * x.debt

def enter : Share := ⟨x.amount + n, x.debt + (n * A / P : Nat)⟩

def leave : Share := ⟨x.amount - n, x.debt - (n * A / P : Nat)⟩

def settle : Share := ⟨x.amount, (x.amount * A / P : Nat)⟩

variable {P A x n}

/-! ## Rounded rewards -/

theorem pending_enter (pos : 0 < P) : (x.enter P A n).pending P A =
    x.pending P A + carry P (x.amount * A) (n * A) := by
  simp only [pending, enter]
  rw [Nat.add_mul, add_div_eq pos]
  push_cast
  ring

theorem pending_leave (pos : 0 < P) (le : n ≤ x.amount) : (x.leave P A n).pending P A =
    x.pending P A - carry P ((x.amount - n) * A) (n * A) := by
  have parts : x.amount * A = (x.amount - n) * A + n * A := by
    rw [← Nat.add_mul, Nat.sub_add_cancel le]
  simp only [pending, leave]
  rw [parts, add_div_eq pos]
  push_cast
  ring

theorem pending_settle : (x.settle P A).pending P A = 0 := sub_self _

theorem pending_mono {A' : Nat} (le : A ≤ A') : x.pending P A ≤ x.pending P A' := by
  have grants : x.amount * A / P ≤ x.amount * A' / P :=
    Nat.div_le_div_right (Nat.mul_le_mul_left _ le)
  unfold pending
  omega

/-! ## Rewards before rounding -/

theorem owed_eq : x.owed P A = P * x.pending P A + (x.amount * A % P : Nat) := by
  have whole : ((x.amount * A : Nat) : Int) =
      P * ((x.amount * A / P : Nat) : Int) + ((x.amount * A % P : Nat) : Int) := by
    exact_mod_cast (Nat.div_add_mod (x.amount * A) P).symm
  rw [owed, pending]
  push_cast at whole ⊢
  linarith

theorem owed_enter : (x.enter P A n).owed P A = x.owed P A + (n * A % P : Nat) := by
  have whole : ((n * A : Nat) : Int) =
      P * ((n * A / P : Nat) : Int) + ((n * A % P : Nat) : Int) := by
    exact_mod_cast (Nat.div_add_mod (n * A) P).symm
  simp only [owed, enter]
  push_cast at whole ⊢
  linarith

theorem owed_leave (le : n ≤ x.amount) :
    (x.leave P A n).owed P A = x.owed P A - (n * A % P : Nat) := by
  have whole : ((n * A : Nat) : Int) =
      P * ((n * A / P : Nat) : Int) + ((n * A % P : Nat) : Int) := by
    exact_mod_cast (Nat.div_add_mod (n * A) P).symm
  simp only [owed, leave]
  push_cast [le] at whole ⊢
  linarith

theorem owed_settle : (x.settle P A).owed P A = (x.amount * A % P : Nat) := by
  have value := owed_eq (P := P) (A := A) (x := x.settle P A)
  rw [pending_settle, mul_zero, zero_add] at value
  exact value

theorem owed_grow (d : Nat) : x.owed P (A + d) = x.owed P A + x.amount * d := by
  unfold owed
  push_cast
  ring

/-- Rounding a pending reward down costs the holder. -/
theorem mul_pending_le : P * x.pending P A ≤ x.owed P A := by
  rw [owed_eq]
  exact le_add_of_nonneg_right (Int.natCast_nonneg _)

end Share

/-! ## All holders -/

section Holders

variable {ι : Type} [Fintype ι] {P A V : Nat} (shares : ι → Share)

/-- What is pending, leaving off those who are in debt, times the precision. -/
theorem mul_sum_pending_le : P * ∑ i, ((shares i).pending P A).toNat ≤
    ∑ i, ((shares i).owed P A).toNat := by
  rw [Finset.mul_sum]
  refine Finset.sum_le_sum fun i _ => ?_
  have le := (shares i).mul_pending_le (P := P) (A := A)
  rcases le_or_gt 0 ((shares i).pending P A) with nonneg | neg
  · have value : ((shares i).pending P A).toNat = (shares i).pending P A :=
      Int.toNat_of_nonneg nonneg
    have bound : ((P * ((shares i).pending P A).toNat : Nat) : Int) ≤ (shares i).owed P A := by
      push_cast
      rw [value]
      exact le
    omega
  · rw [Int.toNat_of_nonpos neg.le, Nat.mul_zero]
    exact Nat.zero_le _

/-- **A reward is shared out at most once.** -/
theorem sum_owed_grow_le (stakes : ∑ i, (shares i).amount ≤ V) (reward : Nat) :
    ∑ i, ((shares i).owed P (A + reward * P / V)).toNat ≤
      ∑ i, ((shares i).owed P A).toNat + P * reward := by
  calc ∑ i, ((shares i).owed P (A + reward * P / V)).toNat
    _ ≤ ∑ i, (((shares i).owed P A).toNat + (shares i).amount * (reward * P / V)) := by
      refine Finset.sum_le_sum fun i _ => ?_
      rw [Share.owed_grow]
      have grown : (((shares i).amount * (reward * P / V) : Nat) : Int) =
          (shares i).amount * ((reward * P / V : Nat) : Int) := by push_cast; ring
      omega
    _ = ∑ i, ((shares i).owed P A).toNat + (∑ i, (shares i).amount) * (reward * P / V) := by
      rw [Finset.sum_add_distrib, Finset.sum_mul]
    _ ≤ ∑ i, ((shares i).owed P A).toNat + V * (reward * P / V) :=
      Nat.add_le_add_left (Nat.mul_le_mul_right _ stakes) _
    _ ≤ ∑ i, ((shares i).owed P A).toNat + P * reward := by
      rw [Nat.mul_comm P reward]
      exact Nat.add_le_add_left (Nat.mul_div_le _ _) _

end Holders

end RewardShares
