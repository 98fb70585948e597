import Mathlib.Algebra.Order.Ring.Nat
import Mathlib.Data.Nat.Basic

/-!
# Exchanges that round down

An exchange at a rate `p / q` that never gives more than the rate.

* `Within.roundTrip`: there and back at the same rate gains nothing.
* `Superadditive.comp`: exchanging in parts gains nothing, also where roundings follow each other.
-/

namespace Exchange

variable {f g : Nat → Nat} {p q : Nat}

/-- `f` gives at most `p / q` for each unit. -/
def Within (f : Nat → Nat) (p q : Nat) : Prop :=
  ∀ x, f x * q ≤ x * p

/-- Parts give no more than the whole. -/
def Superadditive (f : Nat → Nat) : Prop :=
  ∀ x y, f x + f y ≤ f (x + y)

theorem Within.roundTrip (there : Within f p q) (back : Within g q p) (positive : 0 < p)
    (x : Nat) : g (f x) ≤ x := by
  have bound : g (f x) * p ≤ x * p :=
    calc g (f x) * p
      _ ≤ f x * q := back (f x)
      _ ≤ x * p := there x
  exact Nat.le_of_mul_le_mul_right bound positive

theorem Superadditive.mono (super : Superadditive f) {x y : Nat} (le : x ≤ y) : f x ≤ f y := by
  obtain ⟨z, rfl⟩ := Nat.exists_eq_add_of_le le
  exact Nat.le_trans (Nat.le_add_right _ _) (super x z)

theorem Superadditive.comp (outer : Superadditive g) (inner : Superadditive f) :
    Superadditive fun x => g (f x) :=
  fun x y => Nat.le_trans (outer (f x) (f y)) (outer.mono (inner x y))

theorem superadditive_mul (c : Nat) : Superadditive fun x => c * x :=
  fun x y => Nat.le_of_eq (Nat.mul_add c x y).symm

theorem superadditive_mul_right (c : Nat) : Superadditive fun x => x * c :=
  fun x y => Nat.le_of_eq (Nat.add_mul x y c).symm

theorem superadditive_div (d : Nat) : Superadditive fun x => x / d :=
  fun _ _ => Nat.div_add_div_le_add_div

end Exchange
