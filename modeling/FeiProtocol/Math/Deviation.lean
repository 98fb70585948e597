import Mathlib.Data.Nat.Dist
import Mathlib.Tactic.Linarith
import Mathlib.Tactic.Ring

/-!
# Relative deviations

How far an amount moves, in parts of `g` of a base that is the amount before or after the move.

* `Near.of_le`: a move down that is small for where it ends is small for where it starts.
* `lt_leastBeyond_iff`: the least move up that is not small for where it starts.
* `near_leastBeyond`: this one is small for where it ends, unless it starts very low.
* `Grown.trans`: small moves in a row.
-/

namespace Deviation

variable (g t : Nat)

/-- From `a` to `b` there are at most `t` parts of `g` of the base, up to less than one part. -/
def Near (base a b : Nat) : Prop := Nat.dist a b * g < (t + 1) * base

instance (base a b : Nat) : Decidable (Near g t base a b) := inferInstanceAs (Decidable (_ < _))

/-- The least amount above `a` that is not near, for `a` as the base. -/
def leastBeyond (a : Nat) : Nat := max (a + 1) (((g + t + 1) * a + (g - 1)) / g)

/-- After `k` moves of at most `t` parts of `g`, up to less than one part for each. -/
def Grown (k a b : Nat) : Prop := b * g ^ k ≤ (g + t + 1) ^ k * a

variable {g t} {base a b c j k : Nat}

/-- The parts, rounded down. -/
theorem near_iff_div_le (positive : base ≠ 0) :
    Near g t base a b ↔ Nat.dist a b * g / base ≤ t := by
  unfold Near
  rw [← Nat.lt_succ_iff, Nat.div_lt_iff_lt_mul (Nat.pos_of_ne_zero positive)]

theorem Near.of_le (near : Near g t b a b) (le : b ≤ a) : Near g t a a b :=
  Nat.lt_of_lt_of_le near (Nat.mul_le_mul_left _ le)

/-- Upwards, what is near for where it ends leaves out nothing in between. -/
theorem Near.between (near : Near g t c a c) (above : a < b) (le : b ≤ c) :
    Near g t b a b := by
  unfold Near at near ⊢
  rw [Nat.dist_eq_sub_of_le (by omega)] at near ⊢
  obtain ⟨m, rfl⟩ := Nat.exists_eq_add_of_lt above
  obtain ⟨n, rfl⟩ := Nat.exists_eq_add_of_le le
  rw [show a + m + 1 + n - a = m + 1 + n by omega] at near
  rw [show a + m + 1 - a = m + 1 by omega]
  rcases Nat.lt_or_ge t g with wide | narrow
  · have rest : (t + 1) * n ≤ g * n := Nat.mul_le_mul_right _ wide
    nlinarith
  · have room : (m + 1) * g < (m + 1) * (t + 1) := Nat.mul_lt_mul_of_pos_left (by omega) (by omega)
    nlinarith

theorem lt_leastBeyond_iff (positive : 0 < g) (above : a < b) :
    b < leastBeyond g t a ↔ Near g t a a b := by
  unfold leastBeyond Near
  rw [Nat.dist_eq_sub_of_le (by omega)]
  obtain ⟨m, rfl⟩ := Nat.exists_eq_add_of_lt above
  rw [show a + m + 1 - a = m + 1 by omega, lt_max_iff, Nat.lt_div_iff_mul_lt positive]
  have split : (g + t + 1) * a = g * a + (t + 1) * a := by ring
  have expand : (a + m + 1) * g = g * a + (m + 1) * g := by ring
  rw [split, expand]
  omega

/-- The least move up that is not near for where it starts is near for where it ends. -/
theorem near_leastBeyond (positive : 0 < g) (large : g * g ≤ (t + 1) * (t + 1) * a) :
    Near g t (leastBeyond g t a) a (leastBeyond g t a) := by
  have above : a < leastBeyond g t a := Nat.lt_of_lt_of_le (Nat.lt_succ_self a) (le_max_left _ _)
  have beyond : ¬ Near g t a a (leastBeyond g t a) := fun near =>
    Nat.lt_irrefl _ ((lt_leastBeyond_iff positive above).mpr near)
  have some : 0 < a := by
    rcases Nat.eq_zero_or_pos a with rfl | some
    · exact absurd large (by simp [positive.ne'])
    · exact some
  have below : Near g t a a (leastBeyond g t a - 1) := by
    rcases Nat.lt_or_ge a (leastBeyond g t a - 1) with between | next
    · exact (lt_leastBeyond_iff positive between).mp (by omega)
    · rw [show leastBeyond g t a - 1 = a by omega, Near, Nat.dist_self, Nat.zero_mul]
      exact Nat.mul_pos (Nat.succ_pos t) some
  generalize leastBeyond g t a = m at above beyond below ⊢
  obtain ⟨n, rfl⟩ := Nat.exists_eq_add_of_lt above
  unfold Near at beyond below ⊢
  rw [Nat.dist_eq_sub_of_le (by omega)] at beyond ⊢
  rw [Nat.dist_eq_sub_of_le (by omega)] at below
  rw [show a + n + 1 - a = n + 1 by omega] at beyond ⊢
  rw [show a + n + 1 - 1 - a = n by omega] at below
  -- the move is at least a part of the base for each of the parts that are allowed
  have parts : g ≤ (t + 1) * (n + 1) := by
    apply Nat.le_of_mul_le_mul_right _ positive
    calc g * g
      _ ≤ (t + 1) * (t + 1) * a := large
      _ = (t + 1) * ((t + 1) * a) := by ring
      _ ≤ (t + 1) * ((n + 1) * g) := Nat.mul_le_mul_left _ (by omega)
      _ = (t + 1) * (n + 1) * g := by ring
  have whole : (t + 1) * (a + n + 1) = (t + 1) * a + (t + 1) * (n + 1) := by ring
  have step : (n + 1) * g = n * g + g := by ring
  omega

/-! ## Moves in a row -/

theorem Grown.refl : Grown g t 0 a a := by
  simp [Grown]

theorem grown_of_near (near : Near g t a a b) : Grown g t 1 a b := by
  unfold Near at near
  unfold Grown
  have le : b ≤ a + Nat.dist a b := Nat.dist_tri_right' b a |>.trans (by rw [Nat.dist_comm])
  have scaled : b * g ≤ (a + Nat.dist a b) * g := Nat.mul_le_mul_right _ le
  simp only [pow_one]
  calc b * g
    _ ≤ (a + Nat.dist a b) * g := scaled
    _ = a * g + Nat.dist a b * g := by ring
    _ ≤ a * g + (t + 1) * a := by omega
    _ = (g + t + 1) * a := by ring

theorem Grown.trans (first : Grown g t j a b) (second : Grown g t k b c) :
    Grown g t (j + k) a c := by
  unfold Grown at first second ⊢
  calc c * g ^ (j + k)
    _ = c * g ^ k * g ^ j := by ring
    _ ≤ (g + t + 1) ^ k * b * g ^ j := Nat.mul_le_mul_right _ second
    _ = (g + t + 1) ^ k * (b * g ^ j) := by ring
    _ ≤ (g + t + 1) ^ k * ((g + t + 1) ^ j * a) := Nat.mul_le_mul_left _ first
    _ = (g + t + 1) ^ (j + k) * a := by ring

end Deviation
