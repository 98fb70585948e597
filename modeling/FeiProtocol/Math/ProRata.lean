import FeiProtocol.Math.FloorDiv
import Mathlib.Data.Rat.Defs
import Mathlib.Algebra.Order.Field.Basic
import Mathlib.Algebra.Order.Ring.Rat

/-!
# Pro-rata pools

A pool holds a balance against a base. Redeeming `a` units of the base takes
the share `a * balance / base`, rounded down, and retires the `a` units. Each
rounding leaves the remainder in the pool, so the ratio of balance to base only
grows, and by less than one unit for each redemption:

* `Pool.Tracks`: the two crosswise bounds on a pool that started from another
  and has rounded `k` times. One redemption keeps it (`Tracks.redeem`).
* `Tracks.share_bounds`: what the next redemption then pays.
* `Pool.Covers.redeem_sum_le`: splitting an amount never pays more than the whole.
* `Pool.ratio_redeem`, `Pool.ratio_donate`: the ratio as a rational number.
-/

namespace ProRata

@[ext]
structure Pool : Type where
  balance : Nat
  base : Nat
  deriving DecidableEq, Repr

/-- What `a` units of the base are worth, rounded down. -/
def Pool.share (p : Pool) (a : Nat) : Nat := a * p.balance / p.base

/-- The pool after `a` units of the base are redeemed. -/
def Pool.redeem (p : Pool) (a : Nat) : Pool :=
  ⟨p.balance - p.share a, p.base - a⟩

/-- The pool after a donation. -/
def Pool.donate (p : Pool) (d : Nat) : Pool :=
  ⟨p.balance + d, p.base⟩

/-- The pool after a sequence of redemptions. -/
def Pool.redeemAll (p : Pool) (as : List Nat) : Pool :=
  as.foldl Pool.redeem p

variable {p q r : Pool} {a k : Nat}

theorem Pool.share_le_balance (le : a ≤ p.base) : p.share a ≤ p.balance := by
  rcases Nat.eq_zero_or_pos p.base with zero | pos
  · simp [Pool.share, zero]
  · apply Nat.div_le_of_le_mul
    exact Nat.mul_le_mul_right _ le

/-- A redemption short of the whole base leaves something. -/
theorem Pool.share_lt_balance (lt : a < p.base) (balance : 0 < p.balance) :
    p.share a < p.balance := by
  rw [Pool.share, Nat.div_lt_iff_lt_mul (by omega), mul_comm p.balance]
  exact Nat.mul_lt_mul_of_pos_right lt balance

/-- Redeeming the whole base takes the whole balance. -/
theorem Pool.share_base (pos : 0 < p.base) : p.share p.base = p.balance :=
  Nat.mul_div_cancel_left _ pos

/-- Rounding down leaves the remainder in the pool, which is less than the base. -/
theorem Pool.redeem_balance_mul (le : a ≤ p.base) (pos : 0 < p.base) :
    ∃ e < p.base, (p.redeem a).balance * p.base = p.balance * (p.redeem a).base + e := by
  refine ⟨a * p.balance % p.base, Nat.mod_lt _ pos, ?_⟩
  have division : p.base * p.share a + a * p.balance % p.base = a * p.balance :=
    Nat.div_add_mod _ _
  have covered := Pool.share_le_balance le
  simp only [Pool.redeem]
  obtain ⟨rest, hrest⟩ := Nat.exists_eq_add_of_le covered
  obtain ⟨left, hleft⟩ := Nat.exists_eq_add_of_le le
  rw [hrest, hleft, Nat.add_sub_cancel_left, Nat.add_sub_cancel_left, ← hrest, ← hleft]
  rw [hrest, hleft] at division ⊢
  nlinarith

/-! ## Drift of the ratio -/

/-- `q` arose from `p` by redemptions with at most `k` roundings: its ratio is at
least that of `p`, and larger by at most `k` over the base that is left. -/
structure Tracks (k : Nat) (p q : Pool) : Prop where
  lower : p.balance * q.base ≤ q.balance * p.base
  upper : q.balance * p.base ≤ p.balance * q.base + k * p.base

theorem Tracks.refl (p : Pool) : Tracks 0 p p :=
  ⟨Nat.le_refl _, Nat.le_add_right _ _⟩

/-- **One redemption** rounds once. -/
theorem Tracks.redeem (tracks : Tracks k p q) (le : a ≤ q.base) (pos : 0 < q.base) :
    Tracks (k + 1) p (q.redeem a) := by
  obtain ⟨e, small, exact⟩ := Pool.redeem_balance_mul le pos
  have shrinks : (q.redeem a).base ≤ q.base := Nat.sub_le _ _
  generalize q.redeem a = q' at *
  constructor
  · have scaled : p.balance * q'.base * q.base ≤ q'.balance * p.base * q.base :=
      calc p.balance * q'.base * q.base
        _ = p.balance * q.base * q'.base := by ring
        _ ≤ q.balance * p.base * q'.base := Nat.mul_le_mul_right _ tracks.lower
        _ = q.balance * q'.base * p.base := by ring
        _ ≤ (q.balance * q'.base + e) * p.base := Nat.mul_le_mul_right _ (Nat.le_add_right _ _)
        _ = q'.balance * p.base * q.base := by rw [← exact]; ring
    exact Nat.le_of_mul_le_mul_right scaled pos
  · have scaled : q'.balance * p.base * q.base ≤
        (p.balance * q'.base + (k + 1) * p.base) * q.base :=
      calc q'.balance * p.base * q.base
        _ = (q.balance * q'.base + e) * p.base := by rw [← exact]; ring
        _ = q.balance * p.base * q'.base + e * p.base := by ring
        _ ≤ (p.balance * q.base + k * p.base) * q'.base + q.base * p.base :=
            Nat.add_le_add (Nat.mul_le_mul_right _ tracks.upper)
              (Nat.mul_le_mul_right _ small.le)
        _ = p.balance * q'.base * q.base + k * p.base * q'.base + p.base * q.base := by ring
        _ ≤ p.balance * q'.base * q.base + k * p.base * q.base + p.base * q.base := by
            gcongr
        _ = (p.balance * q'.base + (k + 1) * p.base) * q.base := by ring
    exact Nat.le_of_mul_le_mul_right scaled pos

/-- What the next redemption pays, against what it would have paid at the start. -/
theorem Tracks.share_bounds (tracks : Tracks k p q) (le : a ≤ q.base) (pos : 0 < q.base)
    (start : 0 < p.base) : p.share a ≤ q.share a ∧ q.share a ≤ p.share a + k := by
  constructor
  · apply FloorDiv.div_le_div_of_cross start pos
    calc a * p.balance * q.base
      _ = a * (p.balance * q.base) := by ring
      _ ≤ a * (q.balance * p.base) := Nat.mul_le_mul_left _ tracks.lower
      _ = a * q.balance * p.base := by ring
  · have cross : a * q.balance * p.base ≤ (a * p.balance + k * p.base) * q.base :=
      calc a * q.balance * p.base
        _ = a * (q.balance * p.base) := by ring
        _ ≤ a * (p.balance * q.base + k * p.base) := Nat.mul_le_mul_left _ tracks.upper
        _ = a * p.balance * q.base + a * (k * p.base) := by ring
        _ ≤ a * p.balance * q.base + q.base * (k * p.base) :=
            Nat.add_le_add_left (Nat.mul_le_mul_right _ le) _
        _ = (a * p.balance + k * p.base) * q.base := by ring
    calc q.share a
      _ ≤ (a * p.balance + k * p.base) / p.base := FloorDiv.div_le_div_of_cross pos start cross
      _ = p.share a + k := Nat.add_mul_div_right _ _ start

/-! ## Splitting an amount -/

theorem Pool.redeem_base_add (le : a ≤ p.base) : (p.redeem a).base + a = p.base :=
  Nat.sub_add_cancel le

/-- Each amount of the sequence is covered by the base left at its turn. -/
def Pool.Covers : Pool → List Nat → Prop
  | _, [] => True
  | p, a :: as => a ≤ p.base ∧ 0 < p.base ∧ (p.redeem a).Covers as

theorem Pool.Covers.base_add {as : List Nat} (covers : p.Covers as) :
    (p.redeemAll as).base + as.sum = p.base := by
  induction as generalizing p with
  | nil => rfl
  | cons a as ih =>
      obtain ⟨le, -, rest⟩ := covers
      have here := Pool.redeem_base_add le
      have later := ih rest
      simp only [List.sum_cons, Pool.redeemAll, List.foldl_cons] at later ⊢
      omega

theorem Pool.Covers.tracks {as : List Nat} (covers : q.Covers as) (tracks : Tracks k p q) :
    Tracks (k + as.length) p (q.redeemAll as) := by
  induction as generalizing q k with
  | nil => exact tracks
  | cons a as ih =>
      obtain ⟨le, pos, rest⟩ := covers
      have later := ih rest (tracks.redeem le pos)
      rw [List.length_cons, Nat.add_comm as.length 1, ← Nat.add_assoc]
      exact later

/-- **Splitting never pays more**: redeeming a sum at once leaves no more in the
pool than redeeming its parts one after another. -/
theorem Pool.Covers.redeem_sum_le {as : List Nat} (covers : p.Covers as) (pos : 0 < p.base) :
    (p.redeem as.sum).balance ≤ (p.redeemAll as).balance := by
  have kept := (covers.tracks (Tracks.refl p)).lower
  have bases := covers.base_add
  simp only [Pool.redeem, Nat.sub_le_iff_le_add]
  by_contra less
  have gap : p.balance - (p.redeemAll as).balance ≤ p.share as.sum := by
    rw [Pool.share, Nat.le_div_iff_mul_le pos, Nat.sub_mul]
    calc p.balance * p.base - (p.redeemAll as).balance * p.base
      _ ≤ p.balance * p.base - p.balance * (p.redeemAll as).base := Nat.sub_le_sub_left kept _
      _ = p.balance * as.sum := by rw [← bases, Nat.mul_add, Nat.add_sub_cancel_left]
      _ = as.sum * p.balance := Nat.mul_comm _ _
  omega

/-! ## The ratio -/

/-- Balance over base. -/
def Pool.ratio (p : Pool) : ℚ := p.balance / p.base

theorem ratio_le_ratio (hp : 0 < p.base) (hq : 0 < q.base)
    (cross : p.balance * q.base ≤ q.balance * p.base) : p.ratio ≤ q.ratio := by
  have hp' : (0 : ℚ) < p.base := by exact_mod_cast hp
  have hq' : (0 : ℚ) < q.base := by exact_mod_cast hq
  rw [Pool.ratio, Pool.ratio, div_le_div_iff₀ hp' hq']
  exact_mod_cast cross

theorem Pool.ratio_redeem (lt : a < p.base) : p.ratio ≤ (p.redeem a).ratio := by
  have pos : 0 < p.base := by omega
  refine ratio_le_ratio pos ?_ ((Tracks.refl p).redeem lt.le pos).lower
  simp only [Pool.redeem]
  omega

theorem Pool.ratio_donate (d : Nat) : p.ratio ≤ (p.donate d).ratio := by
  have nonneg : (0 : ℚ) ≤ p.base := Nat.cast_nonneg _
  have more : (p.balance : ℚ) ≤ (p.donate d).balance := by
    exact_mod_cast Nat.le_add_right _ _
  exact div_le_div_of_nonneg_right more nonneg

end ProRata
