import FeiProtocol.Evm.Ledger
import Mathlib.Algebra.Order.BigOperators.Group.Finset

/-!
# Token supplies

The balances of an ERC20 add up to its total supply, and the supply is a
256-bit word. Every operation that succeeds keeps this, so no account holds more than
the supply, and no two accounts do together:

* `Erc20.Consistent`, kept by transfers, mints, burns and approvals.
* `Consistent.balance_add_balance_le`: two accounts share one supply.

Nothing here mentions a contract.
-/

namespace Evm

namespace Erc20

variable {t t' : Erc20} {src dst owner spender : Address} {amount : Nat}

/-- The balances add up to the total supply, which fits a word. -/
structure Consistent (t : Erc20) : Prop where
  sum_balances : ∑ account, t.balanceOf account = t.totalSupply
  supply_lt : t.totalSupply < 2 ^ 256

theorem Consistent.balance_le (consistent : t.Consistent) (account : Address) :
    t.balanceOf account ≤ t.totalSupply := by
  rw [← consistent.sum_balances]
  exact Finset.single_le_sum (fun _ _ => Nat.zero_le _) (Finset.mem_univ account)

theorem Consistent.balance_add_balance_le (consistent : t.Consistent) {a b : Address}
    (other : a ≠ b) : t.balanceOf a + t.balanceOf b ≤ t.totalSupply := by
  have pair : ∑ account ∈ {a, b}, t.balanceOf account ≤ ∑ account, t.balanceOf account :=
    Finset.sum_le_sum_of_subset (Finset.subset_univ _)
  rw [Finset.sum_pair other, consistent.sum_balances] at pair
  exact pair

/-- Consistency depends on the balances and the supply only. -/
theorem Consistent.congr (consistent : t.Consistent) (balances : t'.balanceOf = t.balanceOf)
    (supply : t'.totalSupply = t.totalSupply) : t'.Consistent := by
  constructor
  · rw [balances, supply]
    exact consistent.sum_balances
  · rw [supply]
    exact consistent.supply_lt

theorem Consistent.move (consistent : t.Consistent) (covered : amount ≤ t.balanceOf src) :
    (t.move src dst amount).Consistent := by
  refine ⟨?_, consistent.supply_lt⟩
  have each := Finset.sum_congr rfl fun account (_ : account ∈ Finset.univ) =>
    move_balanceOf covered dst account
  simp only [Finset.sum_add_distrib, Finset.sum_ite_eq', Finset.mem_univ, if_true] at each
  have sum := consistent.sum_balances
  rw [move_totalSupply]
  omega

theorem Consistent.spend (consistent : t.Consistent) :
    (t.spend owner spender amount).Consistent :=
  consistent.congr (spend_balanceOf _ _ _ _) (spend_totalSupply _ _ _ _)

theorem Consistent.approve (consistent : t.Consistent) :
    (t.approve owner spender amount).Consistent :=
  consistent.congr rfl rfl

@[simp]
theorem mint_totalSupply : (t.mint dst amount).totalSupply = t.totalSupply + amount := rfl

theorem mint_balanceOf (account : Address) : (t.mint dst amount).balanceOf account =
    t.balanceOf account + if account = dst then amount else 0 := by
  simp only [mint, Function.update_apply]
  split
  · rename_i same
    rw [same]
  · rfl

theorem Consistent.mint (consistent : t.Consistent) (fits : t.totalSupply + amount < 2 ^ 256) :
    (t.mint dst amount).Consistent := by
  refine ⟨?_, fits⟩
  simp only [mint_balanceOf, Finset.sum_add_distrib, Finset.sum_ite_eq', Finset.mem_univ,
    if_true, mint_totalSupply, consistent.sum_balances]

/-- What a burn does to the balances, the supply and the allowances. -/
structure Burned (t t' : Erc20) (src : Address) (amount : Nat) : Prop where
  covered : amount ≤ t.balanceOf src
  balance : ∀ account,
    t'.balanceOf account + (if account = src then amount else 0) = t.balanceOf account
  supply : t'.totalSupply = t.totalSupply - amount
  allowance : t'.allowance = t.allowance

theorem burned_of_burn (succeeds : t.burn src amount = .ok t') : Burned t t' src amount := by
  obtain ⟨covered, same⟩ := burn_eq_ok_iff.mp succeeds
  subst same
  refine ⟨covered, fun account => ?_, rfl, rfl⟩
  simp only [Function.update_apply]
  split
  · rename_i same
    rw [same]
    exact Nat.sub_add_cancel covered
  · rfl

theorem burned_zero (t : Erc20) (src : Address) : Burned t t src 0 :=
  ⟨Nat.zero_le _, fun _ => by rw [ite_self, Nat.add_zero], rfl, rfl⟩

theorem Burned.consistent (burned : Burned t t' src amount) (consistent : t.Consistent) :
    t'.Consistent := by
  have each := Finset.sum_congr rfl fun account (_ : account ∈ Finset.univ) =>
    burned.balance account
  simp only [Finset.sum_add_distrib, Finset.sum_ite_eq', Finset.mem_univ, if_true,
    consistent.sum_balances] at each
  have supply := burned.supply
  have fits := consistent.supply_lt
  constructor <;> omega

/-- The supply covers what is burned. -/
theorem Burned.supply_add (burned : Burned t t' src amount) (consistent : t.Consistent) :
    t'.totalSupply + amount = t.totalSupply := by
  have le := Nat.le_trans burned.covered (consistent.balance_le src)
  have supply := burned.supply
  omega

end Erc20

end Evm
