import FeiProtocol.Evm.Supply
import FeiProtocol.Math.Tables

/-!
# What an owner lets others spend

The allowances of one owner add up to what others may take from it. Spending lowers the sum by
what is spent, unless the allowance is infinite; approving changes it by the difference.

Nothing here mentions a contract.
-/

namespace Evm

namespace Erc20

variable {t : Erc20} {owner owner' spender : Address} {amount : Nat}

/-- All that the owner lets others spend. -/
def allowed (t : Erc20) (owner : Address) : Nat := ∑ spender, t.allowance owner spender

/-- No allowance of the owner is infinite. -/
def Limited (t : Erc20) (owner : Address) : Prop :=
  t.unlimited = true → ∀ spender, t.allowance owner spender < maxUint256

theorem spend_eq (limited : t.Limited owner) : t.spend owner spender amount =
    { t with allowance :=
      update₂ t.allowance owner spender (t.allowance owner spender - amount) } :=
  if_neg fun infinite => Nat.ne_of_lt (limited infinite.1 spender) infinite.2

@[simp]
theorem spend_unlimited : (t.spend owner spender amount).unlimited = t.unlimited := by
  unfold spend
  split <;> rfl

theorem allowed_spend (limited : t.Limited owner) (approved : amount ≤ t.allowance owner spender) :
    (t.spend owner spender amount).allowed owner + amount = t.allowed owner := by
  have change := Tables.sum_update₂ id t.allowance owner spender
    (t.allowance owner spender - amount)
  rw [spend_eq limited]
  simp only [id, allowed] at change ⊢
  omega

theorem allowed_spend_of_ne (other : owner' ≠ owner) :
    (t.spend owner spender amount).allowed owner' = t.allowed owner' :=
  Finset.sum_congr rfl fun _ _ => spend_allowance_of_ne fun same => other same.1

theorem allowed_approve :
    (t.approve owner spender amount).allowed owner + t.allowance owner spender =
      t.allowed owner + amount :=
  Tables.sum_update₂ id t.allowance owner spender amount

theorem allowed_approve_of_ne (other : owner' ≠ owner) :
    (t.approve owner spender amount).allowed owner' = t.allowed owner' :=
  Tables.sum_update₂_of_ne id t.allowance spender amount other

theorem Limited.spend (limited : t.Limited owner) {src : Address} :
    (t.spend src spender amount).Limited owner := by
  intro unlimited b
  rw [spend_unlimited] at unlimited
  exact Nat.lt_of_le_of_lt (spend_allowance_le t src spender owner b amount)
    (limited unlimited b)

theorem Limited.approve (limited : t.Limited owner) {src : Address}
    (finite : t.unlimited = true → owner = src → amount < maxUint256) :
    (t.approve src spender amount).Limited owner := by
  intro unlimited b
  simp only [Erc20.approve, update₂_apply]
  split
  · rename_i entry
    exact finite unlimited entry.1
  · exact limited unlimited b

end Erc20

end Evm
