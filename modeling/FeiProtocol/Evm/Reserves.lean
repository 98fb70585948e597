import FeiProtocol.Evm.Ledger

/-!
# Reserves

What a holder that has approved nobody keeps of a token, given what it takes in and pays out
by its own calls. Calls of other accounts only add to it, and the accounts of consecutive
calls add up.

Nothing here mentions a contract.
-/

namespace Evm

namespace Ledger

/-- Between `w` and `w'` the holder took in `taken` at least, and paid out `paid` at most. -/
structure Retains (holder token : Address) (w w' : Ledger) (taken paid : Nat) : Prop where
  unapproved : w'.Unapproved holder
  balance_le : w.balanceOf token holder + taken ≤ w'.balanceOf token holder + paid

variable {w w' w'' : Ledger} {holder token token' src dst sender : Address}
  {amount taken taken' paid paid' : Nat}

theorem Retains.refl (none : w.Unapproved holder) : Retains holder token w w 0 0 :=
  ⟨none, Nat.le_refl _⟩

theorem Retains.trans (first : Retains holder token w w' taken paid)
    (second : Retains holder token w' w'' taken' paid') :
    Retains holder token w w'' (taken + taken') (paid + paid') := by
  refine ⟨second.unapproved, ?_⟩
  have before := first.balance_le
  have after := second.balance_le
  omega

/-- A payment of any token. -/
theorem Retains.of_transfer (none : w.Unapproved holder)
    (succeeds : w.safeTransfer holder token' dst amount = .ok w') :
    Retains holder token w w' 0 (if token' = token then amount else 0) := by
  have moved := safeTransfer_moved succeeds
  refine ⟨moved.unapproved none, ?_⟩
  have exact := moved.balance token holder
  simp only [and_true, eq_comm (a := token)] at exact
  split at exact <;> simp_all

/-- A payment that the holder pulls to itself. -/
theorem Retains.of_transferFrom (none : w.Unapproved holder) (other : src ≠ holder)
    (succeeds : w.safeTransferFrom holder token src holder amount = .ok w') :
    Retains holder token w w' amount 0 := by
  have moved := safeTransferFrom_moved succeeds
  refine ⟨moved.unapproved none, ?_⟩
  have exact := moved.balance token holder
  simp only [other.symm, and_self, and_false, if_true, if_false] at exact
  exact Nat.le_of_eq exact.symm

/-- What other accounts do. -/
theorem Retains.of_perform {c : TokenCall} (none : w.Unapproved holder) (other : sender ≠ holder)
    (succeeds : w.perform sender c = .ok w') : Retains holder token w w' 0 0 := by
  have custody := perform_custody none other succeeds
  refine ⟨custody.unapproved, ?_⟩
  have exact := custody.balance token
  have more := custody.received_le token
  omega

end Ledger

end Evm
