import FeiProtocol.Evm.Ledger
import FeiProtocol.Refs.CoreRef

/-!
# `ERC20HoldingPCVDeposit`

A deposit that does nothing with what it holds. PCV controllers withdraw from it: its own token
while it is not paused, any token at all times.

Ether is not part of a ledger; of its withdrawal the check is left.
-/

namespace FeiProtocol

open Evm

structure ERC20HoldingPCVDepositState : Type where
  token : Address
  _paused : Bool

instance : Pausable ERC20HoldingPCVDepositState where
  paused s := s._paused
  withPaused s b := { s with _paused := b }

namespace ERC20HoldingPCVDeposit

open CoreRef

def FEI : Address := 0x956F47F50A910163D8BF957Cf5846D573E7f87CA

def construct (_token : Address) : Except Revert ERC20HoldingPCVDepositState := do
  require (_token ≠ FEI) "FEI not supported"
  return { token := _token, _paused := false }

variable (core : Core) (this : Address) (s : ERC20HoldingPCVDepositState) (ledger : Ledger)
  (msgSender : Address)

def deposit : Except Revert Unit := whenNotPaused s

def withdraw (receiver : Address) (amountUnderlying : UInt256) : Except Revert Ledger := do
  onlyPCVController core msgSender
  whenNotPaused s
  ledger.safeTransfer this s.token receiver amountUnderlying.toNat

def withdrawERC20 (token receiver : Address) (amount : UInt256) : Except Revert Ledger := do
  onlyPCVController core msgSender
  ledger.safeTransfer this token receiver amount.toNat

def withdrawETH : Except Revert Unit := onlyPCVController core msgSender

inductive Call : Type where
  | deposit
  | withdraw (receiver : Address) (amountUnderlying : UInt256)
  | withdrawETH (receiver : Address) (amountOut : UInt256)
  | withdrawERC20 (token receiver : Address) (amount : UInt256)
  | pause
  | unpause
  deriving DecidableEq, Repr

/-- Whom a call pays tokens. -/
def Call.receiver : Call → Option Address
  | .withdraw receiver _ | .withdrawERC20 _ receiver _ => some receiver
  | .deposit | .withdrawETH _ _ | .pause | .unpause => none

def call : Call → Except Revert (ERC20HoldingPCVDepositState × Ledger)
  | .deposit => do
      deposit s
      return (s, ledger)
  | .withdraw receiver amountUnderlying => do
      let ledger ← withdraw core this s ledger msgSender receiver amountUnderlying
      return (s, ledger)
  | .withdrawETH _ _ => do
      withdrawETH core msgSender
      return (s, ledger)
  | .withdrawERC20 token receiver amount => do
      let ledger ← withdrawERC20 core this ledger msgSender token receiver amount
      return (s, ledger)
  | .pause => do
      let s ← pause core s msgSender
      return (s, ledger)
  | .unpause => do
      let s ← unpause core s msgSender
      return (s, ledger)

variable {core this s ledger msgSender} {s' : ERC20HoldingPCVDepositState} {ledger' : Ledger}

/-- A call pays tokens of the deposit, or sets the pause flag, or does nothing. -/
inductive Did (core : Core) (this : Address) (s : ERC20HoldingPCVDepositState) (ledger : Ledger)
    (msgSender : Address) (c : Call) : ERC20HoldingPCVDepositState → Ledger → Prop where
  | paid {token receiver : Address} {amount : Nat} {ledger' : Ledger}
    (controller : core.isPCVController msgSender) (asked : c.receiver = some receiver)
    (moved : ledger.safeTransfer this token receiver amount = .ok ledger') :
    Did core this s ledger msgSender c s ledger'
  | flagged (b : Bool) (guards : core.isGovernor msgSender || core.isGuardian msgSender) :
    Did core this s ledger msgSender c { s with _paused := b } ledger
  | nothing : Did core this s ledger msgSender c s ledger

theorem did_of_call {c : Call}
    (succeeds : call core this s ledger msgSender c = .ok (s', ledger')) :
    Did core this s ledger msgSender c s' ledger' := by
  cases c with
  | deposit =>
      obtain ⟨_, _, same⟩ := bind_eq_ok_iff.mp succeeds
      cases same
      exact .nothing
  | withdraw receiver amountUnderlying =>
      obtain ⟨w, withdraws, same⟩ := bind_eq_ok_iff.mp succeeds
      obtain ⟨_, controller, rest⟩ := bind_eq_ok_iff.mp withdraws
      obtain ⟨_, _, moved⟩ := bind_eq_ok_iff.mp rest
      cases same
      exact .paid (require_eq_ok_iff.mp controller) rfl moved
  | withdrawETH receiver amountOut =>
      obtain ⟨_, _, same⟩ := bind_eq_ok_iff.mp succeeds
      cases same
      exact .nothing
  | withdrawERC20 token receiver amount =>
      obtain ⟨w, withdraws, same⟩ := bind_eq_ok_iff.mp succeeds
      obtain ⟨_, controller, moved⟩ := bind_eq_ok_iff.mp withdraws
      cases same
      exact .paid (require_eq_ok_iff.mp controller) rfl moved
  | pause =>
      obtain ⟨t, pauses, same⟩ := bind_eq_ok_iff.mp succeeds
      obtain ⟨_, guards, _⟩ := bind_eq_ok_iff.mp pauses
      have flag := pause_eq pauses
      subst flag
      cases same
      exact .flagged true (require_eq_ok_iff.mp guards)
  | unpause =>
      obtain ⟨t, unpauses, same⟩ := bind_eq_ok_iff.mp succeeds
      obtain ⟨_, guards, _⟩ := bind_eq_ok_iff.mp unpauses
      have flag := unpause_eq unpauses
      subst flag
      cases same
      exact .flagged false (require_eq_ok_iff.mp guards)

end ERC20HoldingPCVDeposit

end FeiProtocol
