import FeiProtocol.Evm.Execution

/-!
# `Timelock`

Its admin queues transactions by the hash of what they do and when, and has them executed once
their time has come and before they are stale. A delay is the least time between the two.

`executeTransaction` is the function up to the call of the target. What the target does, and
whether it returns, is left to the contract that calls (`Dao/GovernorAlpha.lean`).

* `queueTransaction_eq_ok_iff`, `executeTransaction_eq_ok_iff`: when each succeeds, and what
  becomes of the queue.
-/

namespace FeiProtocol

open Evm

/-- What `getTxHash` hashes. -/
structure TimelockTransaction : Type where
  target : Address
  value : UInt256
  signature : String
  data : Bytes
  eta : Nat
  deriving DecidableEq, Repr

/-- Hashes are of any type, so that no two transactions need to share one. -/
structure TimelockState (H : Type) : Type where
  admin : Address
  pendingAdmin : Address
  delay : Nat
  queuedTransactions : H → Bool

structure TimelockEnv (H : Type) : Type where
  this : Address
  MINIMUM_DELAY : Nat
  getTxHash : TimelockTransaction → H

namespace Timelock

/-- 14 days -/
def GRACE_PERIOD : Nat := 14 * 86400

/-- 30 days -/
def MAXIMUM_DELAY : Nat := 30 * 86400

variable {H : Type} (env : TimelockEnv H) (t : TimelockState H)

/-! ## The contract -/

def construct (admin_ : Address) (delay_ minDelay_ : Nat) : Except Revert (TimelockState H) := do
  require (delay_ ≥ minDelay_) "Timelock: Delay must exceed minimum delay."
  require (delay_ ≤ MAXIMUM_DELAY) "Timelock: Delay must not exceed maximum delay."
  require (admin_ ≠ 0) "Timelock: Admin must not be 0 address"
  return {
    admin := admin_
    pendingAdmin := 0
    delay := delay_
    queuedTransactions := fun _ => false }

def setDelay (msgSender : Address) (delay_ : Nat) : Except Revert (TimelockState H) := do
  require (msgSender = env.this) "Timelock: Call must come from Timelock."
  require (delay_ ≥ env.MINIMUM_DELAY) "Timelock: Delay must exceed minimum delay."
  require (delay_ ≤ MAXIMUM_DELAY) "Timelock: Delay must not exceed maximum delay."
  return { t with delay := delay_ }

def acceptAdmin (msgSender : Address) : Except Revert (TimelockState H) := do
  require (msgSender = t.pendingAdmin) "Timelock: Call must come from pendingAdmin."
  return { t with admin := msgSender, pendingAdmin := 0 }

def setPendingAdmin (msgSender pendingAdmin_ : Address) : Except Revert (TimelockState H) := do
  require (msgSender = env.this) "Timelock: Call must come from Timelock."
  return { t with pendingAdmin := pendingAdmin_ }

section Queue

variable [DecidableEq H]

def queueTransaction (timestamp : Nat) (msgSender : Address) (tx : TimelockTransaction) :
    Except Revert (TimelockState H) := do
  require (msgSender = t.admin) "Timelock: Call must come from admin."
  let earliest ← checkedAdd timestamp t.delay
  require (tx.eta ≥ earliest) "Timelock: Estimated execution block must satisfy delay."
  return { t with
    queuedTransactions := Function.update t.queuedTransactions (env.getTxHash tx) true }

def _cancelTransaction (tx : TimelockTransaction) : TimelockState H :=
  { t with queuedTransactions := Function.update t.queuedTransactions (env.getTxHash tx) false }

def cancelTransaction (msgSender : Address) (tx : TimelockTransaction) :
    Except Revert (TimelockState H) := do
  require (msgSender = t.admin) "Timelock: Call must come from admin."
  return _cancelTransaction env t tx

/-- Up to the call of the target. -/
def executeTransaction (timestamp : Nat) (msgSender : Address) (tx : TimelockTransaction) :
    Except Revert (TimelockState H) := do
  require (msgSender = t.admin) "Timelock: Call must come from admin."
  require (t.queuedTransactions (env.getTxHash tx) = true)
    "Timelock: Transaction hasn't been queued."
  require (timestamp ≥ tx.eta) "Timelock: Transaction hasn't surpassed time lock."
  let stale ← checkedAdd tx.eta GRACE_PERIOD
  require (timestamp ≤ stale) "Timelock: Transaction is stale."
  return { t with
    queuedTransactions := Function.update t.queuedTransactions (env.getTxHash tx) false }

end Queue

/-! ## What the functions do -/

variable {env} {t t' : TimelockState H} {timestamp : Nat} {msgSender : Address}
  {tx : TimelockTransaction}

theorem quiet_of_setDelay {delay_ : Nat} (succeeds : setDelay env t msgSender delay_ = .ok t') :
    t'.admin = t.admin ∧ t'.queuedTransactions = t.queuedTransactions := by
  simp only [setDelay, seq_eq_ok_iff, pure_eq_ok_iff] at succeeds
  rw [← succeeds.2.2.2]
  exact ⟨rfl, rfl⟩

theorem quiet_of_setPendingAdmin {pendingAdmin_ : Address}
    (succeeds : setPendingAdmin env t msgSender pendingAdmin_ = .ok t') :
    t'.admin = t.admin ∧ t'.queuedTransactions = t.queuedTransactions := by
  simp only [setPendingAdmin, seq_eq_ok_iff, pure_eq_ok_iff] at succeeds
  rw [← succeeds.2]
  exact ⟨rfl, rfl⟩

theorem quiet_of_acceptAdmin (succeeds : acceptAdmin t msgSender = .ok t') :
    t'.admin = msgSender ∧ t'.queuedTransactions = t.queuedTransactions := by
  simp only [acceptAdmin, seq_eq_ok_iff, pure_eq_ok_iff] at succeeds
  rw [← succeeds.2]
  exact ⟨rfl, rfl⟩

variable [DecidableEq H]

theorem queueTransaction_eq_ok_iff : queueTransaction env t timestamp msgSender tx = .ok t' ↔
    msgSender = t.admin ∧ timestamp + t.delay < 2 ^ 256 ∧ timestamp + t.delay ≤ tx.eta ∧
      { t with
        queuedTransactions := Function.update t.queuedTransactions (env.getTxHash tx) true } =
        t' := by
  simp only [queueTransaction, bind_eq_ok_iff, pure_eq_ok_iff, require_eq_ok_iff,
    checkedAdd_eq_ok_iff, ge_iff_le]
  grind

theorem cancelTransaction_eq_ok_iff : cancelTransaction env t msgSender tx = .ok t' ↔
    msgSender = t.admin ∧
      { t with
        queuedTransactions := Function.update t.queuedTransactions (env.getTxHash tx) false } =
        t' := by
  simp only [cancelTransaction, _cancelTransaction, seq_eq_ok_iff, pure_eq_ok_iff,
    require_eq_ok_iff]

/-- A transaction is stale a second later than it takes the governor to call it expired. -/
theorem executeTransaction_eq_ok_iff :
    executeTransaction env t timestamp msgSender tx = .ok t' ↔
      msgSender = t.admin ∧ t.queuedTransactions (env.getTxHash tx) = true ∧
        tx.eta ≤ timestamp ∧ tx.eta + GRACE_PERIOD < 2 ^ 256 ∧
        timestamp ≤ tx.eta + GRACE_PERIOD ∧
        { t with
          queuedTransactions :=
            Function.update t.queuedTransactions (env.getTxHash tx) false } = t' := by
  simp only [executeTransaction, bind_eq_ok_iff, pure_eq_ok_iff, require_eq_ok_iff,
    checkedAdd_eq_ok_iff, ge_iff_le]
  grind

end Timelock

end FeiProtocol
