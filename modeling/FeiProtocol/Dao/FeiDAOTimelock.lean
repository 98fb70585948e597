import FeiProtocol.Dao.Timelock
import FeiProtocol.Evm.Callbacks
import FeiProtocol.Evm.Machine
import FeiProtocol.Refs.CoreRef

/-!
# `FeiDAOTimelock`

The timelock of the DAO: a `Timelock` that the guardian and governors can pause, and from whose
queue they can strike transactions. The roles are those that Core gives at the time, and they may
change at any time, also while a target is being called.

The log of what was queued, struck and executed is newest first.
-/

namespace FeiProtocol

open Evm

inductive FeiDAOTimelockEntry : Type where
  /-- with the delay in force -/
  | queued (tx : TimelockTransaction) (timestamp delay : Nat)
  | canceled (tx : TimelockTransaction) (timestamp : Nat)
  | executed (tx : TimelockTransaction) (timestamp : Nat)
  deriving DecidableEq, Repr

namespace FeiDAOTimelockEntry

def tx : FeiDAOTimelockEntry → TimelockTransaction
  | .queued tx _ _ => tx
  | .canceled tx _ => tx
  | .executed tx _ => tx

def timestamp : FeiDAOTimelockEntry → Nat
  | .queued _ timestamp _ => timestamp
  | .canceled _ timestamp => timestamp
  | .executed _ timestamp => timestamp

/-- The entry, if it is one that queues. -/
def queueing : FeiDAOTimelockEntry → Option FeiDAOTimelockEntry
  | .queued tx timestamp delay => some (.queued tx timestamp delay)
  | .canceled _ _ | .executed _ _ => none

end FeiDAOTimelockEntry

structure FeiDAOTimelockState (H : Type) : Type extends TimelockState H where
  /-- the roles as Core gives them now -/
  core : Core
  _paused : Bool
  timestamp : Nat
  history : List FeiDAOTimelockEntry

instance {H : Type} : Pausable (FeiDAOTimelockState H) where
  paused s := s._paused
  withPaused s b := { s with _paused := b }

namespace FeiDAOTimelock

open CoreRef

/-- Nov 1, 2021 midnight UTC -/
def ROLLBACK_DEADLINE : Nat := 1635724800

/-! ## The contract -/

section Contract

variable {H : Type} (env : TimelockEnv H) (s : FeiDAOTimelockState H)

def construct (core : Core) (timestamp : Nat) (admin_ : Address) (delay_ : UInt256) :
    Except Revert (FeiDAOTimelockState H) := do
  let timelock ← Timelock.construct admin_ delay_.toNat env.MINIMUM_DELAY
  return { toTimelockState := timelock, core, _paused := false, timestamp, history := [] }

/-- `targets[i]`, `values[i]`, `signatures[i]`, `datas[i]` and `etas[i]` for each target. -/
def transactions : List Address → List UInt256 → List String → List Bytes → List UInt256 →
    Except Revert (List TimelockTransaction)
  | [], _, _, _, _ => .ok []
  | target :: targets, value :: values, signature :: signatures, data :: datas, eta :: etas => do
      let rest ← transactions targets values signatures datas etas
      return ⟨target, value, signature, data, eta.toNat⟩ :: rest
  | _, _, _, _, _ => .error (.panic 0x32)

section Queue

variable [DecidableEq H]

def queueTransaction (msgSender : Address) (tx : TimelockTransaction) :
    Except Revert (FeiDAOTimelockState H) := do
  whenNotPaused s
  let timelock ← Timelock.queueTransaction env s.toTimelockState s.timestamp msgSender tx
  return { s with
    toTimelockState := timelock
    history := .queued tx s.timestamp s.delay :: s.history }

def _cancelTransaction (tx : TimelockTransaction) : FeiDAOTimelockState H :=
  { s with
    toTimelockState := Timelock._cancelTransaction env s.toTimelockState tx
    history := .canceled tx s.timestamp :: s.history }

def cancelTransaction (msgSender : Address) (tx : TimelockTransaction) :
    Except Revert (FeiDAOTimelockState H) := do
  require (msgSender = s.admin) "Timelock: Call must come from admin."
  return _cancelTransaction env s tx

def vetoTransactions (msgSender : Address) (targets : List Address) (values : List UInt256)
    (signatures : List String) (datas : List Bytes) (etas : List UInt256) :
    Except Revert (FeiDAOTimelockState H) := do
  onlyGuardianOrGovernor s.core msgSender
  let txs ← transactions targets values signatures datas etas
  return txs.foldl (fun s tx => _cancelTransaction env s tx) s

/-- Up to the call of the target. -/
def executeTransaction (msgSender : Address) (tx : TimelockTransaction) :
    Except Revert (FeiDAOTimelockState H) := do
  whenNotPaused s
  let timelock ← Timelock.executeTransaction env s.toTimelockState s.timestamp msgSender tx
  return { s with
    toTimelockState := timelock
    history := .executed tx s.timestamp :: s.history }

end Queue

def governorSetPendingAdmin (msgSender newAdmin : Address) :
    Except Revert (FeiDAOTimelockState H) := do
  onlyGovernor s.core msgSender
  return { s with pendingAdmin := newAdmin }

/-- Up to the call of `IFeiDAO(admin).updateTimelock`. -/
def rollback (msgSender : Address) : Except Revert Unit := do
  onlyGuardianOrGovernor s.core msgSender
  require (s.timestamp ≤ ROLLBACK_DEADLINE) "FeiDAOTimelock: rollback expired"

end Contract

/-! ## Transactions -/

/-- `setCore` is a change of roles in Core. -/
inductive Call : Type where
  | setDelay (sender : Address) (delay_ : UInt256)
  | acceptAdmin (sender : Address)
  | setPendingAdmin (sender pendingAdmin_ : Address)
  | queueTransaction (sender target : Address) (value : UInt256) (signature : String)
      (data : Bytes) (eta : UInt256)
  | cancelTransaction (sender target : Address) (value : UInt256) (signature : String)
      (data : Bytes) (eta : UInt256)
  | vetoTransactions (sender : Address) (targets : List Address) (values : List UInt256)
      (signatures : List String) (datas : List Bytes) (etas : List UInt256)
  | governorSetPendingAdmin (sender newAdmin : Address)
  | pause (sender : Address)
  | unpause (sender : Address)
  | setCore (core : Core)

/-- A call that calls another contract. -/
inductive Job : Type where
  | executeTransaction (sender target : Address) (value : UInt256) (signature : String)
      (data : Bytes) (eta : UInt256)
  | rollback (sender : Address)
  deriving DecidableEq, Repr

variable {H : Type} [DecidableEq H] (env : TimelockEnv H) (s : FeiDAOTimelockState H)

def call : Call → Except Revert (FeiDAOTimelockState H)
  | .setDelay sender delay_ => do
      let timelock ← Timelock.setDelay env s.toTimelockState sender delay_.toNat
      return { s with toTimelockState := timelock }
  | .acceptAdmin sender => do
      let timelock ← Timelock.acceptAdmin s.toTimelockState sender
      return { s with toTimelockState := timelock }
  | .setPendingAdmin sender pendingAdmin_ => do
      let timelock ← Timelock.setPendingAdmin env s.toTimelockState sender pendingAdmin_
      return { s with toTimelockState := timelock }
  | .queueTransaction sender target value signature data eta =>
      queueTransaction env s sender ⟨target, value, signature, data, eta.toNat⟩
  | .cancelTransaction sender target value signature data eta =>
      cancelTransaction env s sender ⟨target, value, signature, data, eta.toNat⟩
  | .vetoTransactions sender targets values signatures datas etas =>
      vetoTransactions env s sender targets values signatures datas etas
  | .governorSetPendingAdmin sender newAdmin => governorSetPendingAdmin s sender newAdmin
  | .pause sender => pause s.core s sender
  | .unpause sender => unpause s.core s sender
  | .setCore core => .ok { s with core }

/-- Each job makes one call, to the target or to the admin. -/
def begin : Job → Except Revert (FeiDAOTimelockState H × List Unit)
  | .executeTransaction sender target value signature data eta => do
      let s ← executeTransaction env s sender ⟨target, value, signature, data, eta.toNat⟩
      return (s, [()])
  | .rollback sender => do
      rollback s sender
      return (s, [()])

/-- A rollback fails with the reason of the admin, which is not modelled. -/
def callbacks : Callbacks Revert (FeiDAOTimelockState H) Call Job Unit where
  call s a := call env s a
  start s job := begin env s job
  before s _ _ := .ok s
  failed := .reason "Timelock: Transaction execution reverted."

inductive Action : Type where
  | transaction (t : Evm.Transaction Call Job)
  | elapse (seconds : Nat)

def step : Action → Except Revert (FeiDAOTimelockState H)
  | .transaction t => (callbacks env).perform t s
  | .elapse seconds => .ok { s with timestamp := s.timestamp + seconds }

end FeiDAOTimelock

end FeiProtocol
