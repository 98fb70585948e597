import FeiProtocol.Core.Core
import FeiProtocol.Evm.Callbacks
import FeiProtocol.Pcv.ERC20HoldingPCVDeposit
import FeiProtocol.Sentinel.FuseWithdrawalGuard

/-!
# `PCVGuardian`

Moves what PCV deposits hold to addresses of a list that governance keeps. It is in one state with
Core, which says who may call it, and with the deposits that hold tokens. It can be asked to
withdraw from any other contract as well, which may then call anything here before it returns.

`Guarded` says what each call may do, and `Asked` what the guardian asks of a contract.
-/

namespace FeiProtocol

open Evm

/-- `σ` stands for `EnumerableSet.AddressSet`. -/
structure PCVGuardianState (σ : Type) : Type where
  /-- Core, and the tokens -/
  core : CoreState
  safeAddresses : σ
  deposits : Address → ERC20HoldingPCVDepositState

structure PCVGuardianEnv : Type where
  core : CoreEnv
  this : Address
  /-- whether an `ERC20HoldingPCVDeposit` is at an address -/
  isDeposit : Address → Bool

/-- What the guardian asks of a contract. -/
inductive PCVRequest : Type where
  | _ensureUnpaused
  | call (c : ERC20HoldingPCVDeposit.Call)
  deriving DecidableEq, Repr

namespace PCVGuardian

open EnumerableSet Permissions CoreRef FuseWithdrawalGuard

def PCV_GUARDIAN_ADMIN (P : Precompiles) : Bytes32 := P.hashText "PCV_GUARDIAN_ADMIN_ROLE"

def PCV_SAFE_MOVER_ROLE (P : Precompiles) : Bytes32 := P.hashText "PCV_SAFE_MOVER_ROLE"

variable {σ : Type} [EnumerableSet σ Address] (env : PCVGuardianEnv) (s : PCVGuardianState σ)

/-! ## The contract -/

/-- The roles, for checks of several at once. -/
def access : AccessControl where
  hasRole := hasRole s.core.permissions
  roles :=
    { GOVERNOR := GOVERN_ROLE env.core.precompiles
      PARAMETER_ADMIN := env.core.precompiles.hashText "PARAMETER_ADMIN"
      PSM_ADMIN_ROLE := env.core.precompiles.hashText "PSM_ADMIN_ROLE"
      ADD_MINTER_ROLE := env.core.precompiles.hashText "ADD_MINTER_ROLE" }

section Safe

variable (msgSender : Address)

def isSafeAddress (pcvDeposit : Address) : Bool := pcvDeposit ∈ values s.safeAddresses

def _setSafeAddress (anAddress : Address) : Except Revert (PCVGuardianState σ) := do
  require (isSafeAddress s anAddress = false) "set"
  return { s with safeAddresses := add s.safeAddresses anAddress }

def _unsetSafeAddress (anAddress : Address) : Except Revert (PCVGuardianState σ) := do
  require (isSafeAddress s anAddress = true) "unset"
  return { s with safeAddresses := remove s.safeAddresses anAddress }

/-- `core` and `deposits` are as the deployment finds them. -/
def construct (core : CoreState) (deposits : Address → ERC20HoldingPCVDepositState)
    (_safeAddresses : List Address) : Except Revert (PCVGuardianState σ) :=
  _safeAddresses.foldlM _setSafeAddress ⟨core, empty, deposits⟩

/-- Who may add safe addresses. -/
def admins : Except Revert Unit :=
  hasAnyOfTwoRoles (access env s) (GOVERN_ROLE env.core.precompiles)
    (PCV_GUARDIAN_ADMIN env.core.precompiles) msgSender

/-- Who may take safe addresses away. -/
def removers : Except Revert Unit :=
  hasAnyOfThreeRoles (access env s) (GOVERN_ROLE env.core.precompiles)
    (GUARDIAN_ROLE env.core.precompiles) (PCV_GUARDIAN_ADMIN env.core.precompiles) msgSender

/-- Who may withdraw to a safe address. -/
def movers : Except Revert Unit :=
  hasAnyOfThreeRoles (access env s) (GOVERN_ROLE env.core.precompiles)
    (PCV_SAFE_MOVER_ROLE env.core.precompiles) (GUARDIAN_ROLE env.core.precompiles) msgSender

def setSafeAddress (pcvDeposit : Address) : Except Revert (PCVGuardianState σ) := do
  admins env s msgSender
  _setSafeAddress s pcvDeposit

def setSafeAddresses (_safeAddresses : List Address) : Except Revert (PCVGuardianState σ) := do
  admins env s msgSender
  require (_safeAddresses.length ≠ 0) "empty"
  _safeAddresses.foldlM _setSafeAddress s

def unsetSafeAddress (pcvDeposit : Address) : Except Revert (PCVGuardianState σ) := do
  removers env s msgSender
  _unsetSafeAddress s pcvDeposit

def unsetSafeAddresses (_safeAddresses : List Address) : Except Revert (PCVGuardianState σ) := do
  removers env s msgSender
  require (_safeAddresses.length ≠ 0) "empty"
  _safeAddresses.foldlM _unsetSafeAddress s

end Safe

section Withdrawals

variable (msgSender pcvDeposit safeAddress : Address)

/-- The three functions differ in the withdrawal. What is asked, of whom, in turn. -/
def toSafeAddress (withdrawal : ERC20HoldingPCVDeposit.Call) (pauseAfter depositAfter : Bool) :
    Except Revert (List (Address × PCVRequest)) := do
  movers env s msgSender
  require (isSafeAddress s safeAddress = true) "Provided address is not a safe address!"
  return (pcvDeposit, ._ensureUnpaused) :: (pcvDeposit, .call withdrawal) ::
    ((if pauseAfter then [(pcvDeposit, .call .pause)] else []) ++
      if depositAfter then [(safeAddress, .call .deposit)] else [])

def withdrawToSafeAddress (amount : UInt256) (pauseAfter depositAfter : Bool) :
    Except Revert (List (Address × PCVRequest)) :=
  toSafeAddress env s msgSender pcvDeposit safeAddress (.withdraw safeAddress amount) pauseAfter
    depositAfter

def withdrawETHToSafeAddress (amount : UInt256) (pauseAfter depositAfter : Bool) :
    Except Revert (List (Address × PCVRequest)) :=
  toSafeAddress env s msgSender pcvDeposit safeAddress (.withdrawETH safeAddress amount) pauseAfter
    depositAfter

def withdrawERC20ToSafeAddress (token : Address) (amount : UInt256)
    (pauseAfter depositAfter : Bool) : Except Revert (List (Address × PCVRequest)) :=
  toSafeAddress env s msgSender pcvDeposit safeAddress (.withdrawERC20 token safeAddress amount)
    pauseAfter depositAfter

end Withdrawals

/-! ## Transactions -/

inductive Call : Type where
  | core (sender : Address) (a : Core.Action)
  | deposit (sender target : Address) (c : ERC20HoldingPCVDeposit.Call)
  | setSafeAddress (sender pcvDeposit : Address)
  | setSafeAddresses (sender : Address) (_safeAddresses : List Address)
  | unsetSafeAddress (sender pcvDeposit : Address)
  | unsetSafeAddresses (sender : Address) (_safeAddresses : List Address)
  deriving DecidableEq, Repr

inductive Withdrawal : Type where
  | ToSafeAddress
  | ETHToSafeAddress
  | ERC20ToSafeAddress (token : Address)
  deriving DecidableEq, Repr

/-- A call of one of the functions that withdraw. -/
structure Job : Type where
  sender : Address
  withdrawal : Withdrawal
  pcvDeposit : Address
  safeAddress : Address
  amount : UInt256
  pauseAfter : Bool
  depositAfter : Bool
  deriving DecidableEq, Repr

/-- A call of a deposit. A call of another contract is none of anything here. -/
def callDeposit (msgSender target : Address) (c : ERC20HoldingPCVDeposit.Call) :
    Except Revert (PCVGuardianState σ) :=
  if env.isDeposit target then do
    let (d, ledger) ← ERC20HoldingPCVDeposit.call
      (Permissions.core env.core.precompiles s.core.permissions) target (s.deposits target)
      s.core.ledger msgSender c
    return { s with
      core := { s.core with ledger }
      deposits := Function.update s.deposits target d }
  else return s

/-- What is asked of a contract: `_ensureUnpaused` looks at the flag first. -/
def respond (target : Address) : PCVRequest → Except Revert (PCVGuardianState σ)
  | ._ensureUnpaused =>
      if (s.deposits target)._paused then callDeposit env s env.this target .unpause else return s
  | .call c => callDeposit env s env.this target c

def call : Call → Except Revert (PCVGuardianState σ)
  | .core sender a => do
      let core ← Core.step env.core s.core (sender, a)
      return { s with core }
  | .deposit sender target c => callDeposit env s sender target c
  | .setSafeAddress sender pcvDeposit => setSafeAddress env s sender pcvDeposit
  | .setSafeAddresses sender _safeAddresses => setSafeAddresses env s sender _safeAddresses
  | .unsetSafeAddress sender pcvDeposit => unsetSafeAddress env s sender pcvDeposit
  | .unsetSafeAddresses sender _safeAddresses => unsetSafeAddresses env s sender _safeAddresses

def begin (job : Job) : Except Revert (List (Address × PCVRequest)) :=
  match job.withdrawal with
  | .ToSafeAddress => withdrawToSafeAddress env s job.sender job.pcvDeposit job.safeAddress
      job.amount job.pauseAfter job.depositAfter
  | .ETHToSafeAddress => withdrawETHToSafeAddress env s job.sender job.pcvDeposit job.safeAddress
      job.amount job.pauseAfter job.depositAfter
  | .ERC20ToSafeAddress token => withdrawERC20ToSafeAddress env s job.sender job.pcvDeposit
      job.safeAddress token job.amount job.pauseAfter job.depositAfter

/-- A withdrawal fails with the reason of the contract that fails, which is not modelled. -/
def callbacks : Callbacks Revert (PCVGuardianState σ) Call Job (Address × PCVRequest) where
  call s a := call env s a
  start s job := do
    let requests ← begin env s job
    return (s, requests)
  before s _ request := respond env s request.1 request.2
  failed := .reason ""

abbrev Action : Type := Transaction Call Job

def step (a : Action) : Except Revert (PCVGuardianState σ) := (callbacks env).perform a s

end PCVGuardian

end FeiProtocol
