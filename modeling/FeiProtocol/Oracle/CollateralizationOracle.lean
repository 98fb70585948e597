import FeiProtocol.Evm.Loop
import FeiProtocol.Evm.Machine
import FeiProtocol.External.Decimal
import FeiProtocol.Math.EnumerableSet
import FeiProtocol.Refs.CoreRef

/-!
# `CollateralizationOracle`

The deposits that hold the protocol's value, under the tokens they report in, and the oracles that
price these tokens. The three indexes are written together and read by `pcvStats`.

The functions are in the order of the source. A deposit's `balanceReportedIn` is a parameter of the
operations, and what deposits, oracles and FEI answer at the time of a reading is a `PcvReading`.
-/

namespace FeiProtocol

open Evm

inductive CollateralizationOracleEvent : Type where
  | DepositAdd (sender deposit token : Address)
  | DepositRemove (sender deposit : Address)
  | OracleUpdate (sender token oldOracle newOracle : Address)
  deriving DecidableEq, Repr

/-- `σ` stands for `EnumerableSet.AddressSet`. -/
structure CollateralizationOracleState (σ : Type) : Type where
  tokenToOracle : Address → Address
  tokenToDeposits : Address → σ
  depositToToken : Address → Address
  tokensInPcv : σ
  paused : Bool
  CONTRACT_ADMIN_ROLE : Bytes32
  /-- oldest first -/
  events : List CollateralizationOracleEvent

instance {σ : Type} : Pausable (CollateralizationOracleState σ) where
  paused s := s.paused
  withPaused s paused := { s with paused }

/-- The answers of the other contracts during a call of `pcvStats`. -/
structure PcvReading : Type where
  /-- `IPCVDepositBalances(deposit).resistantBalanceAndFei()` -/
  resistantBalanceAndFei : Address → Except Revert (Nat × Nat)
  /-- `IOracle(oracle).read()` -/
  read : Address → Except Revert (Decimal.D256 × Bool)
  /-- `fei().totalSupply()` -/
  feiTotalSupply : Nat

structure PcvStats : Type where
  protocolControlledValue : Nat
  userCirculatingFei : Nat
  protocolEquity : Int
  validityStatus : Bool
  deriving DecidableEq, Repr

namespace CollateralizationOracle

open CoreRef Decimal EnumerableSet

variable {σ : Type} [EnumerableSet σ Address]
  (balanceReportedIn : Address → Except Revert Address) (s : CollateralizationOracleState σ)

/-! ## Deposits -/

def _addDeposit (msgSender _deposit : Address) :
    Except Revert (CollateralizationOracleState σ) := do
  -- if the PCVDeposit is already listed, revert
  require (s.depositToToken _deposit = 0) "CollateralizationOracle: deposit duplicate"
  let _token ← balanceReportedIn _deposit
  require (s.tokenToOracle _token ≠ 0) "CollateralizationOracle: no oracle"
  return { s with
    depositToToken := Function.update s.depositToToken _deposit _token
    tokenToDeposits :=
      Function.update s.tokenToDeposits _token (add (s.tokenToDeposits _token) _deposit)
    tokensInPcv := add s.tokensInPcv _token
    events := s.events ++ [.DepositAdd msgSender _deposit _token] }

def _addDeposits (msgSender : Address) (_deposits : List Address) :
    Except Revert (CollateralizationOracleState σ) :=
  _deposits.foldlM (fun s _deposit => _addDeposit balanceReportedIn s msgSender _deposit) s

def _removeDeposit (msgSender _deposit : Address) :
    Except Revert (CollateralizationOracleState σ) := do
  let _token := s.depositToToken _deposit
  require (_token ≠ 0) "CollateralizationOracle: deposit not found"
  let s := { s with
    depositToToken := Function.update s.depositToToken _deposit 0
    tokenToDeposits :=
      Function.update s.tokenToDeposits _token (remove (s.tokenToDeposits _token) _deposit) }
  -- if it was the last deposit to have this token, remove this token also
  let s := { s with
    tokensInPcv := if length (s.tokenToDeposits _token) = 0 then remove s.tokensInPcv _token
      else s.tokensInPcv }
  return { s with events := s.events ++ [.DepositRemove msgSender _deposit] }

def _removeDeposits (msgSender : Address) (_deposits : List Address) :
    Except Revert (CollateralizationOracleState σ) :=
  _deposits.foldlM (fun s _deposit => _removeDeposit s msgSender _deposit) s

def _swapDeposit (msgSender _oldDeposit _newDeposit : Address) :
    Except Revert (CollateralizationOracleState σ) := do
  let s ← _removeDeposit s msgSender _oldDeposit
  _addDeposit balanceReportedIn s msgSender _newDeposit

/-! ## Oracles -/

def _setOracle (msgSender _token _newOracle : Address) :
    Except Revert (CollateralizationOracleState σ) := do
  require (_token ≠ 0) "CollateralizationOracle: token must be != 0x0"
  require (_newOracle ≠ 0) "CollateralizationOracle: oracle must be != 0x0"
  let _oldOracle := s.tokenToOracle _token
  return { s with
    tokenToOracle := Function.update s.tokenToOracle _token _newOracle
    events := s.events ++ [.OracleUpdate msgSender _token _oldOracle _newOracle] }

def _setOracles (msgSender : Address) (_tokens _oracles : List Address) :
    Except Revert (CollateralizationOracleState σ) := do
  require (_tokens.length = _oracles.length) "CollateralizationOracle: length mismatch"
  (_tokens.zip _oracles).foldlM (fun s pair => _setOracle s msgSender pair.1 pair.2) s

/-- `GOVERN_ROLE` is the admin role of `CoreRef`'s constructor, `ORACLE_ADMIN_ROLE` the hash of
its name. -/
def construct (GOVERN_ROLE ORACLE_ADMIN_ROLE : Bytes32) (msgSender : Address)
    (_deposits _tokens _oracles : List Address) :
    Except Revert (CollateralizationOracleState σ) := do
  let s : CollateralizationOracleState σ :=
    { tokenToOracle := fun _ => 0, tokenToDeposits := fun _ => empty, depositToToken := fun _ => 0,
      tokensInPcv := empty, paused := false, CONTRACT_ADMIN_ROLE := GOVERN_ROLE, events := [] }
  let s ← _setOracles s msgSender _tokens _oracles
  let s ← _addDeposits balanceReportedIn s msgSender _deposits
  return { s with CONTRACT_ADMIN_ROLE := ORACLE_ADMIN_ROLE }

/-! ## Readings -/

section Readings

variable (reading : PcvReading)

/-- The body of the loop for each deposit, with `_totalTokenBalance` and
`_protocolControlledFei`. -/
def readDeposit (totals : Nat × Nat) (_deposit : Address) : Except Revert (Nat × Nat) := do
  let (_depositBalance, _depositFei) ← reading.resistantBalanceAndFei _deposit
  let _totalTokenBalance ← checkedAdd totals.1 _depositBalance
  let _protocolControlledFei ← checkedAdd totals.2 _depositFei
  return (_totalTokenBalance, _protocolControlledFei)

/-- The variables of the loop for each token. -/
structure Totals : Type where
  protocolControlledValue : Nat
  _protocolControlledFei : Nat
  validityStatus : Bool

/-- The body of the loop for each token. -/
def readToken (totals : Totals) (_token : Address) : Except Revert Totals := do
  let (_totalTokenBalance, _protocolControlledFei) ←
    (values (s.tokenToDeposits _token)).foldlM (readDeposit reading)
      (0, totals._protocolControlledFei)
  let totals := { totals with _protocolControlledFei }
  if _totalTokenBalance ≠ 0 then do
    let (_oraclePrice, _oracleValid) ← reading.read (s.tokenToOracle _token)
    let validityStatus := if _oracleValid then totals.validityStatus else false
    let product ← _oraclePrice.mulUint _totalTokenBalance
    let protocolControlledValue ← checkedAdd totals.protocolControlledValue product.asUint256
    return { totals with protocolControlledValue, validityStatus }
  else return totals

def pcvStats : Except Revert PcvStats := do
  let totals ← (values s.tokensInPcv).foldlM (readToken s reading) ⟨0, 0, !s.paused⟩
  let userCirculatingFei ← checkedSub reading.feiTotalSupply totals._protocolControlledFei
  let value ← toInt256 totals.protocolControlledValue
  let fei ← toInt256 userCirculatingFei
  let protocolEquity ← checkedIntSub value fei
  return {
    protocolControlledValue := totals.protocolControlledValue
    userCirculatingFei
    protocolEquity
    validityStatus := totals.validityStatus }

def isOvercollateralized : Except Revert Bool := do
  whenNotPaused s
  let stats ← pcvStats s reading
  require (stats.validityStatus = true) "CollateralizationOracle: reading is invalid"
  return stats.protocolEquity > 0

end Readings

/-! ## Transactions -/

/-- The operations of a governor or admin. -/
inductive Administration : Type where
  | addDeposit (_deposit : Address)
  | addDeposits (_deposits : List Address)
  | removeDeposit (_deposit : Address)
  | removeDeposits (_deposits : List Address)
  | swapDeposit (_oldDeposit _newDeposit : Address)
  | setOracle (_token _newOracle : Address)
  | setOracles (_tokens _oracles : List Address)
  deriving DecidableEq, Repr

inductive Action : Type where
  | administer (administration : Administration)
  | pause
  | unpause
  | setContractAdminRole (newContractAdminRole : Bytes32)
  deriving DecidableEq, Repr

/-- A call finds the roles as they are at its time. -/
structure Call : Type where
  core : Core
  access : AccessControl
  msgSender : Address
  action : Action

def administer (msgSender : Address) :
    Administration → Except Revert (CollateralizationOracleState σ)
  | .addDeposit _deposit => _addDeposit balanceReportedIn s msgSender _deposit
  | .addDeposits _deposits => _addDeposits balanceReportedIn s msgSender _deposits
  | .removeDeposit _deposit => _removeDeposit s msgSender _deposit
  | .removeDeposits _deposits => _removeDeposits s msgSender _deposits
  | .swapDeposit _oldDeposit _newDeposit =>
      _swapDeposit balanceReportedIn s msgSender _oldDeposit _newDeposit
  | .setOracle _token _newOracle => _setOracle s msgSender _token _newOracle
  | .setOracles _tokens _oracles => _setOracles s msgSender _tokens _oracles

def step (call : Call) : Except Revert (CollateralizationOracleState σ) :=
  match call.action with
  | .administer administration => do
      onlyGovernorOrAdmin call.core call.access s.CONTRACT_ADMIN_ROLE call.msgSender
      administer balanceReportedIn s call.msgSender administration
  | .pause => pause call.core s call.msgSender
  | .unpause => unpause call.core s call.msgSender
  | .setContractAdminRole newContractAdminRole => do
      onlyGovernor call.core call.msgSender
      return { s with CONTRACT_ADMIN_ROLE := newContractAdminRole }

end CollateralizationOracle

end FeiProtocol
