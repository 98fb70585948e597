import FeiProtocol.Evm.Machine
import FeiProtocol.Evm.ReentrancyGuard
import FeiProtocol.Fei.Fei
import FeiProtocol.Peg.PegStabilityModule
import FeiProtocol.Utils.RateLimited

/-!
# `PegStabilityModule`, `PriceBoundPSM` and `FixedPricePSM`

The stability modules that hold their own reserves. One state serves all three: `PriceBoundPSM`
is a `PegStabilityModule` that checks the price and calls nobody when it allocates its surplus,
and `FixedPricePSM` is a `PriceBoundPSM` that pays one for one.

A mint pays out the FEI that the module holds before it mints any, and what it mints depletes
the rate limit. A redemption keeps the FEI. Reserves above the threshold can be sent to the
surplus target by anyone.

Oracles and surplus targets are other contracts. What the `deposit` of a target does to tokens
is a list of token calls by other accounts.
-/

namespace FeiProtocol

open Evm

inductive PsmContract : Type where
  | PegStabilityModule
  | PriceBoundPSM
  | FixedPricePSM
  deriving DecidableEq, Repr

inductive PsmEvent : Type where
  | Redeem (receiver : Address) (amountFeiIn amountAssetOut : Nat)
  | Mint (receiver : Address) (amountIn amountFeiOut : Nat)
  | AllocateSurplus (caller : Address) (amount : Nat)
  | WithdrawERC20 (caller token receiver : Address) (amount : Nat)
  deriving DecidableEq, Repr

/-- A call that an account makes on FEI or on another token. -/
inductive TokenAction : Type where
  | fei (sender : Address) (c : Fei.Call)
  | token (sender : Address) (c : Ledger.TokenCall)
  deriving DecidableEq, Repr

def TokenAction.sender : TokenAction → Address
  | .fei sender _ => sender
  | .token sender _ => sender

structure PsmState (W : Type) : Type extends RateLimited, PriceBoundPSM where
  reservesThreshold : Nat
  surplusTarget : Address
  redeemPaused : Bool
  mintPaused : Bool
  CONTRACT_ADMIN_ROLE : Bytes32
  _paused : Bool
  _status : Nat
  fei : FeiState
  /-- the underlying token and all others but FEI -/
  ledger : Ledger
  /-- everything else outside the module -/
  world : W
  /-- the timestamp of the current block -/
  timestamp : Nat
  /-- oldest first -/
  events : List PsmEvent

instance {W : Type} : Pausable (PsmState W) where
  paused s := s._paused
  withPaused s b := { s with _paused := b }

instance {W : Type} : ReentrancyGuard (PsmState W) where
  status s := s._status
  withStatus s n := { s with _status := n }
  status_withStatus _ _ := rfl
  withStatus_withStatus _ _ _ := rfl
  withStatus_status _ := rfl

structure PsmEnv (W : Type) : Type where
  contract : PsmContract
  access : AccessControl
  /-- FEI, with the core that the module references too -/
  token : FeiEnv
  /-- the address of FEI -/
  fei : Address
  underlyingToken : Address
  underlyingToken_ne : underlyingToken ≠ fei
  this : Address
  /-- `IOracle(oracle).update()` -/
  update : W → Address → Except Revert W
  /-- `IOracle(oracle).read()` -/
  read : W → Address → Except Revert (Decimal.D256 × Bool)
  /-- `IPCVDeposit(surplusTarget).deposit()` -/
  deposit : W → FeiState → Ledger → Address → Except Revert (W × List TokenAction)

namespace Psm

open Constants CoreRef ReentrancyGuard Decimal

def MAX_FEE : Nat := 300

def MAX_FEI_LIMIT_PER_SECOND : UInt256 := .ofNat 256 (10000 * 10 ^ 18)

variable {W : Type} (env : PsmEnv W)

/-! ## Quotes -/

def updateOracle (s : PsmState W) : Except Revert (PsmState W) := do
  let world ← env.update s.world s.oracle
  return { s with world }

/-- The hook, overridden in the modules with bounds. -/
def _validatePriceRange (s : PsmState W) (price : D256) : Except Revert Unit :=
  match env.contract with
  | .PegStabilityModule => .ok ()
  | .PriceBoundPSM | .FixedPricePSM => s.toPriceBoundPSM._validatePriceRange price

def _getMintAmountOut (s : PsmState W) (amountIn : Nat) : Except Revert Nat :=
  match env.contract with
  | .PegStabilityModule | .PriceBoundPSM =>
      PegStabilityModule._getMintAmountOut (env.read s.world) s.toPegStabilityModule
        (_validatePriceRange env s) amountIn
  | .FixedPricePSM =>
      FixedPricePSM._getMintAmountOut (env.read s.world) s.toPriceBoundPSM amountIn

def _getRedeemAmountOut (s : PsmState W) (amountFeiIn : Nat) : Except Revert Nat :=
  match env.contract with
  | .PegStabilityModule | .PriceBoundPSM =>
      PegStabilityModule._getRedeemAmountOut (env.read s.world) s.toPegStabilityModule
        (_validatePriceRange env s) amountFeiIn
  | .FixedPricePSM =>
      FixedPricePSM._getRedeemAmountOut (env.read s.world) s.toPriceBoundPSM amountFeiIn

/-! ## Tokens -/

/-- One token call of another account. -/
def perform (s : PsmState W) : TokenAction → Except Revert (PsmState W)
  | .fei sender c => do
      let fei ← Fei.call env.token s.fei sender c
      return { s with fei }
  | .token sender c => do
      let ledger ← s.ledger.perform sender c
      return { s with ledger }

def balance (s : PsmState W) : Nat := s.ledger.balanceOf env.underlyingToken env.this

def feiBalance (s : PsmState W) : Nat := Fei.balanceOf s.fei env.this

def resistantBalanceAndFei (s : PsmState W) : Nat × Nat := (balance env s, feiBalance env s)

def getMaxMintAmountOut (s : PsmState W) : Except Revert Nat := do
  let buffer ← s.buffer s.timestamp
  checkedAdd (feiBalance env s) buffer

def _transfer (s : PsmState W) (receiver : Address) (amount : Nat) :
    Except Revert (PsmState W) := do
  let ledger ← s.ledger.safeTransfer env.this env.underlyingToken receiver amount
  return { s with ledger }

/-- The rate limit before the inherited `_mintFei`, which mints nothing for zero. -/
def _mintFei (s : PsmState W) (receiver : Address) (amount : Nat) :
    Except Revert (PsmState W) := do
  let (rateLimited, mintAmount) ← s.toRateLimited._depleteBuffer s.timestamp amount
  let s := { s with toRateLimited := rateLimited }
  if mintAmount ≠ 0 then
    let fei ← Fei.mint env.token s.fei env.this receiver mintAmount
    return { s with fei }
  else return s

/-! ## Mints and redemptions -/

def _redeem (s : PsmState W) (msgSender receiver : Address) (amountFeiIn minAmountOut : Nat) :
    Except Revert (PsmState W) := do
  whenNotPaused s
  require (s.redeemPaused = false) "PegStabilityModule: Redeem paused"
  let s ← updateOracle env s
  let amountOut ← _getRedeemAmountOut env s amountFeiIn
  require (amountOut ≥ minAmountOut) "PegStabilityModule: Redeem not enough out"
  let fei ← Fei.transferFrom env.token s.fei env.this msgSender env.this amountFeiIn
  let s ← _transfer env { s with fei } receiver amountOut
  return { s with events := s.events ++ [.Redeem receiver amountFeiIn amountOut] }

def redeem (s : PsmState W) (msgSender receiver : Address) (amountFeiIn minAmountOut : UInt256) :
    Except Revert (PsmState W) :=
  nonReentrant (fun s => _redeem env s msgSender receiver amountFeiIn.toNat minAmountOut.toNat) s

def _mint (s : PsmState W) (msgSender receiver : Address) (amountIn minAmountOut : Nat) :
    Except Revert (PsmState W) := do
  whenNotPaused s
  require (s.mintPaused = false) "PegStabilityModule: Minting paused"
  let s ← updateOracle env s
  let amountFeiOut ← _getMintAmountOut env s amountIn
  require (amountFeiOut ≥ minAmountOut) "PegStabilityModule: Mint not enough out"
  let ledger ← s.ledger.safeTransferFrom env.this env.underlyingToken msgSender env.this amountIn
  let amountFeiToTransfer := min (feiBalance env s) amountFeiOut
  let amountFeiToMint ← checkedSub amountFeiOut amountFeiToTransfer
  let fei ← Fei.transfer env.token s.fei env.this receiver amountFeiToTransfer
  let s := { s with ledger, fei }
  let s ← (if amountFeiToMint > 0 then _mintFei env s receiver amountFeiToMint else .ok s)
  return { s with events := s.events ++ [.Mint receiver amountIn amountFeiOut] }

def mint (s : PsmState W) (msgSender receiver : Address) (amountIn minAmountOut : UInt256) :
    Except Revert (PsmState W) :=
  nonReentrant (fun s => _mint env s msgSender receiver amountIn.toNat minAmountOut.toNat) s

/-! ## Reserves -/

def hasSurplus (s : PsmState W) : Bool := balance env s > s.reservesThreshold

def reservesSurplus (s : PsmState W) : Except Revert Int := do
  let held ← toInt256 (balance env s)
  let threshold ← toInt256 s.reservesThreshold
  checkedIntSub held threshold

/-- The modules with bounds do not call the target. -/
def _allocate (s : PsmState W) (msgSender : Address) (amount : Nat) :
    Except Revert (PsmState W) := do
  let s ← _transfer env s s.surplusTarget amount
  let s ← (match env.contract with
    | .PegStabilityModule => do
        let (world, calls) ← env.deposit s.world s.fei s.ledger s.surplusTarget
        calls.foldlM (perform env) { s with world }
    | .PriceBoundPSM | .FixedPricePSM => .ok s)
  return { s with events := s.events ++ [.AllocateSurplus msgSender amount] }

def allocateSurplus (s : PsmState W) (msgSender : Address) : Except Revert (PsmState W) := do
  let currentSurplus ← reservesSurplus env s
  require (currentSurplus > 0) "PegStabilityModule: No surplus to allocate"
  let amount ← Evm.toUint256 currentSurplus
  _allocate env s msgSender amount

def deposit (s : PsmState W) (msgSender : Address) : Except Revert (PsmState W) := do
  let currentSurplus ← reservesSurplus env s
  if currentSurplus > 0 then
    let amount ← Evm.toUint256 currentSurplus
    _allocate env s msgSender amount
  else return s

def _withdrawERC20 (s : PsmState W) (msgSender token receiver : Address) (amount : Nat) :
    Except Revert (PsmState W) := do
  let s ← (if token = env.fei then do
      let fei ← Fei.transfer env.token s.fei env.this receiver amount
      return { s with fei }
    else do
      let ledger ← s.ledger.safeTransfer env.this token receiver amount
      return { s with ledger })
  return { s with events := s.events ++ [.WithdrawERC20 msgSender token receiver amount] }

def withdraw (s : PsmState W) (msgSender receiver : Address) (amount : UInt256) :
    Except Revert (PsmState W) := do
  onlyPCVController env.token.core msgSender
  _withdrawERC20 env s msgSender env.underlyingToken receiver amount.toNat

def withdrawERC20 (s : PsmState W) (msgSender token receiver : Address) (amount : UInt256) :
    Except Revert (PsmState W) := do
  onlyPCVController env.token.core msgSender
  _withdrawERC20 env s msgSender token receiver amount.toNat

/-! ## Parameters -/

def _setMintFee (s : PsmState W) (newMintFeeBasisPoints : Nat) : Except Revert (PsmState W) := do
  require (newMintFeeBasisPoints ≤ MAX_FEE) "PegStabilityModule: Mint fee exceeds max fee"
  return { s with mintFeeBasisPoints := newMintFeeBasisPoints }

def _setRedeemFee (s : PsmState W) (newRedeemFeeBasisPoints : Nat) :
    Except Revert (PsmState W) := do
  require (newRedeemFeeBasisPoints ≤ MAX_FEE) "PegStabilityModule: Redeem fee exceeds max fee"
  return { s with redeemFeeBasisPoints := newRedeemFeeBasisPoints }

def _setReservesThreshold (s : PsmState W) (newReservesThreshold : Nat) :
    Except Revert (PsmState W) := do
  require (newReservesThreshold > 0) "PegStabilityModule: Invalid new reserves threshold"
  return { s with reservesThreshold := newReservesThreshold }

def _setSurplusTarget (s : PsmState W) (newSurplusTarget : Address) :
    Except Revert (PsmState W) := do
  require (newSurplusTarget ≠ 0) "PegStabilityModule: Invalid new surplus target"
  return { s with surplusTarget := newSurplusTarget }

def _setCeilingBasisPoints (s : PsmState W) (newCeilingBasisPoints : Nat) :
    Except Revert (PsmState W) := do
  require (newCeilingBasisPoints ≠ 0) "PegStabilityModule: invalid ceiling"
  let upper ← Decimal.ratio newCeilingBasisPoints BASIS_POINTS_GRANULARITY
  let lower ← Decimal.ratio s.floor BASIS_POINTS_GRANULARITY
  require (upper.greaterThan lower = true) "PegStabilityModule: ceiling must be greater than floor"
  return { s with ceiling := newCeilingBasisPoints }

def _setFloorBasisPoints (s : PsmState W) (newFloorBasisPoints : Nat) :
    Except Revert (PsmState W) := do
  require (newFloorBasisPoints ≠ 0) "PegStabilityModule: invalid floor"
  let lower ← Decimal.ratio newFloorBasisPoints BASIS_POINTS_GRANULARITY
  let upper ← Decimal.ratio s.ceiling BASIS_POINTS_GRANULARITY
  require (lower.lessThan upper = true) "PegStabilityModule: floor must be less than ceiling"
  return { s with floor := newFloorBasisPoints }

def isPriceValid (s : PsmState W) : Except Revert Bool := do
  let price ← s.toOracleRef.readOracle (env.read s.world)
  s.toPriceBoundPSM._validPrice price

structure OracleParams : Type where
  oracleAddress : Address
  backupOracle : Address
  decimalsNormalizer : BitVec 256
  doInvert : Bool

/-- The bounds are arguments of the modules that have them. -/
structure ConstructorArgs : Type where
  _floor : UInt256
  _ceiling : UInt256
  params : OracleParams
  _mintFeeBasisPoints : UInt256
  _redeemFeeBasisPoints : UInt256
  _reservesThreshold : UInt256
  _feiLimitPerSecond : UInt256
  _mintingBufferCap : UInt256
  _surplusTarget : Address

def construct (fei : FeiState) (ledger : Ledger) (world : W) (timestamp : Nat)
    (args : ConstructorArgs) : Except Revert (PsmState W) := do
  let rateLimited ← RateLimited.construct timestamp MAX_FEI_LIMIT_PER_SECOND
    args._feiLimitPerSecond args._mintingBufferCap false
  let oracleRef ← OracleRef.construct args.params.oracleAddress args.params.backupOracle
    args.params.decimalsNormalizer args.params.doInvert
  let s : PsmState W :=
    { toRateLimited := rateLimited
      toOracleRef := oracleRef
      mintFeeBasisPoints := 0
      redeemFeeBasisPoints := 0
      floor := 0
      ceiling := 0
      reservesThreshold := 0
      surplusTarget := 0
      redeemPaused := false
      mintPaused := false
      CONTRACT_ADMIN_ROLE := env.access.roles.PSM_ADMIN_ROLE
      _paused := false
      _status := _NOT_ENTERED
      fei
      ledger
      world
      timestamp
      events := [] }
  let s ← _setReservesThreshold s args._reservesThreshold.toNat
  let s ← _setMintFee s args._mintFeeBasisPoints.toNat
  let s ← _setRedeemFee s args._redeemFeeBasisPoints.toNat
  let s ← _setSurplusTarget s args._surplusTarget
  match env.contract with
  | .PegStabilityModule => return s
  | .PriceBoundPSM | .FixedPricePSM => do
      let s ← _setCeilingBasisPoints s args._ceiling.toNat
      _setFloorBasisPoints s args._floor.toNat

/-- A call of an administrator. -/
inductive AdminCall : Type where
  | pauseRedeem
  | unpauseRedeem
  | pauseMint
  | unpauseMint
  | setMintFee (newMintFeeBasisPoints : UInt256)
  | setRedeemFee (newRedeemFeeBasisPoints : UInt256)
  | setReservesThreshold (newReservesThreshold : UInt256)
  | setSurplusTarget (newTarget : Address)
  | setOracleFloorBasisPoints (newFloorBasisPoints : UInt256)
  | setOracleCeilingBasisPoints (newCeilingBasisPoints : UInt256)
  | setOracle (newOracle : Address)
  | setDoInvert (newDoInvert : Bool)
  | setDecimalsNormalizer (newDecimalsNormalizer : BitVec 256)
  | setBackupOracle (newBackupOracle : Address)
  | setContractAdminRole (newContractAdminRole : Bytes32)
  | pause
  | unpause
  deriving DecidableEq, Repr

/-- `PegStabilityModule` has no bounds to set. -/
def hasBounds : Except Revert Unit :=
  require (env.contract ≠ .PegStabilityModule) ""

def admin (s : PsmState W) (msgSender : Address) : AdminCall → Except Revert (PsmState W)
  | .pauseRedeem => do
      isGovernorOrGuardianOrAdmin env.token.core env.access s.CONTRACT_ADMIN_ROLE msgSender
      return { s with redeemPaused := true }
  | .unpauseRedeem => do
      isGovernorOrGuardianOrAdmin env.token.core env.access s.CONTRACT_ADMIN_ROLE msgSender
      return { s with redeemPaused := false }
  | .pauseMint => do
      isGovernorOrGuardianOrAdmin env.token.core env.access s.CONTRACT_ADMIN_ROLE msgSender
      return { s with mintPaused := true }
  | .unpauseMint => do
      isGovernorOrGuardianOrAdmin env.token.core env.access s.CONTRACT_ADMIN_ROLE msgSender
      return { s with mintPaused := false }
  | .setMintFee newMintFeeBasisPoints => do
      onlyGovernorOrAdmin env.token.core env.access s.CONTRACT_ADMIN_ROLE msgSender
      _setMintFee s newMintFeeBasisPoints.toNat
  | .setRedeemFee newRedeemFeeBasisPoints => do
      onlyGovernorOrAdmin env.token.core env.access s.CONTRACT_ADMIN_ROLE msgSender
      _setRedeemFee s newRedeemFeeBasisPoints.toNat
  | .setReservesThreshold newReservesThreshold => do
      onlyGovernorOrAdmin env.token.core env.access s.CONTRACT_ADMIN_ROLE msgSender
      _setReservesThreshold s newReservesThreshold.toNat
  | .setSurplusTarget newTarget => do
      onlyGovernorOrAdmin env.token.core env.access s.CONTRACT_ADMIN_ROLE msgSender
      _setSurplusTarget s newTarget
  | .setOracleFloorBasisPoints newFloorBasisPoints => do
      hasBounds env
      onlyGovernorOrAdmin env.token.core env.access s.CONTRACT_ADMIN_ROLE msgSender
      _setFloorBasisPoints s newFloorBasisPoints.toNat
  | .setOracleCeilingBasisPoints newCeilingBasisPoints => do
      hasBounds env
      onlyGovernorOrAdmin env.token.core env.access s.CONTRACT_ADMIN_ROLE msgSender
      _setCeilingBasisPoints s newCeilingBasisPoints.toNat
  | .setOracle newOracle => do
      let oracleRef ← s.toOracleRef.setOracle env.token.core msgSender newOracle
      return { s with toOracleRef := oracleRef }
  | .setDoInvert newDoInvert => do
      let oracleRef ← s.toOracleRef.setDoInvert env.token.core msgSender newDoInvert
      return { s with toOracleRef := oracleRef }
  | .setDecimalsNormalizer newDecimalsNormalizer => do
      let oracleRef ← s.toOracleRef.setDecimalsNormalizer env.token.core msgSender
        newDecimalsNormalizer
      return { s with toOracleRef := oracleRef }
  | .setBackupOracle newBackupOracle => do
      let oracleRef ← s.toOracleRef.setBackupOracle env.token.core env.access
        s.CONTRACT_ADMIN_ROLE msgSender newBackupOracle
      return { s with toOracleRef := oracleRef }
  | .setContractAdminRole newContractAdminRole => do
      onlyGovernor env.token.core msgSender
      return { s with CONTRACT_ADMIN_ROLE := newContractAdminRole }
  | .pause => pause env.token.core s msgSender
  | .unpause => unpause env.token.core s msgSender

/-! ## Transactions -/

/-- `outside` is whatever the oracles and the targets do among themselves. -/
inductive Action (W : Type) : Type where
  | mint (sender receiver : Address) (amountIn minAmountOut : UInt256)
  | redeem (sender receiver : Address) (amountFeiIn minAmountOut : UInt256)
  | allocateSurplus (sender : Address)
  | deposit (sender : Address)
  | withdraw (sender receiver : Address) (amount : UInt256)
  | withdrawERC20 (sender token receiver : Address) (amount : UInt256)
  | setRateLimitPerSecond (sender : Address) (newRateLimitPerSecond : UInt256)
  | setBufferCap (sender : Address) (newBufferCap : UInt256)
  | admin (sender : Address) (c : AdminCall)
  | updateOracle
  | tokens (a : TokenAction)
  | outside (world : W)
  | elapse (seconds : Nat)

def step (s : PsmState W) : Action W → Except Revert (PsmState W)
  | .mint sender receiver amountIn minAmountOut => mint env s sender receiver amountIn minAmountOut
  | .redeem sender receiver amountFeiIn minAmountOut =>
      redeem env s sender receiver amountFeiIn minAmountOut
  | .allocateSurplus sender => allocateSurplus env s sender
  | .deposit sender => deposit env s sender
  | .withdraw sender receiver amount => withdraw env s sender receiver amount
  | .withdrawERC20 sender token receiver amount => withdrawERC20 env s sender token receiver amount
  | .setRateLimitPerSecond sender newRateLimitPerSecond => do
      let rateLimited ← s.toRateLimited.setRateLimitPerSecond env.token.core env.access
        s.timestamp s.CONTRACT_ADMIN_ROLE sender newRateLimitPerSecond
      return { s with toRateLimited := rateLimited }
  | .setBufferCap sender newBufferCap => do
      let rateLimited ← s.toRateLimited.setBufferCap env.token.core env.access s.timestamp
        s.CONTRACT_ADMIN_ROLE sender newBufferCap
      return { s with toRateLimited := rateLimited }
  | .admin sender c => admin env s sender c
  | .updateOracle => updateOracle env s
  | .tokens a => perform env s a
  | .outside world => .ok { s with world }
  | .elapse seconds => .ok { s with timestamp := s.timestamp + seconds }

end Psm

end FeiProtocol
