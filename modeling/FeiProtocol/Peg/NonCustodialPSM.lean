import FeiProtocol.Evm.Machine
import FeiProtocol.Evm.ReentrancyGuard
import FeiProtocol.Evm.Ledger
import FeiProtocol.Refs.Constants
import FeiProtocol.Refs.OracleRef
import FeiProtocol.Utils.GlobalRateLimitedMinter

/-!
# `NonCustodialPSM`

A peg stability module that holds no funds. Redemptions deplete its buffer; time and mints
refill it, never above the cap. Everything outside the module, with FEI, the underlying token,
the oracle, the deposit and the rate limited minter, is one world that the module calls.

* `redeems_of_redeem`, `mints_of_mint`: what the two entry points do.
* `window_flow`: over a window under unchanged limits, redemptions are drawn
  from the buffer and mints are poured into it.
* `redemptions_throttled`: the window bound, from deployment on.
-/

namespace FeiProtocol

open Evm

inductive NonCustodialPSMEvent : Type where
  | Redeem (receiver : Address) (amountFeiIn amountAssetOut : Nat)
  | Mint (receiver : Address) (amountIn amountFeiOut : Nat)
  deriving DecidableEq, Repr

structure NonCustodialPSMState (W : Type) : Type extends RateLimited, OracleRef where
  mintFeeBasisPoints : Nat
  redeemFeeBasisPoints : Nat
  pcvDeposit : Address
  rateLimitedMinter : Address
  redeemPaused : Bool
  mintPaused : Bool
  CONTRACT_ADMIN_ROLE : Bytes32
  _paused : Bool
  _status : Nat
  /-- everything outside the module -/
  world : W
  /-- the timestamp of the current block -/
  timestamp : Nat
  /-- oldest first -/
  events : List NonCustodialPSMEvent

instance {W : Type} : Pausable (NonCustodialPSMState W) where
  paused s := s._paused
  withPaused s b := { s with _paused := b }

instance {W : Type} : ReentrancyGuard (NonCustodialPSMState W) where
  status s := s._status
  withStatus s n := { s with _status := n }
  status_withStatus _ _ := rfl
  withStatus_withStatus _ _ _ := rfl
  withStatus_status _ := rfl

/-- What the module calls, with its own address as the caller. -/
structure NonCustodialPSMEnv (W : Type) : Type where
  core : Core
  access : AccessControl
  this : Address
  /-- `IOracle(oracle).update()` -/
  update : W → Address → Except Revert W
  /-- `IOracle(oracle).read()` -/
  read : W → Address → Except Revert (Decimal.D256 × Bool)
  /-- `fei().balanceOf(account)` -/
  feiBalanceOf : W → Address → Nat
  /-- `fei().safeTransfer(receiver, amount)` -/
  feiTransfer : W → Address → Nat → Except Revert W
  /-- `fei().safeTransferFrom(src, dst, amount)` -/
  feiTransferFrom : W → Address → Address → Nat → Except Revert W
  /-- `underlyingToken.safeTransferFrom(src, dst, amount)` -/
  underlyingTransferFrom : W → Address → Address → Nat → Except Revert W
  /-- `IERC20(token).safeTransfer(receiver, amount)` -/
  tokenTransfer : W → Address → Address → Nat → Except Revert W
  /-- `IPCVDeposit(pcvDeposit).deposit()` -/
  deposit : W → Address → Except Revert W
  /-- `IPCVDeposit(pcvDeposit).withdraw(receiver, amount)` -/
  withdraw : W → Address → Address → Nat → Except Revert W
  /-- `GlobalRateLimitedMinter(rateLimitedMinter).mint(receiver, amount)` -/
  rateLimitedMint : W → Address → Address → Nat → Except Revert W
  /-- `GlobalRateLimitedMinter(rateLimitedMinter).individualBuffer(account)` -/
  individualBuffer : W → Address → Address → Except Revert Nat

namespace NonCustodialPSM

open Constants CoreRef ReentrancyGuard Decimal

def MAX_FEE : Nat := 300

variable {W : Type} (env : NonCustodialPSMEnv W)

/-! ## The contract -/

def updateOracle (s : NonCustodialPSMState W) : Except Revert (NonCustodialPSMState W) := do
  let world ← env.update s.world s.oracle
  return { s with world }

/-- The hook of the price-bound module. -/
def _validatePriceRange (_price : D256) : Except Revert Unit := .ok ()

def _getMintAmountOut (s : NonCustodialPSMState W) (amountIn : Nat) : Except Revert Nat := do
  let price ← s.toOracleRef.readOracle (env.read s.world)
  _validatePriceRange price
  let adjustedAmountIn ← price.mulUint amountIn
  let lessFee ← checkedSub BASIS_POINTS_GRANULARITY s.mintFeeBasisPoints
  let scaled ← adjustedAmountIn.mulUint lessFee
  let amountFeiOut ← scaled.divUint BASIS_POINTS_GRANULARITY
  return amountFeiOut.asUint256

def _getRedeemAmountOut (s : NonCustodialPSMState W) (amountFeiIn : Nat) : Except Revert Nat := do
  let price ← s.toOracleRef.readOracle (env.read s.world)
  _validatePriceRange price
  let lessFee ← checkedSub BASIS_POINTS_GRANULARITY s.redeemFeeBasisPoints
  let scaled ← checkedMul amountFeiIn lessFee
  let adjusted ← checkedDiv scaled BASIS_POINTS_GRANULARITY
  let adjustedAmountIn ← Decimal.ofUint adjusted
  let amountTokenOut ← adjustedAmountIn.div price
  return amountTokenOut.asUint256

def getMaxMintAmountOut (s : NonCustodialPSMState W) : Except Revert Nat := do
  let buffered ← env.individualBuffer s.world s.rateLimitedMinter env.this
  checkedAdd (env.feiBalanceOf s.world env.this) buffered

def _redeem (s : NonCustodialPSMState W) (msgSender receiver : Address)
    (amountFeiIn minAmountOut : Nat) : Except Revert (NonCustodialPSMState W) := do
  whenNotPaused s
  require (s.redeemPaused = false) "PegStabilityModule: Redeem paused"
  let (rateLimited, _) ← s.toRateLimited._depleteBuffer s.timestamp amountFeiIn
  let s := { s with toRateLimited := rateLimited }
  let s ← updateOracle env s
  let amountOut ← _getRedeemAmountOut env s amountFeiIn
  require (amountOut ≥ minAmountOut) "PegStabilityModule: Redeem not enough out"
  let world ← env.feiTransferFrom s.world msgSender env.this amountFeiIn
  let world ← env.withdraw world s.pcvDeposit receiver amountOut
  return { s with world, events := s.events ++ [.Redeem receiver amountFeiIn amountOut] }

def redeem (s : NonCustodialPSMState W) (msgSender receiver : Address)
    (amountFeiIn minAmountOut : UInt256) : Except Revert (NonCustodialPSMState W) :=
  nonReentrant (fun s => _redeem env s msgSender receiver amountFeiIn.toNat minAmountOut.toNat) s

def _mint (s : NonCustodialPSMState W) (msgSender receiver : Address)
    (amountIn minFeiAmountOut : Nat) : Except Revert (NonCustodialPSMState W) := do
  whenNotPaused s
  require (s.mintPaused = false) "PegStabilityModule: Minting paused"
  let s ← updateOracle env s
  let amountFeiOut ← _getMintAmountOut env s amountIn
  require (amountFeiOut ≥ minFeiAmountOut) "PegStabilityModule: Mint not enough out"
  let world ← env.underlyingTransferFrom s.world msgSender s.pcvDeposit amountIn
  let world ← env.deposit world s.pcvDeposit
  let amountFeiToTransfer := min (env.feiBalanceOf world env.this) amountFeiOut
  let amountFeiToMint ← checkedSub amountFeiOut amountFeiToTransfer
  let world ← (if amountFeiToTransfer ≠ 0 then
    env.feiTransfer world receiver amountFeiToTransfer else .ok world)
  let world ← (if amountFeiToMint ≠ 0 then
    env.rateLimitedMint world s.rateLimitedMinter receiver amountFeiToMint else .ok world)
  let rateLimited ← s.toRateLimited._replenishBuffer s.timestamp amountFeiOut
  return { s with
    toRateLimited := rateLimited
    world
    events := s.events ++ [.Mint receiver amountIn amountFeiOut] }

def mint (s : NonCustodialPSMState W) (msgSender receiver : Address)
    (amountIn minFeiAmountOut : UInt256) : Except Revert (NonCustodialPSMState W) :=
  nonReentrant (fun s => _mint env s msgSender receiver amountIn.toNat minFeiAmountOut.toNat) s

def _setGlobalRateLimitedMinter (s : NonCustodialPSMState W) (newMinter : Address) :
    Except Revert (NonCustodialPSMState W) := do
  require (newMinter ≠ 0) "PegStabilityModule: Invalid new GlobalRateLimitedMinter"
  return { s with rateLimitedMinter := newMinter }

def _setMintFee (s : NonCustodialPSMState W) (newMintFeeBasisPoints : Nat) :
    Except Revert (NonCustodialPSMState W) := do
  require (newMintFeeBasisPoints ≤ MAX_FEE) "PegStabilityModule: Mint fee exceeds max fee"
  return { s with mintFeeBasisPoints := newMintFeeBasisPoints }

def _setRedeemFee (s : NonCustodialPSMState W) (newRedeemFeeBasisPoints : Nat) :
    Except Revert (NonCustodialPSMState W) := do
  require (newRedeemFeeBasisPoints ≤ MAX_FEE) "PegStabilityModule: Redeem fee exceeds max fee"
  return { s with redeemFeeBasisPoints := newRedeemFeeBasisPoints }

def _setPCVDeposit (s : NonCustodialPSMState W) (newPCVDeposit : Address) :
    Except Revert (NonCustodialPSMState W) := do
  require (newPCVDeposit ≠ 0) "PegStabilityModule: Invalid new PCVDeposit"
  return { s with pcvDeposit := newPCVDeposit }

structure OracleParams : Type where
  oracleAddress : Address
  backupOracle : Address
  decimalsNormalizer : BitVec 256

structure RateLimitedParams : Type where
  maxRateLimitPerSecond : UInt256
  rateLimitPerSecond : UInt256
  bufferCap : UInt256

structure PSMParams : Type where
  mintFeeBasisPoints : UInt256
  redeemFeeBasisPoints : UInt256
  pcvDeposit : Address
  rateLimitedMinter : Address

def construct (world : W) (timestamp : Nat) (params : OracleParams)
    (rateLimitedParams : RateLimitedParams) (psmParams : PSMParams) :
    Except Revert (NonCustodialPSMState W) := do
  let oracleRef ← OracleRef.construct params.oracleAddress params.backupOracle
    params.decimalsNormalizer false
  let rateLimited ← RateLimited.construct timestamp rateLimitedParams.maxRateLimitPerSecond
    rateLimitedParams.rateLimitPerSecond rateLimitedParams.bufferCap false
  let s : NonCustodialPSMState W :=
    { toRateLimited := rateLimited
      toOracleRef := oracleRef
      mintFeeBasisPoints := 0
      redeemFeeBasisPoints := 0
      pcvDeposit := 0
      rateLimitedMinter := 0
      redeemPaused := false
      mintPaused := false
      CONTRACT_ADMIN_ROLE := env.access.roles.GOVERNOR
      _paused := false
      _status := _NOT_ENTERED
      world
      timestamp
      events := [] }
  let s ← _setGlobalRateLimitedMinter s psmParams.rateLimitedMinter
  let s ← _setMintFee s psmParams.mintFeeBasisPoints.toNat
  let s ← _setRedeemFee s psmParams.redeemFeeBasisPoints.toNat
  _setPCVDeposit s psmParams.pcvDeposit

/-- A call of an administrator. -/
inductive AdminCall : Type where
  | pauseRedeem
  | unpauseRedeem
  | pauseMint
  | unpauseMint
  | setMintFee (newMintFeeBasisPoints : UInt256)
  | setRedeemFee (newRedeemFeeBasisPoints : UInt256)
  | setPCVDeposit (newTarget : Address)
  | setGlobalRateLimitedMinter (newMinter : Address)
  | withdrawERC20 (token receiver : Address) (amount : UInt256)
  | setOracle (newOracle : Address)
  | setDoInvert (newDoInvert : Bool)
  | setDecimalsNormalizer (newDecimalsNormalizer : BitVec 256)
  | setBackupOracle (newBackupOracle : Address)
  | setContractAdminRole (newContractAdminRole : Bytes32)
  | pause
  | unpause
  deriving DecidableEq, Repr

def admin (s : NonCustodialPSMState W) (msgSender : Address) :
    AdminCall → Except Revert (NonCustodialPSMState W)
  | .pauseRedeem => do
      onlyGuardianOrGovernor env.core msgSender
      return { s with redeemPaused := true }
  | .unpauseRedeem => do
      onlyGuardianOrGovernor env.core msgSender
      return { s with redeemPaused := false }
  | .pauseMint => do
      onlyGuardianOrGovernor env.core msgSender
      return { s with mintPaused := true }
  | .unpauseMint => do
      onlyGuardianOrGovernor env.core msgSender
      return { s with mintPaused := false }
  | .setMintFee newMintFeeBasisPoints => do
      hasAnyOfTwoRoles env.access env.access.roles.GOVERNOR env.access.roles.PARAMETER_ADMIN
        msgSender
      _setMintFee s newMintFeeBasisPoints.toNat
  | .setRedeemFee newRedeemFeeBasisPoints => do
      hasAnyOfTwoRoles env.access env.access.roles.GOVERNOR env.access.roles.PARAMETER_ADMIN
        msgSender
      _setRedeemFee s newRedeemFeeBasisPoints.toNat
  | .setPCVDeposit newTarget => do
      hasAnyOfTwoRoles env.access env.access.roles.GOVERNOR env.access.roles.PSM_ADMIN_ROLE
        msgSender
      _setPCVDeposit s newTarget
  | .setGlobalRateLimitedMinter newMinter => do
      hasAnyOfTwoRoles env.access env.access.roles.GOVERNOR env.access.roles.PSM_ADMIN_ROLE
        msgSender
      _setGlobalRateLimitedMinter s newMinter
  | .withdrawERC20 token receiver amount => do
      onlyPCVController env.core msgSender
      let world ← env.tokenTransfer s.world token receiver amount.toNat
      return { s with world }
  | .setOracle newOracle => do
      let oracleRef ← s.toOracleRef.setOracle env.core msgSender newOracle
      return { s with toOracleRef := oracleRef }
  | .setDoInvert newDoInvert => do
      let oracleRef ← s.toOracleRef.setDoInvert env.core msgSender newDoInvert
      return { s with toOracleRef := oracleRef }
  | .setDecimalsNormalizer newDecimalsNormalizer => do
      let oracleRef ← s.toOracleRef.setDecimalsNormalizer env.core msgSender newDecimalsNormalizer
      return { s with toOracleRef := oracleRef }
  | .setBackupOracle newBackupOracle => do
      let oracleRef ← s.toOracleRef.setBackupOracle env.core env.access s.CONTRACT_ADMIN_ROLE
        msgSender newBackupOracle
      return { s with toOracleRef := oracleRef }
  | .setContractAdminRole newContractAdminRole => do
      onlyGovernor env.core msgSender
      return { s with CONTRACT_ADMIN_ROLE := newContractAdminRole }
  | .pause => pause env.core s msgSender
  | .unpause => unpause env.core s msgSender

/-! ## Transactions -/

/-- `outside` is whatever other contracts do among themselves. -/
inductive Action (W : Type) : Type where
  | redeem (sender receiver : Address) (amountFeiIn minAmountOut : UInt256)
  | mint (sender receiver : Address) (amountIn minFeiAmountOut : UInt256)
  | setRateLimitPerSecond (sender : Address) (newRateLimitPerSecond : UInt256)
  | setBufferCap (sender : Address) (newBufferCap : UInt256)
  | admin (sender : Address) (c : AdminCall)
  | outside (world : W)
  | elapse (seconds : Nat)

def step (s : NonCustodialPSMState W) : Action W → Except Revert (NonCustodialPSMState W)
  | .redeem sender receiver amountFeiIn minAmountOut =>
      redeem env s sender receiver amountFeiIn minAmountOut
  | .mint sender receiver amountIn minFeiAmountOut =>
      mint env s sender receiver amountIn minFeiAmountOut
  | .setRateLimitPerSecond sender newRateLimitPerSecond => do
      let rateLimited ← s.toRateLimited.setRateLimitPerSecond env.core env.access s.timestamp
        s.CONTRACT_ADMIN_ROLE sender newRateLimitPerSecond
      return { s with toRateLimited := rateLimited }
  | .setBufferCap sender newBufferCap => do
      let rateLimited ← s.toRateLimited.setBufferCap env.core env.access s.timestamp
        s.CONTRACT_ADMIN_ROLE sender newBufferCap
      return { s with toRateLimited := rateLimited }
  | .admin sender c => admin env s sender c
  | .outside world => .ok { s with world }
  | .elapse seconds => .ok { s with timestamp := s.timestamp + seconds }

/-! ## What the entry points do -/

variable {env} {s s' : NonCustodialPSMState W} {sender receiver : Address}
  {amountFeiIn minAmountOut amountIn minFeiAmountOut : UInt256}

/-- A redemption takes the FEI in and depletes the buffer by as much. -/
structure Redeems (env : NonCustodialPSMEnv W) (s s' : NonCustodialPSMState W)
    (sender receiver : Address) (amountFeiIn : Nat) : Prop where
  depleted : ∃ used,
    RateLimited.Depleted s.toRateLimited s'.toRateLimited s.timestamp amountFeiIn used
  taken : ∃ w w', env.feiTransferFrom w sender env.this amountFeiIn = .ok w'
  emitted : ∃ amountOut, s'.events = s.events ++ [.Redeem receiver amountFeiIn amountOut]
  timestamp : s'.timestamp = s.timestamp

theorem redeems_of_redeem
    (succeeds : redeem env s sender receiver amountFeiIn minAmountOut = .ok s') :
    Redeems env s s' sender receiver amountFeiIn.toNat := by
  obtain ⟨_, m, body, guarded⟩ := nonReentrant_inversion.mp succeeds
  simp only [_redeem, updateOracle, bind_eq_ok_iff, pure_eq_ok_iff] at body
  obtain ⟨_, _, _, _, ⟨r, used⟩, depleted, _, ⟨world, _, updated⟩, amountOut, _, _, _, w, taken,
    w', _, same⟩ := body
  subst updated
  subst same
  subst guarded
  exact ⟨⟨used, RateLimited.depleted_of_depleteBuffer depleted⟩, ⟨_, _, taken⟩, ⟨_, rfl⟩, rfl⟩

/-- A mint pays the FEI out, part of it from what the module holds and the rest newly
minted, and replenishes the buffer by as much. -/
structure Mints (env : NonCustodialPSMEnv W) (s s' : NonCustodialPSMState W)
    (receiver : Address) (amountIn amountFeiOut : Nat) : Prop where
  replenished :
    RateLimited.Replenished s.toRateLimited s'.toRateLimited s.timestamp amountFeiOut
  paid : ∃ transferred minted, transferred + minted = amountFeiOut ∧
    (transferred ≠ 0 → ∃ w w', env.feiTransfer w receiver transferred = .ok w') ∧
    (minted ≠ 0 → ∃ w w', env.rateLimitedMint w s.rateLimitedMinter receiver minted = .ok w')
  emitted : s'.events = s.events ++ [.Mint receiver amountIn amountFeiOut]
  timestamp : s'.timestamp = s.timestamp

theorem mints_of_mint (succeeds : mint env s sender receiver amountIn minFeiAmountOut = .ok s') :
    ∃ amountFeiOut, Mints env s s' receiver amountIn.toNat amountFeiOut := by
  obtain ⟨_, m, body, guarded⟩ := nonReentrant_inversion.mp succeeds
  simp only [_mint, updateOracle, bind_eq_ok_iff, pure_eq_ok_iff, checkedSub_eq_ok_iff] at body
  obtain ⟨_, _, _, _, _, ⟨world, _, updated⟩, amountFeiOut, _, _, _, w, _, deposited, _, minted,
    ⟨covered, rest⟩, sent, transfer, created, creation, r, replenished, same⟩ := body
  subst updated
  subst same
  subst guarded
  refine ⟨amountFeiOut, RateLimited.replenished_of_replenishBuffer replenished,
    ⟨min (env.feiBalanceOf deposited env.this) amountFeiOut, minted, by omega, ?_, ?_⟩, rfl, rfl⟩
  · intro some
    rw [if_pos some] at transfer
    exact ⟨_, _, transfer⟩
  · intro some
    rw [if_pos some] at creation
    exact ⟨_, _, creation⟩

/-- The other calls of administrators leave the buffer and the events alone. -/
theorem admin_quiet {c : AdminCall} (succeeds : admin env s sender c = .ok s') :
    s'.toRateLimited = s.toRateLimited ∧ s'.events = s.events ∧ s'.timestamp = s.timestamp := by
  cases c with
  | pause =>
      have same := pause_eq succeeds
      subst same
      exact ⟨rfl, rfl, rfl⟩
  | unpause =>
      have same := unpause_eq succeeds
      subst same
      exact ⟨rfl, rfl, rfl⟩
  | pauseRedeem | unpauseRedeem | pauseMint | unpauseMint | setOracle newOracle
  | setDoInvert newDoInvert | setDecimalsNormalizer newDecimalsNormalizer
  | setBackupOracle newBackupOracle | setContractAdminRole newContractAdminRole =>
      obtain ⟨_, _, same⟩ := bind_eq_ok_iff.mp succeeds
      cases same
      exact ⟨rfl, rfl, rfl⟩
  -- these check something besides the role of the sender
  | setMintFee newFee | setRedeemFee newFee | setPCVDeposit newTarget
  | setGlobalRateLimitedMinter newMinter | withdrawERC20 token receiver amount =>
      obtain ⟨_, _, checks⟩ := bind_eq_ok_iff.mp succeeds
      obtain ⟨_, _, same⟩ := bind_eq_ok_iff.mp checks
      cases same
      exact ⟨rfl, rfl, rfl⟩

/-- What a transaction can do to the buffer. -/
inductive Transition (env : NonCustodialPSMEnv W) (s s' : NonCustodialPSMState W) : Prop where
  | redeems (sender receiver : Address) (amount : Nat)
    (redeems : Redeems env s s' sender receiver amount)
  | mints (receiver : Address) (amountIn amountFeiOut : Nat)
    (mints : Mints env s s' receiver amountIn amountFeiOut)
  | relimited (cap rate : Nat)
    (relimited : RateLimited.Relimited s.toRateLimited s'.toRateLimited s.timestamp cap rate)
    (events : s'.events = s.events) (timestamp : s'.timestamp = s.timestamp)
  | quiet (buffer : s'.toRateLimited = s.toRateLimited) (events : s'.events = s.events)
    (later : s.timestamp ≤ s'.timestamp)

theorem step_transition {a : Action W} (succeeds : step env s a = .ok s') :
    Transition env s s' := by
  cases a with
  | redeem sender receiver amountFeiIn minAmountOut =>
      exact .redeems sender receiver _ (redeems_of_redeem succeeds)
  | mint sender receiver amountIn minFeiAmountOut =>
      obtain ⟨amountFeiOut, mints⟩ := mints_of_mint succeeds
      exact .mints receiver _ amountFeiOut mints
  | setRateLimitPerSecond sender newRateLimitPerSecond =>
      obtain ⟨r, called, same⟩ := bind_eq_ok_iff.mp succeeds
      cases same
      exact .relimited _ _ (RateLimited.setRateLimitPerSecond_relimited called) rfl rfl
  | setBufferCap sender newBufferCap =>
      obtain ⟨r, called, same⟩ := bind_eq_ok_iff.mp succeeds
      cases same
      exact .relimited _ _ (RateLimited.setBufferCap_relimited called) rfl rfl
  | admin sender c =>
      obtain ⟨buffer, events, time⟩ := admin_quiet succeeds
      exact .quiet buffer events (Nat.le_of_eq time.symm)
  | outside world =>
      cases succeeds
      exact .quiet rfl rfl (Nat.le_refl _)
  | elapse seconds =>
      cases succeeds
      exact .quiet rfl rfl (Nat.le_add_right _ _)

/-- No transaction makes the module act partially. -/
theorem Transition.doPartialAction (transition : Transition env s s') :
    s'.doPartialAction = s.doPartialAction := by
  cases transition with
  | redeems sender receiver amount redeems =>
      obtain ⟨used, depleted⟩ := redeems.depleted
      exact depleted.doPartialAction
  | mints receiver amountIn amountFeiOut mints => exact mints.replenished.doPartialAction
  | relimited cap rate relimited events timestamp => exact relimited.doPartialAction
  | quiet buffer events later => rw [buffer]

/-! ## Windows -/

def NonCustodialPSMEvent.redeemed : NonCustodialPSMEvent → Nat
  | .Redeem _ amountFeiIn _ => amountFeiIn
  | .Mint _ _ _ => 0

def NonCustodialPSMEvent.paidOut : NonCustodialPSMEvent → Nat
  | .Redeem _ _ _ => 0
  | .Mint _ _ amountFeiOut => amountFeiOut

/-- All FEI redeemed so far. -/
def feiRedeemed (s : NonCustodialPSMState W) : Nat :=
  (s.events.map NonCustodialPSMEvent.redeemed).sum

/-- All FEI that mints have paid out so far. -/
def feiPaidOut (s : NonCustodialPSMState W) : Nat :=
  (s.events.map NonCustodialPSMEvent.paidOut).sum

theorem Redeems.feiRedeemed {amount : Nat} (redeems : Redeems env s s' sender receiver amount) :
    feiRedeemed s' = feiRedeemed s + amount ∧ feiPaidOut s' = feiPaidOut s := by
  obtain ⟨amountOut, emitted⟩ := redeems.emitted
  simp [NonCustodialPSM.feiRedeemed, feiPaidOut, emitted, NonCustodialPSMEvent.redeemed,
    NonCustodialPSMEvent.paidOut]

theorem Mints.feiPaidOut {amountIn amountFeiOut : Nat}
    (mints : Mints env s s' receiver amountIn amountFeiOut) :
    feiRedeemed s' = feiRedeemed s ∧ feiPaidOut s' = feiPaidOut s + amountFeiOut := by
  simp [NonCustodialPSM.feiPaidOut, feiRedeemed, mints.emitted, NonCustodialPSMEvent.redeemed,
    NonCustodialPSMEvent.paidOut]

/-- The limits of the buffer are the same in both states. -/
def SameLimits (s s' : NonCustodialPSMState W) : Prop :=
  s'.bufferCap = s.bufferCap ∧ s'.rateLimitPerSecond = s.rateLimitPerSecond

instance : Decidable (SameLimits s s') := inferInstanceAs (Decidable (_ ∧ _))

/-- A window in which no transaction changes the limits. -/
def Steady (env : NonCustodialPSMEnv W) (s : NonCustodialPSMState W) (window : List (Action W)) :
    Prop :=
  Along (step env) (fun s a => SameLimits s (commit (step env) s a)) s window

/-- What happened to the buffer between two states: redemptions drew on it, mints and
time refilled it. -/
structure WindowFlow (s s' : NonCustodialPSMState W) : Prop where
  redeemed_le : feiRedeemed s ≤ feiRedeemed s'
  paidOut_le : feiPaidOut s ≤ feiPaidOut s'
  flow : TokenBucket.Flow s.bucket s'.bucket s.timestamp s'.timestamp
    (feiRedeemed s' - feiRedeemed s) (feiPaidOut s' - feiPaidOut s)

theorem WindowFlow.refl (s : NonCustodialPSMState W) : WindowFlow s s := by
  refine ⟨Nat.le_refl _, Nat.le_refl _, ?_⟩
  rw [Nat.sub_self, Nat.sub_self]
  exact .refl _ _

theorem WindowFlow.trans {s'' : NonCustodialPSMState W} (first : WindowFlow s s')
    (second : WindowFlow s' s'') : WindowFlow s s'' := by
  refine ⟨Nat.le_trans first.redeemed_le second.redeemed_le,
    Nat.le_trans first.paidOut_le second.paidOut_le, ?_⟩
  have flow := first.flow.trans second.flow
  have redeemed := Nat.sub_add_sub_cancel second.redeemed_le first.redeemed_le
  have paidOut := Nat.sub_add_sub_cancel second.paidOut_le first.paidOut_le
  rwa [Nat.add_comm (feiRedeemed s' - _), Nat.add_comm (feiPaidOut s' - _), redeemed, paidOut]
    at flow

/-- A flow without redemptions or mints. -/
theorem WindowFlow.of_quiet (events : s'.events = s.events)
    (flow : TokenBucket.Flow s.bucket s'.bucket s.timestamp s'.timestamp 0 0) :
    WindowFlow s s' := by
  have redeemed : feiRedeemed s' = feiRedeemed s := by rw [feiRedeemed, events, feiRedeemed]
  have paidOut : feiPaidOut s' = feiPaidOut s := by rw [feiPaidOut, events, feiPaidOut]
  refine ⟨Nat.le_of_eq redeemed.symm, Nat.le_of_eq paidOut.symm, ?_⟩
  rw [redeemed, paidOut, Nat.sub_self, Nat.sub_self]
  exact flow

theorem Redeems.windowFlow {amount : Nat} (redeems : Redeems env s s' sender receiver amount)
    (whole : s.doPartialAction = false) : WindowFlow s s' := by
  obtain ⟨redeemed, paidOut⟩ := redeems.feiRedeemed
  obtain ⟨used, depleted⟩ := redeems.depleted
  have flow := depleted.flow
  rw [depleted.whole whole] at flow
  refine ⟨by omega, by omega, ?_⟩
  rw [redeemed, paidOut, redeems.timestamp, Nat.add_sub_cancel_left, Nat.sub_self]
  exact flow

theorem Mints.windowFlow {amountIn amountFeiOut : Nat}
    (mints : Mints env s s' receiver amountIn amountFeiOut) : WindowFlow s s' := by
  obtain ⟨redeemed, paidOut⟩ := mints.feiPaidOut
  refine ⟨by omega, by omega, ?_⟩
  rw [redeemed, paidOut, mints.timestamp, Nat.add_sub_cancel_left, Nat.sub_self]
  exact mints.replenished.flow

theorem Transition.windowFlow (transition : Transition env s s')
    (whole : s.doPartialAction = false) (limits : SameLimits s s') : WindowFlow s s' := by
  cases transition with
  | redeems sender receiver amount redeems => exact redeems.windowFlow whole
  | mints receiver amountIn amountFeiOut mints => exact mints.windowFlow
  | relimited cap rate relimited events timestamp =>
      have sameCap := (congrArg TokenBucket.cap relimited.bucket).symm.trans limits.1
      have sameRate := (congrArg TokenBucket.rate relimited.bucket).symm.trans limits.2
      apply WindowFlow.of_quiet events
      rw [timestamp]
      exact relimited.flow sameCap sameRate
  | quiet buffer events later =>
      apply WindowFlow.of_quiet events
      rw [buffer]
      exact .wait _ later

/-- Over a steady window, redemptions are drawn from the buffer and mints poured into it. -/
theorem window_flow (whole : s.doPartialAction = false) {window : List (Action W)}
    (steady : Steady env s window) : WindowFlow s (run (step env) s window) := by
  apply (run_relation (I := fun s => s.doPartialAction = false) (R := WindowFlow)
    (P := fun s a => SameLimits s (commit (step env) s a)) WindowFlow.refl _ _ whole steady).2
  · intro s t u first second
    exact first.trans second
  · intro s a s' whole limits succeeds
    have transition := step_transition succeeds
    rw [commit_of_ok succeeds] at limits
    exact ⟨transition.doPartialAction.trans whole, transition.windowFlow whole limits⟩

/-! ## The throttle -/

theorem whole_of_construct {world : W} {timestamp : Nat} {params : OracleParams}
    {rateLimitedParams : RateLimitedParams} {psmParams : PSMParams}
    {s₀ : NonCustodialPSMState W}
    (deploys : construct env world timestamp params rateLimitedParams psmParams = .ok s₀) :
    s₀.doPartialAction = false := by
  simp only [construct, RateLimited.construct, _setGlobalRateLimitedMinter, _setMintFee,
    _setRedeemFee, _setPCVDeposit, bind_eq_ok_iff, pure_eq_ok_iff] at deploys
  obtain ⟨_, _, r, ⟨_, _, _, _, built⟩, _, ⟨_, _, minter⟩, _, ⟨_, _, mintFee⟩, _,
    ⟨_, _, redeemFee⟩, _, _, same⟩ := deploys
  subst built
  subst minter
  subst mintFee
  subst redeemFee
  subst same
  rfl

/-- **The throttle.** From deployment on, the buffer never exceeds its cap, and over every
window under unchanged limits the FEI redeemed is at most the buffer at its start, what
time refills and what mints pay out meanwhile. -/
theorem redemptions_throttled {world : W} {timestamp : Nat} {params : OracleParams}
    {rateLimitedParams : RateLimitedParams} {psmParams : PSMParams}
    {s₀ : NonCustodialPSMState W}
    (deploys : construct env world timestamp params rateLimitedParams psmParams = .ok s₀)
    {history : List (Action W)} (reached : s = run (step env) s₀ history) :
    (∀ buffer, s.buffer s.timestamp = .ok buffer → buffer ≤ s.bufferCap) ∧
    ∀ window s', Steady env s window → s' = run (step env) s window →
      (∀ buffer, s.buffer s.timestamp = .ok buffer → feiRedeemed s' - feiRedeemed s ≤
        buffer + s.rateLimitPerSecond * (s'.timestamp - s.timestamp) +
          (feiPaidOut s' - feiPaidOut s)) ∧
      feiRedeemed s' - feiRedeemed s ≤
        s.bufferCap + s.rateLimitPerSecond * (s'.timestamp - s.timestamp) +
          (feiPaidOut s' - feiPaidOut s) := by
  have whole : s.doPartialAction = false := by
    rw [reached]
    apply run_invariant (I := fun s : NonCustodialPSMState W => s.doPartialAction = false)
      (A := fun _ => True)
    · intro s a s' whole _ succeeds
      exact (step_transition succeeds).doPartialAction.trans whole
    · exact whole_of_construct deploys
    · exact fun _ _ => trivial
  constructor
  · intro buffer gets
    exact RateLimited.buffer_le_cap gets
  · intro window s' steady ends
    have flow := (window_flow whole steady).flow
    rw [← ends] at flow
    refine ⟨?_, flow.drawn_le_cap⟩
    intro buffer gets
    obtain ⟨_, level⟩ := RateLimited.buffer_eq_ok_iff.mp gets
    rw [← level]
    exact flow.drawn_le

/-! ## The module among the other contracts -/

/-- The minter, with FEI, and the other tokens. -/
structure World : Type where
  minter : GlobalRateLimitedMinterState
  ledger : Ledger

/-- The module at `this`, over the minter and FEI as they are, a deposit that holds its own
tokens, and an oracle that gives `answer`. -/
def connected (minter : GlobalRateLimitedMinterEnv) (this underlyingToken : Address)
    (answer : Decimal.D256 × Bool) : NonCustodialPSMEnv World where
  core := minter.fei.core
  access := minter.access
  this := this
  update w _ := .ok w
  read _ _ := .ok answer
  feiBalanceOf w account := Fei.balanceOf w.minter.fei account
  feiTransfer w receiver amount := do
    let fei ← Fei.transfer minter.fei w.minter.fei this receiver amount
    return { w with minter := { w.minter with fei } }
  feiTransferFrom w src dst amount := do
    let fei ← Fei.transferFrom minter.fei w.minter.fei this src dst amount
    return { w with minter := { w.minter with fei } }
  underlyingTransferFrom w src dst amount := do
    let ledger ← w.ledger.safeTransferFrom this underlyingToken src dst amount
    return { w with ledger }
  tokenTransfer w token receiver amount := do
    let ledger ← w.ledger.safeTransfer this token receiver amount
    return { w with ledger }
  deposit w _ := .ok w
  withdraw w pcvDeposit receiver amount := do
    let ledger ← w.ledger.safeTransfer pcvDeposit underlyingToken receiver amount
    return { w with ledger }
  rateLimitedMint w rateLimitedMinter receiver amount := do
    require (rateLimitedMinter = minter.this) "no such minter"
    let m ← GlobalRateLimitedMinter.mint minter w.minter this receiver amount
    return { w with minter := m }
  individualBuffer w _ account :=
    BitVec.toNat <$> w.minter.individualBuffer w.minter.timestamp account

end NonCustodialPSM

namespace NonCustodialPSM.Sample

/-- The module is `0xBB`, and account 1 governs. -/
def env : NonCustodialPSMEnv World :=
  connected GlobalRateLimitedMinter.Sample.env 0xBB 20 (⟨10 ^ 18⟩, true)

/-- Account 5 has 500 FEI, account 6 has 1000 of the underlying token, and the deposit at
30 has 1000 more; the module may take both and mint 400. -/
def world : World where
  minter :=
    { GlobalRateLimitedMinter.Sample.start with
      rateLimitPerAddress := fun a => if a = 0xBB then ⟨1000, 400, 400, 5⟩ else .empty
      fei :=
        { GlobalRateLimitedMinter.Sample.fei with
          erc20 :=
            { balanceOf := fun a => if a = 5 then 500 else 0
              allowance := fun _ spender => if spender = 0xBB then 500 else 0
              totalSupply := 500
              unlimited := true } } }
  ledger :=
    { erc20 := fun _ =>
        { balanceOf := fun a => if a = 6 ∨ a = 30 then 1000 else 0
          allowance := fun _ spender => if spender = 0xBB then 1000 else 0
          totalSupply := 2000
          unlimited := false }
      transfers := [] }

/-- A buffer of 300 that refills at 2 a second, and no fees. -/
def start : NonCustodialPSMState World where
  MAX_RATE_LIMIT_PER_SECOND := 100
  rateLimitPerSecond := 2
  lastBufferUsedTime := 1000
  bufferCap := 300
  doPartialAction := false
  bufferStored := 300
  oracle := 40
  backupOracle := 0
  decimalsNormalizer := 0
  doInvert := false
  mintFeeBasisPoints := 0
  redeemFeeBasisPoints := 0
  pcvDeposit := 30
  rateLimitedMinter := 0xAA
  redeemPaused := false
  mintPaused := false
  CONTRACT_ADMIN_ROLE := 1
  _paused := false
  _status := 1
  world := world
  timestamp := 1000
  events := []

theorem deploys :
    construct env world 1000 ⟨40, 0, 0⟩ ⟨100, 2, 300⟩ ⟨0, 0, 30, 0xAA⟩ = .ok start := rfl

def history : List (Action World) := [.redeem 5 5 250 0, .elapse 5]

/-- Two redemptions use up what was left, what time refilled and what a mint refilled; the
next one reverts. -/
def window : List (Action World) :=
  [.redeem 5 5 60 60, .elapse 10, .mint 6 6 50 50, .redeem 5 5 70 70, .redeem 5 5 10 0]

def reached : NonCustodialPSMState World := run (step env) start history

def last : NonCustodialPSMState World := run (step env) reached window

theorem reached_eq : reached = run (step env) start history := rfl

theorem last_eq : last = run (step env) reached window := rfl

theorem steady : Steady env reached window := by
  unfold Steady
  decide +kernel

end NonCustodialPSM.Sample

namespace NonCustodialPSM

/-- The bound is met with equality. -/
theorem redemptions_throttled_sample :
    feiRedeemed Sample.last - feiRedeemed Sample.reached = 130 ∧
      feiRedeemed Sample.last - feiRedeemed Sample.reached ≤ 60 + 2 * 10 + 50 := by
  obtain ⟨_, throttled⟩ := redemptions_throttled Sample.deploys Sample.reached_eq
  exact ⟨by decide +kernel,
    (throttled Sample.window _ Sample.steady Sample.last_eq).1 60 (by decide +kernel)⟩

end NonCustodialPSM

end FeiProtocol
