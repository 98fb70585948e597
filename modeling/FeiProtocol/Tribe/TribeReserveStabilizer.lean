import FeiProtocol.Fei.Fei
import FeiProtocol.Refs.OracleRef
import FeiProtocol.Tribe.TribeMinter
import FeiProtocol.Utils.Timed

/-!
# `TribeReserveStabilizer`

Sells new TRIBE for FEI while the protocol is undercollateralized. Anybody can start a countdown
when the oracle says so and reset it when it no longer does, and nothing is sold before the
countdown has run for its whole duration.

* `clock_of_step`: what a transaction does to the countdown, whose start time is also its flag.
* `exchange_delayed`: an exchange was preceded by a start, a whole duration ago, with no reset
  since.

FEI and the minter of TRIBE, which keeps the time, are their own models. The oracles are other
contracts: `readings` is what they answer, and may change between any two transactions.
-/

namespace FeiProtocol

open Evm

/-- What `read()` of each oracle answers. -/
abbrev OracleReadings : Type := Address → Except Revert (Decimal.D256 × Bool)

inductive StabilizerEvent : Type where
  | FeiExchange (user : Address) (feiAmountIn amountOut : Nat)
  | UsdPerFeiRateUpdate (oldUsdPerFeiBasisPoints newUsdPerFeiBasisPoints : Nat)
  | CollateralizationOracleUpdate (oldOracle newOracle : Address)
  | CollateralizationThresholdUpdate (oldThreshold newThreshold : Nat)
  | timed (e : TimedEvent)
  deriving DecidableEq, Repr

structure TribeReserveStabilizerState : Type extends OracleRef where
  timed : Timed
  usdPerFeiBasisPoints : Nat
  collateralizationOracle : Address
  _collateralizationThreshold : Decimal.D256
  CONTRACT_ADMIN_ROLE : Bytes32
  _paused : Bool
  readings : OracleReadings
  fei : FeiState
  tribeMinter : TribeMinterState
  /-- oldest first -/
  events : List StabilizerEvent

instance : Pausable TribeReserveStabilizerState where
  paused s := s._paused
  withPaused s b := { s with _paused := b }

structure TribeReserveStabilizerEnv : Type where
  core : Core
  access : AccessControl
  fei : FeiEnv
  tribeMinter : TribeMinterEnv
  /-- `IOracle(oracle).update()` -/
  update : OracleReadings → Address → Except Revert OracleReadings
  this : Address

/-- `block.timestamp` -/
def TribeReserveStabilizerState.timestamp (s : TribeReserveStabilizerState) : Nat :=
  s.tribeMinter.tribe.timestamp

namespace ReserveStabilizer

open CoreRef Constants Decimal

variable (env : TribeReserveStabilizerEnv) (s : TribeReserveStabilizerState)

/-! ## The stabilizer that it extends -/

def updateOracle : Except Revert TribeReserveStabilizerState := do
  let readings ← env.update s.readings s.oracle
  return { s with readings }

/-- `_burnFeiHeld` of `CoreRef` -/
def _burnFeiHeld : Except Revert TribeReserveStabilizerState := do
  let fei ← Fei.burn env.fei s.fei env.this (Fei.balanceOf s.fei env.this)
  return { s with fei }

def getAmountOut (amountFeiIn : Nat) : Except Revert Nat := do
  let scaled ← checkedMul amountFeiIn s.usdPerFeiBasisPoints
  let adjustedAmountIn ← checkedDiv scaled BASIS_POINTS_GRANULARITY
  let price ← s.toOracleRef.readOracle s.readings
  let amountOut ← price.mulUint adjustedAmountIn
  return amountOut.asUint256

/-- The override of `_transfer`: the minter mints what is sold. -/
def _transfer (dst : Address) (amount : Nat) : Except Revert TribeReserveStabilizerState := do
  let tribeMinter ← TribeMinter.mint env.tribeMinter s.tribeMinter env.this dst amount
  return { s with tribeMinter }

def exchangeFei (msgSender : Address) (feiAmount : Nat) :
    Except Revert TribeReserveStabilizerState := do
  whenNotPaused s
  let s ← updateOracle env s
  let fei ← Fei.transferFrom env.fei s.fei env.this msgSender env.this feiAmount
  let s ← _burnFeiHeld env { s with fei }
  let amountOut ← getAmountOut s feiAmount
  let s ← _transfer env s msgSender amountOut
  return { s with events := s.events ++ [.FeiExchange msgSender feiAmount amountOut] }

def setUsdPerFeiRate (msgSender : Address) (newUsdPerFeiBasisPoints : Nat) :
    Except Revert TribeReserveStabilizerState := do
  onlyGovernorOrAdmin env.core env.access s.CONTRACT_ADMIN_ROLE msgSender
  require (newUsdPerFeiBasisPoints ≤ BASIS_POINTS_GRANULARITY)
    "ReserveStabilizer: Exceeds bp granularity"
  return { s with
    usdPerFeiBasisPoints := newUsdPerFeiBasisPoints
    events := s.events ++ [.UsdPerFeiRateUpdate s.usdPerFeiBasisPoints newUsdPerFeiBasisPoints] }

end ReserveStabilizer

namespace TribeReserveStabilizer

open CoreRef Constants Decimal ReserveStabilizer

variable (env : TribeReserveStabilizerEnv) (s : TribeReserveStabilizerState)

/-! ## The contract -/

def construct (readings : OracleReadings) (fei : FeiState) (tribeMinter : TribeMinterState)
    (_tribeOracle _backupOracle : Address) (_usdPerFeiBasisPoints : UInt256)
    (_collateralizationOracle : Address)
    (_collateralizationThresholdBasisPoints _osmDuration : UInt256) :
    Except Revert TribeReserveStabilizerState := do
  let oracleRef ← OracleRef.construct _tribeOracle _backupOracle 0 true
  require (_usdPerFeiBasisPoints.toNat ≤ BASIS_POINTS_GRANULARITY)
    "ReserveStabilizer: Exceeds bp granularity"
  let (timed, e) ← Timed.construct _osmDuration.toNat
  let threshold ← Decimal.ratio _collateralizationThresholdBasisPoints.toNat
    BASIS_POINTS_GRANULARITY
  return { toOracleRef := oracleRef
           timed
           usdPerFeiBasisPoints := _usdPerFeiBasisPoints.toNat
           collateralizationOracle := _collateralizationOracle
           _collateralizationThreshold := threshold
           CONTRACT_ADMIN_ROLE := env.access.roles.GOVERNOR
           _paused := false
           readings
           fei
           tribeMinter
           events := [.UsdPerFeiRateUpdate 0 _usdPerFeiBasisPoints.toNat, .timed e,
             .CollateralizationOracleUpdate 0 _collateralizationOracle,
             .CollateralizationThresholdUpdate 0
               _collateralizationThresholdBasisPoints.toNat] }

def isCollateralizationBelowThreshold : Except Revert Bool := do
  let (ratio, valid) ← s.readings s.collateralizationOracle
  return valid && ratio.lessThanOrEqualTo s._collateralizationThreshold

def exchangeFei (msgSender : Address) (feiAmount : Nat) :
    Except Revert TribeReserveStabilizerState := do
  s.timed.afterTime s.timestamp
  let below ← isCollateralizationBelowThreshold s
  require (below = true) "TribeReserveStabilizer: Collateralization ratio above threshold"
  ReserveStabilizer.exchangeFei env s msgSender feiAmount

/-- Held TRIBE is only released by `exchangeFei`. -/
def withdraw : Except Revert TribeReserveStabilizerState :=
  .error (.reason "TribeReserveStabilizer: can't withdraw TRIBE")

def startOracleDelayCountdown : Except Revert TribeReserveStabilizerState := do
  let below ← isCollateralizationBelowThreshold s
  require (below = true) "TribeReserveStabilizer: Collateralization ratio above threshold"
  require (s.timed.isTimeStarted = false) "TribeReserveStabilizer: timer started"
  let (timed, e) := s.timed._initTimed s.timestamp
  return { s with timed, events := s.events ++ [.timed e] }

/-- setting start time to 0 means isTimeStarted is false -/
def _pauseTimer : TribeReserveStabilizerState :=
  { s with
    timed := { s.timed with startTime := 0 }
    events := s.events ++ [.timed (.TimerReset 0)] }

def resetOracleDelayCountdown : Except Revert TribeReserveStabilizerState := do
  let below ← isCollateralizationBelowThreshold s
  require (below = false) "TribeReserveStabilizer: Collateralization ratio under threshold"
  require (s.timed.isTimeStarted = true) "TribeReserveStabilizer: timer started"
  return _pauseTimer s

def setCollateralizationOracle (msgSender newCollateralizationOracle : Address) :
    Except Revert TribeReserveStabilizerState := do
  onlyGovernor env.core msgSender
  require (newCollateralizationOracle ≠ 0) "TribeReserveStabilizer: zero address"
  return { s with
    collateralizationOracle := newCollateralizationOracle
    events := s.events ++
      [.CollateralizationOracleUpdate s.collateralizationOracle newCollateralizationOracle] }

def setCollateralizationThreshold (msgSender : Address)
    (newCollateralizationThresholdBasisPoints : Nat) :
    Except Revert TribeReserveStabilizerState := do
  onlyGovernor env.core msgSender
  let scaled ← s._collateralizationThreshold.mulUint BASIS_POINTS_GRANULARITY
  let oldCollateralizationThresholdBasisPoints := scaled.asUint256
  let threshold ← Decimal.ratio newCollateralizationThresholdBasisPoints BASIS_POINTS_GRANULARITY
  return { s with
    _collateralizationThreshold := threshold
    events := s.events ++ [.CollateralizationThresholdUpdate
      oldCollateralizationThresholdBasisPoints newCollateralizationThresholdBasisPoints] }

/-! ## Transactions -/

/-- A call of the governor, an admin or a guardian. -/
inductive AdminCall : Type where
  | setCollateralizationOracle (newCollateralizationOracle : Address)
  | setCollateralizationThreshold (newCollateralizationThresholdBasisPoints : UInt256)
  | setUsdPerFeiRate (newUsdPerFeiBasisPoints : UInt256)
  | setOracle (newOracle : Address)
  | setDoInvert (newDoInvert : Bool)
  | setDecimalsNormalizer (newDecimalsNormalizer : BitVec 256)
  | setBackupOracle (newBackupOracle : Address)
  | setContractAdminRole (newContractAdminRole : Bytes32)
  | pause
  | unpause
  deriving DecidableEq, Repr

def admin (msgSender : Address) : AdminCall → Except Revert TribeReserveStabilizerState
  | .setCollateralizationOracle newCollateralizationOracle =>
      setCollateralizationOracle env s msgSender newCollateralizationOracle
  | .setCollateralizationThreshold newCollateralizationThresholdBasisPoints =>
      setCollateralizationThreshold env s msgSender newCollateralizationThresholdBasisPoints.toNat
  | .setUsdPerFeiRate newUsdPerFeiBasisPoints =>
      setUsdPerFeiRate env s msgSender newUsdPerFeiBasisPoints.toNat
  | .setOracle newOracle => do
      let oracleRef ← s.toOracleRef.setOracle env.core msgSender newOracle
      return { s with toOracleRef := oracleRef }
  | .setDoInvert newDoInvert => do
      let oracleRef ← s.toOracleRef.setDoInvert env.core msgSender newDoInvert
      return { s with toOracleRef := oracleRef }
  | .setDecimalsNormalizer newDecimalsNormalizer => do
      let oracleRef ← s.toOracleRef.setDecimalsNormalizer env.core msgSender newDecimalsNormalizer
      return { s with toOracleRef := oracleRef }
  | .setBackupOracle newBackupOracle => do
      let oracleRef ← s.toOracleRef.setBackupOracle env.core env.access s.CONTRACT_ADMIN_ROLE
        msgSender newBackupOracle
      return { s with toOracleRef := oracleRef }
  | .setContractAdminRole newContractAdminRole => do
      onlyGovernor env.core msgSender
      return { s with CONTRACT_ADMIN_ROLE := newContractAdminRole }
  | .pause => pause env.core s msgSender
  | .unpause => unpause env.core s msgSender

/-- The oracles come to answer otherwise, and others call FEI, TRIBE and its minter. -/
inductive Action : Type where
  | exchangeFei (sender : Address) (feiAmount : UInt256)
  | startOracleDelayCountdown (sender : Address)
  | resetOracleDelayCountdown (sender : Address)
  | withdraw (sender dst : Address) (amountOut : UInt256)
  | admin (sender : Address) (c : AdminCall)
  | oracles (readings : OracleReadings)
  | fei (sender : Address) (c : Fei.Call)
  | tribeMinter (a : TribeMinter.Action)

def step : Action → Except Revert TribeReserveStabilizerState
  | .exchangeFei sender feiAmount => exchangeFei env s sender feiAmount.toNat
  | .startOracleDelayCountdown _ => startOracleDelayCountdown s
  | .resetOracleDelayCountdown _ => resetOracleDelayCountdown s
  | .withdraw _ _ _ => withdraw
  | .admin sender c => admin env s sender c
  | .oracles readings => .ok { s with readings }
  | .fei sender c => do
      let fei ← Fei.call env.fei s.fei sender c
      return { s with fei }
  | .tribeMinter a => do
      let tribeMinter ← TribeMinter.step env.tribeMinter s.tribeMinter a
      return { s with tribeMinter }

/-! ## The countdown -/

variable {env s} {s' : TribeReserveStabilizerState} {sender : Address} {amount : Nat}

/-- The oracle's reading is valid, and at or below the threshold. -/
def BelowThreshold (s : TribeReserveStabilizerState) : Prop :=
  ∃ ratio, s.readings s.collateralizationOracle = .ok (ratio, true) ∧
    ratio.value ≤ s._collateralizationThreshold.value

theorem below_iff : isCollateralizationBelowThreshold s = .ok true ↔ BelowThreshold s := by
  simp only [isCollateralizationBelowThreshold, D256.lessThanOrEqualTo, bind_eq_ok_iff,
    pure_eq_ok_iff, Bool.and_eq_true, decide_eq_true_eq, BelowThreshold]
  constructor
  · intro given
    rcases given with ⟨⟨ratio, valid⟩, reads, yes, le⟩
    subst yes
    exact ⟨ratio, reads, le⟩
  · intro given
    rcases given with ⟨ratio, reads, le⟩
    exact ⟨(ratio, true), reads, rfl, le⟩

/-- What transactions other than a start or a reset leave of the countdown. -/
structure Running (s s' : TribeReserveStabilizerState) : Prop where
  timed : s'.timed = s.timed
  timestamp_le : s.timestamp ≤ s'.timestamp

/-- What a transaction does to the countdown. -/
inductive Clock (s s' : TribeReserveStabilizerState) : Action → Prop where
  | start (sender : Address) (below : BelowThreshold s) (idle : s.timed.startTime = 0)
    (startTime : s'.timed.startTime = s.timestamp)
    (duration : s'.timed.duration = s.timed.duration)
    (timestamp : s'.timestamp = s.timestamp) : Clock s s' (.startOracleDelayCountdown sender)
  | reset (sender : Address) (started : s.timed.startTime ≠ 0)
    (startTime : s'.timed.startTime = 0) (duration : s'.timed.duration = s.timed.duration)
    (timestamp : s'.timestamp = s.timestamp) : Clock s s' (.resetOracleDelayCountdown sender)
  | other {a : Action} (notStart : ∀ sender, a ≠ .startOracleDelayCountdown sender)
    (notReset : ∀ sender, a ≠ .resetOracleDelayCountdown sender) (running : Running s s') :
    Clock s s' a

theorem running_of_exchangeFei
    (succeeds : ReserveStabilizer.exchangeFei env s sender amount = .ok s') : Running s s' := by
  simp only [ReserveStabilizer.exchangeFei, updateOracle, _burnFeiHeld, _transfer,
    bind_eq_ok_iff, pure_eq_ok_iff] at succeeds
  obtain ⟨_, _, s1, ⟨readings, _, same1⟩, fei, _, s2, ⟨fei', _, same2⟩, amountOut, _, s3,
    ⟨tribeMinter, mints, same3⟩, same⟩ := succeeds
  subst same1
  subst same2
  subst same3
  subst same
  exact ⟨rfl, Nat.le_of_eq (TribeMinter.minted_of_mint mints).timestamp.symm⟩

theorem running_of_admin {c : AdminCall} (succeeds : admin env s sender c = .ok s') :
    Running s s' := by
  cases c with
  | setCollateralizationOracle newCollateralizationOracle =>
      simp only [admin, setCollateralizationOracle, bind_eq_ok_iff, pure_eq_ok_iff] at succeeds
      obtain ⟨_, _, _, _, same⟩ := succeeds
      subst same
      exact ⟨rfl, Nat.le_refl _⟩
  | setCollateralizationThreshold newCollateralizationThresholdBasisPoints =>
      simp only [admin, setCollateralizationThreshold, bind_eq_ok_iff, pure_eq_ok_iff] at succeeds
      obtain ⟨_, _, _, _, _, _, same⟩ := succeeds
      subst same
      exact ⟨rfl, Nat.le_refl _⟩
  | setUsdPerFeiRate newUsdPerFeiBasisPoints =>
      simp only [admin, setUsdPerFeiRate, bind_eq_ok_iff, pure_eq_ok_iff] at succeeds
      obtain ⟨_, _, _, _, same⟩ := succeeds
      subst same
      exact ⟨rfl, Nat.le_refl _⟩
  | setOracle newOracle | setDoInvert newDoInvert
  | setDecimalsNormalizer newDecimalsNormalizer | setBackupOracle newBackupOracle
  | setContractAdminRole newContractAdminRole =>
      obtain ⟨_, _, same⟩ := bind_eq_ok_iff.mp succeeds
      cases same
      exact ⟨rfl, Nat.le_refl _⟩
  | pause =>
      have same := pause_eq succeeds
      subst same
      exact ⟨rfl, Nat.le_refl _⟩
  | unpause =>
      have same := unpause_eq succeeds
      subst same
      exact ⟨rfl, Nat.le_refl _⟩

/-- The minter keeps the time. -/
theorem timestamp_le_of_minter {env : TribeMinterEnv} {s s' : TribeMinterState}
    {a : TribeMinter.Action} (succeeds : TribeMinter.step env s a = .ok s') :
    s.tribe.timestamp ≤ s'.tribe.timestamp := by
  by_cases poke : a = .poke
  · subst poke
    simp only [TribeMinter.step, TribeMinter.poke, bind_eq_ok_iff, pure_eq_ok_iff] at succeeds
    obtain ⟨_, _, _, _, _, _, same⟩ := succeeds
    subst same
    exact Nat.le_refl _
  · rcases TribeMinter.step_cases succeeds poke with ⟨_, _, _, _, minted⟩ | ⟨_, _, le⟩
    · exact Nat.le_of_eq minted.timestamp.symm
    · exact le

theorem clock_of_step {a : Action} (succeeds : step env s a = .ok s') : Clock s s' a := by
  cases a with
  | exchangeFei sender feiAmount =>
      simp only [step, exchangeFei, bind_eq_ok_iff] at succeeds
      obtain ⟨_, _, _, _, _, _, exchanges⟩ := succeeds
      exact .other (by simp) (by simp) (running_of_exchangeFei exchanges)
  | startOracleDelayCountdown sender =>
      simp only [step, startOracleDelayCountdown, bind_eq_ok_iff, require_eq_ok_iff,
        pure_eq_ok_iff] at succeeds
      obtain ⟨below, reads, _, yes, _, idle, same⟩ := succeeds
      subst yes
      subst same
      have zero : s.timed.startTime = 0 := by simpa [Timed.isTimeStarted] using idle
      exact .start sender (below_iff.mp reads) zero rfl rfl rfl
  | resetOracleDelayCountdown sender =>
      simp only [step, resetOracleDelayCountdown, bind_eq_ok_iff, require_eq_ok_iff,
        pure_eq_ok_iff] at succeeds
      obtain ⟨_, _, _, _, _, started, same⟩ := succeeds
      subst same
      exact .reset sender (Timed.isTimeStarted_iff.mp started) rfl rfl rfl
  | withdraw sender dst amountOut => cases succeeds
  | admin sender c => exact .other (by simp) (by simp) (running_of_admin succeeds)
  | oracles readings =>
      cases succeeds
      exact .other (by simp) (by simp) ⟨rfl, Nat.le_refl _⟩
  | fei sender c =>
      obtain ⟨_, _, same⟩ := bind_eq_ok_iff.mp succeeds
      cases same
      exact .other (by simp) (by simp) ⟨rfl, Nat.le_refl _⟩
  | tribeMinter a =>
      obtain ⟨_, steps, same⟩ := bind_eq_ok_iff.mp succeeds
      cases same
      exact .other (by simp) (by simp) ⟨rfl, timestamp_le_of_minter steps⟩

/-- The duration is fixed and time does not go back. -/
theorem Clock.passes {a : Action} (clock : Clock s s' a) :
    s'.timed.duration = s.timed.duration ∧ s.timestamp ≤ s'.timestamp := by
  cases clock with
  | start sender below idle startTime duration timestamp =>
      exact ⟨duration, Nat.le_of_eq timestamp.symm⟩
  | reset sender started startTime duration timestamp =>
      exact ⟨duration, Nat.le_of_eq timestamp.symm⟩
  | other notStart notReset running =>
      exact ⟨congrArg Timed.duration running.timed, running.timestamp_le⟩

theorem duration_of_run (s : TribeReserveStabilizerState) (actions : List Action) :
    (run (step env) s actions).timed.duration = s.timed.duration :=
  run_invariant (I := fun t => t.timed.duration = s.timed.duration) (A := fun _ => True)
    (fun same _ succeeds => (clock_of_step succeeds).passes.1.trans same) rfl fun _ _ => trivial

/-! ## The delay -/

/-- After `before`, a start that succeeds with the oracle at or below the threshold, then `after`
in which no reset succeeds and which ends a whole duration later. -/
structure CountedDown (env : TribeReserveStabilizerEnv) (duration : Nat)
    (s : TribeReserveStabilizerState) (before : List Action) (sender : Address)
    (after : List Action) : Prop where
  starts : ∃ s', step env (run (step env) s before) (.startOracleDelayCountdown sender) = .ok s'
  below : BelowThreshold (run (step env) s before)
  elapsed : (run (step env) s before).timestamp + duration ≤
    (run (step env) s (before ++ .startOracleDelayCountdown sender :: after)).timestamp
  notReset : Along (step env)
    (fun t a => ∀ x t', a = .resetOracleDelayCountdown x → step env t a ≠ .ok t')
    (run (step env) s (before ++ [.startOracleDelayCountdown sender])) after

/-- A timer that was not running has run out only through a start that was not reset. -/
theorem exists_countedDown {actions : List Action} (idle : s.timed.startTime = 0)
    (started : (run (step env) s actions).timed.startTime ≠ 0)
    (elapsed : (run (step env) s actions).timed.startTime + s.timed.duration ≤
      (run (step env) s actions).timestamp) :
    ∃ before sender after, actions = before ++ .startOracleDelayCountdown sender :: after ∧
      CountedDown env s.timed.duration s before sender after := by
  have changed : (run (step env) s actions).timed.startTime ≠ s.timed.startTime := by
    rw [idle]
    exact started
  obtain ⟨before, a, after, s', split, succeeds, changes, _, last, along⟩ :=
    exists_last_change (f := fun t : TribeReserveStabilizerState => t.timed.startTime) changed
  have clock := clock_of_step succeeds
  cases clock with
  | start sender below idle startTime duration timestamp =>
      refine ⟨before, sender, after, split, ⟨s', succeeds⟩, below, ?_, ?_⟩
      · rw [← split, ← startTime, last]
        exact elapsed
      · rw [run_append, run_cons, run_nil, commit_of_ok succeeds]
        refine along.imp fun t b kept x t' reset called => ?_
        subst reset
        have same := kept t' called
        cases clock_of_step called with
        | reset _ running zeroed => exact running (same.symm.trans zeroed)
        | other _ notReset => exact notReset x rfl
  | reset sender running startTime duration timestamp =>
      exact absurd (last.symm.trans startTime) started
  | other notStart notReset running =>
      exact absurd (congrArg Timed.startTime running.timed) changes

/-- **The opening delay.** An exchange succeeds only with the oracle at or below the threshold, a
whole duration after a start at which it was too and which no reset undid. So if a reset
succeeded, such a start is later than it. -/
theorem exchange_delayed {readings : OracleReadings} {fei : FeiState}
    {tribeMinter : TribeMinterState} {tribeOracle backupOracle collateralizationOracle : Address}
    {usdPerFeiBasisPoints thresholdBasisPoints osmDuration : UInt256}
    (deployed : construct env readings fei tribeMinter tribeOracle backupOracle
      usdPerFeiBasisPoints collateralizationOracle thresholdBasisPoints osmDuration = .ok s)
    {actions : List Action} {feiAmount : UInt256}
    (succeeds : step env (run (step env) s actions) (.exchangeFei sender feiAmount) = .ok s') :
    BelowThreshold (run (step env) s actions) ∧
    (∃ before x after, actions = before ++ .startOracleDelayCountdown x :: after ∧
      CountedDown env osmDuration.toNat s before x after) ∧
    ∀ first y rest r, actions = first ++ .resetOracleDelayCountdown y :: rest →
      step env (run (step env) s first) (.resetOracleDelayCountdown y) = .ok r →
      ∃ before x after, rest = before ++ .startOracleDelayCountdown x :: after ∧
        CountedDown env osmDuration.toNat r before x after := by
  have timed : s.timed.startTime = 0 ∧ s.timed.duration = osmDuration.toNat := by
    simp only [construct, Timed.construct, bind_eq_ok_iff, pure_eq_ok_iff] at deployed
    obtain ⟨_, _, _, _, ⟨timed, e⟩, constructs, _, _, same⟩ := deployed
    subst same
    split at constructs
    · cases constructs
      exact ⟨rfl, rfl⟩
    · cases constructs
  obtain ⟨idle, duration⟩ := timed
  simp only [step, exchangeFei, bind_eq_ok_iff, require_eq_ok_iff,
    Timed.afterTime_eq_ok_iff] at succeeds
  obtain ⟨_, ⟨started, elapsed⟩, below, reads, _, yes, _⟩ := succeeds
  subst yes
  rw [duration_of_run] at elapsed
  refine ⟨below_iff.mp reads, duration ▸ exists_countedDown idle started elapsed, ?_⟩
  intro first y rest r split resets
  have reached : run (step env) s actions = run (step env) r rest := by
    rw [split, run_append, run_cons, commit_of_ok resets]
  have zeroed : r.timed.startTime = 0 ∧ r.timed.duration = osmDuration.toNat := by
    refine ⟨?_, (clock_of_step resets).passes.1.trans ((duration_of_run s first).trans duration)⟩
    cases clock_of_step resets with
    | reset _ _ startTime => exact startTime
    | other _ notReset => exact absurd rfl (notReset y)
  obtain ⟨idle', duration'⟩ := zeroed
  rw [reached, duration, ← duration'] at elapsed
  rw [reached] at started
  exact duration' ▸ exists_countedDown idle' started elapsed

end TribeReserveStabilizer

namespace TribeReserveStabilizer.Sample

/-- The contract at `0xBB` is an admin of the minter of TRIBE. -/
def env : TribeReserveStabilizerEnv where
  core := TribeMinter.Sample.env.core
  access := TribeMinter.Sample.env.access
  fei := { core := TribeMinter.Sample.env.core
           super := .standard
           incentivize := fun _ s _ _ _ _ => .ok s }
  tribeMinter := { TribeMinter.Sample.env with access := ⟨fun _ a => a = 0xBB, ⟨1, 2, 3, 4⟩⟩ }
  update readings _ := .ok readings
  this := 0xBB

/-- The oracle at `0xC0` reports a collateral ratio in percent, and every other a price of 2. -/
def readings (percent : Nat) : OracleReadings := fun a =>
  if a = 0xC0 then .ok (⟨percent * 10 ^ 16⟩, true) else .ok (⟨2 * 10 ^ 18⟩, true)

/-- The user 7 has 200 FEI, and has approved the contract for them. -/
def fei : FeiState where
  erc20 :=
    { balanceOf := fun a => if a = 7 then 200 else 0
      allowance := fun a b => if a = 7 ∧ b = 0xBB then 200 else 0
      totalSupply := 200
      unlimited := false }
  incentiveContract _ := 0
  _paused := false
  events := []

/-- An hour's delay, below a ratio of 100 percent. -/
def deploy : Except Revert TribeReserveStabilizerState :=
  construct env (readings 90) fei TribeMinter.Sample.deployed 1 0 9500 0xC0 10000 3600

/-- A countdown that is reset half an hour later, and one that runs for a whole hour. -/
def history : List Action :=
  [.startOracleDelayCountdown 5, .tribeMinter (.tribe (.mine 150 1800)), .oracles (readings 110),
    .resetOracleDelayCountdown 6, .oracles (readings 95), .startOracleDelayCountdown 7,
    .tribeMinter (.tribe (.mine 300 3600))]

theorem exchange_delayed_sample : ∃ s s' : TribeReserveStabilizerState, deploy = .ok s ∧
    step env (run (step env) s history) (.exchangeFei 7 100) = .ok s' ∧
    BelowThreshold (run (step env) s history) ∧
    (∃ before x after, history = before ++ .startOracleDelayCountdown x :: after ∧
      CountedDown env 3600 s before x after) ∧
    ∀ first y rest r, history = first ++ .resetOracleDelayCountdown y :: rest →
      step env (run (step env) s first) (.resetOracleDelayCountdown y) = .ok r →
      ∃ before x after, rest = before ++ .startOracleDelayCountdown x :: after ∧
        CountedDown env 3600 r before x after := by
  obtain ⟨s, deploys⟩ := exists_ok_of_isOk (x := deploy) (by decide +kernel)
  have exchanges : (match deploy with
      | .ok s => (step env (run (step env) s history) (.exchangeFei 7 100)).isOk
      | .error _ => false) = true := by decide +kernel
  rw [deploys] at exchanges
  obtain ⟨s', succeeds⟩ := exists_ok_of_isOk exchanges
  exact ⟨s, s', deploys, succeeds, exchange_delayed deploys succeeds⟩

end TribeReserveStabilizer.Sample

end FeiProtocol
