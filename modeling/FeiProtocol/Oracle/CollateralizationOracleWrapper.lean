import FeiProtocol.External.Decimal
import FeiProtocol.Oracle.CollateralizationOracle
import FeiProtocol.Refs.Constants
import FeiProtocol.Utils.Timed
import Mathlib.Data.Nat.Dist

/-!
# `CollateralizationOracleWrapper`

A cache of what a `CollateralizationOracle` reports. It is refreshed from the oracle by anyone,
or written by a governor or admin, and each time its timer restarts.

* `update_iff`: when an update from a valid reading goes through.
* `refreshes_iff`: in every state of every run, the wrapper can be refreshed from a valid reading
  exactly if its timer has ended or the deviations from the reading can be computed.

The oracle is seen through its answer to `pcvStats` at the time of a call.
-/

namespace FeiProtocol

open Evm

namespace Timed

def _setDuration (t : Timed) (newDuration : Nat) : Except Revert (Timed × TimedEvent) :=
  if valid : newDuration ≠ 0 then
    .ok ({ t with duration := newDuration, duration_ne := valid },
      .DurationUpdate t.duration newDuration)
  else .error (.reason "Timed: zero duration")

/-- From its start time on, a timer knows whether it has ended. -/
theorem isTimeEnded_of_past {t : Timed} {timestamp : Nat} (past : t.startTime ≤ timestamp) :
    t.isTimeEnded timestamp =
      .ok (decide (t.startTime ≠ 0 ∧ t.startTime + t.duration ≤ timestamp)) := by
  have positive := t.duration_ne
  simp only [isTimeEnded, bind_eq_ok_iff, pure_eq_ok_iff, remainingTime_eq_ok_iff]
  by_cases started : t.startTime = 0
  · refine ⟨t.duration, .inr ⟨started, rfl⟩, decide_eq_decide.mpr ?_⟩
    omega
  · refine ⟨_, .inl ⟨started, past, rfl⟩, decide_eq_decide.mpr ?_⟩
    omega

theorem startTime_of_setDuration {t t' : Timed} {newDuration : Nat} {e : TimedEvent}
    (succeeds : t._setDuration newDuration = .ok (t', e)) : t'.startTime = t.startTime := by
  unfold _setDuration at succeeds
  split at succeeds
  · cases succeeds
    rfl
  · cases succeeds

end Timed

structure CollateralizationOracleWrapperState : Type where
  timed : Timed
  collateralizationOracle : Address
  cachedProtocolControlledValue : Nat
  cachedUserCirculatingFei : Nat
  cachedProtocolEquity : Int
  deviationThresholdBasisPoints : Nat
  readPauseOverride : Bool
  _paused : Bool
  CONTRACT_ADMIN_ROLE : Bytes32
  /-- the timestamp of the current block -/
  timestamp : Nat

instance : Pausable CollateralizationOracleWrapperState where
  paused s := s._paused
  withPaused s b := { s with _paused := b }

namespace CollateralizationOracleWrapper

open Constants CoreRef

/-! ## The contract -/

/-- `GOVERN_ROLE` is the admin role of `CoreRef`'s constructor. -/
def construct (GOVERN_ROLE : Bytes32) (timestamp : Nat) (_validityDuration : UInt256) :
    Except Revert CollateralizationOracleWrapperState := do
  let (timed, _) ← Timed.construct _validityDuration.toNat
  return { timed
           collateralizationOracle := 0
           cachedProtocolControlledValue := 0
           cachedUserCirculatingFei := 0
           cachedProtocolEquity := 0
           deviationThresholdBasisPoints := 0
           readPauseOverride := false
           _paused := false
           CONTRACT_ADMIN_ROLE := GOVERN_ROLE
           timestamp }

variable (core : Core) (access : AccessControl) (s : CollateralizationOracleWrapperState)
  (msgSender : Address)

/-- The source's `initialize`. `ORACLE_ADMIN_ROLE` is the hash of its name. -/
def initializer (ORACLE_ADMIN_ROLE : Bytes32) (_collateralizationOracle : Address)
    (_validityDuration _deviationThresholdBasisPoints : UInt256) :
    Except Revert CollateralizationOracleWrapperState := do
  require (s.collateralizationOracle = 0) "CollateralizationOracleWrapper: initialized"
  let (timed, _) ← s.timed._setDuration _validityDuration.toNat
  return { s with
    timed
    collateralizationOracle := _collateralizationOracle
    deviationThresholdBasisPoints := _deviationThresholdBasisPoints.toNat
    CONTRACT_ADMIN_ROLE := ORACLE_ADMIN_ROLE }

def setCollateralizationOracle (_newCollateralizationOracle : Address) :
    Except Revert CollateralizationOracleWrapperState := do
  onlyGovernor core msgSender
  require (_newCollateralizationOracle ≠ 0) "CollateralizationOracleWrapper: invalid address"
  return { s with collateralizationOracle := _newCollateralizationOracle }

def setDeviationThresholdBasisPoints (_newDeviationThresholdBasisPoints : UInt256) :
    Except Revert CollateralizationOracleWrapperState := do
  onlyGovernorOrAdmin core access s.CONTRACT_ADMIN_ROLE msgSender
  require (_newDeviationThresholdBasisPoints.toNat > 0 ∧
      _newDeviationThresholdBasisPoints.toNat ≤ 10000)
    "CollateralizationOracleWrapper: invalid basis points"
  return { s with deviationThresholdBasisPoints := _newDeviationThresholdBasisPoints.toNat }

def setValidityDuration (_validityDuration : UInt256) :
    Except Revert CollateralizationOracleWrapperState := do
  onlyGovernorOrAdmin core access s.CONTRACT_ADMIN_ROLE msgSender
  let (timed, _) ← s.timed._setDuration _validityDuration.toNat
  return { s with timed }

def setReadPauseOverride (_readPauseOverride : Bool) :
    Except Revert CollateralizationOracleWrapperState := do
  onlyGuardianOrGovernor core msgSender
  return { s with readPauseOverride := _readPauseOverride }

def _setCache (_cachedProtocolControlledValue _cachedUserCirculatingFei : Nat)
    (_cachedProtocolEquity : Int) : CollateralizationOracleWrapperState :=
  let (timed, _) := s.timed._initTimed s.timestamp
  { s with
    timed
    cachedProtocolControlledValue := _cachedProtocolControlledValue
    cachedUserCirculatingFei := _cachedUserCirculatingFei
    cachedProtocolEquity := _cachedProtocolEquity }

def setCache (_cachedProtocolControlledValue _cachedUserCirculatingFei : Nat)
    (_cachedProtocolEquity : Int) : Except Revert CollateralizationOracleWrapperState := do
  onlyGovernorOrAdmin core access s.CONTRACT_ADMIN_ROLE msgSender
  return _setCache s _cachedProtocolControlledValue _cachedUserCirculatingFei _cachedProtocolEquity

def isOutdated : Except Revert Bool := s.timed.isTimeEnded s.timestamp

def _isExceededDeviationThreshold (cached current : Nat) : Except Revert Bool := do
  let delta := if current > cached then current - cached else cached - current
  let scaled ← checkedMul delta BASIS_POINTS_GRANULARITY
  let deviationBaisPoints ← checkedDiv scaled current
  return deviationBaisPoints > s.deviationThresholdBasisPoints

section Readings

-- `ICollateralizationOracle(oracle).pcvStats()`
variable (reading : Address → Except Revert PcvStats)

/-- The disjunction of the two deviations, which is short-circuited. -/
def exceeds (stats : PcvStats) : Except Revert Bool := do
  if ← _isExceededDeviationThreshold s s.cachedProtocolControlledValue
      stats.protocolControlledValue then return true
  _isExceededDeviationThreshold s s.cachedUserCirculatingFei stats.userCirculatingFei

def _update : Except Revert (CollateralizationOracleWrapperState × Bool) := do
  let outdated ← isOutdated s
  let stats ← reading s.collateralizationOracle
  let outdated ← (if outdated then .ok true else exceeds s stats)
  require (stats.validityStatus = true)
    "CollateralizationOracleWrapper: CollateralizationOracle is invalid"
  return (_setCache s stats.protocolControlledValue stats.userCirculatingFei stats.protocolEquity,
    outdated)

def update : Except Revert CollateralizationOracleWrapperState := do
  whenNotPaused s
  let (s, _) ← _update s reading
  return s

def updateIfOutdated : Except Revert CollateralizationOracleWrapperState := do
  whenNotPaused s
  let (s, outdated) ← _update s reading
  require (outdated = true) "CollateralizationOracleWrapper: not outdated"
  return s

def isExceededDeviationThreshold : Except Revert Bool := do
  let stats ← reading s.collateralizationOracle
  require (stats.validityStatus = true)
    "CollateralizationOracleWrapper: CollateralizationOracle reading is invalid"
  exceeds s stats

def isOutdatedOrExceededDeviationThreshold : Except Revert Bool := do
  if ← isOutdated s then return true
  isExceededDeviationThreshold s reading

end Readings

def _readNotPaused : Bool := s.readPauseOverride || !s._paused

/-- `_readNotPaused() && !isOutdated()` -/
def validReading : Except Revert Bool :=
  if _readNotPaused s then do
    let outdated ← isOutdated s
    return !outdated
  else return false

def read : Except Revert (Decimal.D256 × Bool) := do
  let collateralRatio ←
    Decimal.ratio s.cachedProtocolControlledValue s.cachedUserCirculatingFei
  let validityStatus ← validReading s
  return (collateralRatio, validityStatus)

def pcvStats : Except Revert PcvStats := do
  let validityStatus ← validReading s
  return {
    protocolControlledValue := s.cachedProtocolControlledValue
    userCirculatingFei := s.cachedUserCirculatingFei
    protocolEquity := s.cachedProtocolEquity
    validityStatus }

def pcvStatsCurrent (reading : Address → Except Revert PcvStats) : Except Revert PcvStats := do
  let stats ← reading s.collateralizationOracle
  return { stats with validityStatus := stats.validityStatus && _readNotPaused s }

def isOvercollateralized : Except Revert Bool := do
  let outdated ← isOutdated s
  require (outdated = false) "CollateralizationOracleWrapper: cache is outdated"
  return s.cachedProtocolEquity > 0

/-! ## Transactions -/

/-- What is called on the wrapper. -/
inductive Action : Type where
  | initializer (ORACLE_ADMIN_ROLE : Bytes32) (_collateralizationOracle : Address)
      (_validityDuration _deviationThresholdBasisPoints : UInt256)
  | setCollateralizationOracle (_newCollateralizationOracle : Address)
  | setDeviationThresholdBasisPoints (_newDeviationThresholdBasisPoints : UInt256)
  | setValidityDuration (_validityDuration : UInt256)
  | setReadPauseOverride (_readPauseOverride : Bool)
  | setCache (_cachedProtocolControlledValue _cachedUserCirculatingFei : UInt256)
      (_cachedProtocolEquity : BitVec 256)
  | update
  | updateIfOutdated
  | setContractAdminRole (newContractAdminRole : Bytes32)
  | pause
  | unpause

/-- A call finds the roles and the oracles as they are at its time. -/
structure Call : Type where
  core : Core
  access : AccessControl
  reading : Address → Except Revert PcvStats
  msgSender : Address
  action : Action

/-- A transaction, or time that passes before the next. -/
inductive Event : Type where
  | call (call : Call)
  | elapse (seconds : Nat)

def perform (call : Call) : Except Revert CollateralizationOracleWrapperState :=
  match call.action with
  | .initializer ORACLE_ADMIN_ROLE _collateralizationOracle _validityDuration
      _deviationThresholdBasisPoints =>
      initializer s ORACLE_ADMIN_ROLE _collateralizationOracle _validityDuration
        _deviationThresholdBasisPoints
  | .setCollateralizationOracle _newCollateralizationOracle =>
      setCollateralizationOracle call.core s call.msgSender _newCollateralizationOracle
  | .setDeviationThresholdBasisPoints _newDeviationThresholdBasisPoints =>
      setDeviationThresholdBasisPoints call.core call.access s call.msgSender
        _newDeviationThresholdBasisPoints
  | .setValidityDuration _validityDuration =>
      setValidityDuration call.core call.access s call.msgSender _validityDuration
  | .setReadPauseOverride _readPauseOverride =>
      setReadPauseOverride call.core s call.msgSender _readPauseOverride
  | .setCache _cachedProtocolControlledValue _cachedUserCirculatingFei _cachedProtocolEquity =>
      setCache call.core call.access s call.msgSender _cachedProtocolControlledValue.toNat
        _cachedUserCirculatingFei.toNat _cachedProtocolEquity.toInt
  | .update => update s call.reading
  | .updateIfOutdated => updateIfOutdated s call.reading
  | .setContractAdminRole newContractAdminRole => do
      onlyGovernor call.core call.msgSender
      return { s with CONTRACT_ADMIN_ROLE := newContractAdminRole }
  | .pause => pause call.core s call.msgSender
  | .unpause => unpause call.core s call.msgSender

def step : Event → Except Revert CollateralizationOracleWrapperState
  | .call call => perform s call
  | .elapse seconds => .ok { s with timestamp := s.timestamp + seconds }

/-! ## Deviations and the timer -/

/-- The deviation of a reported value from the cached one can be computed. -/
def Comparable (cached current : Nat) : Prop :=
  current ≠ 0 ∧ Nat.dist cached current * BASIS_POINTS_GRANULARITY < 2 ^ 256

/-- The deviation exceeds the threshold. -/
def Exceeded (cached current : Nat) : Prop :=
  s.deviationThresholdBasisPoints <
    Nat.dist cached current * BASIS_POINTS_GRANULARITY / current

/-- The timer has been started, and a whole duration ago. -/
def Outdated : Prop :=
  s.timed.startTime ≠ 0 ∧ s.timed.startTime + s.timed.duration ≤ s.timestamp

/-- What an update computes besides the cache does not fail: the deviations are computed only
if the timer has not ended, and the second only if the first does not exceed the threshold. -/
def Refreshable (stats : PcvStats) : Prop :=
  Outdated s ∨
    Comparable s.cachedProtocolControlledValue stats.protocolControlledValue ∧
      (Exceeded s s.cachedProtocolControlledValue stats.protocolControlledValue ∨
        Comparable s.cachedUserCirculatingFei stats.userCirculatingFei)

instance (cached current : Nat) : Decidable (Comparable cached current) :=
  inferInstanceAs (Decidable (_ ∧ _))

instance (cached current : Nat) : Decidable (Exceeded s cached current) :=
  inferInstanceAs (Decidable (_ < _))

instance : Decidable (Outdated s) := inferInstanceAs (Decidable (_ ∧ _))

instance (stats : PcvStats) : Decidable (Refreshable s stats) :=
  inferInstanceAs (Decidable (_ ∨ _))

variable {s} {s' : CollateralizationOracleWrapperState} {stats : PcvStats}
  {reading : Address → Except Revert PcvStats}

theorem isExceededDeviationThreshold_eq_ok_iff {cached current : Nat} {b : Bool} :
    _isExceededDeviationThreshold s cached current = .ok b ↔
      Comparable cached current ∧ decide (Exceeded s cached current) = b := by
  have delta : (if current > cached then current - cached else cached - current) =
      Nat.dist cached current := by
    unfold Nat.dist
    split <;> omega
  simp only [_isExceededDeviationThreshold, delta, bind_eq_ok_iff, checkedMul_eq_ok_iff,
    checkedDiv_eq_ok_iff, pure_eq_ok_iff, Comparable, Exceeded]
  constructor
  · intro given
    rcases given with ⟨scaled, ⟨fits, same⟩, q, ⟨nonzero, quotient⟩, compared⟩
    subst same
    subst quotient
    exact ⟨⟨nonzero, fits⟩, compared⟩
  · intro given
    rcases given with ⟨⟨nonzero, fits⟩, compared⟩
    exact ⟨_, ⟨fits, rfl⟩, _, ⟨nonzero, rfl⟩, compared⟩

theorem exceeds_eq_ok_iff {b : Bool} : exceeds s stats = .ok b ↔
    Comparable s.cachedProtocolControlledValue stats.protocolControlledValue ∧
      (Exceeded s s.cachedProtocolControlledValue stats.protocolControlledValue ∧ b = true ∨
        ¬ Exceeded s s.cachedProtocolControlledValue stats.protocolControlledValue ∧
          Comparable s.cachedUserCirculatingFei stats.userCirculatingFei ∧
          decide (Exceeded s s.cachedUserCirculatingFei stats.userCirculatingFei) = b) := by
  unfold exceeds
  rw [bind_eq_ok_iff]
  simp only [isExceededDeviationThreshold_eq_ok_iff]
  constructor
  · intro given
    rcases given with ⟨first, ⟨comparable, compared⟩, rest⟩
    refine ⟨comparable, ?_⟩
    cases first with
    | true => exact .inl ⟨of_decide_eq_true compared, (pure_eq_ok_iff.mp rest).symm⟩
    | false =>
        exact .inr ⟨of_decide_eq_false compared, isExceededDeviationThreshold_eq_ok_iff.mp rest⟩
  · intro given
    rcases given with ⟨comparable, rest⟩
    rcases rest with ⟨exceeded, same⟩ | ⟨within, rest⟩
    · subst same
      exact ⟨true, ⟨comparable, decide_eq_true exceeded⟩, rfl⟩
    · exact ⟨false, ⟨comparable, decide_eq_false within⟩,
        isExceededDeviationThreshold_eq_ok_iff.mpr rest⟩

/-- The timer was started in the past. -/
def Past (s : CollateralizationOracleWrapperState) : Prop := s.timed.startTime ≤ s.timestamp

theorem isOutdated_eq (past : Past s) : isOutdated s = .ok (decide (Outdated s)) :=
  Timed.isTimeEnded_of_past past

/-! ## Updates -/

/-- The cache of a reading, and the timer restarted. -/
def refreshed (s : CollateralizationOracleWrapperState) (stats : PcvStats) :
    CollateralizationOracleWrapperState :=
  { s with
    timed := { s.timed with startTime := s.timestamp }
    cachedProtocolControlledValue := stats.protocolControlledValue
    cachedUserCirculatingFei := stats.userCirculatingFei
    cachedProtocolEquity := stats.protocolEquity }

/-- The update: a valid reading, whose deviations can be computed as far as they are needed. -/
theorem update_core_iff {b : Bool} (past : Past s) : _update s reading = .ok (s', b) ↔
    ∃ stats, reading s.collateralizationOracle = .ok stats ∧ stats.validityStatus = true ∧
      refreshed s stats = s' ∧
      (Outdated s ∧ b = true ∨ ¬ Outdated s ∧ exceeds s stats = .ok b) := by
  simp only [_update, isOutdated_eq past, bind_eq_ok_iff, require_eq_ok_iff, pure_eq_ok_iff,
    Prod.mk.injEq]
  constructor
  · intro given
    rcases given with ⟨_, outdated, stats, reads, b', deviates, _, valid, same, same'⟩
    cases outdated
    subst same'
    refine ⟨stats, reads, valid, same, ?_⟩
    by_cases outdated : Outdated s
    · rw [if_pos (decide_eq_true outdated)] at deviates
      cases deviates
      exact .inl ⟨outdated, rfl⟩
    · rw [if_neg (by simpa using outdated)] at deviates
      exact .inr ⟨outdated, deviates⟩
  · intro given
    rcases given with ⟨stats, reads, valid, same, deviates⟩
    refine ⟨_, rfl, stats, reads, b, ?_, (), valid, same, rfl⟩
    rcases deviates with ⟨outdated, same⟩ | ⟨fresh, deviates⟩
    · rw [if_pos (decide_eq_true outdated), same]
    · rw [if_neg (by simpa using fresh)]
      exact deviates

/-- The deviations of a reading can be computed as far as they are needed. -/
theorem refreshable_iff : Refreshable s stats ↔
    ∃ b, Outdated s ∧ b = true ∨ ¬ Outdated s ∧ exceeds s stats = .ok b := by
  simp only [exceeds_eq_ok_iff]
  unfold Refreshable
  constructor
  · intro refreshable
    by_cases outdated : Outdated s
    · exact ⟨true, .inl ⟨outdated, rfl⟩⟩
    · obtain ⟨comparable, rest⟩ := refreshable.resolve_left outdated
      by_cases exceeded : Exceeded s s.cachedProtocolControlledValue stats.protocolControlledValue
      · exact ⟨true, .inr ⟨outdated, comparable, .inl ⟨exceeded, rfl⟩⟩⟩
      · exact ⟨_, .inr ⟨outdated, comparable,
          .inr ⟨exceeded, rest.resolve_left exceeded, rfl⟩⟩⟩
  · intro given
    rcases given with ⟨b, deviates⟩
    rcases deviates with ⟨outdated, _⟩ | ⟨_, comparable, rest⟩
    · exact .inl outdated
    · rcases rest with ⟨exceeded, _⟩ | ⟨_, comparable', _⟩
      · exact .inr ⟨comparable, .inl exceeded⟩
      · exact .inr ⟨comparable, .inr comparable'⟩

theorem update_iff (past : Past s) : update s reading = .ok s' ↔
    s._paused = false ∧ ∃ stats, reading s.collateralizationOracle = .ok stats ∧
      stats.validityStatus = true ∧ Refreshable s stats ∧ s' = refreshed s stats := by
  simp only [update, bind_eq_ok_iff, whenNotPaused_eq_ok_iff, pure_eq_ok_iff, refreshable_iff]
  constructor
  · intro given
    rcases given with ⟨_, unpaused, ⟨r, b⟩, updates, same⟩
    subst same
    obtain ⟨stats, reads, valid, same, deviates⟩ := (update_core_iff past).mp updates
    exact ⟨unpaused, stats, reads, valid, ⟨b, deviates⟩, same.symm⟩
  · intro given
    rcases given with ⟨unpaused, stats, reads, valid, ⟨b, deviates⟩, same⟩
    exact ⟨(), unpaused, (s', b),
      (update_core_iff past).mpr ⟨stats, reads, valid, same.symm, deviates⟩, rfl⟩

/-- What keepers are told. -/
theorem isOutdatedOrExceededDeviationThreshold_iff (past : Past s) :
    isOutdatedOrExceededDeviationThreshold s reading = .ok true ↔
      Outdated s ∨ ¬ Outdated s ∧ ∃ stats, reading s.collateralizationOracle = .ok stats ∧
        stats.validityStatus = true ∧ exceeds s stats = .ok true := by
  unfold isOutdatedOrExceededDeviationThreshold
  rw [isOutdated_eq past, bind_eq_ok_iff]
  by_cases outdated : Outdated s
  · simp only [outdated, decide_true, not_true_eq_false, false_and, or_false, iff_true]
    exact ⟨true, rfl, rfl⟩
  · simp only [outdated, decide_false, not_false_eq_true, true_and, false_or]
    constructor
    · intro given
      rcases given with ⟨_, same, rest⟩
      cases same
      simpa [isExceededDeviationThreshold, bind_eq_ok_iff] using rest
    · intro given
      rcases given with ⟨stats, reads, valid, exceeds⟩
      exact ⟨false, rfl, bind_eq_ok_iff.mpr ⟨stats, reads,
        bind_eq_ok_iff.mpr ⟨(), require_eq_ok_iff.mpr valid, exceeds⟩⟩⟩

/-- An update that insists is one that the keepers are told of. -/
theorem updateIfOutdated_iff (past : Past s) : updateIfOutdated s reading = .ok s' ↔
    s._paused = false ∧ ∃ stats, reading s.collateralizationOracle = .ok stats ∧
      stats.validityStatus = true ∧
      isOutdatedOrExceededDeviationThreshold s reading = .ok true ∧ s' = refreshed s stats := by
  simp only [updateIfOutdated, bind_eq_ok_iff, whenNotPaused_eq_ok_iff, require_eq_ok_iff,
    pure_eq_ok_iff, isOutdatedOrExceededDeviationThreshold_iff past]
  constructor
  · intro given
    rcases given with ⟨_, unpaused, ⟨r, b⟩, updates, _, insists, same⟩
    subst insists
    subst same
    obtain ⟨stats, reads, valid, same, deviates⟩ := (update_core_iff past).mp updates
    refine ⟨unpaused, stats, reads, valid, ?_, same.symm⟩
    rcases deviates with ⟨outdated, _⟩ | ⟨fresh, exceeds⟩
    · exact .inl outdated
    · exact .inr ⟨fresh, stats, reads, valid, exceeds⟩
  · intro given
    rcases given with ⟨unpaused, stats, reads, valid, told, same⟩
    refine ⟨(), unpaused, (s', true), ?_, (), rfl, rfl⟩
    apply (update_core_iff past).mpr
    refine ⟨stats, reads, valid, same.symm, ?_⟩
    rcases told with outdated | ⟨fresh, stats', reads', _, exceeds⟩
    · exact .inl ⟨outdated, rfl⟩
    · rw [reads] at reads'
      cases reads'
      exact .inr ⟨fresh, exceeds⟩

/-- A refreshed wrapper answers with the reading until its timer has ended. -/
theorem pcvStats_refreshed {seconds : Nat} (valid : stats.validityStatus = true)
    (reads : _readNotPaused s = true) (before : seconds < s.timed.duration) :
    pcvStats { refreshed s stats with timestamp := s.timestamp + seconds } = .ok stats := by
  have fresh : isOutdated { refreshed s stats with timestamp := s.timestamp + seconds } =
      .ok false := by
    have past : Past { refreshed s stats with timestamp := s.timestamp + seconds } :=
      Nat.le_add_right _ _
    rw [isOutdated_eq past]
    refine congrArg Except.ok (decide_eq_false ?_)
    intro given
    rcases given with ⟨_, ended⟩
    exact absurd (Nat.le_of_add_le_add_left ended) (Nat.not_le_of_lt before)
  have notPaused : _readNotPaused { refreshed s stats with timestamp := s.timestamp + seconds } =
      true := reads
  simp only [pcvStats, validReading, notPaused, fresh, if_true]
  cases stats
  subst valid
  rfl

/-! ## Runs -/

/-- The calls that write the cache. -/
def Action.Writes : Action → Prop
  | .setCache _ _ _ | .update | .updateIfOutdated => True
  | _ => False

/-- The cache, its timer and the time are the same. -/
structure SameCache (s s' : CollateralizationOracleWrapperState) : Prop where
  pcv : s'.cachedProtocolControlledValue = s.cachedProtocolControlledValue
  fei : s'.cachedUserCirculatingFei = s.cachedUserCirculatingFei
  equity : s'.cachedProtocolEquity = s.cachedProtocolEquity
  startTime : s'.timed.startTime = s.timed.startTime
  timestamp : s'.timestamp = s.timestamp

theorem sameCache_of_perform {call : Call} (reads : ¬ call.action.Writes)
    (succeeds : perform s call = .ok s') : SameCache s s' := by
  obtain ⟨core, access, reading, msgSender, action⟩ := call
  cases action with
  | initializer role oracle duration threshold =>
      simp only [perform, initializer, bind_eq_ok_iff, pure_eq_ok_iff] at succeeds
      obtain ⟨_, _, ⟨timed, e⟩, set, same⟩ := succeeds
      subst same
      exact ⟨rfl, rfl, rfl, Timed.startTime_of_setDuration set, rfl⟩
  | setCollateralizationOracle oracle =>
      simp only [perform, setCollateralizationOracle, bind_eq_ok_iff, pure_eq_ok_iff] at succeeds
      obtain ⟨_, _, _, _, same⟩ := succeeds
      subst same
      exact ⟨rfl, rfl, rfl, rfl, rfl⟩
  | setDeviationThresholdBasisPoints threshold =>
      simp only [perform, setDeviationThresholdBasisPoints, bind_eq_ok_iff, pure_eq_ok_iff]
        at succeeds
      obtain ⟨_, _, _, _, same⟩ := succeeds
      subst same
      exact ⟨rfl, rfl, rfl, rfl, rfl⟩
  | setValidityDuration duration =>
      simp only [perform, setValidityDuration, bind_eq_ok_iff, pure_eq_ok_iff] at succeeds
      obtain ⟨_, _, ⟨timed, e⟩, set, same⟩ := succeeds
      subst same
      exact ⟨rfl, rfl, rfl, Timed.startTime_of_setDuration set, rfl⟩
  | setReadPauseOverride b =>
      simp only [perform, setReadPauseOverride, bind_eq_ok_iff, pure_eq_ok_iff] at succeeds
      obtain ⟨_, _, same⟩ := succeeds
      subst same
      exact ⟨rfl, rfl, rfl, rfl, rfl⟩
  | setCache value fei equity => exact absurd trivial reads
  | update => exact absurd trivial reads
  | updateIfOutdated => exact absurd trivial reads
  | setContractAdminRole role =>
      simp only [perform, bind_eq_ok_iff, pure_eq_ok_iff] at succeeds
      obtain ⟨_, _, same⟩ := succeeds
      subst same
      exact ⟨rfl, rfl, rfl, rfl, rfl⟩
  | pause =>
      have same := pause_eq succeeds
      subst same
      exact ⟨rfl, rfl, rfl, rfl, rfl⟩
  | unpause =>
      have same := unpause_eq succeeds
      subst same
      exact ⟨rfl, rfl, rfl, rfl, rfl⟩

/-- What writes the cache restarts its timer. -/
theorem restarted_of_perform {call : Call} (past : Past s) (writes : call.action.Writes)
    (succeeds : perform s call = .ok s') :
    s'.timed.startTime = s.timestamp ∧ s'.timestamp = s.timestamp := by
  obtain ⟨core, access, reading, msgSender, action⟩ := call
  cases action with
  | setCache value fei equity =>
      simp only [perform, setCache, bind_eq_ok_iff, pure_eq_ok_iff] at succeeds
      obtain ⟨_, _, same⟩ := succeeds
      subst same
      exact ⟨rfl, rfl⟩
  | update =>
      obtain ⟨_, _, _, _, _, same⟩ := (update_iff past).mp succeeds
      subst same
      exact ⟨rfl, rfl⟩
  | updateIfOutdated =>
      obtain ⟨_, _, _, _, _, same⟩ := (updateIfOutdated_iff past).mp succeeds
      subst same
      exact ⟨rfl, rfl⟩
  | initializer role oracle duration threshold => exact absurd writes id
  | setCollateralizationOracle oracle => exact absurd writes id
  | setDeviationThresholdBasisPoints threshold => exact absurd writes id
  | setValidityDuration duration => exact absurd writes id
  | setReadPauseOverride b => exact absurd writes id
  | setContractAdminRole role => exact absurd writes id
  | pause => exact absurd writes id
  | unpause => exact absurd writes id

theorem past_of_step {event : Event} (past : Past s) (succeeds : step s event = .ok s') :
    Past s' := by
  cases event with
  | call call =>
      unfold Past
      by_cases writes : call.action.Writes
      · obtain ⟨restarted, time⟩ := restarted_of_perform past writes succeeds
        rw [restarted, time]
      · have same := sameCache_of_perform writes succeeds
        rw [same.startTime, same.timestamp]
        exact past
  | elapse seconds =>
      cases succeeds
      exact Nat.le_add_right_of_le past

theorem past_of_construct {GOVERN_ROLE : Bytes32} {timestamp : Nat} {_validityDuration : UInt256}
    (deploys : construct GOVERN_ROLE timestamp _validityDuration = .ok s) : Past s := by
  simp only [construct, Timed.construct] at deploys
  split at deploys
  · cases deploys
    exact Nat.zero_le _
  · cases deploys

theorem past_run (past : Past s) (events : List Event) : Past (run step s events) :=
  run_invariant (A := fun _ => True) (fun past _ succeeds => past_of_step past succeeds) past
    fun _ _ => trivial

/-- The wrapper can be refreshed from a reading, and agrees with what it tells the keepers. -/
structure Refreshes (s : CollateralizationOracleWrapperState)
    (reading : Address → Except Revert PcvStats) (stats : PcvStats) : Prop where
  update : update s reading = .ok (refreshed s stats)
  updateIfOutdated : ∀ s', updateIfOutdated s reading = .ok s' ↔
    isOutdatedOrExceededDeviationThreshold s reading = .ok true ∧ s' = refreshed s stats
  /-- a failing call leaves all as it is -/
  unchanged : ∀ event e, step s event = .error e → commit step s event = s

/-- **Refreshing.** In every state of every run, an unpaused wrapper can be refreshed from a valid
reading exactly if its timer has ended or the deviations from the reading can be computed. The
update that insists on being needed is exact in any case. A refreshed wrapper answers with the
reading until its timer has ended. -/
theorem refreshes_iff {GOVERN_ROLE : Bytes32} {timestamp : Nat} {_validityDuration : UInt256}
    {s₀ : CollateralizationOracleWrapperState}
    (deploys : construct GOVERN_ROLE timestamp _validityDuration = .ok s₀) (events : List Event)
    (reached : s = run step s₀ events) (reading : Address → Except Revert PcvStats) :
    (∀ stats, s._paused = false → reading s.collateralizationOracle = .ok stats →
      stats.validityStatus = true → (Refreshes s reading stats ↔ Refreshable s stats)) ∧
    (∀ s', updateIfOutdated s reading = .ok s' ↔
      s._paused = false ∧ ∃ stats, reading s.collateralizationOracle = .ok stats ∧
        stats.validityStatus = true ∧
        isOutdatedOrExceededDeviationThreshold s reading = .ok true ∧ s' = refreshed s stats) ∧
    ∀ stats seconds, stats.validityStatus = true → _readNotPaused s = true →
      seconds < s.timed.duration →
      pcvStats { refreshed s stats with timestamp := s.timestamp + seconds } = .ok stats := by
  have past : Past s := reached ▸ past_run (past_of_construct deploys) events
  refine ⟨fun stats unpaused reads valid => ?_, fun s' => updateIfOutdated_iff past,
    fun stats seconds valid reads before => pcvStats_refreshed valid reads before⟩
  constructor
  · intro refreshes
    obtain ⟨_, stats', reads', _, refreshable, _⟩ := (update_iff past).mp refreshes.update
    rw [reads] at reads'
    cases reads'
    exact refreshable
  · intro refreshable
    refine ⟨?_, fun s' => ?_, fun event e reverts => commit_of_error reverts⟩
    · exact (update_iff past).mpr ⟨unpaused, stats, reads, valid, refreshable, rfl⟩
    · rw [updateIfOutdated_iff past]
      constructor
      · intro given
        rcases given with ⟨_, stats', reads', _, told, same⟩
        rw [reads] at reads'
        cases reads'
        exact ⟨told, same⟩
      · intro given
        rcases given with ⟨told, same⟩
        exact ⟨unpaused, stats, reads, valid, told, same⟩

end CollateralizationOracleWrapper

namespace CollateralizationOracleWrapper.Sample

/-- Nobody has a role. -/
def core : Core where
  isMinter _ := false
  isBurner _ := false
  isPCVController _ := false
  isGovernor _ := false
  isGuardian _ := false

def access : AccessControl where
  hasRole _ _ := false
  roles := ⟨1, 2, 3, 4⟩

def stats (protocolControlledValue : Nat) : PcvStats where
  protocolControlledValue
  userCirculatingFei := 100
  protocolEquity := protocolControlledValue - 100
  validityStatus := true

/-- An update by anyone while the oracle reports a value. -/
def update (protocolControlledValue : Nat) : Event :=
  .call ⟨core, access, fun _ => .ok (stats protocolControlledValue), 7, .update⟩

/-- A threshold of 500 basis points and a period of 600 seconds, at `0xCC` for the oracle. -/
def start : CollateralizationOracleWrapperState where
  timed := ⟨0, 600, by decide⟩
  collateralizationOracle := 0
  cachedProtocolControlledValue := 0
  cachedUserCirculatingFei := 0
  cachedProtocolEquity := 0
  deviationThresholdBasisPoints := 0
  readPauseOverride := false
  _paused := false
  CONTRACT_ADMIN_ROLE := 1
  timestamp := 1000

theorem deploys : construct 1 1000 600 = .ok start := rfl

def events : List Event :=
  [.call ⟨core, access, fun _ => .error (.reason ""), 7, .initializer 2 0xCC 600 500⟩,
    update 120, .elapse 60]

end CollateralizationOracleWrapper.Sample

namespace CollateralizationOracleWrapper

open Sample in
/-- A minute after an update the oracle reports no value: the next update divides by it. -/
theorem refreshes_counterexample :
    construct 1 1000 600 = .ok start ∧ (run step start events)._paused = false ∧
    (stats 0).validityStatus = true ∧
    CollateralizationOracleWrapper.update (run step start events) (fun _ => .ok (stats 0)) =
      .error (.panic 0x12) ∧
    ¬ Refreshes (run step start events) (fun _ => .ok (stats 0)) (stats 0) := by
  have reverts : CollateralizationOracleWrapper.update (run step start events)
      (fun _ => .ok (stats 0)) = .error (.panic 0x12) := rfl
  refine ⟨deploys, rfl, rfl, reverts, fun refreshes => ?_⟩
  rw [refreshes.update] at reverts
  cases reverts

open Sample in
/-- From another value there is no failure. -/
theorem refreshes_iff_sample : Refreshes (run step start events) (fun _ => .ok (stats 90))
    (stats 90) :=
  ((refreshes_iff deploys events rfl fun _ => .ok (stats 90)).1 (stats 90) rfl rfl rfl).mpr
    (by decide +kernel)

end CollateralizationOracleWrapper

end FeiProtocol
