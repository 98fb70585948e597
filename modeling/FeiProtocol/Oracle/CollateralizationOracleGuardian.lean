import FeiProtocol.Math.Deviation
import FeiProtocol.Oracle.CollateralizationOracleWrapper

/-!
# `CollateralizationOracleGuardian`

Through this contract the guardian makes small changes to the cache of a
`CollateralizationOracleWrapper`, once a period. How small is checked in basis points of the value
that is proposed, not of the one that is cached.

* `setCache_iff`: when a change is accepted.
* `moves_iff`: the accepted changes are small for the cached values exactly if the check refuses
  the least that are not.
* `bounded_iff`: this, and what follows for the changes of a whole run.
-/

namespace FeiProtocol

open Evm

structure CollateralizationOracleGuardianState : Type where
  timed : Timed
  deviationThresholdBasisPoints : Nat
  threshold_le : deviationThresholdBasisPoints ≤ Constants.BASIS_POINTS_GRANULARITY
  oracleWrapper : CollateralizationOracleWrapperState

namespace CollateralizationOracleGuardian

open Constants CoreRef Deviation

/-! ## The contract -/

variable (core : Core) (access : AccessControl) (this : Address)
  (s : CollateralizationOracleGuardianState) (msgSender : Address)

def construct (oracleWrapper : CollateralizationOracleWrapperState)
    (_frequency _deviationThresholdBasisPoints : UInt256) :
    Except Revert CollateralizationOracleGuardianState := do
  let (timed, _) ← Timed.construct _frequency.toNat
  if threshold_le : _deviationThresholdBasisPoints.toNat ≤ BASIS_POINTS_GRANULARITY then
    let (timed, _) := timed._initTimed oracleWrapper.timestamp
    return { timed
             deviationThresholdBasisPoints := _deviationThresholdBasisPoints.toNat
             threshold_le
             oracleWrapper }
  else throw (.reason "CollateralizationOracleGuardian: deviation exceeds granularity")

def calculateDeviationThresholdBasisPoints (a b : Nat) : Except Revert Nat := do
  let delta := if a < b then b - a else a - b
  let scaled ← checkedMul delta BASIS_POINTS_GRANULARITY
  checkedDiv scaled a

def setCache (protocolControlledValue userCirculatingFei : Nat) :
    Except Revert CollateralizationOracleGuardianState := do
  onlyGuardianOrGovernor core msgSender
  s.timed.afterTime s.oracleWrapper.timestamp
  let (timed, _) := s.timed._initTimed s.oracleWrapper.timestamp
  let cachedPCV := s.oracleWrapper.cachedProtocolControlledValue
  let deviation ← calculateDeviationThresholdBasisPoints protocolControlledValue cachedPCV
  require (deviation ≤ s.deviationThresholdBasisPoints)
    "CollateralizationOracleGuardian: Cached PCV exceeds deviation"
  let cachedUserFei := s.oracleWrapper.cachedUserCirculatingFei
  let deviation ← calculateDeviationThresholdBasisPoints userCirculatingFei cachedUserFei
  require (deviation ≤ s.deviationThresholdBasisPoints)
    "CollateralizationOracleGuardian: Cached User FEI exceeds deviation"
  let value ← toInt256 protocolControlledValue
  let fei ← toInt256 userCirculatingFei
  let equity ← checkedIntSub value fei
  let oracleWrapper ← CollateralizationOracleWrapper.setCache core access s.oracleWrapper this
    protocolControlledValue userCirculatingFei equity
  assert (oracleWrapper.cachedProtocolEquity = equity)
  return { s with timed, oracleWrapper }

def setDeviationThresholdBasisPoints (newDeviationThresholdBasisPoints : Nat) :
    Except Revert CollateralizationOracleGuardianState := do
  onlyGovernor core msgSender
  if threshold_le : newDeviationThresholdBasisPoints ≤ BASIS_POINTS_GRANULARITY then
    return { s with
      deviationThresholdBasisPoints := newDeviationThresholdBasisPoints
      threshold_le }
  else throw (.reason "CollateralizationOracleGuardian: deviation exceeds granularity")

/-! ## Transactions -/

/-- A call of the guardian contract, with the roles as they are at its time, or anything that
happens to the wrapper. -/
inductive Event : Type where
  | setCache (core : Core) (access : AccessControl) (msgSender : Address)
      (protocolControlledValue userCirculatingFei : UInt256)
  | setDeviationThresholdBasisPoints (core : Core) (msgSender : Address)
      (newDeviationThresholdBasisPoints : UInt256)
  | wrapper (event : CollateralizationOracleWrapper.Event)

def step : Event → Except Revert CollateralizationOracleGuardianState
  | .setCache core access msgSender protocolControlledValue userCirculatingFei =>
      setCache core access this s msgSender protocolControlledValue.toNat userCirculatingFei.toNat
  | .setDeviationThresholdBasisPoints core msgSender newDeviationThresholdBasisPoints =>
      setDeviationThresholdBasisPoints core s msgSender newDeviationThresholdBasisPoints.toNat
  | .wrapper event => do
      let oracleWrapper ← CollateralizationOracleWrapper.step s.oracleWrapper event
      return { s with oracleWrapper }

/-! ## What is accepted -/

/-- The check of a proposed value against the cached one, and that it fits a signed word. -/
def Accepts (threshold proposed cached : Nat) : Prop :=
  (∃ deviation, calculateDeviationThresholdBasisPoints proposed cached = .ok deviation ∧
    deviation ≤ threshold) ∧ proposed < 2 ^ 255

/-- The caller has a role, the timer has ended, and the wrapper obeys the contract. -/
structure Able : Prop where
  role : core.isGovernor msgSender || core.isGuardian msgSender
  ended : s.timed.afterTime s.oracleWrapper.timestamp = .ok ()
  obeyed : core.isGovernor this || access.hasRole s.oracleWrapper.CONTRACT_ADMIN_ROLE this

variable {core access this s msgSender} {s' : CollateralizationOracleGuardianState}
  {threshold proposed proposed' cached : Nat}

theorem calculateDeviationThresholdBasisPoints_eq_ok_iff {a b deviation : Nat} :
    calculateDeviationThresholdBasisPoints a b = .ok deviation ↔
      Nat.dist a b * BASIS_POINTS_GRANULARITY < 2 ^ 256 ∧ a ≠ 0 ∧
        Nat.dist a b * BASIS_POINTS_GRANULARITY / a = deviation := by
  have delta : (if a < b then b - a else a - b) = Nat.dist a b := by
    unfold Nat.dist
    split <;> omega
  simp only [calculateDeviationThresholdBasisPoints, delta, bind_eq_ok_iff, checkedMul_eq_ok_iff,
    checkedDiv_eq_ok_iff]
  constructor
  · intro given
    rcases given with ⟨scaled, ⟨fits, same⟩, rest⟩
    subst same
    exact ⟨fits, rest⟩
  · intro given
    rcases given with ⟨fits, rest⟩
    exact ⟨_, ⟨fits, rfl⟩, rest⟩

/-- The check measures the change in parts of the proposed value. -/
theorem accepts_iff : Accepts threshold proposed cached ↔
    proposed ≠ 0 ∧ Nat.dist cached proposed * BASIS_POINTS_GRANULARITY < 2 ^ 256 ∧
      Near BASIS_POINTS_GRANULARITY threshold proposed cached proposed ∧ proposed < 2 ^ 255 := by
  simp only [Accepts, calculateDeviationThresholdBasisPoints_eq_ok_iff, Nat.dist_comm cached]
  constructor
  · intro given
    rcases given with ⟨⟨deviation, ⟨fits, nonzero, same⟩, le⟩, signed⟩
    subst same
    refine ⟨nonzero, fits, (near_iff_div_le nonzero).mpr ?_, signed⟩
    rwa [Nat.dist_comm cached]
  · intro given
    rcases given with ⟨nonzero, fits, near, signed⟩
    have le := (near_iff_div_le nonzero).mp near
    rw [Nat.dist_comm cached] at le
    exact ⟨⟨_, ⟨fits, nonzero, rfl⟩, le⟩, signed⟩

instance : Decidable (Accepts threshold proposed cached) := decidable_of_iff _ accepts_iff.symm

/-- What a change leaves. -/
def changed (s : CollateralizationOracleGuardianState)
    (protocolControlledValue userCirculatingFei : Nat) : CollateralizationOracleGuardianState :=
  { s with
    timed := { s.timed with startTime := s.oracleWrapper.timestamp }
    oracleWrapper := { s.oracleWrapper with
      timed := { s.oracleWrapper.timed with startTime := s.oracleWrapper.timestamp }
      cachedProtocolControlledValue := protocolControlledValue
      cachedUserCirculatingFei := userCirculatingFei
      cachedProtocolEquity := protocolControlledValue - userCirculatingFei } }

theorem setCache_iff {protocolControlledValue userCirculatingFei : Nat} :
    setCache core access this s msgSender protocolControlledValue userCirculatingFei = .ok s' ↔
      Able core access this s msgSender ∧
      Accepts s.deviationThresholdBasisPoints protocolControlledValue
        s.oracleWrapper.cachedProtocolControlledValue ∧
      Accepts s.deviationThresholdBasisPoints userCirculatingFei
        s.oracleWrapper.cachedUserCirculatingFei ∧
      s' = changed s protocolControlledValue userCirculatingFei := by
  simp only [setCache, CollateralizationOracleWrapper.setCache, onlyGuardianOrGovernor,
    onlyGovernorOrAdmin, bind_eq_ok_iff, require_eq_ok_iff, toInt256_eq_ok_iff,
    checkedIntSub_eq_ok_iff, assert_eq_ok_iff, pure_eq_ok_iff]
  constructor
  · intro given
    rcases given with ⟨_, role, _, ended, d, measured, _, le, d', measured', _, le', v, ⟨signed,
      same⟩, w, ⟨signed', same'⟩, equity, ⟨_, difference⟩, wrapper, ⟨_, obeyed, set⟩, _, _, result⟩
    subst same
    subst same'
    subst difference
    subst set
    exact ⟨⟨role, ended, obeyed⟩, ⟨⟨d, measured, le⟩, signed⟩, ⟨⟨d', measured', le'⟩, signed'⟩,
      result.symm⟩
  · intro given
    rcases given with ⟨⟨role, ended, obeyed⟩, ⟨⟨d, measured, le⟩, signed⟩, ⟨⟨d', measured', le'⟩,
      signed'⟩, result⟩
    exact ⟨(), role, (), ended, d, measured, (), le, d', measured', (), le', _, ⟨signed, rfl⟩, _,
      ⟨signed', rfl⟩, _, ⟨by omega, rfl⟩, _, ⟨(), obeyed, rfl⟩, (), rfl, result.symm⟩

/-! ## What is small for the cached values -/

/-- The value that is closest to the cached one among those that may be accepted. -/
def closest (cached : Nat) : Nat := max 1 (min cached (2 ^ 255 - 1))

/-- If anything is accepted, the closest value is. -/
theorem accepts_closest (accepts : Accepts threshold proposed cached) :
    Accepts threshold (closest cached) cached := by
  obtain ⟨nonzero, fits, near, signed⟩ := accepts_iff.mp accepts
  unfold closest
  rcases Nat.eq_zero_or_pos cached with zero | positive
  · subst zero
    apply accepts_iff.mpr
    refine ⟨by decide, by decide, ?_, by decide⟩
    exact near.between (Nat.zero_lt_one) (Nat.pos_of_ne_zero nonzero)
  · apply accepts_iff.mpr
    rcases Nat.lt_or_ge cached (2 ^ 255) with small | large
    · rw [show max 1 (min cached (2 ^ 255 - 1)) = cached by omega]
      refine ⟨positive.ne', ?_, ?_, small⟩
      · rw [Nat.dist_self]
        decide
      · unfold Near
        rw [Nat.dist_self, Nat.zero_mul]
        exact Nat.mul_pos (Nat.succ_pos _) positive
    · rw [show max 1 (min cached (2 ^ 255 - 1)) = 2 ^ 255 - 1 by omega]
      have closer : Nat.dist cached (2 ^ 255 - 1) ≤ Nat.dist cached proposed := by
        rw [Nat.dist_eq_sub_of_le_right (by omega), Nat.dist_eq_sub_of_le_right (by omega)]
        omega
      have scaled := Nat.mul_le_mul_right BASIS_POINTS_GRANULARITY closer
      refine ⟨by decide, Nat.lt_of_le_of_lt scaled fits, ?_, by decide⟩
      calc Nat.dist cached (2 ^ 255 - 1) * BASIS_POINTS_GRANULARITY
        _ ≤ Nat.dist cached proposed * BASIS_POINTS_GRANULARITY := scaled
        _ < (threshold + 1) * proposed := near
        _ ≤ (threshold + 1) * (2 ^ 255 - 1) := Nat.mul_le_mul_left _ (by omega)

/-- The check refuses the least value above the cached one that is not small for it. -/
def Narrow (threshold cached : Nat) : Prop :=
  ¬ Accepts threshold (leastBeyond BASIS_POINTS_GRANULARITY threshold cached) cached

/-- The check is narrow for each of the cached values, or refuses every value for the other. -/
def Bounded (s : CollateralizationOracleGuardianState) : Prop :=
  (Accepts s.deviationThresholdBasisPoints (closest s.oracleWrapper.cachedUserCirculatingFei)
      s.oracleWrapper.cachedUserCirculatingFei →
    Narrow s.deviationThresholdBasisPoints s.oracleWrapper.cachedProtocolControlledValue) ∧
  (Accepts s.deviationThresholdBasisPoints (closest s.oracleWrapper.cachedProtocolControlledValue)
      s.oracleWrapper.cachedProtocolControlledValue →
    Narrow s.deviationThresholdBasisPoints s.oracleWrapper.cachedUserCirculatingFei)

instance : Decidable (Narrow threshold cached) := inferInstanceAs (Decidable (¬ _))

instance : Decidable (Bounded s) := inferInstanceAs (Decidable (_ ∧ _))

/-- A move by at most the threshold in basis points of the value before, up to less than one. -/
def Small (threshold cached cached' : Nat) : Prop :=
  Near BASIS_POINTS_GRANULARITY threshold cached cached cached'

instance (cached' : Nat) : Decidable (Small threshold cached cached') :=
  inferInstanceAs (Decidable (Near _ _ _ _ _))

/-- Both values are moved by little. -/
structure Moves (s s' : CollateralizationOracleGuardianState) : Prop where
  pcv : Small s.deviationThresholdBasisPoints s.oracleWrapper.cachedProtocolControlledValue
    s'.oracleWrapper.cachedProtocolControlledValue
  fei : Small s.deviationThresholdBasisPoints s.oracleWrapper.cachedUserCirculatingFei
    s'.oracleWrapper.cachedUserCirculatingFei

/-- What is accepted and not raised beyond is small. -/
theorem small_of_lt (accepts : Accepts threshold proposed cached)
    (below : proposed < leastBeyond BASIS_POINTS_GRANULARITY threshold cached) :
    Small threshold cached proposed := by
  obtain ⟨_, _, near, _⟩ := accepts_iff.mp accepts
  rcases Nat.lt_or_ge cached proposed with above | le
  · exact (lt_leastBeyond_iff (by decide) above).mp below
  · exact near.of_le le

/-- All that is accepted is small exactly if the check is narrow. -/
theorem narrow_iff : Narrow threshold cached ↔
    ∀ proposed, Accepts threshold proposed cached → Small threshold cached proposed := by
  have above : cached < leastBeyond BASIS_POINTS_GRANULARITY threshold cached :=
    Nat.lt_of_lt_of_le (Nat.lt_succ_self cached) (le_max_left _ _)
  constructor
  · intro narrow proposed accepts
    rcases Nat.lt_or_ge proposed (leastBeyond BASIS_POINTS_GRANULARITY threshold cached) with
      below | beyond
    · exact small_of_lt accepts below
    · refine absurd (accepts_iff.mpr ?_) narrow
      obtain ⟨_, fits, near, signed⟩ := accepts_iff.mp accepts
      refine ⟨Nat.ne_of_gt (Nat.zero_lt_of_lt above), ?_, near.between above beyond,
        Nat.lt_of_le_of_lt beyond signed⟩
      rw [Nat.dist_eq_sub_of_le (by omega)] at fits ⊢
      exact Nat.lt_of_le_of_lt (Nat.mul_le_mul_right _ (by omega)) fits
  · intro always accepts
    have small := always _ accepts
    exact Nat.lt_irrefl _ ((lt_leastBeyond_iff (by decide) above).mpr small)

/-- **Not narrow.** From 10 ^ 8 to 2 ^ 240 the check always accepts too large a value. -/
theorem not_narrow (threshold_le : threshold ≤ BASIS_POINTS_GRANULARITY)
    (large : 10 ^ 8 ≤ cached) (small : cached < 2 ^ 240) : ¬ Narrow threshold cached := by
  have most : leastBeyond BASIS_POINTS_GRANULARITY threshold cached ≤ 3 * cached + 1 := by
    unfold leastBeyond
    apply max_le (by omega)
    rw [← Nat.lt_succ_iff, Nat.div_lt_iff_lt_mul (by decide)]
    have scaled : (BASIS_POINTS_GRANULARITY + threshold + 1) * cached ≤ 20001 * cached :=
      Nat.mul_le_mul_right _ (by unfold BASIS_POINTS_GRANULARITY at *; omega)
    unfold BASIS_POINTS_GRANULARITY at *
    omega
  have above : cached < leastBeyond BASIS_POINTS_GRANULARITY threshold cached :=
    Nat.lt_of_lt_of_le (Nat.lt_succ_self cached) (le_max_left _ _)
  intro narrow
  apply narrow
  apply accepts_iff.mpr
  refine ⟨Nat.ne_of_gt (Nat.zero_lt_of_lt above), ?_, ?_, by omega⟩
  · rw [Nat.dist_eq_sub_of_le (by omega)]
    unfold BASIS_POINTS_GRANULARITY at *
    omega
  · apply near_leastBeyond (by decide)
    calc BASIS_POINTS_GRANULARITY * BASIS_POINTS_GRANULARITY
      _ ≤ cached := large
      _ = 1 * 1 * cached := by omega
      _ ≤ (threshold + 1) * (threshold + 1) * cached :=
          Nat.mul_le_mul_right _ (Nat.mul_le_mul (by omega) (by omega))

/-- **Changes.** The calls that the caller can make move both values by little exactly if the
state is bounded. -/
theorem moves_iff :
    (∀ protocolControlledValue userCirculatingFei s',
      setCache core access this s msgSender protocolControlledValue userCirculatingFei = .ok s' →
        Moves s s') ↔ (Able core access this s msgSender → Bounded s) := by
  constructor
  · intro always able
    constructor
    · intro settable
      apply narrow_iff.mpr
      intro proposed accepts
      exact (always _ _ _ (setCache_iff.mpr ⟨able, accepts, settable, rfl⟩)).pcv
    · intro settable
      apply narrow_iff.mpr
      intro proposed accepts
      exact (always _ _ _ (setCache_iff.mpr ⟨able, settable, accepts, rfl⟩)).fei
  · intro bounded pcv fei s' succeeds
    obtain ⟨able, accepts, accepts', same⟩ := setCache_iff.mp succeeds
    obtain ⟨narrow, narrow'⟩ := bounded able
    subst same
    exact ⟨narrow_iff.mp (narrow (accepts_closest accepts')) _ accepts,
      narrow_iff.mp (narrow' (accepts_closest accepts)) _ accepts'⟩

/-! ## Changes in a row -/

/-- The threshold stays, and the cache is written by the guardian's changes only. -/
def Event.Quiet : Event → Prop
  | .setCache _ _ _ _ _ => True
  | .setDeviationThresholdBasisPoints _ _ _ => False
  | .wrapper (.call call) => ¬ call.action.Writes
  | .wrapper (.elapse _) => True

/-- A change in a bounded state, or one that raises neither value beyond what is small for it. -/
def Modest (this : Address) (s : CollateralizationOracleGuardianState) : Event → Prop
  | .setCache core access msgSender protocolControlledValue userCirculatingFei =>
      (Able core access this s msgSender → Bounded s) ∨
        protocolControlledValue.toNat < leastBeyond BASIS_POINTS_GRANULARITY
            s.deviationThresholdBasisPoints s.oracleWrapper.cachedProtocolControlledValue ∧
          userCirculatingFei.toNat < leastBeyond BASIS_POINTS_GRANULARITY
            s.deviationThresholdBasisPoints s.oracleWrapper.cachedUserCirculatingFei
  | _ => True

/-- A change counts one. -/
def Event.changes : Event → Nat
  | .setCache _ _ _ _ _ => 1
  | _ => 0

/-- The number of changes that are accepted in a run. -/
def changes (this : Address) (s : CollateralizationOracleGuardianState) (events : List Event) :
    Nat :=
  total (step this) (fun _ event _ => event.changes) s events

/-- What `k` changes lead to. -/
structure Drifted (s : CollateralizationOracleGuardianState) (k : Nat)
    (s' : CollateralizationOracleGuardianState) : Prop where
  threshold : s'.deviationThresholdBasisPoints = s.deviationThresholdBasisPoints
  duration : s'.timed.duration = s.timed.duration
  pcv : Grown BASIS_POINTS_GRANULARITY s.deviationThresholdBasisPoints k
    s.oracleWrapper.cachedProtocolControlledValue s'.oracleWrapper.cachedProtocolControlledValue
  fei : Grown BASIS_POINTS_GRANULARITY s.deviationThresholdBasisPoints k
    s.oracleWrapper.cachedUserCirculatingFei s'.oracleWrapper.cachedUserCirculatingFei
  /-- they are at least a period apart -/
  spaced : s.timed.startTime + k * s.timed.duration ≤ s'.timed.startTime

theorem Drifted.refl (s : CollateralizationOracleGuardianState) : Drifted s 0 s where
  threshold := rfl
  duration := rfl
  pcv := Grown.refl
  fei := Grown.refl
  spaced := by rw [Nat.zero_mul, Nat.add_zero]

theorem Drifted.trans {s t u : CollateralizationOracleGuardianState} {j k : Nat}
    (first : Drifted s j t) (second : Drifted t k u) : Drifted s (j + k) u where
  threshold := second.threshold.trans first.threshold
  duration := second.duration.trans first.duration
  pcv := first.pcv.trans (first.threshold ▸ second.pcv)
  fei := first.fei.trans (first.threshold ▸ second.fei)
  spaced := by
    have later := second.spaced
    rw [first.duration] at later
    calc s.timed.startTime + (j + k) * s.timed.duration
      _ = s.timed.startTime + j * s.timed.duration + k * s.timed.duration := by ring
      _ ≤ t.timed.startTime + k * s.timed.duration := Nat.add_le_add_right first.spaced _
      _ ≤ u.timed.startTime := later

/-- What does not write the cache leaves it as it is. -/
theorem cached_of_step {w w' : CollateralizationOracleWrapperState}
    {event : CollateralizationOracleWrapper.Event} (reads : (Event.wrapper event).Quiet)
    (succeeds : CollateralizationOracleWrapper.step w event = .ok w') :
    w'.cachedProtocolControlledValue = w.cachedProtocolControlledValue ∧
      w'.cachedUserCirculatingFei = w.cachedUserCirculatingFei := by
  cases event with
  | elapse seconds =>
      cases succeeds
      exact ⟨rfl, rfl⟩
  | call call =>
      have same := CollateralizationOracleWrapper.sameCache_of_perform reads succeeds
      exact ⟨same.pcv, same.fei⟩

/-- Small changes of accepted values. -/
theorem moves_of_modest {core : Core} {access : AccessControl} {this msgSender : Address}
    {s s' : CollateralizationOracleGuardianState}
    {protocolControlledValue userCirculatingFei : UInt256}
    (modest : Modest this s
      (.setCache core access msgSender protocolControlledValue userCirculatingFei))
    (succeeds : setCache core access this s msgSender protocolControlledValue.toNat
      userCirculatingFei.toNat = .ok s') : Moves s s' := by
  rcases modest with bounded | ⟨below, below'⟩
  · exact moves_iff.mpr bounded _ _ _ succeeds
  · obtain ⟨_, accepts, accepts', same⟩ := setCache_iff.mp succeeds
    subst same
    exact ⟨small_of_lt accepts below, small_of_lt accepts' below'⟩

theorem drifted_of_step {event : Event} (quiet : event.Quiet) (modest : Modest this s event)
    (succeeds : step this s event = .ok s') : Drifted s event.changes s' := by
  cases event with
  | setCache core access msgSender pcv fei =>
      have moves := moves_of_modest modest succeeds
      obtain ⟨able, _, _, same⟩ := setCache_iff.mp succeeds
      obtain ⟨_, ended⟩ := Timed.afterTime_eq_ok_iff.mp able.ended
      subst same
      refine ⟨rfl, rfl, grown_of_near moves.pcv, grown_of_near moves.fei, ?_⟩
      rw [Event.changes, Nat.one_mul]
      exact ended
  | setDeviationThresholdBasisPoints core msgSender threshold => exact absurd quiet id
  | wrapper event =>
      obtain ⟨w, steps, same⟩ := bind_eq_ok_iff.mp succeeds
      cases same
      obtain ⟨pcv, fei⟩ := cached_of_step quiet steps
      refine ⟨rfl, rfl, ?_, ?_, Drifted.refl s |>.spaced⟩
      · rw [pcv]
        exact Grown.refl
      · rw [fei]
        exact Grown.refl

/-- **Drift.** What a run of small changes leads to. -/
theorem drifted_run {events : List Event}
    (along : Along (step this) (fun s event => event.Quiet ∧ Modest this s event) s events) :
    Drifted s (changes this s events) (run (step this) s events) := by
  unfold changes
  refine (run_total (I := fun _ => True) (R := Drifted) Drifted.refl ?_ ?_ trivial along).2
  · intro s t u j k first second
    exact first.trans second
  · intro s event s' _ ⟨quiet, modest⟩ succeeds
    exact ⟨trivial, drifted_of_step quiet modest succeeds⟩

/-- **Bounds.** What a caller can change is small for the cached values exactly if the state is
bounded, and never is for a cached value from 10 ^ 8 to 2 ^ 240 that can be changed. What is not
raised changes by little in any case. The changes of a run that are small in these ways multiply
a value by no more than the threshold, and one basis point, for each. -/
theorem bounded_iff (this : Address) (s : CollateralizationOracleGuardianState) :
    (∀ core access msgSender,
      (∀ protocolControlledValue userCirculatingFei s',
        setCache core access this s msgSender protocolControlledValue userCirculatingFei =
          .ok s' → Moves s s') ↔ (Able core access this s msgSender → Bounded s)) ∧
    (∀ cached, 10 ^ 8 ≤ cached → cached < 2 ^ 240 →
      ¬ Narrow s.deviationThresholdBasisPoints cached) ∧
    (∀ core access msgSender protocolControlledValue userCirculatingFei s',
      setCache core access this s msgSender protocolControlledValue userCirculatingFei = .ok s' →
        (protocolControlledValue ≤ s.oracleWrapper.cachedProtocolControlledValue →
          Small s.deviationThresholdBasisPoints s.oracleWrapper.cachedProtocolControlledValue
            s'.oracleWrapper.cachedProtocolControlledValue) ∧
        (userCirculatingFei ≤ s.oracleWrapper.cachedUserCirculatingFei →
          Small s.deviationThresholdBasisPoints s.oracleWrapper.cachedUserCirculatingFei
            s'.oracleWrapper.cachedUserCirculatingFei)) ∧
    (∀ events, Along (step this) (fun s event => event.Quiet ∧ Modest this s event) s events →
      Drifted s (changes this s events) (run (step this) s events)) := by
  refine ⟨fun _ _ _ => moves_iff, fun _ large small => not_narrow s.threshold_le large small, ?_,
    fun _ along => drifted_run along⟩
  intro core access msgSender pcv fei s' succeeds
  obtain ⟨_, accepts, accepts', same⟩ := setCache_iff.mp succeeds
  subst same
  obtain ⟨_, _, near, _⟩ := accepts_iff.mp accepts
  obtain ⟨_, _, near', _⟩ := accepts_iff.mp accepts'
  exact ⟨near.of_le, near'.of_le⟩

end CollateralizationOracleGuardian

namespace CollateralizationOracleGuardian.Sample

open CollateralizationOracleWrapper.Sample (access stats)

/-- The guardian is 9, and the contract at `0xDD` has the admin role of the wrapper. -/
def core : Core where
  isMinter _ := false
  isBurner _ := false
  isPCVController _ := false
  isGovernor _ := false
  isGuardian a := a = 9

def oracleAdmin : AccessControl where
  hasRole role a := role = 2 ∧ a = 0xDD
  roles := ⟨1, 2, 3, 4⟩

/-- A wrapper that was updated at a value of 2000 and 100 FEI. -/
def oracleWrapper : CollateralizationOracleWrapperState :=
  run CollateralizationOracleWrapper.step CollateralizationOracleWrapper.Sample.start
    [.call ⟨core, access, fun _ => .error (.reason ""), 7, .initializer 2 0xCC 600 500⟩,
      CollateralizationOracleWrapper.Sample.update 2000]

/-- Changes of up to 10% each minute. -/
def start : CollateralizationOracleGuardianState where
  timed := ⟨1000, 60, by decide⟩
  deviationThresholdBasisPoints := 1000
  threshold_le := by decide
  oracleWrapper

theorem deploys : construct oracleWrapper 60 1000 = .ok start := rfl

def after : CollateralizationOracleGuardianState :=
  run (step 0xDD) start [.wrapper (.elapse 60)]

/-- A lower value, then a higher one that is still small. -/
def events : List Event :=
  [.setCache core oracleAdmin 9 1900 100, .wrapper (.elapse 60),
    .setCache core oracleAdmin 9 2000 105]

end CollateralizationOracleGuardian.Sample

namespace CollateralizationOracleGuardian

/-- From 2000 to 2222 there are 999 basis points of 2222, but 1110 of 2000. -/
theorem bounded_counterexample : construct Sample.oracleWrapper 60 1000 = .ok Sample.start ∧
    ∃ s', setCache Sample.core Sample.oracleAdmin 0xDD Sample.after 9 2222 100 = .ok s' ∧
      ¬ Moves Sample.after s' ∧ ¬ Drifted Sample.after 1 s' := by
  have able : Able Sample.core Sample.oracleAdmin 0xDD Sample.after 9 := ⟨rfl, rfl, rfl⟩
  refine ⟨Sample.deploys, changed Sample.after 2222 100, setCache_iff.mpr ⟨able, ?_, ?_, rfl⟩,
    ?_, ?_⟩
  · decide +kernel
  · decide +kernel
  · intro moves
    exact absurd moves.pcv (by decide +kernel)
  · intro drifted
    exact absurd drifted.pcv (by unfold Deviation.Grown; decide +kernel)

/-- Two changes, and what they multiply the value by at most. -/
theorem bounded_iff_sample : changes 0xDD Sample.after Sample.events = 2 ∧
    Drifted Sample.after 2 (run (step 0xDD) Sample.after Sample.events) := by
  refine ⟨rfl, (bounded_iff 0xDD Sample.after).2.2.2 Sample.events ?_⟩
  refine ⟨⟨trivial, .inr ?_⟩, ⟨trivial, trivial⟩, ⟨trivial, .inr ?_⟩, trivial⟩
  · decide +kernel
  · decide +kernel

end CollateralizationOracleGuardian

end FeiProtocol
