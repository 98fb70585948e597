import FeiProtocol.Utils.GlobalRateLimitedMinter
import FeiProtocol.Utils.Timed

/-!
# `PCVDripController`

A controller that moves a fixed amount from one deposit to another once a period and mints an
incentive for the caller. The incentive is drawn from a rate limit that is configured from the
same two numbers: the incentive as the cap, and the incentive by the period, rounded down, as
the rate.

* `Charged`: the buffer is full until the first drip, and emptied by each.
* `due_drip_succeeds_iff`: a drip that is due succeeds exactly if the rate, rounded down, has
  refilled the incentive; so it always does if the period divides the incentive.

What the deposits do is a parameter (`PCVDeposits`), on a world of their own and on FEI.
-/

namespace FeiProtocol

open Evm

/-- The deposits, as the controller calls them. -/
structure PCVDeposits (W : Type) : Type where
  balance : W → FeiState → Address → Except Revert Nat
  /-- by the caller, from a deposit, to a receiver -/
  withdraw : W → FeiState → Address → Address → Address → Nat → Except Revert (W × FeiState)
  deposit : W → FeiState → Address → Address → Except Revert (W × FeiState)

structure PCVDripControllerEnv (W : Type) : Type where
  fei : FeiEnv
  access : AccessControl
  deposits : PCVDeposits W
  this : Address

structure PCVDripControllerState (W : Type) : Type extends RateLimited where
  timed : Timed
  source : Address
  target : Address
  dripAmount : Nat
  incentiveAmount : Nat
  CONTRACT_ADMIN_ROLE : Bytes32
  _paused : Bool
  fei : FeiState
  world : W
  /-- the timestamp of the current block -/
  timestamp : Nat

instance {W : Type} : Pausable (PCVDripControllerState W) where
  paused s := s._paused
  withPaused s b := { s with _paused := b }

namespace RateLimited

/-- A limiter right after its deployment. -/
structure Full (r : RateLimited) (timestamp perSecond limit : Nat) (partly : Bool) : Prop where
  rate : r.rateLimitPerSecond = perSecond
  cap : r.bufferCap = limit
  stored : r.bufferStored = limit
  lastUsed : r.lastBufferUsedTime = timestamp
  partialAction : r.doPartialAction = partly

theorem full_of_construct {r : RateLimited} {timestamp : Nat} {max perSecond limit : UInt256}
    {partly : Bool} (deploys : construct timestamp max perSecond limit partly = .ok r) :
    Full r timestamp perSecond.toNat limit.toNat partly := by
  simp only [construct, bind_eq_ok_iff, pure_eq_ok_iff] at deploys
  obtain ⟨m, capped, _, _, same⟩ := deploys
  have bucket := (relimited_of_setBufferCap capped).bucket
  subst same
  exact ⟨rfl, congrArg TokenBucket.cap bucket, rfl, congrArg TokenBucket.lastUsed bucket, rfl⟩

end RateLimited

/-! ## What the controller inherits -/

namespace RateLimitedMinter

def MAX_FEI_LIMIT_PER_SECOND : UInt256 := BitVec.ofNat 256 (10000 * 10 ^ 18)

def construct (timestamp : Nat) (_feiLimitPerSecond _mintingBufferCap : UInt256)
    (_doPartialMint : Bool) : Except Revert RateLimited :=
  RateLimited.construct timestamp MAX_FEI_LIMIT_PER_SECOND _feiLimitPerSecond _mintingBufferCap
    _doPartialMint

def _mintFei (env : FeiEnv) (this : Address) (r : RateLimited) (timestamp : Nat) (fei : FeiState)
    (receiver : Address) (amount : Nat) : Except Revert (RateLimited × FeiState) := do
  let (r, mintAmount) ← r._depleteBuffer timestamp amount
  let fei ← CoreRef._mintFei env this fei receiver mintAmount
  return (r, fei)

end RateLimitedMinter

namespace PCVDripController

open CoreRef

variable {W : Type} (env : PCVDripControllerEnv W) (s : PCVDripControllerState W)

/-- From `Incentivized`: nothing happens without the minter role. -/
def _incentivize (msgSender : Address) : Except Revert (PCVDripControllerState W) :=
  if env.fei.core.isMinter env.this then do
    let (rateLimited, fei) ← RateLimitedMinter._mintFei env.fei env.this s.toRateLimited
      s.timestamp s.fei msgSender s.incentiveAmount
    return { s with toRateLimited := rateLimited, fei }
  else return s

/-! ## The contract -/

def construct (timestamp : Nat) (fei : FeiState) (world : W) (_source _target : Address)
    (_frequency _dripAmount _incentiveAmount : UInt256) :
    Except Revert (PCVDripControllerState W) := do
  let (timed, _) ← Timed.construct _frequency.toNat
  let feiLimitPerSecond ← checkedDiv _incentiveAmount.toNat _frequency.toNat
  let rateLimited ← RateLimitedMinter.construct timestamp (BitVec.ofNat 256 feiLimitPerSecond)
    _incentiveAmount false
  let (timed, _) := timed._initTimed timestamp
  return { toRateLimited := rateLimited
           timed
           source := _source
           target := _target
           dripAmount := _dripAmount.toNat
           incentiveAmount := _incentiveAmount.toNat
           CONTRACT_ADMIN_ROLE := env.access.roles.GOVERNOR
           _paused := false
           fei
           world
           timestamp }

def dripEligible : Except Revert Bool := do
  let balance ← env.deposits.balance s.world s.fei s.target
  return balance < s.dripAmount

def drip (msgSender : Address) : Except Revert (PCVDripControllerState W) := do
  s.timed.afterTime s.timestamp
  whenNotPaused s
  let eligible ← dripEligible env s
  require (eligible = true) "PCVDripController: not eligible"
  let (timed, _) := s.timed._initTimed s.timestamp
  let s ← _incentivize env { s with timed } msgSender
  let (world, fei) ← env.deposits.withdraw s.world s.fei env.this s.source s.target s.dripAmount
  let (world, fei) ← env.deposits.deposit world fei env.this s.target
  return { s with world, fei }

def setSource (msgSender newSource : Address) : Except Revert (PCVDripControllerState W) := do
  onlyGovernor env.fei.core msgSender
  require (newSource ≠ 0) "PCVDripController: zero address"
  return { s with source := newSource }

def setTarget (msgSender newTarget : Address) : Except Revert (PCVDripControllerState W) := do
  onlyGovernor env.fei.core msgSender
  require (newTarget ≠ 0) "PCVDripController: zero address"
  return { s with target := newTarget }

def setDripAmount (msgSender : Address) (newDripAmount : UInt256) :
    Except Revert (PCVDripControllerState W) := do
  onlyGovernorOrAdmin env.fei.core env.access s.CONTRACT_ADMIN_ROLE msgSender
  require (newDripAmount ≠ 0) "PCVDripController: zero drip amount"
  return { s with dripAmount := newDripAmount.toNat }

def setIncentiveAmount (msgSender : Address) (newIncentiveAmount : UInt256) :
    Except Revert (PCVDripControllerState W) := do
  onlyGovernor env.fei.core msgSender
  return { s with incentiveAmount := newIncentiveAmount.toNat }

/-! ## Transactions -/

/-- A call of the controller. Between calls time passes, and others do what they do with the
deposits and with FEI. -/
inductive Action (W : Type) : Type where
  | drip (sender : Address)
  | setSource (sender newSource : Address)
  | setTarget (sender newTarget : Address)
  | setDripAmount (sender : Address) (newDripAmount : UInt256)
  | setIncentiveAmount (sender : Address) (newIncentiveAmount : UInt256)
  | setRateLimitPerSecond (sender : Address) (newRateLimitPerSecond : UInt256)
  | setBufferCap (sender : Address) (newBufferCap : UInt256)
  | setContractAdminRole (sender : Address) (newContractAdminRole : Bytes32)
  | pause (sender : Address)
  | unpause (sender : Address)
  | others (world : W) (fei : FeiState)
  | elapse (seconds : Nat)

def step : Action W → Except Revert (PCVDripControllerState W)
  | .drip sender => drip env s sender
  | .setSource sender newSource => setSource env s sender newSource
  | .setTarget sender newTarget => setTarget env s sender newTarget
  | .setDripAmount sender newDripAmount => setDripAmount env s sender newDripAmount
  | .setIncentiveAmount sender newIncentiveAmount =>
      setIncentiveAmount env s sender newIncentiveAmount
  | .setRateLimitPerSecond sender newRateLimitPerSecond => do
      let rateLimited ← s.toRateLimited.setRateLimitPerSecond env.fei.core env.access s.timestamp
        s.CONTRACT_ADMIN_ROLE sender newRateLimitPerSecond
      return { s with toRateLimited := rateLimited }
  | .setBufferCap sender newBufferCap => do
      let rateLimited ← s.toRateLimited.setBufferCap env.fei.core env.access s.timestamp
        s.CONTRACT_ADMIN_ROLE sender newBufferCap
      return { s with toRateLimited := rateLimited }
  | .setContractAdminRole sender newContractAdminRole => do
      onlyGovernor env.fei.core sender
      return { s with CONTRACT_ADMIN_ROLE := newContractAdminRole }
  | .pause sender => pause env.fei.core s sender
  | .unpause sender => unpause env.fei.core s sender
  | .others world fei => .ok { s with world, fei }
  | .elapse seconds => .ok { s with timestamp := s.timestamp + seconds }

/-- The incentive and the rate limit are left as the constructor set them. -/
def Action.Unconfiguring : Action W → Prop
  | .setIncentiveAmount _ _ | .setRateLimitPerSecond _ _ | .setBufferCap _ _ => False
  | _ => True

/-! ## The buffer along a run -/

/-- The configuration, and what it makes of the buffer: all of it is there until the first drip,
and each drip takes all and restarts both clocks. -/
structure Charged (frequency incentive : Nat) (s : PCVDripControllerState W) : Prop where
  duration : s.timed.duration = frequency
  incentiveAmount : s.incentiveAmount = incentive
  rate : s.rateLimitPerSecond = incentive / frequency
  cap : s.bufferCap = incentive
  whole : s.doPartialAction = false
  lastUsed : s.lastBufferUsedTime = s.timed.startTime
  stored : s.bufferStored = incentive ∨ s.bufferStored = 0

variable {env s} {s' : PCVDripControllerState W} {frequency incentive timestamp : Nat}
  {sender : Address} {fei : FeiState} {world : W}

/-- A drip with the minter role depletes the buffer by the incentive. -/
theorem dripped (role : env.fei.core.isMinter env.this = true)
    (succeeds : drip env s sender = .ok s') : ∃ (r : RateLimited) (used : Nat) (p : W × FeiState),
      s.toRateLimited._depleteBuffer s.timestamp s.incentiveAmount = .ok (r, used) ∧
      s' = { s with
        toRateLimited := r
        timed := { s.timed with startTime := s.timestamp }
        world := p.1
        fei := p.2 } := by
  simp only [drip, _incentivize, RateLimitedMinter._mintFei, role, if_true, bind_eq_ok_iff,
    pure_eq_ok_iff] at succeeds
  obtain ⟨_, _, _, _, _, _, _, _, m, ⟨⟨r, fei⟩, ⟨⟨r', used⟩, depleted, f, minted, paired⟩, mid⟩, p,
    _, p', _, same⟩ := succeeds
  cases paired
  subst mid
  subst same
  exact ⟨r', used, p', depleted, rfl⟩

theorem charged_of_drip (role : env.fei.core.isMinter env.this = true)
    (charged : Charged frequency incentive s) (succeeds : drip env s sender = .ok s') :
    Charged frequency incentive s' := by
  obtain ⟨r, used, p, depleted, same⟩ := dripped role succeeds
  have draw := RateLimited.depleted_of_depleteBuffer depleted
  have all := draw.whole charged.whole
  have covered := draw.covered
  have le := s.toRateLimited.bucket.level_le_cap s.timestamp
  have cap : s.toRateLimited.bucket.cap = incentive := charged.cap
  have stored : r.bufferStored = s.toRateLimited.bucket.level s.timestamp - used :=
    congrArg TokenBucket.stored draw.bucket
  have amount := charged.incentiveAmount
  subst same
  refine ⟨charged.duration, charged.incentiveAmount, ?_, ?_, ?_, ?_, ?_⟩
  · exact (congrArg TokenBucket.rate draw.bucket).trans charged.rate
  · exact (congrArg TokenBucket.cap draw.bucket).trans charged.cap
  · exact draw.doPartialAction.trans charged.whole
  · exact congrArg TokenBucket.lastUsed draw.bucket
  · refine .inr ?_
    simp only [stored]
    omega

theorem charged_of_step {a : Action W} (role : env.fei.core.isMinter env.this = true)
    (charged : Charged frequency incentive s) (regular : a.Unconfiguring)
    (succeeds : step env s a = .ok s') : Charged frequency incentive s' := by
  cases a with
  | drip sender => exact charged_of_drip role charged succeeds
  | setSource sender newSource =>
      simp only [step, setSource, bind_eq_ok_iff, pure_eq_ok_iff] at succeeds
      obtain ⟨_, _, _, _, same⟩ := succeeds
      subst same
      exact { charged with }
  | setTarget sender newTarget =>
      simp only [step, setTarget, bind_eq_ok_iff, pure_eq_ok_iff] at succeeds
      obtain ⟨_, _, _, _, same⟩ := succeeds
      subst same
      exact { charged with }
  | setDripAmount sender newDripAmount =>
      simp only [step, setDripAmount, bind_eq_ok_iff, pure_eq_ok_iff] at succeeds
      obtain ⟨_, _, _, _, same⟩ := succeeds
      subst same
      exact { charged with }
  | setIncentiveAmount sender newIncentiveAmount => exact absurd regular id
  | setRateLimitPerSecond sender newRateLimitPerSecond => exact absurd regular id
  | setBufferCap sender newBufferCap => exact absurd regular id
  | setContractAdminRole sender newContractAdminRole =>
      obtain ⟨_, _, same⟩ := bind_eq_ok_iff.mp succeeds
      cases same
      exact { charged with }
  | pause sender =>
      have same := pause_eq succeeds
      subst same
      exact { charged with }
  | unpause sender =>
      have same := unpause_eq succeeds
      subst same
      exact { charged with }
  | others world fei =>
      cases succeeds
      exact { charged with }
  | elapse seconds =>
      cases succeeds
      exact { charged with }

theorem charged_of_construct {_source _target : Address}
    {_frequency _dripAmount _incentiveAmount : UInt256}
    (deploys : construct env timestamp fei world _source _target _frequency _dripAmount
      _incentiveAmount = .ok s) : Charged _frequency.toNat _incentiveAmount.toNat s := by
  simp only [construct, bind_eq_ok_iff, pure_eq_ok_iff, checkedDiv_eq_ok_iff] at deploys
  obtain ⟨⟨timed, e⟩, started, rate, ⟨positive, quotient⟩, r, limited, same⟩ := deploys
  have full := RateLimited.full_of_construct limited
  have narrow : rate < 2 ^ 256 := by
    rw [← quotient]
    exact Nat.lt_of_le_of_lt (Nat.div_le_self _ _) _incentiveAmount.isLt
  rw [Timed.construct, dif_pos positive] at started
  cases started
  subst same
  refine ⟨rfl, rfl, ?_, full.cap, full.partialAction, full.lastUsed, .inl full.stored⟩
  rw [quotient]
  exact full.rate.trans (Nat.mod_eq_of_lt narrow)

theorem charged_run (role : env.fei.core.isMinter env.this = true)
    (charged : Charged frequency incentive s) {actions : List (Action W)}
    (regular : ∀ a ∈ actions, a.Unconfiguring) :
    Charged frequency incentive (run (step env) s actions) := by
  apply run_invariant (I := Charged frequency incentive) (A := Action.Unconfiguring) _ charged
    regular
  intro s a s' charged regular succeeds
  exact charged_of_step role charged regular succeeds

/-! ## Drips that are due -/

/-- The timer has ended, nothing is paused, the target is eligible, FEI would mint the incentive
and the deposits would do their part. -/
structure Due (env : PCVDripControllerEnv W) (s : PCVDripControllerState W) (sender : Address) :
    Prop where
  ended : s.timed.isTimeEnded s.timestamp = .ok true
  unpaused : s._paused = false
  eligible : dripEligible env s = .ok true
  delivers : ∃ fei p q,
    _mintFei env.fei env.this s.fei sender s.incentiveAmount = .ok fei ∧
    env.deposits.withdraw s.world fei env.this s.source s.target s.dripAmount = .ok p ∧
    env.deposits.deposit p.1 p.2 env.this s.target = .ok q

/-- There is an incentive, its buffer can be computed, and it has been refilled since the last
drip, if there was one: until then all of it is stored. -/
structure Refilled (s : PCVDripControllerState W) : Prop where
  positive : s.incentiveAmount ≠ 0
  fits : s.toRateLimited.Fits s.timestamp
  refilled : s.bufferStored = s.incentiveAmount ∨
    s.incentiveAmount ≤
      s.incentiveAmount / s.timed.duration * (s.timestamp - s.timed.startTime)

instance : Decidable (Refilled s) :=
  decidable_of_iff (s.incentiveAmount ≠ 0 ∧
      (s.lastBufferUsedTime ≤ s.timestamp ∧
        s.rateLimitPerSecond * (s.timestamp - s.lastBufferUsedTime) < 2 ^ 256 ∧
        s.bufferStored + s.rateLimitPerSecond * (s.timestamp - s.lastBufferUsedTime) < 2 ^ 256) ∧
      (s.bufferStored = s.incentiveAmount ∨
        s.incentiveAmount ≤
          s.incentiveAmount / s.timed.duration * (s.timestamp - s.timed.startTime)))
    ⟨fun ⟨positive, fits, refilled⟩ => ⟨positive, fits, refilled⟩,
      fun ⟨positive, fits, refilled⟩ => ⟨positive, fits, refilled⟩⟩

theorem Charged.level (charged : Charged frequency incentive s) :
    s.toRateLimited.bucket.level s.timestamp =
      min (s.bufferStored + s.incentiveAmount / s.timed.duration *
        (s.timestamp - s.timed.startTime)) s.incentiveAmount := by
  rw [charged.incentiveAmount, charged.duration, ← charged.lastUsed, ← charged.rate]
  simp only [TokenBucket.level, RateLimited.bucket, charged.cap]

/-- The buffer covers the incentive exactly when it has been refilled. -/
theorem Charged.refilled_iff (charged : Charged frequency incentive s) : Refilled s ↔
    ∃ buffer, s.toRateLimited.buffer s.timestamp = .ok buffer ∧ buffer ≠ 0 ∧
      s.incentiveAmount ≤ buffer := by
  have level := charged.level
  have stored := charged.stored
  rw [← charged.incentiveAmount] at stored
  constructor
  · intro given
    rcases given with ⟨positive, fits, refilled⟩
    refine ⟨_, RateLimited.buffer_eq_ok_iff.mpr ⟨fits, rfl⟩, ?_⟩
    rw [level]
    omega
  · intro given
    rcases given with ⟨buffer, gets, nonempty, covered⟩
    obtain ⟨fits, same⟩ := RateLimited.buffer_eq_ok_iff.mp gets
    rw [level] at same
    refine ⟨?_, fits, ?_⟩
    · omega
    · omega

theorem drip_iff (role : env.fei.core.isMinter env.this = true)
    (charged : Charged frequency incentive s) (due : Due env s sender) :
    (∃ s', step env s (.drip sender) = .ok s') ↔ Refilled s := by
  rw [charged.refilled_iff]
  constructor
  · intro given
    rcases given with ⟨s', succeeds⟩
    obtain ⟨r, used, p, depleted, _⟩ := dripped role succeeds
    simp only [RateLimited._depleteBuffer, charged.whole, Bool.false_eq_true, false_and, if_false,
      bind_eq_ok_iff, require_eq_ok_iff] at depleted
    obtain ⟨buffer, gets, _, nonempty, _, covered, _⟩ := depleted
    exact ⟨buffer, gets, nonempty, covered⟩
  · intro given
    rcases given with ⟨buffer, gets, nonempty, covered⟩
    have depleted := RateLimited.depleteBuffer_of_covered charged.whole gets nonempty covered
    obtain ⟨fei, p, q, mints, withdraws, deposits⟩ := due.delivers
    have after : s.timed.afterTime s.timestamp = .ok () :=
      Timed.afterTime_eq_ok_iff.mpr (Timed.isTimeEnded_eq_ok_true_iff.mp due.ended)
    simp only [step, drip, _incentivize, RateLimitedMinter._mintFei, role, if_true, bind_eq_ok_iff,
      pure_eq_ok_iff]
    exact ⟨_, (), after, (), require_eq_ok_iff.mpr due.unpaused, true, due.eligible, (),
      require_eq_ok_iff.mpr rfl, _, ⟨_, ⟨_, depleted, fei, mints, rfl⟩, rfl⟩, p, withdraws, q,
      deposits, rfl⟩

/-- A period that divides the incentive refills it in time. -/
theorem Charged.refilled_of_dvd (charged : Charged frequency incentive s)
    (divides : frequency ∣ incentive) (positive : incentive ≠ 0)
    (fits : s.toRateLimited.Fits s.timestamp)
    (ended : s.timed.isTimeEnded s.timestamp = .ok true) : Refilled s := by
  obtain ⟨_, past⟩ := Timed.isTimeEnded_eq_ok_true_iff.mp ended
  refine ⟨charged.incentiveAmount ▸ positive, fits, .inr ?_⟩
  rw [charged.duration] at past
  rw [charged.incentiveAmount, charged.duration]
  calc incentive
    _ = incentive / frequency * frequency := (Nat.div_mul_cancel divides).symm
    _ ≤ incentive / frequency * (s.timestamp - s.timed.startTime) :=
        Nat.mul_le_mul_left _ (by omega)

/-- **Drips.** In every state of every run from a deployment that leaves the incentive and the
limits as they are, with the minter role: a drip that is due succeeds exactly if the buffer has
been refilled since the last one, at the incentive by the period rounded down. So with an
incentive that the period divides none fails, as long as the buffer can be computed. -/
theorem due_drip_succeeds_iff {fei₀ : FeiState} {world₀ : W} {_source _target : Address}
    {_frequency _dripAmount _incentiveAmount : UInt256} {s₀ : PCVDripControllerState W}
    (deploys : construct env timestamp fei₀ world₀ _source _target _frequency _dripAmount
      _incentiveAmount = .ok s₀) (role : env.fei.core.isMinter env.this = true)
    {actions : List (Action W)} (regular : ∀ a ∈ actions, a.Unconfiguring)
    (reached : s = run (step env) s₀ actions) (due : Due env s sender) :
    ((∃ s', step env s (.drip sender) = .ok s') ↔ Refilled s) ∧
    (_frequency.toNat ∣ _incentiveAmount.toNat → _incentiveAmount ≠ 0 →
      s.toRateLimited.Fits s.timestamp → ∃ s', step env s (.drip sender) = .ok s') := by
  have charged := charged_run role (charged_of_construct deploys) regular
  rw [← reached] at charged
  refine ⟨drip_iff role charged due, fun divides positive fits => ?_⟩
  apply (drip_iff role charged due).mpr
  apply charged.refilled_of_dvd divides _ fits due.ended
  exact fun zero => positive (BitVec.eq_of_toNat_eq zero)

end PCVDripController

namespace PCVDripController.Sample

/-- Deposits that have nothing to check. -/
def deposits : PCVDeposits Unit where
  balance _ _ _ := .ok 0
  withdraw w fei _ _ _ _ := .ok (w, fei)
  deposit w fei _ _ := .ok (w, fei)

/-- The controller at `0xAA` may mint. -/
def env : PCVDripControllerEnv Unit where
  fei := GlobalRateLimitedMinter.Sample.env.fei
  access := GlobalRateLimitedMinter.Sample.env.access
  deposits := deposits
  this := 0xAA

/-- An incentive of 100 every three seconds, which a rate of 33 does not refill. -/
def start : PCVDripControllerState Unit where
  MAX_RATE_LIMIT_PER_SECOND := 10000 * 10 ^ 18
  rateLimitPerSecond := 33
  lastBufferUsedTime := 1000
  bufferCap := 100
  doPartialAction := false
  bufferStored := 100
  timed := ⟨1000, 3, by decide⟩
  source := 5
  target := 6
  dripAmount := 50
  incentiveAmount := 100
  CONTRACT_ADMIN_ROLE := 1
  _paused := false
  fei := GlobalRateLimitedMinter.Sample.fei
  world := ()
  timestamp := 1000

theorem deploys :
    construct env 1000 GlobalRateLimitedMinter.Sample.fei () 5 6 3 50 100 = .ok start := rfl

/-- A drip when the first period has ended, and `seconds` more. -/
def actions (seconds : Nat) : List (Action Unit) := [.elapse 3, .drip 7, .elapse seconds]

def reached (seconds : Nat) : PCVDripControllerState Unit := run (step env) start (actions seconds)

theorem regular (seconds : Nat) : ∀ a ∈ actions seconds, a.Unconfiguring := by
  simp [actions, Action.Unconfiguring]

theorem due (seconds : Nat) (ended : 3 ≤ seconds) : Due env (reached seconds) 7 where
  ended := Timed.isTimeEnded_eq_ok_true_iff.mpr
    ⟨(by decide : (1003 : Nat) ≠ 0), Nat.add_le_add_left ended 1003⟩
  unpaused := rfl
  eligible := rfl
  delivers := ⟨_, _, _, rfl, rfl, rfl⟩

end PCVDripController.Sample

namespace PCVDripController

/-- The second drip is due after three seconds, with a buffer of 99. -/
theorem due_drip_succeeds_counterexample :
    construct Sample.env 1000 GlobalRateLimitedMinter.Sample.fei () 5 6 3 50 100 =
      .ok Sample.start ∧
    (∀ a ∈ Sample.actions 3, a.Unconfiguring) ∧ Due Sample.env (Sample.reached 3) 7 ∧
    step Sample.env (Sample.reached 3) (.drip 7) =
      .error (.reason "RateLimited: rate limit hit") :=
  ⟨Sample.deploys, Sample.regular 3, Sample.due 3 (by decide), rfl⟩

/-- After four seconds there is enough. -/
theorem due_drip_succeeds_iff_sample :
    ∃ s', step Sample.env (Sample.reached 4) (.drip 7) = .ok s' :=
  (due_drip_succeeds_iff Sample.deploys rfl (Sample.regular 4) rfl (Sample.due 4 (by decide))).1.mpr
    (by decide +kernel)

end PCVDripController

end FeiProtocol
