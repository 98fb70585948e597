import FeiProtocol.Evm.Machine
import FeiProtocol.Math.Spacing
import FeiProtocol.Pcv.ERC20Dripper

/-!
# `MerkleRedeemerDripper`

The dripper that keeps the redeemer supplied: it drips only while the target holds less than
one drip.

* `step_cases`: a successful transaction is a drip, or leaves the timer and the drips alone.
* `drips_bounded`: the target never holds two drips' worth right after one, drips are a
  period apart and so bounded over every interval, and a drip that reverts
  postpones nothing.

A transaction is a call of the dripper, or a call that somebody, the target for one, makes on
a token directly. Between transactions time passes.
-/

namespace FeiProtocol

open Evm ERC20Dripper

namespace MerkleRedeemerDripper

variable (core : Core) (this : Address)

/-! ## The contract -/

def construct (ledger : Ledger) (timestamp : Nat) (_target : Address)
    (_dripPeriod _amountToDrip : UInt256) (_token : Address) :
    Except Revert ERC20DripperState :=
  ERC20Dripper.construct ledger timestamp _target _dripPeriod _amountToDrip _token

def drip (s : ERC20DripperState) (msgSender : Address) : Except Revert ERC20DripperState := do
  require (s.ledger.balanceOf s.token s.target < s.amountToDrip)
    "MerkleRedeemerDripper: dripper target already has enough tokens."
  ERC20Dripper.drip this s msgSender

/-! ## Transactions -/

inductive Action : Type where
  | drip (sender : Address)
  | withdraw (sender receiver : Address) (amountUnderlying : UInt256)
  | withdrawERC20 (sender token receiver : Address) (amount : UInt256)
  | pause (sender : Address)
  | unpause (sender : Address)
  | token (sender : Address) (c : Ledger.TokenCall)
  | elapse (seconds : Nat)
  deriving DecidableEq, Repr

def step (s : ERC20DripperState) : Action → Except Revert ERC20DripperState
  | .drip sender => drip this s sender
  | .withdraw sender receiver amountUnderlying =>
      withdraw core this s sender receiver amountUnderlying
  | .withdrawERC20 sender token receiver amount =>
      withdrawERC20 core this s sender token receiver amount
  | .pause sender => CoreRef.pause core s sender
  | .unpause sender => CoreRef.unpause core s sender
  | .token sender c => do
      let ledger ← s.ledger.perform sender c
      return { s with ledger }
  | .elapse seconds => .ok { s with timestamp := s.timestamp + seconds }

variable {core this} {s s' s₀ : ERC20DripperState} {msgSender : Address}

/-! ## What a transaction does -/

theorem drip_eq_ok_iff : drip this s msgSender = .ok s' ↔
    s.ledger.balanceOf s.token s.target < s.amountToDrip ∧
      ERC20Dripper.drip this s msgSender = .ok s' := by
  simp only [drip, bind_eq_ok_iff, require_eq_ok_iff, exists_const]

/-- A successful transaction is a drip to a target that holds less than one, or it
leaves the timer and the drips alone. -/
theorem step_cases {a : Action} (succeeds : step core this s a = .ok s') :
    (∃ sender, a = .drip sender ∧ s.ledger.balanceOf s.token s.target < s.amountToDrip ∧
      Drip this s s') ∨
    Quiet s s' := by
  cases a with
  | drip sender =>
      obtain ⟨short, dripped⟩ := drip_eq_ok_iff.mp succeeds
      exact .inl ⟨sender, rfl, short, drip_of_drip dripped⟩
  | withdraw sender receiver amountUnderlying =>
      obtain ⟨_, _, withdrawn⟩ := bind_eq_ok_iff.mp succeeds
      exact .inr (_withdrawERC20_quiet withdrawn)
  | withdrawERC20 sender token receiver amount =>
      obtain ⟨_, _, withdrawn⟩ := bind_eq_ok_iff.mp succeeds
      exact .inr (_withdrawERC20_quiet withdrawn)
  | pause sender =>
      have same := CoreRef.pause_eq succeeds
      subst same
      exact .inr ⟨rfl, rfl, rfl, rfl, Nat.le_refl _, rfl⟩
  | unpause sender =>
      have same := CoreRef.unpause_eq succeeds
      subst same
      exact .inr ⟨rfl, rfl, rfl, rfl, Nat.le_refl _, rfl⟩
  | token sender c =>
      obtain ⟨ledger, _, same⟩ := bind_eq_ok_iff.mp succeeds
      cases same
      exact .inr ⟨rfl, rfl, rfl, rfl, Nat.le_refl _, rfl⟩
  | elapse seconds =>
      cases succeeds
      exact .inr ⟨rfl, rfl, rfl, rfl, Nat.le_add_right _ _, rfl⟩

/-! ## The pace of the drips -/

/-- When the last successful drip was, or else when the timer was started. -/
def lastDrip (s₀ s : ERC20DripperState) : Nat :=
  ((drips s).map Prod.fst).getLastD s₀.timed.startTime

/-- The configuration is that of `s₀`, and the timer holds the time of the last drip. -/
structure Paced (s₀ s : ERC20DripperState) : Prop where
  duration : s.timed.duration = s₀.timed.duration
  target : s.target = s₀.target
  token : s.token = s₀.token
  amountToDrip : s.amountToDrip = s₀.amountToDrip
  startTime : s.timed.startTime = lastDrip s₀ s
  before : ∀ d ∈ drips s, d.1 ≤ s.timed.startTime
  amounts : ∀ d ∈ drips s, d.2 = s₀.amountToDrip
  spaced : Spacing.Spaced Prod.fst s₀.timed.duration (drips s)

theorem Paced.drip (paced : Paced s₀ s) (dripped : Drip this s s') : Paced s₀ s' := by
  have ended := dripped.ended
  rw [paced.duration] at ended
  refine
    { duration := ?_
      target := dripped.target.trans paced.target
      token := dripped.token.trans paced.token
      amountToDrip := dripped.amountToDrip.trans paced.amountToDrip
      startTime := ?_
      before := ?_
      amounts := ?_
      spaced := ?_ }
  · rw [dripped.timed]
    exact paced.duration
  · rw [lastDrip, dripped.timed, dripped.drips, List.map_append]
    simp
  · intro d mem
    rw [dripped.timed]
    rw [dripped.drips, List.mem_append, List.mem_singleton] at mem
    rcases mem with earlier | last
    · have le := paced.before d earlier
      show d.1 ≤ s.timestamp
      omega
    · rw [last]
  · intro d mem
    rw [dripped.drips, List.mem_append, List.mem_singleton] at mem
    rcases mem with earlier | last
    · exact paced.amounts d earlier
    · rw [last]
      exact paced.amountToDrip
  · rw [dripped.drips]
    apply paced.spaced.concat
    intro d earlier
    have le := paced.before d earlier
    show d.1 + s₀.timed.duration ≤ s.timestamp
    omega

theorem Paced.quiet (paced : Paced s₀ s) (quiet : Quiet s s') : Paced s₀ s' := by
  obtain ⟨timed, target, token, amountToDrip, _, drips⟩ := quiet
  refine ⟨?_, target.trans paced.target, token.trans paced.token,
    amountToDrip.trans paced.amountToDrip, ?_, ?_, ?_, ?_⟩
  · rw [timed]
    exact paced.duration
  · rw [timed, lastDrip, drips]
    exact paced.startTime
  · rw [timed, drips]
    exact paced.before
  · rw [drips]
    exact paced.amounts
  · rw [drips]
    exact paced.spaced

theorem run_paced (core : Core) (this : Address) (paced : Paced s₀ s₀) (actions : List Action) :
    Paced s₀ (run (step core this) s₀ actions) := by
  apply run_invariant (I := Paced s₀) (A := fun _ => True)
  · intro s a s' paced _ succeeds
    rcases step_cases succeeds with ⟨_, _, _, dripped⟩ | quiet
    · exact paced.drip dripped
    · exact paced.quiet quiet
  · exact paced
  · intro _ _
    trivial

/-! ## Deployment -/

variable {ledger : Ledger} {timestamp : Nat} {_target _token : Address}
  {_dripPeriod _amountToDrip : UInt256}

/-- What the constructor leaves. -/
structure Deployed (s₀ : ERC20DripperState) (timestamp : Nat) (_target : Address)
    (_dripPeriod _amountToDrip : UInt256) (_token : Address) : Prop where
  startTime : s₀.timed.startTime = timestamp
  duration : s₀.timed.duration = _dripPeriod.toNat
  target : s₀.target = _target
  token : s₀.token = _token
  amountToDrip : s₀.amountToDrip = _amountToDrip.toNat
  drips : drips s₀ = []

theorem deployed_of_construct
    (deploys : construct ledger timestamp _target _dripPeriod _amountToDrip _token = .ok s₀) :
    Deployed s₀ timestamp _target _dripPeriod _amountToDrip _token := by
  simp only [construct, ERC20Dripper.construct, Timed.construct, bind_eq_ok_iff, pure_eq_ok_iff,
    require_eq_ok_iff, exists_const] at deploys
  obtain ⟨⟨timed, updated⟩, timer, _, _, _, same⟩ := deploys
  split at timer
  · cases timer
    subst same
    exact ⟨rfl, rfl, rfl, rfl, rfl, rfl⟩
  · cases timer

theorem Deployed.paced (deployed : Deployed s₀ timestamp _target _dripPeriod _amountToDrip _token) :
    Paced s₀ s₀ := by
  refine ⟨rfl, rfl, rfl, rfl, ?_, ?_, ?_, ?_⟩
  · rw [lastDrip, deployed.drips]
    rfl
  · rw [deployed.drips]
    exact List.forall_mem_nil _
  · rw [deployed.drips]
    exact List.forall_mem_nil _
  · rw [deployed.drips]
    exact List.Pairwise.nil

/-! ## Exposure and rate -/

/-- Right after a drip the target holds less than two. -/
theorem target_lt (short : s.ledger.balanceOf s.token s.target < s.amountToDrip)
    (dripped : Drip this s s') :
    s'.ledger.balanceOf s.token s.target < 2 * s.amountToDrip := by
  have exact := dripped.moved.balance s.token s.target
  simp only [true_and, if_true] at exact
  omega

theorem drip_succeeds_iff (msgSender : Address) : (∃ s', drip this s msgSender = .ok s') ↔
    s.timed.startTime ≠ 0 ∧ s.timed.startTime + s.timed.duration ≤ s.timestamp ∧
      s._paused = false ∧ s.ledger.balanceOf s.token s.target < s.amountToDrip ∧
      s.amountToDrip ≤ balance this s := by
  constructor
  · intro given
    rcases given with ⟨s', succeeds⟩
    obtain ⟨short, inner⟩ := drip_eq_ok_iff.mp succeeds
    have dripped := drip_of_drip inner
    exact ⟨dripped.started, dripped.ended, dripped.active, short, dripped.moved.covered⟩
  · intro given
    rcases given with ⟨started, ended, active, short, covered⟩
    obtain ⟨s', inner⟩ := drip_succeeds started ended active covered msgSender
    exact ⟨s', drip_eq_ok_iff.mpr ⟨short, inner⟩⟩

/-- **Exposure and rate.** From deployment on, whatever happens to the token: a drip moves
exactly one amount and leaves the target with less than two; drips are at least a
period apart, and so bounded over every interval; and one that reverts changes nothing,
so that the next can be had a period after the last that succeeded. -/
theorem drips_bounded
    (deploys : construct ledger timestamp _target _dripPeriod _amountToDrip _token = .ok s₀)
    {actions : List Action} (reached : s = run (step core this) s₀ actions) :
    (∀ sender s', step core this s (.drip sender) = .ok s' →
      Ledger.Moved s.ledger s'.ledger ⟨this, _token, this, _target, _amountToDrip.toNat⟩ ∧
      drips s' = drips s ++ [(s.timestamp, _amountToDrip.toNat)] ∧
      s'.ledger.balanceOf _token _target < 2 * _amountToDrip.toNat) ∧
    ((drips s).Pairwise fun a b => a.1 + _dripPeriod.toNat ≤ b.1) ∧
    (∀ start L, (((drips s).filter fun d => start ≤ d.1 && d.1 ≤ start + L).map Prod.snd).sum ≤
      _amountToDrip.toNat * (1 + L / _dripPeriod.toNat)) ∧
    (∀ sender e, step core this s (.drip sender) = .error e →
      commit (step core this) s (.drip sender) = s) ∧
    ∀ sender, (∃ s', step core this s (.drip sender) = .ok s') ↔
      lastDrip s₀ s ≠ 0 ∧ lastDrip s₀ s + _dripPeriod.toNat ≤ s.timestamp ∧ s._paused = false ∧
        s.ledger.balanceOf _token _target < _amountToDrip.toNat ∧
        _amountToDrip.toNat ≤ s.ledger.balanceOf _token this := by
  subst reached
  have deployed := deployed_of_construct deploys
  have paced := run_paced core this deployed.paced actions
  generalize run (step core this) s₀ actions = s at paced
  have duration := paced.duration.trans deployed.duration
  have target := paced.target.trans deployed.target
  have token := paced.token.trans deployed.token
  have amount := paced.amountToDrip.trans deployed.amountToDrip
  have positive : 0 < _dripPeriod.toNat := Nat.pos_of_ne_zero (duration ▸ s.timed.duration_ne)
  have spaced := paced.spaced
  rw [deployed.duration] at spaced
  refine ⟨?_, spaced, ?_, ?_, ?_⟩
  · intro sender s' succeeds
    obtain ⟨short, inner⟩ := drip_eq_ok_iff.mp succeeds
    have dripped := drip_of_drip inner
    have below := target_lt short dripped
    rw [target, token, amount] at below
    have moved := dripped.moved
    rw [target, token, amount] at moved
    have drips := dripped.drips
    rw [amount] at drips
    exact ⟨moved, drips, below⟩
  · intro start L
    apply spaced.sum_window_le positive
    intro d mem
    exact Nat.le_of_eq ((paced.amounts d mem).trans deployed.amountToDrip)
  · intro sender e reverts
    exact commit_of_error reverts
  · intro sender
    have exactly : (∃ s', drip this s sender = .ok s') ↔ _ := drip_succeeds_iff sender
    rw [paced.startTime, duration, target, token, amount, balance, token] at exactly
    exact exactly

end MerkleRedeemerDripper

namespace MerkleRedeemerDripper.Sample

def core : Core where
  isMinter _ := false
  isBurner _ := false
  isPCVController _ := false
  isGovernor _ := false
  isGuardian _ := false

/-- The dripper holds 300 of token 10. -/
def ledger : Ledger where
  erc20 _ :=
    { balanceOf := fun a => if a = 0xAA then 300 else 0
      allowance := fun _ _ => 0
      totalSupply := 300
      unlimited := false }
  transfers := []

/-- 100 every 10 seconds to account 11, from time 1000 on. -/
def start : ERC20DripperState where
  timed := ⟨1000, 10, by decide⟩
  target := 11
  token := 10
  amountToDrip := 100
  _paused := false
  ledger := ledger
  timestamp := 1000
  events := [(1000, .timed (.DurationUpdate 0 10)), (1000, .timed (.TimerReset 1000))]

theorem deploys : construct ledger 1000 11 10 100 10 = .ok start := rfl

/-- The second drip is too early, and the third waits for the target to spend. -/
def actions : List Action :=
  [.elapse 10, .drip 7, .elapse 5, .drip 7, .elapse 7, .drip 7,
    .token 11 (.transfer 10 5 60), .drip 7]

def reached : ERC20DripperState := run (step core 0xAA) start actions

theorem reached_eq : reached = run (step core 0xAA) start actions := rfl

end MerkleRedeemerDripper.Sample

namespace MerkleRedeemerDripper

theorem drips_bounded_sample :
    drips Sample.reached = [(1010, 100), (1022, 100)] ∧
      ((drips Sample.reached).Pairwise fun a b => a.1 + 10 ≤ b.1) ∧
      ¬ ∃ s', step Sample.core 0xAA Sample.reached (.drip 7) = .ok s' := by
  obtain ⟨_, spaced, _, _, exactly⟩ := drips_bounded Sample.deploys Sample.reached_eq
  refine ⟨by decide +kernel, spaced, ?_⟩
  rw [exactly]
  decide +kernel

end MerkleRedeemerDripper

end FeiProtocol
