import FeiProtocol.Evm.Ledger
import FeiProtocol.Refs.CoreRef
import FeiProtocol.Utils.Timed

/-!
# `ERC20Dripper`

A deposit that sends a fixed amount of one token to a target, at most once a period. The
state carries the block's timestamp, and each event the timestamp at which it was emitted.

`drip_of_drip` and `drip_succeeds` say when a drip succeeds and what it does.
-/

namespace FeiProtocol

open Evm

inductive ERC20DripperEvent : Type where
  | timed (e : TimedEvent)
  | WithdrawERC20 (caller token receiver : Address) (amount : Nat)
  | Dripped (amount : Nat)
  deriving DecidableEq, Repr

structure ERC20DripperState : Type where
  timed : Timed
  target : Address
  token : Address
  amountToDrip : Nat
  _paused : Bool
  ledger : Ledger
  /-- the timestamp of the current block -/
  timestamp : Nat
  /-- with their timestamps, oldest first -/
  events : List (Nat × ERC20DripperEvent)

instance : Pausable ERC20DripperState where
  paused s := s._paused
  withPaused s b := { s with _paused := b }

namespace ERC20Dripper

open CoreRef

variable (core : Core) (this : Address)

/-! ## The contract -/

def construct (ledger : Ledger) (timestamp : Nat) (_target : Address)
    (_frequency _amountToDrip : UInt256) (_token : Address) :
    Except Revert ERC20DripperState := do
  let (timed, updated) ← Timed.construct _frequency.toNat
  require (_target ≠ 0) "ERC20Dripper: invalid address"
  require (_token ≠ 0) "ERC20Dripper: invalid token address"
  require (_amountToDrip.toNat > 0) "ERC20Dripper: invalid drip amount"
  let (timed, reset) := timed._initTimed timestamp
  return { timed
           target := _target
           token := _token
           amountToDrip := _amountToDrip.toNat
           _paused := false
           ledger
           timestamp
           events := [(timestamp, .timed updated), (timestamp, .timed reset)] }

def emit (s : ERC20DripperState) (e : ERC20DripperEvent) : ERC20DripperState :=
  { s with events := s.events ++ [(s.timestamp, e)] }

def _withdrawERC20 (s : ERC20DripperState) (msgSender token receiver : Address) (amount : Nat) :
    Except Revert ERC20DripperState := do
  let ledger ← s.ledger.safeTransfer this token receiver amount
  return emit { s with ledger } (.WithdrawERC20 msgSender token receiver amount)

def withdrawERC20 (s : ERC20DripperState) (msgSender token receiver : Address)
    (amount : UInt256) : Except Revert ERC20DripperState := do
  onlyPCVController core msgSender
  _withdrawERC20 this s msgSender token receiver amount.toNat

def drip (s : ERC20DripperState) (msgSender : Address) : Except Revert ERC20DripperState := do
  s.timed.afterTime s.timestamp
  whenNotPaused s
  let (timed, reset) := s.timed._initTimed s.timestamp
  let s := emit { s with timed } (.timed reset)
  let s ← _withdrawERC20 this s msgSender s.token s.target s.amountToDrip
  return emit s (.Dripped s.amountToDrip)

def withdraw (s : ERC20DripperState) (msgSender receiver : Address) (amountUnderlying : UInt256) :
    Except Revert ERC20DripperState := do
  onlyPCVController core msgSender
  _withdrawERC20 this s msgSender s.token receiver amountUnderlying.toNat

def balance (s : ERC20DripperState) : Nat := s.ledger.balanceOf s.token this

/-! ## Drips -/

variable {core this} {s s' : ERC20DripperState} {msgSender token receiver : Address} {amount : Nat}

/-- The amount of a drip event. -/
def ERC20DripperEvent.dripped : ERC20DripperEvent → Option Nat
  | .Dripped amount => some amount
  | _ => none

/-- The times and amounts of the drips so far, oldest first. -/
def drips (s : ERC20DripperState) : List (Nat × Nat) :=
  s.events.filterMap fun e => (ERC20DripperEvent.dripped e.2).map fun amount => (e.1, amount)

theorem _withdrawERC20_eq_ok_iff :
    _withdrawERC20 this s msgSender token receiver amount = .ok s' ↔
      ∃ ledger, s.ledger.safeTransfer this token receiver amount = .ok ledger ∧
        emit { s with ledger } (.WithdrawERC20 msgSender token receiver amount) = s' := by
  simp only [_withdrawERC20, bind_eq_ok_iff, pure_eq_ok_iff]

/-- What a drip does, and when it can. -/
structure Drip (this : Address) (s s' : ERC20DripperState) : Prop where
  started : s.timed.startTime ≠ 0
  ended : s.timed.startTime + s.timed.duration ≤ s.timestamp
  active : s._paused = false
  moved : Ledger.Moved s.ledger s'.ledger ⟨this, s.token, this, s.target, s.amountToDrip⟩
  timed : s'.timed = { s.timed with startTime := s.timestamp }
  target : s'.target = s.target
  token : s'.token = s.token
  amountToDrip : s'.amountToDrip = s.amountToDrip
  timestamp : s'.timestamp = s.timestamp
  drips : drips s' = drips s ++ [(s.timestamp, s.amountToDrip)]

theorem drip_of_drip (succeeds : drip this s msgSender = .ok s') : Drip this s s' := by
  simp only [drip, bind_eq_ok_iff, pure_eq_ok_iff, Timed.afterTime_eq_ok_iff,
    whenNotPaused_eq_ok_iff, exists_const, _withdrawERC20_eq_ok_iff] at succeeds
  obtain ⟨⟨started, ended⟩, active, m, ⟨ledger, paid, same⟩, last⟩ := succeeds
  subst same
  subst last
  refine ⟨started, ended, active, Ledger.safeTransfer_moved paid, rfl, rfl, rfl, rfl, rfl, ?_⟩
  simp [drips, emit, ERC20DripperEvent.dripped]

theorem drip_succeeds (started : s.timed.startTime ≠ 0)
    (ended : s.timed.startTime + s.timed.duration ≤ s.timestamp) (active : s._paused = false)
    (covered : s.amountToDrip ≤ balance this s) (msgSender : Address) :
    ∃ s', drip this s msgSender = .ok s' := by
  obtain ⟨ledger, paid⟩ := Ledger.safeTransfer_succeeds covered s.target
  simp only [drip, bind_eq_ok_iff, pure_eq_ok_iff, Timed.afterTime_eq_ok_iff,
    whenNotPaused_eq_ok_iff, exists_const, _withdrawERC20_eq_ok_iff]
  exact ⟨_, ⟨started, ended⟩, active, _, ⟨ledger, paid, rfl⟩, rfl⟩

/-- What every other call leaves alone: the configuration, the timer and the drips. -/
structure Quiet (s s' : ERC20DripperState) : Prop where
  timed : s'.timed = s.timed
  target : s'.target = s.target
  token : s'.token = s.token
  amountToDrip : s'.amountToDrip = s.amountToDrip
  timestamp_le : s.timestamp ≤ s'.timestamp
  drips : drips s' = drips s

theorem _withdrawERC20_quiet
    (succeeds : _withdrawERC20 this s msgSender token receiver amount = .ok s') :
    Quiet s s' := by
  obtain ⟨ledger, _, same⟩ := _withdrawERC20_eq_ok_iff.mp succeeds
  subst same
  refine ⟨rfl, rfl, rfl, rfl, Nat.le_refl _, ?_⟩
  simp [drips, emit, ERC20DripperEvent.dripped]

end ERC20Dripper

end FeiProtocol
