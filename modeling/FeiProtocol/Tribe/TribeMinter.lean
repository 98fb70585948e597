import FeiProtocol.Evm.Machine
import FeiProtocol.Refs.Constants
import FeiProtocol.Tribe.TribeSteps
import FeiProtocol.Utils.RateLimited

/-!
# `TribeMinter`

The contract that mints TRIBE, under an annual limit on inflation. The limit is kept by a rate
limiter: its cap is what a year may bring, and it refills by as much in a year.

* `step_cases`: what a transaction does to the limiter, and what it puts into circulation.
* `circulated_flow`: what a window puts into circulation is drawn from the buffer.
* `circulated_le_iff`: a year's total is within the limit exactly if the buffer is next to empty
  when the year starts.

A transaction is a call of the contract, or a call that somebody makes on TRIBE, which also keeps
the time. What is put into circulation is read off TRIBE. The pause switch guards nothing here and
is left out, as are the contract's events. The library's `Ownable` is not among the sources: the
owner and its guard behave as that documents.
-/

namespace FeiProtocol

open Evm

structure TribeMinterState : Type extends RateLimited where
  CONTRACT_ADMIN_ROLE : Bytes32
  owner : Address
  annualMaxInflationBasisPoints : Nat
  tribeTreasury : Address
  tribeRewardsDripper : Address
  tribe : TribeState

structure TribeMinterEnv : Type where
  core : Core
  access : AccessControl
  tribe : TribeEnv
  this : Address

namespace TribeMinter

open CoreRef Constants

variable (env : TribeMinterEnv) (s : TribeMinterState)

/-! ## The contract -/

def tribeCirculatingSupply : Except Revert Nat := do
  -- Remove all locked TRIBE from total supply calculation
  let lockedTribe := s.tribe.balances env.this
  let lockedTribe ← (if s.tribeTreasury ≠ 0 then
      checkedAdd lockedTribe (s.tribe.balances s.tribeTreasury)
    else return lockedTribe)
  let lockedTribe ← (if s.tribeRewardsDripper ≠ 0 then
      checkedAdd lockedTribe (s.tribe.balances s.tribeRewardsDripper)
    else return lockedTribe)
  checkedSub s.tribe.totalSupply lockedTribe

def idealBufferCap : Except Revert Nat := do
  let supply ← tribeCirculatingSupply env s
  let scaled ← checkedMul supply s.annualMaxInflationBasisPoints
  return scaled / BASIS_POINTS_GRANULARITY

/-- update the rate limit per second and buffer cap -/
def poke : Except Revert TribeMinterState := do
  let newBufferCap ← idealBufferCap env s
  let oldBufferCap := s.bufferCap
  require (newBufferCap ≠ oldBufferCap) "TribeMinter: No rate limit change needed"
  let limits ← s.toRateLimited._setBufferCap s.tribe.timestamp newBufferCap
  return { s with
    toRateLimited := limits._setRateLimitPerSecond (newBufferCap / ONE_YEAR) }

/-- First transfer maximum amount of held TRIBE: what is left to mint comes with it. -/
def transferHeld (tribe : TribeState) (dst : Address) (amount : Nat) :
    Except Revert (TribeState × Nat) :=
  let _tribeBalance := tribe.balances env.this
  if _tribeBalance ≠ 0 then do
    let transferAmount := min _tribeBalance amount
    let tribe ← Tribe.transfer tribe env.this dst transferAmount
    let mintAmount ← checkedSub amount transferAmount
    let sum ← checkedAdd mintAmount transferAmount
    assert (sum = amount)
    return (tribe, mintAmount)
  else return (tribe, amount)

/-- Then mint if any more is needed -/
def mintRemainder (tribe : TribeState) (dst : Address) (mintAmount : Nat) :
    Except Revert TribeState :=
  if mintAmount ≠ 0 then Tribe.mint tribe env.this dst mintAmount else return tribe

def _mint (dst : Address) (amount : Nat) : Except Revert TribeMinterState := do
  let (tribe, mintAmount) ← transferHeld env s.tribe dst amount
  let tribe ← mintRemainder env tribe dst mintAmount
  return { s with tribe }

def mint (msgSender dst : Address) (amount : Nat) : Except Revert TribeMinterState := do
  onlyGovernorOrAdmin env.core env.access s.CONTRACT_ADMIN_ROLE msgSender
  -- first apply rate limit
  let (limits, _) ← s.toRateLimited._depleteBuffer s.tribe.timestamp amount
  -- then mint
  _mint env { s with toRateLimited := limits } dst amount

def setTribeTreasury (msgSender newTribeTreasury : Address) : Except Revert TribeMinterState := do
  onlyGovernorOrAdmin env.core env.access s.CONTRACT_ADMIN_ROLE msgSender
  return { s with tribeTreasury := newTribeTreasury }

def setTribeRewardsDripper (msgSender newTribeRewardsDripper : Address) :
    Except Revert TribeMinterState := do
  onlyGovernorOrAdmin env.core env.access s.CONTRACT_ADMIN_ROLE msgSender
  return { s with tribeRewardsDripper := newTribeRewardsDripper }

def onlyOwner (msgSender : Address) : Except Revert Unit :=
  require (s.owner = msgSender) "Ownable: caller is not the owner"

def setMinter (msgSender newMinter : Address) : Except Revert TribeMinterState := do
  onlyOwner s msgSender
  require (newMinter ≠ 0) "TribeReserveStabilizer: zero address"
  let tribe ← Tribe.setMinter s.tribe env.this newMinter
  return { s with tribe }

def _setAnnualMaxInflationBasisPoints (newAnnualMaxInflationBasisPoints : Nat) :
    Except Revert TribeMinterState := do
  let oldAnnualMaxInflationBasisPoints := s.annualMaxInflationBasisPoints
  require (newAnnualMaxInflationBasisPoints ≠ 0) "TribeMinter: cannot have 0 inflation"
  -- strictly lower, unless the old inflation is 0 (which is only true upon construction)
  require (newAnnualMaxInflationBasisPoints < oldAnnualMaxInflationBasisPoints ∨
    oldAnnualMaxInflationBasisPoints = 0) "TribeMinter: cannot increase max inflation"
  return { s with annualMaxInflationBasisPoints := newAnnualMaxInflationBasisPoints }

def setAnnualMaxInflationBasisPoints (msgSender : Address)
    (newAnnualMaxInflationBasisPoints : Nat) : Except Revert TribeMinterState := do
  onlyGovernorOrAdmin env.core env.access s.CONTRACT_ADMIN_ROLE msgSender
  _setAnnualMaxInflationBasisPoints s newAnnualMaxInflationBasisPoints

def setContractAdminRole (msgSender : Address) (newContractAdminRole : Bytes32) :
    Except Revert TribeMinterState := do
  onlyGovernor env.core msgSender
  return { s with CONTRACT_ADMIN_ROLE := newContractAdminRole }

/-- `transferOwnership`, to any address but zero. -/
def transferOwnership (msgSender newOwner : Address) : Except Revert TribeMinterState := do
  onlyOwner s msgSender
  require (newOwner ≠ 0) "Ownable: new owner is the zero address"
  return { s with owner := newOwner }

def renounceOwnership (msgSender : Address) : Except Revert TribeMinterState := do
  onlyOwner s msgSender
  return { s with owner := 0 }

/-- The contract before its constructor's body, with `RateLimited(0, 0, 0, false)`. -/
def blank (tribe : TribeState) (deployer : Address) : Except Revert TribeMinterState := do
  let limits ← RateLimited.construct tribe.timestamp 0 0 0 false
  return { toRateLimited := limits
           CONTRACT_ADMIN_ROLE := env.access.roles.GOVERNOR
           owner := deployer
           annualMaxInflationBasisPoints := 0
           tribeTreasury := 0
           tribeRewardsDripper := 0
           tribe }

/-- `_resetBuffer` -/
def _resetBuffer : TribeMinterState := { s with bufferStored := s.bufferCap }

def construct (tribe : TribeState) (deployer : Address) (_annualMaxInflationBasisPoints : Nat)
    (_owner _tribeTreasury _tribeRewardsDripper : Address) : Except Revert TribeMinterState := do
  let s ← blank env tribe deployer
  let s ← _setAnnualMaxInflationBasisPoints s _annualMaxInflationBasisPoints
  let s ← poke env s
  -- start with a full buffer
  let s := _resetBuffer s
  let s ← transferOwnership s deployer _owner
  return { s with
    tribeTreasury := if _tribeTreasury ≠ 0 then _tribeTreasury else s.tribeTreasury
    tribeRewardsDripper :=
      if _tribeRewardsDripper ≠ 0 then _tribeRewardsDripper else s.tribeRewardsDripper }

/-! ## Transactions -/

inductive Action : Type where
  | poke
  | setRateLimitPerSecond (newRateLimitPerSecond : UInt256)
  | setBufferCap (newBufferCap : UInt256)
  | mint (sender dst : Address) (amount : UInt256)
  | setTribeTreasury (sender newTribeTreasury : Address)
  | setTribeRewardsDripper (sender newTribeRewardsDripper : Address)
  | setMinter (sender newMinter : Address)
  | setAnnualMaxInflationBasisPoints (sender : Address)
      (newAnnualMaxInflationBasisPoints : UInt256)
  | setContractAdminRole (sender : Address) (newContractAdminRole : Bytes32)
  | transferOwnership (sender newOwner : Address)
  | renounceOwnership (sender : Address)
  | tribe (a : Tribe.Action)
  deriving DecidableEq, Repr

def step : Action → Except Revert TribeMinterState
  | .poke => poke env s
  | .setRateLimitPerSecond _ => .error (.reason "no-op")
  | .setBufferCap _ => .error (.reason "no-op")
  | .mint sender dst amount => mint env s sender dst amount.toNat
  | .setTribeTreasury sender newTribeTreasury => setTribeTreasury env s sender newTribeTreasury
  | .setTribeRewardsDripper sender newTribeRewardsDripper =>
      setTribeRewardsDripper env s sender newTribeRewardsDripper
  | .setMinter sender newMinter => setMinter env s sender newMinter
  | .setAnnualMaxInflationBasisPoints sender newAnnualMaxInflationBasisPoints =>
      setAnnualMaxInflationBasisPoints env s sender newAnnualMaxInflationBasisPoints.toNat
  | .setContractAdminRole sender newContractAdminRole =>
      setContractAdminRole env s sender newContractAdminRole
  | .transferOwnership sender newOwner => transferOwnership s sender newOwner
  | .renounceOwnership sender => renounceOwnership s sender
  | .tribe a => do
      let tribe ← Tribe.step env.tribe s.tribe a
      return { s with tribe }

/-! ## What enters circulation -/

/-- What a call of `mint` mints, and what it sends from the contract's own balance. -/
def circulatedStep (s : TribeMinterState) (a : Action) (s' : TribeMinterState) : Nat :=
  match a with
  | .mint _ _ _ =>
      (s'.tribe.totalSupply - s.tribe.totalSupply) +
        (s.tribe.balances env.this - s'.tribe.balances env.this)
  | _ => 0

/-- The TRIBE that a run puts into circulation. -/
def circulated (s : TribeMinterState) (window : List Action) : Nat :=
  total (step env) (circulatedStep env) s window

/-- The contract as it is some time after deployment, when the last poke found the circulating
supply `supply` and the limit `basisPoints`. -/
inductive Poked : TribeMinterState → Nat → Nat → Prop where
  | construct {tribe : TribeState} {deployer _owner _tribeTreasury _tribeRewardsDripper : Address}
      {_annualMaxInflationBasisPoints supply : Nat} {created s : TribeMinterState}
      (creates : blank env tribe deployer = .ok created)
      (supply_eq : tribeCirculatingSupply env created = .ok supply)
      (deployed : construct env tribe deployer _annualMaxInflationBasisPoints _owner _tribeTreasury
        _tribeRewardsDripper = .ok s) : Poked s supply _annualMaxInflationBasisPoints
  | poke {s s' : TribeMinterState} {before basisPoints supply : Nat}
      (poked : Poked s before basisPoints)
      (supply_eq : tribeCirculatingSupply env s = .ok supply)
      (succeeds : step env s .poke = .ok s') : Poked s' supply s.annualMaxInflationBasisPoints
  | call {s s' : TribeMinterState} {supply basisPoints : Nat} {a : Action}
      (poked : Poked s supply basisPoints) (other : a ≠ .poke)
      (succeeds : step env s a = .ok s') : Poked s' supply basisPoints

variable {env s} {s' : TribeMinterState} {sender dst : Address} {amount supply basisPoints : Nat}

/-! ## What a mint does -/

/-- The first part of a mint: what is sent, and what is left to mint. -/
structure Sent (this : Address) (t t' : TribeState) (dst : Address) (sent : Nat) : Prop where
  supply : t'.totalSupply = t.totalSupply
  timestamp : t'.timestamp = t.timestamp
  loss_le : t.balances this - t'.balances this ≤ sent
  loss : dst ≠ this → t'.balances this + sent = t.balances this

theorem sent_of_transfer {t t' : TribeState} {src : Address}
    (succeeds : Tribe.transfer t src dst amount = .ok t') : Sent src t t' dst amount := by
  simp only [Tribe.transfer, bind_eq_ok_iff, Tribe.safe96_eq_ok_iff] at succeeds
  obtain ⟨_, ⟨_, same⟩, transfers⟩ := succeeds
  subst same
  have time := Tribe.timestamp_of_transferTokens transfers
  obtain ⟨_, _, enough, _, moves⟩ := Tribe.transferTokens_eq_ok_iff.mp transfers
  have moved := Tribe.moved_of_moveDelegates moves
  have balances := moved.balances
  refine ⟨moved.supply, time, ?_, fun other => ?_⟩
  · rw [balances]
    simp only [Tribe.transferred]
    by_cases own : src = dst
    · subst own
      rw [Function.update_self, Function.update_self]
      omega
    · rw [Function.update_of_ne own, Function.update_self]
      omega
  · rw [balances]
    simp only [Tribe.transferred]
    rw [Function.update_of_ne (Ne.symm other), Function.update_self]
    omega

theorem sent_of_transferHeld {t t' : TribeState} {mintAmount : Nat}
    (succeeds : transferHeld env t dst amount = .ok (t', mintAmount)) :
    ∃ sent, sent + mintAmount = amount ∧ Sent env.this t t' dst sent := by
  unfold transferHeld at succeeds
  dsimp only at succeeds
  split at succeeds
  · simp only [bind_eq_ok_iff, pure_eq_ok_iff, checkedSub_eq_ok_iff, checkedAdd_eq_ok_iff]
      at succeeds
    obtain ⟨tribe, transfers, _, ⟨le, left⟩, _, _, _, _, same⟩ := succeeds
    cases same
    exact ⟨_, by omega, sent_of_transfer transfers⟩
  · cases succeeds
    exact ⟨0, Nat.zero_add _, rfl, rfl, by omega, fun _ => rfl⟩

/-- The second part: what is minted. -/
structure Created (this : Address) (t t' : TribeState) (dst : Address) (created : Nat) :
    Prop where
  supply : t'.totalSupply = t.totalSupply + created
  timestamp : t'.timestamp = t.timestamp
  gain : t.balances this ≤ t'.balances this
  kept : dst ≠ this → t'.balances this = t.balances this

theorem created_of_mint {t t' : TribeState} {this : Address}
    (succeeds : Tribe.mint t sender dst amount = .ok t') : Created this t t' dst amount := by
  have time := Tribe.timestamp_of_mint succeeds
  obtain ⟨_, _, _, _, _, _, moves⟩ := Tribe.mint_eq_ok_iff.mp succeeds
  have moved := Tribe.moved_of_moveDelegates moves
  have balances := moved.balances
  refine ⟨moved.supply, time, ?_, fun other => ?_⟩
  · rw [balances]
    simp only [Tribe.minted]
    by_cases own : this = dst
    · subst own
      rw [Function.update_self]
      exact Nat.le_add_right _ _
    · rw [Function.update_of_ne own]
  · rw [balances]
    simp only [Tribe.minted]
    rw [Function.update_of_ne (Ne.symm other)]

theorem created_of_mintRemainder {t t' : TribeState}
    (succeeds : mintRemainder env t dst amount = .ok t') : Created env.this t t' dst amount := by
  unfold mintRemainder at succeeds
  split at succeeds
  · exact created_of_mint succeeds
  · rename_i none
    cases succeeds
    rw [not_not.mp none]
    exact ⟨rfl, rfl, Nat.le_refl _, fun _ => rfl⟩

/-- A call of `mint` draws on the buffer what it puts into circulation. -/
structure Minted (env : TribeMinterEnv) (s s' : TribeMinterState) (dst : Address) (amount : Nat) :
    Prop where
  depleted : ∃ used,
    RateLimited.Depleted s.toRateLimited s'.toRateLimited s.tribe.timestamp amount used
  timestamp : s'.tribe.timestamp = s.tribe.timestamp
  circulated_le : (s'.tribe.totalSupply - s.tribe.totalSupply) +
    (s.tribe.balances env.this - s'.tribe.balances env.this) ≤ amount
  circulated : dst ≠ env.this → (s'.tribe.totalSupply - s.tribe.totalSupply) +
    (s.tribe.balances env.this - s'.tribe.balances env.this) = amount

theorem minted_of_mint (succeeds : mint env s sender dst amount = .ok s') :
    Minted env s s' dst amount := by
  simp only [mint, _mint, bind_eq_ok_iff, pure_eq_ok_iff] at succeeds
  obtain ⟨_, _, ⟨limits, used⟩, depletes, ⟨tribe, mintAmount⟩, first, tribe', second, same⟩ :=
    succeeds
  subst same
  obtain ⟨sent, sum, held⟩ := sent_of_transferHeld first
  have created := created_of_mintRemainder second
  have supply := held.supply
  have supply' := created.supply
  refine ⟨⟨used, RateLimited.depleted_of_depleteBuffer depletes⟩,
    created.timestamp.trans held.timestamp, ?_, fun other => ?_⟩
  · have loss := held.loss_le
    have gain := created.gain
    dsimp only at supply supply' loss gain ⊢
    omega
  · have loss := held.loss other
    have kept := created.kept other
    dsimp only at supply supply' loss kept ⊢
    omega

/-- A successful transaction is a poke, a mint, or leaves the limiter alone while time passes. -/
theorem step_cases {a : Action} (succeeds : step env s a = .ok s') (other : a ≠ .poke) :
    (∃ sender dst amount, a = .mint sender dst amount ∧ Minted env s s' dst amount.toNat) ∨
    (circulatedStep env s a s' = 0 ∧ s'.toRateLimited = s.toRateLimited ∧
      s.tribe.timestamp ≤ s'.tribe.timestamp) := by
  cases a with
  | poke => exact absurd rfl other
  | setRateLimitPerSecond newRateLimitPerSecond => cases succeeds
  | setBufferCap newBufferCap => cases succeeds
  | mint sender dst amount => exact .inl ⟨sender, dst, amount, rfl, minted_of_mint succeeds⟩
  | setTribeTreasury sender newTribeTreasury =>
      obtain ⟨_, _, same⟩ := bind_eq_ok_iff.mp succeeds
      cases same
      exact .inr ⟨rfl, rfl, Nat.le_refl _⟩
  | setTribeRewardsDripper sender newTribeRewardsDripper =>
      obtain ⟨_, _, same⟩ := bind_eq_ok_iff.mp succeeds
      cases same
      exact .inr ⟨rfl, rfl, Nat.le_refl _⟩
  | setMinter sender newMinter =>
      simp only [step, setMinter, Tribe.setMinter, bind_eq_ok_iff, pure_eq_ok_iff] at succeeds
      obtain ⟨_, _, _, _, _, ⟨_, _, same⟩, same'⟩ := succeeds
      cases same
      cases same'
      exact .inr ⟨rfl, rfl, Nat.le_refl _⟩
  | setAnnualMaxInflationBasisPoints sender newAnnualMaxInflationBasisPoints =>
      simp only [step, setAnnualMaxInflationBasisPoints, _setAnnualMaxInflationBasisPoints,
        bind_eq_ok_iff, pure_eq_ok_iff] at succeeds
      obtain ⟨_, _, _, _, _, _, same⟩ := succeeds
      cases same
      exact .inr ⟨rfl, rfl, Nat.le_refl _⟩
  | setContractAdminRole sender newContractAdminRole =>
      obtain ⟨_, _, same⟩ := bind_eq_ok_iff.mp succeeds
      cases same
      exact .inr ⟨rfl, rfl, Nat.le_refl _⟩
  | transferOwnership sender newOwner =>
      simp only [step, transferOwnership, bind_eq_ok_iff, pure_eq_ok_iff] at succeeds
      obtain ⟨_, _, _, _, same⟩ := succeeds
      cases same
      exact .inr ⟨rfl, rfl, Nat.le_refl _⟩
  | renounceOwnership sender =>
      obtain ⟨_, _, same⟩ := bind_eq_ok_iff.mp succeeds
      cases same
      exact .inr ⟨rfl, rfl, Nat.le_refl _⟩
  | tribe a =>
      obtain ⟨tribe, steps, same⟩ := bind_eq_ok_iff.mp succeeds
      cases same
      exact .inr ⟨rfl, rfl, Tribe.timestamp_le_of_step steps⟩

/-! ## The limits -/

/-- The limits that a poke derives from a year's allowance. -/
structure Limited (s : TribeMinterState) (cap : Nat) : Prop where
  whole : s.doPartialAction = false
  capped : s.bufferCap = cap
  refilled : s.rateLimitPerSecond = cap / ONE_YEAR

theorem whole_of_blank {tribe : TribeState} {deployer : Address}
    (creates : blank env tribe deployer = .ok s) : s.doPartialAction = false := by
  simp only [blank, RateLimited.construct, bind_eq_ok_iff, pure_eq_ok_iff] at creates
  obtain ⟨_, ⟨_, _, _, _, same⟩, same'⟩ := creates
  rw [← same', ← same]

/-- What a poke does. -/
theorem limited_of_poke (succeeds : poke env s = .ok s') (whole : s.doPartialAction = false)
    (supply_eq : tribeCirculatingSupply env s = .ok supply) :
    Limited s' (supply * s.annualMaxInflationBasisPoints / BASIS_POINTS_GRANULARITY) := by
  simp only [poke, idealBufferCap, supply_eq, bind_eq_ok_iff, pure_eq_ok_iff,
    checkedMul_eq_ok_iff] at succeeds
  obtain ⟨_, ⟨_, same, _, ⟨_, scaled⟩, ideal⟩, _, _, limits, sets, same'⟩ := succeeds
  cases same
  subst scaled
  subst ideal
  subst same'
  have relimited := RateLimited.relimited_of_setBufferCap sets
  exact ⟨relimited.doPartialAction.trans whole, congrArg TokenBucket.cap relimited.bucket, rfl⟩

theorem Minted.limited {cap : Nat} (limited : Limited s cap) (minted : Minted env s s' dst amount) :
    Limited s' cap := by
  obtain ⟨used, depleted⟩ := minted.depleted
  refine ⟨depleted.doPartialAction.trans limited.whole, ?_, ?_⟩
  · exact (congrArg TokenBucket.cap depleted.bucket).trans limited.capped
  · exact (congrArg TokenBucket.rate depleted.bucket).trans limited.refilled

theorem Limited.congr {cap : Nat} (limited : Limited s cap)
    (same : s'.toRateLimited = s.toRateLimited) : Limited s' cap := by
  refine ⟨?_, ?_, ?_⟩
  · rw [same]
    exact limited.whole
  · rw [same]
    exact limited.capped
  · rw [same]
    exact limited.refilled

theorem step_limited {cap : Nat} {a : Action} (limited : Limited s cap) (other : a ≠ .poke)
    (succeeds : step env s a = .ok s') : Limited s' cap := by
  rcases step_cases succeeds other with ⟨sender, dst, amount, _, minted⟩ | ⟨_, same, _⟩
  · exact minted.limited limited
  · exact limited.congr same

/-- Until the next poke, the limits are those of the last one. -/
theorem Poked.limited (poked : Poked env s supply basisPoints) :
    Limited s (supply * basisPoints / BASIS_POINTS_GRANULARITY) := by
  induction poked with
  | construct creates supply_eq deployed =>
      simp only [TribeMinter.construct, creates, bind_eq_ok_iff, pure_eq_ok_iff] at deployed
      obtain ⟨_, same, s1, sets, s2, pokes, s3, transfers, same'⟩ := deployed
      cases same
      subst same'
      simp only [_setAnnualMaxInflationBasisPoints, bind_eq_ok_iff, pure_eq_ok_iff] at sets
      obtain ⟨_, _, _, _, same⟩ := sets
      subst same
      simp only [TribeMinter.transferOwnership, bind_eq_ok_iff, pure_eq_ok_iff] at transfers
      obtain ⟨_, _, _, _, same⟩ := transfers
      subst same
      have whole := whole_of_blank creates
      have limited := limited_of_poke pokes whole supply_eq
      exact ⟨limited.whole, limited.capped, limited.refilled⟩
  | poke poked supply_eq succeeds ih => exact limited_of_poke succeeds ih.whole supply_eq
  | call poked other succeeds ih => exact step_limited ih other succeeds

/-! ## A year -/

/-- The flow of the buffer between two states. -/
def BufferFlow (s : TribeMinterState) (drawn : Nat) (s' : TribeMinterState) : Prop :=
  TokenBucket.Flow s.bucket s'.bucket s.tribe.timestamp s'.tribe.timestamp drawn 0

theorem step_flow {cap : Nat} {a : Action} (limited : Limited s cap) (other : a ≠ .poke)
    (succeeds : step env s a = .ok s') : BufferFlow s (circulatedStep env s a s') s' := by
  rcases step_cases succeeds other with ⟨sender, dst, amount, mint, minted⟩ | ⟨none, same, later⟩
  · obtain ⟨used, depleted⟩ := minted.depleted
    have whole := depleted.whole limited.whole
    subst whole
    rw [BufferFlow, mint, minted.timestamp]
    exact depleted.flow.of_drawn minted.circulated_le
  · rw [BufferFlow, none, same]
    exact .wait _ later

/-- Between pokes, what is put into circulation is drawn from the buffer. -/
theorem circulated_flow {cap : Nat} (limited : Limited s cap) {window : List Action}
    (unpoked : .poke ∉ window) :
    BufferFlow s (circulated env s window) (run (step env) s window) := by
  have along : Along (step env) (fun _ a => a ≠ .poke) s window :=
    along_of_forall fun a mem same => unpoked (same ▸ mem)
  apply (run_total (I := fun s => Limited s cap) (R := BufferFlow) _ _ _ limited along).2
  · intro s
    exact .refl _ _
  · intro s t u m n first second
    exact first.trans second
  · intro s a s' limited other succeeds
    exact ⟨step_limited limited other succeeds, step_flow limited other succeeds⟩

/-- In the year from `s` on, no window without a poke puts more than `limit` into circulation. -/
def YearBounded (env : TribeMinterEnv) (s : TribeMinterState) (limit : Nat) : Prop :=
  ∀ window, .poke ∉ window →
    (run (step env) s window).tribe.timestamp ≤ s.tribe.timestamp + ONE_YEAR →
    circulated env s window ≤ limit

theorem yearBounded_of_level {cap : Nat} (limited : Limited s cap)
    (drained : s.bucket.level s.tribe.timestamp ≤ cap % ONE_YEAR) : YearBounded env s cap := by
  intro window unpoked within
  have flow := @circulated_flow env s cap limited window unpoked
  have bound := flow.drawn_le
  have rate : s.bucket.rate = cap / ONE_YEAR := limited.refilled
  have refill := Nat.mul_le_mul_left (cap / ONE_YEAR)
    (Nat.sub_le_iff_le_add'.mpr within)
  have whole := Nat.div_add_mod' cap ONE_YEAR
  rw [rate] at bound
  omega

/-! ## Spending the buffer -/

/-- `sender` can put `room` into circulation through the contract, with `dst`: TRIBE has the room,
and neither `dst` nor the contract delegates its votes. -/
structure Able (env : TribeMinterEnv) (s : TribeMinterState) (sender dst : Address) (room : Nat) :
    Prop where
  admin : env.core.isGovernor sender || env.access.hasRole s.CONTRACT_ADMIN_ROLE sender
  minter : s.tribe.minter = env.this
  contract : env.this ≠ 0
  receiver : dst ≠ 0
  other : dst ≠ env.this
  undelegated : s.tribe.delegates env.this = 0
  undelegated' : s.tribe.delegates dst = 0
  supply : s.tribe.totalSupply + room < 2 ^ 96
  balance : s.tribe.balances dst + room < 2 ^ 96

/-- What `_mint` leaves of the room. -/
structure Grown (t t' : TribeState) (dst : Address) (amount : Nat) : Prop where
  minter : t'.minter = t.minter
  delegates : t'.delegates = t.delegates
  timestamp : t'.timestamp = t.timestamp
  supply : t'.totalSupply ≤ t.totalSupply + amount
  balance : t'.balances dst ≤ t.balances dst + amount

theorem moveDelegates_undelegated (t : TribeState) (amount : Nat) :
    Tribe._moveDelegates t 0 0 amount = .ok t :=
  if_neg fun both => both.1 rfl

theorem transfer_undelegated {t : TribeState} {src : Address} (source : src ≠ 0)
    (receiver : dst ≠ 0) (other : dst ≠ src) (undelegated : t.delegates src = 0)
    (undelegated' : t.delegates dst = 0) (enough : amount ≤ t.balances src)
    (room : t.balances dst + amount < 2 ^ 96) :
    Tribe.transfer t src dst amount = .ok (Tribe.transferred t src dst amount) := by
  refine bind_eq_ok_iff.mpr ⟨amount, Tribe.safe96_eq_ok_iff.mpr ⟨by omega, rfl⟩, ?_⟩
  refine Tribe.transferTokens_eq_ok_iff.mpr ⟨source, receiver, enough, ?_, ?_⟩
  · rw [Function.update_of_ne other]
    exact room
  · rw [undelegated, undelegated']
    exact moveDelegates_undelegated _ _

theorem mint_undelegated {t : TribeState} (minter : sender = t.minter) (receiver : dst ≠ 0)
    (undelegated : t.delegates dst = 0) (supply_room : t.totalSupply + amount < 2 ^ 96)
    (room : t.balances dst + amount < 2 ^ 96) :
    Tribe.mint t sender dst amount = .ok (Tribe.minted t dst amount) := by
  refine Tribe.mint_eq_ok_iff.mpr ⟨minter, receiver, by omega, by omega, supply_room, room, ?_⟩
  rw [undelegated]
  exact moveDelegates_undelegated _ _

theorem Able.transferHeld {room : Nat} (able : Able env s sender dst (amount + room)) :
    ∃ tribe sent, sent ≤ amount ∧
      TribeMinter.transferHeld env s.tribe dst amount = .ok (tribe, amount - sent) ∧
      tribe.totalSupply = s.tribe.totalSupply ∧ Grown s.tribe tribe dst sent := by
  have balance_room := able.balance
  have supply_room := able.supply
  unfold TribeMinter.transferHeld
  dsimp only
  split
  · have le : min (s.tribe.balances env.this) amount ≤ amount := Nat.min_le_right _ _
    have enough : min (s.tribe.balances env.this) amount ≤ s.tribe.balances env.this :=
      Nat.min_le_left _ _
    generalize min (s.tribe.balances env.this) amount = sent at le enough
    have transfers := transfer_undelegated able.contract able.receiver able.other able.undelegated
      able.undelegated' enough (by omega)
    refine ⟨Tribe.transferred s.tribe env.this dst sent, sent, le, ?_, rfl, rfl, rfl, rfl,
      Nat.le_add_right _ _, ?_⟩
    · simp only [bind_eq_ok_iff, pure_eq_ok_iff, checkedSub_eq_ok_iff, checkedAdd_eq_ok_iff]
      exact ⟨_, transfers, _, ⟨le, rfl⟩, _, ⟨by omega, rfl⟩, (), if_pos (by omega), rfl⟩
    · simp only [Tribe.transferred, Function.update_self, Function.update_of_ne able.other]
      exact Nat.le_refl _
  · exact ⟨s.tribe, 0, Nat.zero_le _, rfl, rfl, rfl, rfl, rfl, Nat.le_refl _, Nat.le_refl _⟩

theorem Able.mintRemainder {t : TribeState} (minter : t.minter = env.this) (receiver : dst ≠ 0)
    (undelegated : t.delegates dst = 0) (supply_room : t.totalSupply + amount < 2 ^ 96)
    (balance_room : t.balances dst + amount < 2 ^ 96) :
    ∃ tribe, TribeMinter.mintRemainder env t dst amount = .ok tribe ∧ Grown t tribe dst amount := by
  unfold TribeMinter.mintRemainder
  split
  · refine ⟨_, mint_undelegated minter.symm receiver undelegated supply_room balance_room,
      rfl, rfl, rfl, Nat.le_refl _, ?_⟩
    simp only [Tribe.minted, Function.update_self]
    exact Nat.le_refl _
  · exact ⟨t, rfl, rfl, rfl, rfl, Nat.le_add_right _ _, Nat.le_add_right _ _⟩

/-- A mint that the buffer covers, and what is left after it. -/
theorem Able.mint {room : Nat} (able : Able env s sender dst (amount + room))
    (whole : s.doPartialAction = false) (fits : s.Fits s.tribe.timestamp)
    (some : s.bucket.level s.tribe.timestamp ≠ 0)
    (covered : amount ≤ s.bucket.level s.tribe.timestamp) :
    ∃ s', TribeMinter.mint env s sender dst amount = .ok s' ∧ Able env s' sender dst room := by
  have supply_room := able.supply
  have balance_room := able.balance
  obtain ⟨limits, depletes⟩ : ∃ limits,
      s._depleteBuffer s.tribe.timestamp amount = .ok (limits, amount) :=
    ⟨_, RateLimited.depleteBuffer_of_covered whole
      (RateLimited.buffer_eq_ok_iff.mpr ⟨fits, rfl⟩) some covered⟩
  obtain ⟨tribe, sent, le, held, supply, grown⟩ := able.transferHeld
  have balance := grown.balance
  obtain ⟨tribe', created, grown'⟩ : ∃ tribe', TribeMinter.mintRemainder env tribe dst
      (amount - sent) = .ok tribe' ∧ Grown tribe tribe' dst (amount - sent) := by
    apply Able.mintRemainder _ able.receiver
    · rw [grown.delegates]
      exact able.undelegated'
    · omega
    · omega
    · rw [grown.minter]
      exact able.minter
  have supply' := grown'.supply
  have balance' := grown'.balance
  have delegates := grown'.delegates.trans grown.delegates
  refine ⟨{ s with toRateLimited := limits, tribe := tribe' }, ?_, ?_⟩
  · simp only [TribeMinter.mint, TribeMinter._mint, onlyGovernorOrAdmin, bind_eq_ok_iff,
      pure_eq_ok_iff, require_eq_ok_iff, exists_const]
    exact ⟨able.admin, _, depletes, _, held, _, created, rfl⟩
  · refine ⟨able.admin, ?_, able.contract, able.receiver, able.other, ?_, ?_, ?_, ?_⟩
    · exact (grown'.minter.trans grown.minter).trans able.minter
    · exact (congrFun delegates _).trans able.undelegated
    · exact (congrFun delegates _).trans able.undelegated'
    · dsimp only
      omega
    · dsimp only
      omega

/-- The year that spends the buffer at once, and at its end what has flowed in since. -/
def spree (sender dst : Address) (now refill : Nat) : List Action :=
  [.mint sender dst (BitVec.ofNat 256 now), .tribe (.mine 0 ONE_YEAR),
    .mint sender dst (BitVec.ofNat 256 refill)]

theorem circulatedStep_of_mint {amount : UInt256} (succeeds : mint env s sender dst amount.toNat =
    .ok s') (other : dst ≠ env.this) :
    circulatedStep env s (.mint sender dst amount) s' = amount.toNat :=
  (minted_of_mint succeeds).circulated other

/-- A year after the buffer is spent, it holds what has flowed in. -/
theorem refilled_of_spent {cap now : Nat} {b : TokenBucket} (limited : Limited s cap)
    (spent : s.bucket = b.draw now (b.level now)) (small : cap / ONE_YEAR * ONE_YEAR < 2 ^ 256) :
    s.Fits (now + ONE_YEAR) ∧ s.bucket.level (now + ONE_YEAR) = cap / ONE_YEAR * ONE_YEAR := by
  have stored : s.bufferStored = 0 := (congrArg TokenBucket.stored spent).trans (Nat.sub_self _)
  have last : s.lastBufferUsedTime = now := congrArg TokenBucket.lastUsed spent
  have elapsed : now + ONE_YEAR - now = ONE_YEAR := Nat.add_sub_cancel_left now ONE_YEAR
  have le := Nat.div_mul_le_self cap ONE_YEAR
  constructor
  · rw [RateLimited.Fits, last, elapsed, limited.refilled, stored, Nat.zero_add]
    exact ⟨Nat.le_add_right now ONE_YEAR, small, small⟩
  · simp only [TokenBucket.level, RateLimited.bucket, stored, last, elapsed, limited.refilled,
      limited.capped, Nat.zero_add]
    exact Nat.min_eq_left le

/-- Time only passes. -/
theorem Able.wait {room : Nat} (able : Able env s sender dst room) (seconds : Nat) :
    ∃ s', step env s (.tribe (.mine 0 seconds)) = .ok s' ∧
      s'.toRateLimited = s.toRateLimited ∧ Able env s' sender dst room ∧
      s'.tribe.timestamp = s.tribe.timestamp + seconds ∧
      circulatedStep env s (.tribe (.mine 0 seconds)) s' = 0 :=
  ⟨_, rfl, rfl, ⟨able.admin, able.minter, able.contract, able.receiver, able.other,
    able.undelegated, able.undelegated', able.supply, able.balance⟩, rfl, rfl⟩

/-- A mint of what the room of TRIBE has place for. -/
theorem step_mint {amount : Nat} (less : amount < 2 ^ 96) :
    step env s (.mint sender dst (BitVec.ofNat 256 amount)) = mint env s sender dst amount := by
  rw [step, BitVec.toNat_ofNat, Nat.mod_eq_of_lt (by omega)]

theorem circulated_spree {cap : Nat} (limited : Limited s cap)
    (fits : s.Fits s.tribe.timestamp) (some : s.bucket.level s.tribe.timestamp ≠ 0)
    (refills : cap / ONE_YEAR * ONE_YEAR ≠ 0)
    (able : Able env s sender dst
      (s.bucket.level s.tribe.timestamp + cap / ONE_YEAR * ONE_YEAR)) :
    circulated env s (spree sender dst (s.bucket.level s.tribe.timestamp)
        (cap / ONE_YEAR * ONE_YEAR)) =
      s.bucket.level s.tribe.timestamp + cap / ONE_YEAR * ONE_YEAR ∧
    (run (step env) s (spree sender dst (s.bucket.level s.tribe.timestamp)
        (cap / ONE_YEAR * ONE_YEAR))).tribe.timestamp = s.tribe.timestamp + ONE_YEAR := by
  have room := able.supply
  -- the first mint empties the buffer
  obtain ⟨s1, first, able1⟩ := able.mint limited.whole fits some (Nat.le_refl _)
  have minted := minted_of_mint first
  have limited1 := minted.limited limited
  obtain ⟨used, depleted⟩ := minted.depleted
  rw [depleted.whole limited.whole] at depleted
  obtain ⟨fits1, level⟩ := refilled_of_spent limited1 depleted.bucket (by omega)
  -- the year fills it
  obtain ⟨s2, called2, same, able2, time, paid2⟩ := able1.wait ONE_YEAR
  rw [minted.timestamp] at time
  rw [← Nat.add_zero (_ * _)] at able2
  -- and the second mint empties it again
  rw [← same, ← time] at fits1 level
  obtain ⟨s3, second, _⟩ := able2.mint (limited1.congr same).whole fits1 (level.symm ▸ refills)
    (Nat.le_of_eq level.symm)
  have called1 := (step_mint (by omega)).trans first
  have called3 := (step_mint (by omega)).trans second
  have paid1 := circulatedStep_of_mint called1 able.other
  have paid3 := circulatedStep_of_mint called3 able.other
  rw [BitVec.toNat_ofNat, Nat.mod_eq_of_lt (by omega)] at paid1 paid3
  constructor
  · rw [circulated, spree, total, called1, commit_of_ok called1, total, called2,
      commit_of_ok called2, total, called3, commit_of_ok called3, total]
    dsimp only
    rw [paid1, paid2, paid3]
    omega
  · rw [spree, run_cons, commit_of_ok called1, run_cons, commit_of_ok called2, run_cons,
      commit_of_ok called3, run_nil, (minted_of_mint second).timestamp, time]

/-- **The annual limit.** Between two pokes, the year from `s` on keeps within the limit that the
last poke found exactly if the buffer holds next to nothing at its start, as far as TRIBE can be
minted at all. -/
theorem circulated_le_iff (poked : Poked env s supply basisPoints) :
    (s.bucket.level s.tribe.timestamp ≤
        supply * basisPoints / BASIS_POINTS_GRANULARITY % ONE_YEAR →
      YearBounded env s (supply * basisPoints / BASIS_POINTS_GRANULARITY)) ∧
    ∀ sender dst, s.Fits s.tribe.timestamp →
      Able env s sender dst (s.bucket.level s.tribe.timestamp +
        supply * basisPoints / BASIS_POINTS_GRANULARITY / ONE_YEAR * ONE_YEAR) →
      YearBounded env s (supply * basisPoints / BASIS_POINTS_GRANULARITY) →
      s.bucket.level s.tribe.timestamp ≤
        supply * basisPoints / BASIS_POINTS_GRANULARITY % ONE_YEAR := by
  have limited := poked.limited
  generalize supply * basisPoints / BASIS_POINTS_GRANULARITY = cap at limited ⊢
  refine ⟨yearBounded_of_level limited, fun sender dst fits able bounded => ?_⟩
  by_contra more
  have le := s.bucket.level_le_cap s.tribe.timestamp
  have capped : s.bucket.cap = cap := limited.capped
  have whole := Nat.div_add_mod' cap ONE_YEAR
  have some : s.bucket.level s.tribe.timestamp ≠ 0 := by omega
  have refills : cap / ONE_YEAR * ONE_YEAR ≠ 0 := by omega
  obtain ⟨spent, time⟩ := circulated_spree limited fits some refills able
  have bound := bounded _ (by simp [spree]) (Nat.le_of_eq time)
  omega

end TribeMinter

namespace TribeMinter.Sample

open Constants

/-- Account 9 governs. -/
def env : TribeMinterEnv where
  core := ⟨fun _ => false, fun _ => false, fun _ => false, fun a => a = 9, fun _ => false⟩
  access := ⟨fun _ _ => false, ⟨1, 2, 3, 4⟩⟩
  tribe := Tribe.Sample.env
  this := 0xAA

/-- Account 5 holds all TRIBE, and the contract mints it. -/
def tribe : TribeState := Tribe.constructed 5 0xAA 99 1000

/-- A tenth of the supply, per year. -/
def cap : Nat := 10 ^ 26

/-- The contract as deployed with 1000 basis points. -/
def deployed : TribeMinterState where
  MAX_RATE_LIMIT_PER_SECOND := 0
  rateLimitPerSecond := cap / ONE_YEAR
  lastBufferUsedTime := 1000
  bufferCap := cap
  doPartialAction := false
  bufferStored := cap
  CONTRACT_ADMIN_ROLE := 1
  owner := 8
  annualMaxInflationBasisPoints := 1000
  tribeTreasury := 0
  tribeRewardsDripper := 0
  tribe

theorem deployed_poked : Poked env deployed Tribe.initialSupply 1000 := by
  have creates : ∃ created, blank env tribe 6 = .ok created ∧
      tribeCirculatingSupply env created = .ok Tribe.initialSupply := ⟨_, rfl, rfl⟩
  obtain ⟨created, creates, supply_eq⟩ := creates
  have deploys : construct env tribe 6 1000 8 0 0 = .ok deployed := rfl
  exact .construct creates supply_eq deploys

/-- All of the first buffer is minted to account 7. -/
def mintAll : Action := .mint 9 7 (BitVec.ofNat 256 cap)

def drained : TribeMinterState := commit (step env) deployed mintAll

theorem drained_poked : Poked env drained Tribe.initialSupply 1000 := by
  obtain ⟨s, succeeds⟩ := exists_ok_of_isOk (x := step env deployed mintAll) (by decide +kernel)
  have same := commit_of_ok succeeds
  exact .call deployed_poked (by decide) (same ▸ succeeds)

/-- The year after deployment may bring more than a tenth, the year after the first buffer is
spent may not. -/
theorem circulated_le_iff_sample :
    YearBounded env drained cap ∧ ¬ YearBounded env deployed cap := by
  constructor
  · exact (circulated_le_iff drained_poked).1 (by decide +kernel)
  · intro bounded
    have level := (circulated_le_iff deployed_poked).2 9 7
      ⟨by decide +kernel, by decide +kernel, by decide +kernel⟩
      ⟨by decide, by decide, by decide, by decide, by decide, by decide, by decide,
        by decide +kernel, by decide +kernel⟩ bounded
    exact absurd level (by decide +kernel)

/-- Minting all at once, and again a year later, puts nearly a fifth of the supply into
circulation. -/
theorem circulated_exceeds : ¬ ∀ (env : TribeMinterEnv) (s : TribeMinterState)
    (supply basisPoints : Nat), Poked env s supply basisPoints →
    YearBounded env s (supply * basisPoints / BASIS_POINTS_GRANULARITY) := by
  intro all
  have bound := all env deployed _ _ deployed_poked
    (spree 9 7 cap (cap / ONE_YEAR * ONE_YEAR)) (by decide) (by decide +kernel)
  exact absurd bound (by decide +kernel)

end TribeMinter.Sample

end FeiProtocol
