import FeiProtocol.Evm.Ledger
import FeiProtocol.Evm.Loop
import FeiProtocol.Evm.Machine
import FeiProtocol.Evm.ReentrancyGuard
import FeiProtocol.Refs.CoreRef

/-!
# `TribalChief`

Staking pools that share one stream of TRIBE. A deposit counts in its pool with the multiplier
of its lock; a pool's rewards are added to its share accumulator when the pool is updated.

The functions are in the order of the source. `updatePool` also notes what it accrued in
`accruals`, a history that the contract does not keep and nothing in it reads.
-/

namespace FeiProtocol

open Evm

inductive TribalChiefEvent : Type where
  | Deposit (user : Address) (pid amount depositID : Nat)
  | Withdraw (user : Address) (pid amount : Nat) (dst : Address)
  | EmergencyWithdraw (user : Address) (pid amount : Nat) (dst : Address)
  | Harvest (user : Address) (pid amount : Nat)
  deriving DecidableEq, Repr

namespace TribalChief

structure UserInfo : Type where
  rewardDebt : Int
  virtualAmount : Nat
  deriving DecidableEq, Repr

structure DepositInfo : Type where
  amount : Nat
  unlockBlock : Nat
  multiplier : Nat
  deriving DecidableEq, Repr

structure PoolInfo : Type where
  virtualTotalSupply : Nat
  accTribePerShare : Nat
  lastRewardBlock : Nat
  allocPoint : Nat
  unlocked : Bool
  deriving DecidableEq, Repr

structure RewardData : Type where
  lockLength : BitVec 128
  rewardMultiplier : BitVec 128
  deriving DecidableEq, Repr

/-- One update of a pool: the blocks after `since` up to `upTo` earned `tribeReward`. -/
structure Accrual : Type where
  pid : Nat
  since : Nat
  upTo : Nat
  tribeReward : Nat
  deriving DecidableEq, Repr

end TribalChief

structure TribalChiefState : Type where
  rewardMultipliers : Nat → Nat → Nat
  TRIBE : Address
  poolInfo : List TribalChief.PoolInfo
  stakedToken : List Address
  rewarder : List Address
  userInfo : Nat → Address → TribalChief.UserInfo
  depositInfo : Nat → Address → List TribalChief.DepositInfo
  totalAllocPoint : Nat
  tribalChiefTribePerBlock : Nat
  CONTRACT_ADMIN_ROLE : Bytes32
  _paused : Bool
  _status : Nat
  ledger : Ledger
  /-- `block.number` -/
  blockNumber : Nat
  accruals : List TribalChief.Accrual
  /-- oldest first -/
  events : List TribalChiefEvent

instance : Pausable TribalChiefState where
  paused s := s._paused
  withPaused s b := { s with _paused := b }

instance : ReentrancyGuard TribalChiefState where
  status s := s._status
  withStatus s n := { s with _status := n }
  status_withStatus _ _ := rfl
  withStatus_withStatus _ _ _ := rfl
  withStatus_status _ := rfl

structure TribalChiefEnv : Type where
  core : Core
  access : AccessControl
  /-- `address(core())` -/
  coreAddress : Address
  this : Address
  /-- `keccak256("TRIBAL_CHIEF_ADMIN_ROLE")` -/
  TRIBAL_CHIEF_ADMIN_ROLE : Bytes32
  /-- `rewarder.onSushiReward(pid, user, recipient, amount, newLpAmount)`, which may revert but
  changes nothing here -/
  onSushiReward : TribalChiefState → Address → Nat → Address → Address → Nat → Nat →
    Except Revert Unit

namespace TribalChief

open CoreRef ReentrancyGuard

/-- Storage that `initialize` sets and nothing else writes, as is `SCALE_FACTOR`. -/
def ACC_TRIBE_PRECISION : Nat := 10 ^ 23

def SCALE_FACTOR : Nat := 10 ^ 4

variable (env : TribalChiefEnv) (s : TribalChiefState)

/-! ## Administration -/

/-- The state that `initialize` leaves behind the proxy, whose guard starts at zero. -/
def initialized (TRIBE : Address) (ledger : Ledger) (blockNumber : Nat) : TribalChiefState where
  rewardMultipliers _ _ := 0
  TRIBE
  poolInfo := []
  stakedToken := []
  rewarder := []
  userInfo _ _ := ⟨0, 0⟩
  depositInfo _ _ := []
  totalAllocPoint := 0
  tribalChiefTribePerBlock := 75 * 10 ^ 18
  CONTRACT_ADMIN_ROLE := env.TRIBAL_CHIEF_ADMIN_ROLE
  _paused := false
  _status := 0
  ledger
  blockNumber
  accruals := []
  events := []

def isContractAdmin (account : Address) : Bool :=
  env.access.hasRole s.CONTRACT_ADMIN_ROLE account

def tribePerBlock : Nat := s.tribalChiefTribePerBlock

def updateBlockReward (msgSender : Address) (newBlockReward : Nat) :
    Except Revert TribalChiefState := do
  onlyGovernorOrAdmin env.core env.access s.CONTRACT_ADMIN_ROLE msgSender
  (if isContractAdmin env s msgSender then
    require (newBlockReward < s.tribalChiefTribePerBlock)
      "TribalChief: admin can only lower reward rate"
  else .ok ())
  return { s with tribalChiefTribePerBlock := newBlockReward }

/-- `pool.unlocked = unlocked` -/
def setUnlocked (pid : Nat) (unlocked : Bool) : Except Revert TribalChiefState := do
  let pool ← element s.poolInfo pid
  return { s with poolInfo := s.poolInfo.set pid { pool with unlocked } }

def lockPool (msgSender : Address) (pid : Nat) : Except Revert TribalChiefState := do
  onlyGovernorOrAdmin env.core env.access s.CONTRACT_ADMIN_ROLE msgSender
  setUnlocked s pid false

def unlockPool (msgSender : Address) (pid : Nat) : Except Revert TribalChiefState := do
  onlyGovernorOrAdmin env.core env.access s.CONTRACT_ADMIN_ROLE msgSender
  setUnlocked s pid true

def governorAddPoolMultiplier (msgSender : Address) (pid : Nat)
    (lockLength newRewardsMultiplier : BitVec 64) : Except Revert TribalChiefState := do
  onlyGovernorOrAdmin env.core env.access s.CONTRACT_ADMIN_ROLE msgSender
  let pool ← element s.poolInfo pid
  let currentMultiplier := s.rewardMultipliers pid lockLength.toNat
  let unlocked := pool.unlocked || newRewardsMultiplier.toNat > currentMultiplier
  return { s with
    poolInfo := s.poolInfo.set pid { pool with unlocked }
    rewardMultipliers :=
      update₂ s.rewardMultipliers pid lockLength.toNat newRewardsMultiplier.toNat }

def governorWithdrawTribe (msgSender : Address) (amount : Nat) :
    Except Revert TribalChiefState := do
  onlyGovernor env.core msgSender
  let ledger ← s.ledger.safeTransfer env.this s.TRIBE env.coreAddress amount
  return { s with ledger }

/-- The body of the loop in `add`. -/
def setMultiplier (pid : Nat) (multipliers : Nat → Nat → Nat) (data : RewardData) :
    Except Revert (Nat → Nat → Nat) := do
  (if data.lockLength = 0 then
    require (data.rewardMultiplier.toNat = SCALE_FACTOR) "invalid multiplier for 0 lock length"
  else
    require (data.rewardMultiplier.toNat ≥ SCALE_FACTOR)
      "invalid multiplier, must be above scale factor")
  return update₂ multipliers pid data.lockLength.toNat data.rewardMultiplier.toNat

def add (msgSender : Address) (allocPoint : BitVec 120) (stakedToken rewarder : Address)
    (rewardData : List RewardData) : Except Revert TribalChiefState := do
  onlyGovernorOrAdmin env.core env.access s.CONTRACT_ADMIN_ROLE msgSender
  require (allocPoint.toNat > 0) "pool must have allocation points to be created"
  let lastRewardBlock ← BitVec.toNat <$> toUint 128 s.blockNumber
  let totalAllocPoint ← checkedAdd s.totalAllocPoint allocPoint.toNat
  let pid := s.poolInfo.length
  require (rewardData.length ≠ 0) "must specify rewards"
  let rewardMultipliers ← rewardData.foldlM (setMultiplier pid) s.rewardMultipliers
  return { s with
    totalAllocPoint
    stakedToken := s.stakedToken ++ [stakedToken]
    rewarder := s.rewarder ++ [rewarder]
    rewardMultipliers
    poolInfo := s.poolInfo ++ [⟨0, 0, lastRewardBlock, allocPoint.toNat, false⟩] }

/-! ## Rewards of a pool -/

/-- `(blocks * tribePerBlock() * pool.allocPoint) / totalAllocPoint` -/
def tribeReward (pool : PoolInfo) : Except Revert Nat := do
  let blocks ← checkedSub s.blockNumber pool.lastRewardBlock
  let emitted ← checkedMul blocks (tribePerBlock s)
  let weighted ← checkedMul emitted pool.allocPoint
  checkedDiv weighted s.totalAllocPoint

/-- `accTribePerShare + ((tribeReward * ACC_TRIBE_PRECISION) / virtualSupply)` -/
def addReward (pool : PoolInfo) (reward : Nat) : Except Revert Nat := do
  let scaled ← checkedMul reward ACC_TRIBE_PRECISION
  let perShare ← checkedDiv scaled pool.virtualTotalSupply
  checkedAdd pool.accTribePerShare perShare

def updatePool (pid : Nat) : Except Revert TribalChiefState := do
  let pool ← element s.poolInfo pid
  if s.blockNumber > pool.lastRewardBlock then
    let (reward, accTribePerShare) ← (if pool.virtualTotalSupply > 0 ∧ s.totalAllocPoint ≠ 0 then do
      let reward ← tribeReward s pool
      let accTribePerShare ← addReward pool reward
      return (reward, accTribePerShare)
    else .ok (0, pool.accTribePerShare))
    let lastRewardBlock ← BitVec.toNat <$> toUint 128 s.blockNumber
    return { s with
      poolInfo := s.poolInfo.set pid { pool with accTribePerShare, lastRewardBlock }
      accruals := s.accruals ++ [⟨pid, pool.lastRewardBlock, s.blockNumber, reward⟩] }
  else return s

def massUpdatePools (pids : List Nat) : Except Revert TribalChiefState :=
  pids.foldlM updatePool s

def set (msgSender : Address) (pid : Nat) (allocPoint : BitVec 120) (rewarder : Address)
    (overwrite : Bool) : Except Revert TribalChiefState := do
  onlyGovernorOrAdmin env.core env.access s.CONTRACT_ADMIN_ROLE msgSender
  let s ← updatePool s pid
  let pool ← element s.poolInfo pid
  let others ← checkedSub s.totalAllocPoint pool.allocPoint
  let totalAllocPoint ← checkedAdd others allocPoint.toNat
  require (totalAllocPoint > 0) "total allocation points cannot be 0"
  return { s with
    totalAllocPoint
    poolInfo := s.poolInfo.set pid { pool with allocPoint := allocPoint.toNat }
    rewarder := if overwrite then s.rewarder.set pid rewarder else s.rewarder }

def resetRewards (msgSender : Address) (pid : Nat) : Except Revert TribalChiefState := do
  onlyGuardianOrGovernor env.core msgSender
  let s ← updatePool s pid
  let pool ← element s.poolInfo pid
  let totalAllocPoint ← checkedSub s.totalAllocPoint pool.allocPoint
  return { s with
    totalAllocPoint
    poolInfo := s.poolInfo.set pid { pool with allocPoint := 0, unlocked := true }
    rewarder := s.rewarder.set pid 0 }

def pendingRewards (pid : Nat) (user : Address) : Except Revert Nat := do
  let pool ← element s.poolInfo pid
  let user := s.userInfo pid user
  let accTribePerShare ←
    (if s.blockNumber > pool.lastRewardBlock ∧ pool.virtualTotalSupply ≠ 0 then do
      let reward ← tribeReward s pool
      addReward pool reward
    else .ok pool.accTribePerShare)
  let product ← checkedMul user.virtualAmount accTribePerShare
  let accumulated ← toInt256 (product / ACC_TRIBE_PRECISION)
  let unpaid ← checkedIntSub accumulated user.rewardDebt
  toUint256 unpaid

/-! ## Users -/

/-- The call of a pool's rewarder, if it has one. -/
def callRewarder (pid : Nat) (user recipient : Address) (amount newLpAmount : Nat) :
    Except Revert Unit := do
  let rewarder ← element s.rewarder pid
  if rewarder ≠ 0 then env.onSushiReward s rewarder pid user recipient amount newLpAmount
  else return ()

def _deposit (msgSender : Address) (pid amount : Nat) (lockLength : BitVec 64) :
    Except Revert TribalChiefState := do
  whenNotPaused s
  let s ← updatePool s pid
  let pool ← element s.poolInfo pid
  let user := s.userInfo pid msgSender
  let multiplier := s.rewardMultipliers pid lockLength.toNat
  require (multiplier ≥ SCALE_FACTOR) "invalid lock length"
  let unlockBlock ← checkedAdd lockLength.toNat s.blockNumber
  let unlockBlock ← BitVec.toNat <$> toUint 128 unlockBlock
  let scaled ← checkedMul amount multiplier
  let virtualAmountDelta := scaled / SCALE_FACTOR
  let virtualAmount ← checkedAdd user.virtualAmount virtualAmountDelta
  let product ← checkedMul virtualAmountDelta pool.accTribePerShare
  let debt ← toInt256 (product / ACC_TRIBE_PRECISION)
  let rewardDebt ← checkedIntAdd user.rewardDebt debt
  let virtualTotalSupply ← checkedAdd pool.virtualTotalSupply virtualAmountDelta
  let deposits := s.depositInfo pid msgSender ++ [⟨amount, unlockBlock, multiplier⟩]
  let s := { s with
    poolInfo := s.poolInfo.set pid { pool with virtualTotalSupply }
    userInfo := update₂ s.userInfo pid msgSender ⟨rewardDebt, virtualAmount⟩
    depositInfo := update₂ s.depositInfo pid msgSender deposits }
  callRewarder env s pid msgSender msgSender 0 virtualAmount
  let token ← element s.stakedToken pid
  let ledger ← s.ledger.safeTransferFrom env.this token msgSender env.this amount
  return { s with
    ledger
    events := s.events ++ [.Deposit msgSender pid amount (deposits.length - 1)] }

def deposit (msgSender : Address) (pid amount : Nat) (lockLength : BitVec 64) :
    Except Revert TribalChiefState :=
  nonReentrant (fun s => _deposit env s msgSender pid amount lockLength) s

def _harvest (msgSender : Address) (pid : Nat) (dst : Address) :
    Except Revert TribalChiefState := do
  let pool ← element s.poolInfo pid
  let user := s.userInfo pid msgSender
  let product ← checkedMul user.virtualAmount pool.accTribePerShare
  let accumulatedTribe ← toInt256 (product / ACC_TRIBE_PRECISION)
  let unpaid ← checkedIntSub accumulatedTribe user.rewardDebt
  assert (accumulatedTribe ≥ 0 ∧ unpaid ≥ 0)
  let pendingTribe ← toUint256 unpaid
  let signed ← toInt256 pendingTribe
  assert (signed ≥ 0)
  let s := { s with
    userInfo := update₂ s.userInfo pid msgSender { user with rewardDebt := accumulatedTribe } }
  let ledger ← (if pendingTribe ≠ 0 then
    s.ledger.safeTransfer env.this s.TRIBE dst pendingTribe else .ok s.ledger)
  let s := { s with ledger }
  callRewarder env s pid msgSender dst pendingTribe user.virtualAmount
  return { s with events := s.events ++ [.Harvest msgSender pid pendingTribe] }

/-- What the loop in `withdrawAllAndHarvest` has gathered, and the deposits it has passed. -/
structure Sweep : Type where
  processedDeposits : Nat
  unlockedTotalAmount : Nat
  virtualLiquidityDelta : Nat
  deposits : List DepositInfo

/-- The deposit's lock has ended, or its pool has been unlocked. -/
def DepositInfo.Released (d : DepositInfo) (blockNumber : Nat) (unlocked : Bool) : Prop :=
  d.unlockBlock ≤ blockNumber ∨ unlocked = true

instance (d : DepositInfo) (blockNumber : Nat) (unlocked : Bool) :
    Decidable (d.Released blockNumber unlocked) :=
  inferInstanceAs (Decidable (_ ∨ _))

/-- The body of the loop in `withdrawAllAndHarvest`. -/
def sweep (blockNumber : Nat) (unlocked : Bool) (acc : Sweep) (d : DepositInfo) :
    Except Revert Sweep := do
  if d.unlockBlock > blockNumber ∧ unlocked = false then
    return { acc with deposits := acc.deposits ++ [d] }
  else
    let unlockedTotalAmount ← checkedAdd acc.unlockedTotalAmount d.amount
    let scaled ← checkedMul d.amount d.multiplier
    let virtualLiquidityDelta ← checkedAdd acc.virtualLiquidityDelta (scaled / SCALE_FACTOR)
    return { processedDeposits := acc.processedDeposits + 1
             unlockedTotalAmount
             virtualLiquidityDelta
             deposits := acc.deposits ++ [⟨0, 0, 0⟩] }

/-- `withdrawAllAndHarvest` after its call of `_harvest`. -/
def _withdrawAll (msgSender : Address) (pid : Nat) (dst : Address) :
    Except Revert TribalChiefState := do
  let pool ← element s.poolInfo pid
  let user := s.userInfo pid msgSender
  let deposits := s.depositInfo pid msgSender
  let swept ← deposits.foldlM (sweep s.blockNumber pool.unlocked) ⟨0, 0, 0, []⟩
  let (user, deposits) ← (if swept.processedDeposits = deposits.length then .ok (⟨0, 0⟩, [])
    else do
      let virtualAmount ← checkedSub user.virtualAmount swept.virtualLiquidityDelta
      let product ← checkedMul virtualAmount pool.accTribePerShare
      let rewardDebt ← toInt256 (product / ACC_TRIBE_PRECISION)
      return (⟨rewardDebt, virtualAmount⟩, swept.deposits))
  let virtualTotalSupply ← checkedSub pool.virtualTotalSupply swept.virtualLiquidityDelta
  let s := { s with
    poolInfo := s.poolInfo.set pid { pool with virtualTotalSupply }
    userInfo := update₂ s.userInfo pid msgSender user
    depositInfo := update₂ s.depositInfo pid msgSender deposits }
  callRewarder env s pid msgSender dst 0 user.virtualAmount
  let ledger ← (if swept.unlockedTotalAmount ≠ 0 then do
      let token ← element s.stakedToken pid
      s.ledger.safeTransfer env.this token dst swept.unlockedTotalAmount
    else .ok s.ledger)
  return { s with
    ledger
    events := s.events ++ [.Withdraw msgSender pid swept.unlockedTotalAmount dst] }

def withdrawAllAndHarvest (msgSender : Address) (pid : Nat) (dst : Address) :
    Except Revert TribalChiefState :=
  nonReentrant (fun s => do
    let s ← updatePool s pid
    let s ← _harvest env s msgSender pid dst
    _withdrawAll env s msgSender pid dst) s

def _withdrawFromDeposit (msgSender : Address) (pid amount : Nat) (dst : Address)
    (index : Nat) : Except Revert TribalChiefState := do
  require ((s.depositInfo pid msgSender).length > index) "invalid index"
  let s ← updatePool s pid
  let pool ← element s.poolInfo pid
  let deposits := s.depositInfo pid msgSender
  let poolDeposit ← element deposits index
  let user := s.userInfo pid msgSender
  require (poolDeposit.Released s.blockNumber pool.unlocked) "tokens locked"
  let scaled ← checkedMul amount poolDeposit.multiplier
  let virtualAmountDelta := scaled / SCALE_FACTOR
  let left ← checkedSub poolDeposit.amount amount
  let product ← checkedMul virtualAmountDelta pool.accTribePerShare
  let debt ← toInt256 (product / ACC_TRIBE_PRECISION)
  let rewardDebt ← checkedIntSub user.rewardDebt debt
  let virtualAmount ← checkedSub user.virtualAmount virtualAmountDelta
  let virtualTotalSupply ← checkedSub pool.virtualTotalSupply virtualAmountDelta
  let token ← element s.stakedToken pid
  let ledger ← s.ledger.safeTransfer env.this token dst amount
  return { s with
    poolInfo := s.poolInfo.set pid { pool with virtualTotalSupply }
    userInfo := update₂ s.userInfo pid msgSender ⟨rewardDebt, virtualAmount⟩
    depositInfo := update₂ s.depositInfo pid msgSender
      (deposits.set index { poolDeposit with amount := left })
    ledger
    events := s.events ++ [.Withdraw msgSender pid amount dst] }

def withdrawFromDeposit (msgSender : Address) (pid amount : Nat) (dst : Address)
    (index : Nat) : Except Revert TribalChiefState :=
  nonReentrant (fun s => _withdrawFromDeposit env s msgSender pid amount dst index) s

def harvest (msgSender : Address) (pid : Nat) (dst : Address) : Except Revert TribalChiefState :=
  nonReentrant (fun s => do
    let s ← updatePool s pid
    _harvest env s msgSender pid dst) s

/-- The body of the loop in `emergencyWithdraw`: the total amount, and the virtual one. -/
def gather (blockNumber : Nat) (unlocked : Bool) (acc : Nat × Nat) (d : DepositInfo) :
    Except Revert (Nat × Nat) := do
  require (d.Released blockNumber unlocked) "tokens locked"
  let totalUnlocked ← checkedAdd acc.1 d.amount
  let scaled ← checkedMul d.amount d.multiplier
  let virtualLiquidityDelta ← checkedAdd acc.2 (scaled / SCALE_FACTOR)
  return (totalUnlocked, virtualLiquidityDelta)

def _emergencyWithdraw (msgSender : Address) (pid : Nat) (dst : Address) :
    Except Revert TribalChiefState := do
  let s ← updatePool s pid
  let pool ← element s.poolInfo pid
  let (totalUnlocked, virtualLiquidityDelta) ←
    (s.depositInfo pid msgSender).foldlM (gather s.blockNumber pool.unlocked) (0, 0)
  let virtualTotalSupply ← checkedSub pool.virtualTotalSupply virtualLiquidityDelta
  let s := { s with
    poolInfo := s.poolInfo.set pid { pool with virtualTotalSupply }
    userInfo := update₂ s.userInfo pid msgSender ⟨0, 0⟩
    depositInfo := update₂ s.depositInfo pid msgSender [] }
  callRewarder env s pid msgSender dst 0 0
  let token ← element s.stakedToken pid
  let ledger ← s.ledger.safeTransfer env.this token dst totalUnlocked
  return { s with
    ledger
    events := s.events ++ [.EmergencyWithdraw msgSender pid totalUnlocked dst] }

def emergencyWithdraw (msgSender : Address) (pid : Nat) (dst : Address) :
    Except Revert TribalChiefState :=
  nonReentrant (fun s => _emergencyWithdraw env s msgSender pid dst) s

/-! ## Transactions -/

/-- A call of an administrator. -/
inductive AdminCall : Type where
  | updateBlockReward (newBlockReward : UInt256)
  | lockPool (pid : UInt256)
  | unlockPool (pid : UInt256)
  | governorAddPoolMultiplier (pid : UInt256) (lockLength newRewardsMultiplier : BitVec 64)
  | governorWithdrawTribe (amount : UInt256)
  | add (allocPoint : BitVec 120) (stakedToken rewarder : Address) (rewardData : List RewardData)
  | set (pid : UInt256) (allocPoint : BitVec 120) (rewarder : Address) (overwrite : Bool)
  | resetRewards (pid : UInt256)
  | setContractAdminRole (newContractAdminRole : Bytes32)
  | pause
  | unpause
  deriving DecidableEq, Repr

def admin (msgSender : Address) : AdminCall → Except Revert TribalChiefState
  | .updateBlockReward newBlockReward => updateBlockReward env s msgSender newBlockReward.toNat
  | .lockPool pid => lockPool env s msgSender pid.toNat
  | .unlockPool pid => unlockPool env s msgSender pid.toNat
  | .governorAddPoolMultiplier pid lockLength newRewardsMultiplier =>
      governorAddPoolMultiplier env s msgSender pid.toNat lockLength newRewardsMultiplier
  | .governorWithdrawTribe amount => governorWithdrawTribe env s msgSender amount.toNat
  | .add allocPoint stakedToken rewarder rewardData =>
      add env s msgSender allocPoint stakedToken rewarder rewardData
  | .set pid allocPoint rewarder overwrite =>
      set env s msgSender pid.toNat allocPoint rewarder overwrite
  | .resetRewards pid => resetRewards env s msgSender pid.toNat
  | .setContractAdminRole newContractAdminRole => do
      onlyGovernor env.core msgSender
      return { s with CONTRACT_ADMIN_ROLE := newContractAdminRole }
  | .pause => pause env.core s msgSender
  | .unpause => unpause env.core s msgSender

/-- `token` is a call that somebody makes on a token, `mine` the passing of blocks. -/
inductive Action : Type where
  | deposit (sender : Address) (pid amount : UInt256) (lockLength : BitVec 64)
  | withdrawAllAndHarvest (sender : Address) (pid : UInt256) (dst : Address)
  | withdrawFromDeposit (sender : Address) (pid amount : UInt256) (dst : Address)
      (index : UInt256)
  | harvest (sender : Address) (pid : UInt256) (dst : Address)
  | emergencyWithdraw (sender : Address) (pid : UInt256) (dst : Address)
  | updatePool (pid : UInt256)
  | massUpdatePools (pids : List UInt256)
  | admin (sender : Address) (c : AdminCall)
  | token (actor : Address) (c : Ledger.TokenCall)
  | mine (blocks : Nat)
  deriving DecidableEq, Repr

def step : Action → Except Revert TribalChiefState
  | .deposit sender pid amount lockLength =>
      deposit env s sender pid.toNat amount.toNat lockLength
  | .withdrawAllAndHarvest sender pid dst => withdrawAllAndHarvest env s sender pid.toNat dst
  | .withdrawFromDeposit sender pid amount dst index =>
      withdrawFromDeposit env s sender pid.toNat amount.toNat dst index.toNat
  | .harvest sender pid dst => harvest env s sender pid.toNat dst
  | .emergencyWithdraw sender pid dst => emergencyWithdraw env s sender pid.toNat dst
  | .updatePool pid => updatePool s pid.toNat
  | .massUpdatePools pids => massUpdatePools s (pids.map BitVec.toNat)
  | .admin sender c => admin env s sender c
  | .token actor c => do
      let ledger ← s.ledger.perform actor c
      return { s with ledger }
  | .mine blocks => .ok { s with blockNumber := s.blockNumber + blocks }

end TribalChief

end FeiProtocol
