import FeiProtocol.Fuse.Rewards.AutoRewardsDistributor
import FeiProtocol.Staking.TribalChiefSteps
import Mathlib.Logic.Function.Basic

/-!
# `TribalChiefSyncV2`

The contract through which the parameters of `TribalChief` are changed: its modifier `update`
brings every pool up to the current block before an action, and the distributor of the rewards
after it. Actions that are not scheduled go through the timelock, which must have approved them.

The timelock is not part of this model, except that it calls the `TribalChief`. The distributor
is a parameter, and `syncEnv` the contract with an `AutoRewardsDistributor` for it.

* `construct_sorted`: the constructor accepts falling reward rates at times to come.
-/

namespace FeiProtocol

open Evm

structure TribalChiefSyncState (W : Type) : Type where
  tribalChief : TribalChiefState
  rewardsSchedule : Nat → Nat
  /-- in reverse order -/
  rewardsArray : List UInt256
  /-- `block.timestamp` -/
  timestamp : Nat
  /-- what the timelock and the distributor depend on -/
  world : W

structure TribalChiefSyncEnv (W : Type) : Type where
  tribalChief : TribalChiefEnv
  this : Address
  timelock : Address
  /-- `timelock.execute(tribalChief, 0, data, predecessor, salt)`, but for the call that it
  makes -/
  execute : W → TribalChief.AdminCall → Bytes32 → Bytes32 → Except Revert W
  /-- `autoRewardsDistributor.setAutoRewardsDistribution()`, which reads the `TribalChief` -/
  setAutoRewardsDistribution : TribalChiefState → W → Except Revert W

namespace TribalChiefSyncV2

variable {W : Type} (env : TribalChiefSyncEnv W) (s : TribalChiefSyncState W)

/-! ## The schedule -/

/-- The storage and the variables of the loop in the constructor. -/
structure Scheduling : Type where
  rewardsSchedule : Nat → Nat
  rewardsArray : List UInt256
  lastReward : Nat
  lastTimestamp : Nat

/-- The body of that loop, which fills `rewardsArray` from the end. -/
def schedule (acc : Scheduling) (next : UInt256 × UInt256) : Except Revert Scheduling := do
  let nextReward := next.1
  let nextTimestamp := next.2
  require (nextReward.toNat < acc.lastReward) "rewards"
  require (nextTimestamp.toNat > acc.lastTimestamp) "timestamp"
  return {
    rewardsSchedule := Function.update acc.rewardsSchedule nextReward.toNat nextTimestamp.toNat
    rewardsArray := nextReward :: acc.rewardsArray
    lastReward := nextReward.toNat
    lastTimestamp := nextTimestamp.toNat }

def construct (rewards timestamps : List UInt256) (tribalChief : TribalChiefState)
    (timestamp : Nat) (world : W) : Except Revert (TribalChiefSyncState W) := do
  require (rewards.length = timestamps.length) "length"
  let scheduled ← (rewards.zip timestamps).foldlM schedule
    ⟨fun _ => 0, [], 2 ^ 256 - 1, timestamp⟩
  return { tribalChief
           rewardsSchedule := scheduled.rewardsSchedule
           rewardsArray := scheduled.rewardsArray
           timestamp
           world }

/-- What the loop has scheduled so far falls, and lies in the future. -/
structure Scheduling.Sorted (timestamp : Nat) (acc : Scheduling) : Prop where
  falling : acc.rewardsArray.Pairwise fun r r' => r.toNat < r'.toNat
  last : ∀ r ∈ acc.rewardsArray, acc.lastReward ≤ r.toNat
  time : timestamp ≤ acc.lastTimestamp
  future : ∀ r ∈ acc.rewardsArray, timestamp < acc.rewardsSchedule r.toNat

theorem sorted_of_schedule {timestamp : Nat} {acc acc' : Scheduling} {next : UInt256 × UInt256}
    (sorted : acc.Sorted timestamp) (succeeds : schedule acc next = .ok acc') :
    acc'.Sorted timestamp := by
  simp only [schedule, bind_eq_ok_iff, pure_eq_ok_iff, require_eq_ok_iff, exists_const]
    at succeeds
  obtain ⟨lower, later, same⟩ := succeeds
  subst same
  have below : ∀ r ∈ acc.rewardsArray, next.1.toNat < r.toNat := fun r mem =>
    Nat.lt_of_lt_of_le lower (sorted.last r mem)
  have ahead : timestamp < next.2.toNat := Nat.lt_of_le_of_lt sorted.time later
  constructor
  · exact List.pairwise_cons.mpr ⟨below, sorted.falling⟩
  · intro r mem
    rcases List.mem_cons.mp mem with same | mem
    · rw [same]
    · exact Nat.le_of_lt (below r mem)
  · exact Nat.le_of_lt ahead
  · intro r mem
    simp only
    rcases List.mem_cons.mp mem with same | mem
    · rw [same, Function.update_self]
      exact ahead
    · rw [Function.update_of_ne (Nat.ne_of_gt (below r mem))]
      exact sorted.future r mem

/-- **The schedule.** Rates are taken from the end of the array, so they fall. -/
theorem construct_sorted {rewards timestamps : List UInt256} {tribalChief : TribalChiefState}
    {timestamp : Nat} {world : W}
    (succeeds : construct rewards timestamps tribalChief timestamp world = .ok s) :
    (s.rewardsArray.Pairwise fun r r' => r.toNat < r'.toNat) ∧
      ∀ r ∈ s.rewardsArray, timestamp < s.rewardsSchedule r.toNat := by
  simp only [construct, bind_eq_ok_iff, pure_eq_ok_iff, require_eq_ok_iff, exists_const]
    at succeeds
  obtain ⟨_, scheduled, loop, same⟩ := succeeds
  subst same
  have init : Scheduling.Sorted timestamp ⟨fun _ => 0, [], 2 ^ 256 - 1, timestamp⟩ :=
    ⟨.nil, List.forall_mem_nil _, Nat.le_refl _, List.forall_mem_nil _⟩
  have sorted := foldlM_invariant (I := Scheduling.Sorted timestamp)
    (fun sorted _ succeeds => sorted_of_schedule sorted succeeds) init loop
  exact ⟨sorted.falling, sorted.future⟩

def nextRewardsRate : Except Revert UInt256 := do
  let last ← checkedSub s.rewardsArray.length 1
  element s.rewardsArray last

def nextRewardTimestamp : Except Revert Nat := do
  let rate ← nextRewardsRate s
  return s.rewardsSchedule rate.toNat

def isRewardDecreaseAvailable : Except Revert Bool :=
  if s.rewardsArray.length > 0 then do
    let timestamp ← nextRewardTimestamp s
    return timestamp < s.timestamp
  else return false

/-! ## Actions -/

/-- The modifier `update`. -/
def synced (action : TribalChiefSyncState W → Except Revert (TribalChiefSyncState W)) :
    Except Revert (TribalChiefSyncState W) := do
  let numPools := s.tribalChief.poolInfo.length
  let tribalChief ← TribalChief.massUpdatePools s.tribalChief (List.range numPools)
  let s ← action { s with tribalChief }
  let world ← env.setAutoRewardsDistribution s.tribalChief s.world
  return { s with world }

/-- The call that the timelock makes. -/
def execute (data : TribalChief.AdminCall) (salt : Bytes32) :
    Except Revert (TribalChiefSyncState W) := do
  let world ← env.execute s.world data 0 salt
  let tribalChief ← TribalChief.admin env.tribalChief s.tribalChief env.timelock data
  return { s with tribalChief, world }

def autoDecreaseRewards : Except Revert (TribalChiefSyncState W) :=
  synced env s fun s => do
    let available ← isRewardDecreaseAvailable s
    require (available = true) "time not passed"
    let tribePerBlock ← nextRewardsRate s
    let tribalChief ← TribalChief.admin env.tribalChief s.tribalChief env.this
      (.updateBlockReward tribePerBlock)
    return { s with tribalChief, rewardsArray := s.rewardsArray.dropLast }

def decreaseRewards (tribePerBlock : UInt256) (salt : Bytes32) :
    Except Revert (TribalChiefSyncState W) :=
  synced env s fun s => execute env s (.updateBlockReward tribePerBlock) salt

def addPool (allocPoint : BitVec 120) (stakedToken rewarder : Address)
    (rewardData : List TribalChief.RewardData) (salt : Bytes32) :
    Except Revert (TribalChiefSyncState W) :=
  synced env s fun s => execute env s (.add allocPoint stakedToken rewarder rewardData) salt

def setPool (pid : UInt256) (allocPoint : BitVec 120) (rewarder : Address) (overwrite : Bool)
    (salt : Bytes32) : Except Revert (TribalChiefSyncState W) :=
  synced env s fun s => execute env s (.set pid allocPoint rewarder overwrite) salt

def resetPool (pid : UInt256) (salt : Bytes32) : Except Revert (TribalChiefSyncState W) :=
  synced env s fun s => execute env s (.resetRewards pid) salt

/-! ## Transactions -/

/-- `tribalChief` is a transaction on the `TribalChief`, `outside` the passing of time and
whatever happens to the timelock and the distributor. -/
inductive Action (W : Type) : Type where
  | tribalChief (a : TribalChief.Action)
  | autoDecreaseRewards
  | decreaseRewards (tribePerBlock : UInt256) (salt : Bytes32)
  | addPool (allocPoint : BitVec 120) (stakedToken rewarder : Address)
      (rewardData : List TribalChief.RewardData) (salt : Bytes32)
  | setPool (pid : UInt256) (allocPoint : BitVec 120) (rewarder : Address) (overwrite : Bool)
      (salt : Bytes32)
  | resetPool (pid : UInt256) (salt : Bytes32)
  | outside (seconds : Nat) (world : W)
  deriving DecidableEq, Repr

/-- A transaction on the `TribalChief` itself leaves the parameters alone. -/
def Action.Synchronized (env : TribalChiefSyncEnv W) : Action W → Prop
  | .tribalChief a => a.External env.tribalChief ∧ ¬ a.Adjusts
  | _ => True

def step : Action W → Except Revert (TribalChiefSyncState W)
  | .tribalChief a => do
      let tribalChief ← TribalChief.step env.tribalChief s.tribalChief a
      return { s with tribalChief }
  | .autoDecreaseRewards => autoDecreaseRewards env s
  | .decreaseRewards tribePerBlock salt => decreaseRewards env s tribePerBlock salt
  | .addPool allocPoint stakedToken rewarder rewardData salt =>
      addPool env s allocPoint stakedToken rewarder rewardData salt
  | .setPool pid allocPoint rewarder overwrite salt =>
      setPool env s pid allocPoint rewarder overwrite salt
  | .resetPool pid salt => resetPool env s pid salt
  | .outside seconds world => .ok { s with timestamp := s.timestamp + seconds, world }

/-! ## With the distributor -/

section Distributor

variable {V T : Type}

/-- What the actions depend on, apart from the `TribalChief`. -/
structure SyncWorld (V T : Type) : Type where
  timelock : T
  distributor : AutoRewardsDistributorState V

/-- The contract with an `AutoRewardsDistributor`. -/
def syncEnv (tribalChief : TribalChiefEnv) (this timelock : Address)
    (execute : T → TribalChief.AdminCall → Bytes32 → Bytes32 → Except Revert T)
    (distributor : AutoRewardsDistributorEnv V) : TribalChiefSyncEnv (SyncWorld V T) where
  tribalChief
  this
  timelock
  execute world data predecessor salt := do
    let timelock ← execute world.timelock data predecessor salt
    return { world with timelock }
  setAutoRewardsDistribution chief world := do
    let distributor ← AutoRewardsDistributor.setAutoRewardsDistribution distributor chief
      world.distributor
    return { world with distributor }

end Distributor

end TribalChiefSyncV2

namespace TribalChiefSyncV2.Sample

open TribalChief

/-- The contract `0x5C` administers the `TribalChief`, and so does the timelock, account 1. -/
def chiefEnv : TribalChiefEnv where
  core := TribalChief.Sample.env.core
  access := { hasRole := fun role account => role = 9 ∧ account = 0x5C, roles := ⟨1, 2, 3, 4⟩ }
  coreAddress := 0xC0
  this := 0xAA
  TRIBAL_CHIEF_ADMIN_ROLE := 9
  onSushiReward := fun _ _ _ _ _ _ _ => .ok ()

/-- The distributor `0xDD` serves pool 0, and Rari does as it says. -/
def distributor : AutoRewardsDistributorEnv Nat where
  this := 0xDD
  cTokenAddress := 0xC7
  isBorrowIncentivized := false
  tribalChiefRewardIndex := 0
  AUTO_REWARDS_DISTRIBUTOR_ROLE := 5
  rewardsDistributor := ⟨fun _ _ => 0, fun speed _ => speed, fun _ _ _ => .error (.reason ""),
    fun _ _ speed => .ok speed⟩

/-- The timelock has approved everything. -/
def syncing : TribalChiefSyncEnv (SyncWorld Nat Unit) :=
  syncEnv chiefEnv 0x5C 1 (fun world _ _ _ => .ok world) distributor

/-- Nothing is paused, and the market has this speed. -/
def worldAt (speed : Nat) : SyncWorld Nat Unit :=
  ⟨(), ⟨false, ⟨false, fun a => a = 0xDD, speed⟩⟩⟩

/-- The rate is to fall to 50 TRIBE after time 1000. -/
def deployed : TribalChiefSyncState (SyncWorld Nat Unit) where
  tribalChief := initialized chiefEnv 20 TribalChief.Sample.ledger 100
  rewardsSchedule := Function.update (fun _ => 0) (50 * 10 ^ 18) 1000
  rewardsArray := [50 * 10 ^ 18]
  timestamp := 500
  world := worldAt 0

theorem deployed_eq : construct [50 * 10 ^ 18] [1000] deployed.tribalChief 500 (worldAt 0) =
    .ok deployed := rfl

end TribalChiefSyncV2.Sample

end FeiProtocol
