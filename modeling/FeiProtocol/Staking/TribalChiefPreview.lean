import FeiProtocol.Staking.TribalChiefSteps

/-!
# The preview of rewards in `TribalChief`

`pendingRewards` accrues to a pool what `updatePool` would, but divides by the total of the
allocation points without the check that `updatePool` makes, and with the total of the moment
for all blocks since the pool's last update.

* `pendingRewards_eq_ok_iff`: what the preview computes.
* `pendingRewards_eq_harvest_iff`: a harvest pays what the preview shows, unless the preview
  has to divide by a total of zero.
* `pendingRewards_after_iff`: `add`, `set` and `resetRewards` on one pool leave the preview of
  another as it is if that pool is up to date or empty, or the total stays the same; otherwise
  only rounding can hide the change.
-/

namespace FeiProtocol

open Evm

namespace TribalChief

open CoreRef ReentrancyGuard

variable {env : TribalChiefEnv} {s s' : TribalChiefState} {pid : Nat} {user : Address}
  {pool : PoolInfo}

/-! ## What the preview computes -/

/-- There are blocks to be accrued, and somebody to accrue them to. -/
def PoolInfo.Behind (pool : PoolInfo) (blockNumber : Nat) : Prop :=
  pool.lastRewardBlock < blockNumber ∧ pool.virtualTotalSupply ≠ 0

instance (pool : PoolInfo) (blockNumber : Nat) : Decidable (pool.Behind blockNumber) :=
  inferInstanceAs (Decidable (_ ∧ _))

/-- The accumulator of the pool, when `total` allocation points share the blocks since its last
update. -/
def shareUnder (s : TribalChiefState) (total : Nat) (pool : PoolInfo) : Nat :=
  pool.accTribePerShare + (s.blockNumber - pool.lastRewardBlock) * s.tribalChiefTribePerBlock *
    pool.allocPoint / total * ACC_TRIBE_PRECISION / pool.virtualTotalSupply

/-- The division and the products of that accumulator are defined. -/
structure SharesUnder (s : TribalChiefState) (total : Nat) (pool : PoolInfo) : Prop where
  divided : total ≠ 0
  scaled : (s.blockNumber - pool.lastRewardBlock) * s.tribalChiefTribePerBlock *
    pool.allocPoint / total * ACC_TRIBE_PRECISION < 2 ^ 256
  share : shareUnder s total pool < 2 ^ 256

/-- What does not depend on the total: the blocks, the rate and the weight fit a word. -/
structure Weighs (s : TribalChiefState) (pool : PoolInfo) : Prop where
  emitted : (s.blockNumber - pool.lastRewardBlock) * s.tribalChiefTribePerBlock < 2 ^ 256
  weighted : (s.blockNumber - pool.lastRewardBlock) * s.tribalChiefTribePerBlock *
    pool.allocPoint < 2 ^ 256

/-- The accumulator that the preview uses. -/
def previewShare (s : TribalChiefState) (pool : PoolInfo) : Except Revert Nat :=
  if pool.Behind s.blockNumber then do
    let reward ← tribeReward s pool
    addReward pool reward
  else .ok pool.accTribePerShare

theorem previewShare_eq_ok_iff {share : Nat} : previewShare s pool = .ok share ↔
    (pool.Behind s.blockNumber → Weighs s pool ∧ SharesUnder s s.totalAllocPoint pool) ∧
      share = if pool.Behind s.blockNumber then shareUnder s s.totalAllocPoint pool
        else pool.accTribePerShare := by
  by_cases behind : pool.Behind s.blockNumber
  · have later := Nat.le_of_lt behind.1
    rw [previewShare, if_pos behind, if_pos behind]
    simp only [tribeReward, addReward, tribePerBlock, bind_eq_ok_iff, checkedSub_eq_ok_iff,
      checkedMul_eq_ok_iff, checkedDiv_eq_ok_iff, checkedAdd_eq_ok_iff]
    constructor
    · intro given
      rcases given with ⟨_, ⟨_, ⟨_, blocks⟩, _, ⟨emitted, product⟩, _, ⟨weighted, product'⟩, total,
        quotient⟩, _, ⟨scaled, product''⟩, _, ⟨_, perShare⟩, fits, value⟩
      subst blocks
      subst product
      subst product'
      subst quotient
      subst product''
      subst perShare
      exact ⟨fun _ => ⟨⟨emitted, weighted⟩, total, scaled, fits⟩, value.symm⟩
    · intro given
      rcases given with ⟨fits, value⟩
      obtain ⟨weighs, shares⟩ := fits behind
      exact ⟨_, ⟨_, ⟨later, rfl⟩, _, ⟨weighs.emitted, rfl⟩, _, ⟨weighs.weighted, rfl⟩,
        shares.divided, rfl⟩, _, ⟨shares.scaled, rfl⟩, _, ⟨behind.2, rfl⟩, shares.share, value.symm⟩
  · rw [previewShare, if_neg behind, if_neg behind]
    constructor
    · intro same
      cases same
      exact ⟨fun here => absurd here behind, rfl⟩
    · intro given
      rcases given with ⟨_, value⟩
      rw [value]

/-- The account is shown `v` when the accumulator is `share`. -/
structure Shows (account : UserInfo) (share v : Nat) : Prop where
  product : account.virtualAmount * share < 2 ^ 256
  granted : account.virtualAmount * share / ACC_TRIBE_PRECISION < 2 ^ 255
  unpaid : -2 ^ 255 ≤
      (account.virtualAmount * share / ACC_TRIBE_PRECISION : Nat) - account.rewardDebt ∧
    (account.virtualAmount * share / ACC_TRIBE_PRECISION : Nat) - account.rewardDebt < 2 ^ 255
  value : ((account.virtualAmount * share / ACC_TRIBE_PRECISION : Nat) : Int) -
    account.rewardDebt = v

/-- **The preview.** -/
theorem pendingRewards_eq_ok_iff {v : Nat} : pendingRewards s pid user = .ok v ↔
    ∃ pool share, s.poolInfo[pid]? = some pool ∧ previewShare s pool = .ok share ∧
      Shows (s.userInfo pid user) share v := by
  have unfolded : pendingRewards s pid user = (do
      let pool ← element s.poolInfo pid
      let share ← previewShare s pool
      let product ← checkedMul (s.userInfo pid user).virtualAmount share
      let accumulated ← toInt256 (product / ACC_TRIBE_PRECISION)
      let unpaid ← checkedIntSub accumulated (s.userInfo pid user).rewardDebt
      toUint256 unpaid) := rfl
  rw [unfolded]
  simp only [bind_eq_ok_iff, element_eq_ok_iff, checkedMul_eq_ok_iff, toInt256_eq_ok_iff,
    checkedIntSub_eq_ok_iff, toUint256_eq_ok_iff]
  constructor
  · intro given
    rcases given with ⟨pool, found, share, computed, _, ⟨product, same⟩, _, ⟨granted, same'⟩, _,
      ⟨unpaid, same''⟩, positive, value⟩
    subst same
    subst same'
    subst same''
    exact ⟨pool, share, found, computed, product, granted, unpaid, by omega⟩
  · intro given
    rcases given with ⟨pool, share, found, computed, shows⟩
    have value := shows.value
    exact ⟨pool, found, share, computed, _, ⟨shows.product, rfl⟩, _, ⟨shows.granted, rfl⟩, _,
      ⟨shows.unpaid, rfl⟩, by omega, by omega⟩

/-! ## Agreement with the harvest -/

/-- The harvest pays `v` of TRIBE to `dst`. -/
structure Pays (env : TribalChiefEnv) (s : TribalChiefState) (user : Address) (pid : Nat)
    (dst : Address) (v : Nat) (s' : TribalChiefState) : Prop where
  some : v ≠ 0 → s.ledger.safeTransfer env.this s.TRIBE dst v = .ok s'.ledger
  none : v = 0 → s'.ledger = s.ledger
  event : s'.events = s.events ++ [.Harvest user pid v]

/-- The preview has to divide by a total of zero. -/
def Undivided (s : TribalChiefState) (pool : PoolInfo) : Prop :=
  pool.Behind s.blockNumber ∧ s.totalAllocPoint = 0

/-- An update finds the accumulator that the preview uses, if that can be computed. -/
theorem previewShare_of_updatePool (found : s.poolInfo[pid]? = some pool)
    (succeeds : updatePool s pid = .ok s') : previewShare s pool =
      .ok (accrued s pool).accTribePerShare ↔ ¬ Undivided s pool := by
  constructor
  · intro computed ⟨behind, zero⟩
    exact ((previewShare_eq_ok_iff.mp computed).1 behind).2.divided zero
  · intro divided
    simp only [updatePool, bind_eq_ok_iff, element_eq_ok_iff] at succeeds
    obtain ⟨pool', found', succeeds⟩ := succeeds
    cases found.symm.trans found'
    by_cases later : pool.lastRewardBlock < s.blockNumber
    · rw [if_pos later] at succeeds
      simp only [bind_eq_ok_iff] at succeeds
      obtain ⟨pair, computed, _⟩ := succeeds
      by_cases staked : pool.virtualTotalSupply = 0
      · have idle : ¬ (0 < pool.virtualTotalSupply ∧ s.totalAllocPoint ≠ 0) := fun live =>
          Nat.ne_of_gt live.1 staked
        rw [previewShare, if_neg fun both => both.2 staked, accrued, if_pos later]
        exact congrArg _ (currentShare_of_idle idle).symm
      · have live : 0 < pool.virtualTotalSupply ∧ s.totalAllocPoint ≠ 0 :=
          ⟨Nat.pos_of_ne_zero staked, fun zero => divided ⟨⟨later, staked⟩, zero⟩⟩
        rw [if_pos live] at computed
        simp only [bind_eq_ok_iff] at computed
        obtain ⟨reward, rewarded, share, added, _⟩ := computed
        have value := ((tribeReward_eq_ok_iff (Nat.le_of_lt later) live).mp rewarded).2.2
        have value' : share = currentShare s pool := by
          rw [value] at added
          exact ((addReward_eq_ok_iff live.1).mp added).2.2
        rw [previewShare, if_pos ⟨later, staked⟩, accrued, if_pos later, ← value']
        exact bind_eq_ok_iff.mpr ⟨reward, rewarded, added⟩
    · rw [previewShare, if_neg fun both => later both.1, accrued, if_neg later]

/-- What `_harvest` pays. -/
theorem pays_of_harvest {dst : Address} (succeeds : _harvest env s user pid dst = .ok s') :
    ∃ pool v, s.poolInfo[pid]? = some pool ∧
      Shows (s.userInfo pid user) pool.accTribePerShare v ∧ Pays env s user pid dst v s' := by
  simp only [_harvest, bind_eq_ok_iff, pure_eq_ok_iff, exists_const, element_eq_ok_iff,
    checkedMul_eq_ok_iff, toInt256_eq_ok_iff, checkedIntSub_eq_ok_iff, assert_eq_ok_iff,
    toUint256_eq_ok_iff] at succeeds
  obtain ⟨pool, found, _, ⟨product, same⟩, _, ⟨granted, same'⟩, _, ⟨unpaid, same''⟩, _, v,
    ⟨positive, value⟩, _, _, _, ledger, paid, _, _, last⟩ := succeeds
  subst same
  subst same'
  subst same''
  subst last
  refine ⟨pool, v, found, ⟨product, granted, unpaid, by omega⟩, fun some => ?_, fun none => ?_,
    rfl⟩
  · rw [if_pos some] at paid
    exact paid
  · rw [if_neg (not_not.mpr none)] at paid
    cases paid
    rfl

/-- **The preview and the harvest.** When a harvest succeeds, the preview before it shows what
the harvest pays, if and only if it does not have to divide by a total of zero. -/
theorem pendingRewards_eq_harvest_iff {pid : UInt256} {dst : Address}
    (found : s.poolInfo[pid.toNat]? = some pool)
    (succeeds : step env s (.harvest user pid dst) = .ok s') :
    (∃ v, pendingRewards s pid.toNat user = .ok v ∧ Pays env s user pid.toNat dst v s') ↔
      ¬ (pool.lastRewardBlock < s.blockNumber ∧ pool.virtualTotalSupply ≠ 0 ∧
        s.totalAllocPoint = 0) := by
  rw [step, TribalChief.harvest, nonReentrant_inversion] at succeeds
  obtain ⟨_, m, body, same⟩ := succeeds
  subst same
  simp only [bind_eq_ok_iff] at body
  obtain ⟨u, update, harvests⟩ := body
  have computes := previewShare_of_updatePool (s := ReentrancyGuard.withStatus s _ENTERED) found
    update
  obtain ⟨pool', found', same⟩ := opened_of_updatePool update
  cases found.symm.trans found'
  subst same
  obtain ⟨pool'', v, here, shows, pays⟩ := pays_of_harvest harvests
  rcases getElem?_set_cases here with ⟨_, value⟩ | ⟨other, _⟩
  · subst value
    have pays : Pays env s user pid.toNat dst v (closed m) := ⟨pays.some, pays.none, pays.event⟩
    have computes : previewShare s pool = .ok (accrued s pool).accTribePerShare ↔
      ¬ Undivided s pool := computes
    have shows : Shows (s.userInfo pid.toNat user) (accrued s pool).accTribePerShare v := shows
    rw [← and_assoc]
    constructor
    · intro shown undivided
      rcases shown with ⟨w, shown, _⟩
      obtain ⟨pool', share, here, computed, _⟩ := pendingRewards_eq_ok_iff.mp shown
      cases found.symm.trans here
      exact ((previewShare_eq_ok_iff.mp computed).1 undivided.1).2.divided undivided.2
    · intro divided
      exact ⟨v, pendingRewards_eq_ok_iff.mpr ⟨pool, _, found, computes.mpr divided, shows⟩, pays⟩
  · exact absurd rfl other

end TribalChief

namespace TribalChief.Sample

/-- Account 5 stakes in pool 0, which a later block finds without an update. -/
def waiting : List Action := [addPool, .deposit 5 0 (10 ^ 18) 0, .mine 1]

/-- The pool has been reset, and there is no other. -/
def unweighted : List Action := waiting ++ [.admin 2 (.resetRewards 0), .mine 1]

end TribalChief.Sample

namespace TribalChief

theorem pendingRewards_eq_harvest_sample : ∃ v s',
    pendingRewards (run (step Sample.env) Sample.start Sample.waiting) 0 5 = .ok v ∧
      Pays Sample.env (run (step Sample.env) Sample.start Sample.waiting) 5 0 6 v s' := by
  obtain ⟨s', succeeds⟩ := exists_ok_of_isOk (x := step Sample.env
    (run (step Sample.env) Sample.start Sample.waiting) (.harvest 5 0 6)) (by decide +kernel)
  have found : (run (step Sample.env) Sample.start Sample.waiting).poolInfo[0]? =
    some ⟨10 ^ 18, 0, 100, 100, false⟩ := by decide +kernel
  obtain ⟨v, shown, pays⟩ := (pendingRewards_eq_harvest_iff found succeeds).mpr (by decide +kernel)
  exact ⟨v, s', shown, pays⟩

/-- The harvest of the block after a reset pays the rewards of the block before it, which the
preview cannot show. -/
theorem pendingRewards_panics :
    ((step Sample.env (run (step Sample.env) Sample.start Sample.unweighted)
      (.harvest 5 0 6)).toOption.bind fun s => s.events.getLast?) =
        some (.Harvest 5 0 (75 * 10 ^ 18)) ∧
    pendingRewards (run (step Sample.env) Sample.start Sample.unweighted) 0 5 =
      .error (.panic 0x12) := by
  decide +kernel

/-! ## Administration of another pool -/

/-- The pool that a call gives another weight, and the total of the weights after it. -/
def AdminCall.reweighs (s : TribalChiefState) : AdminCall → Option (Nat × Nat)
  | .add allocPoint _ _ _ => some (s.poolInfo.length, s.totalAllocPoint + allocPoint.toNat)
  | .set pid allocPoint _ _ =>
      some (pid.toNat, s.totalAllocPoint - allocAt s pid.toNat + allocPoint.toNat)
  | .resetRewards pid => some (pid.toNat, s.totalAllocPoint - allocAt s pid.toNat)
  | _ => none

/-- What the previews of other pools read after such a call. -/
structure Reweighed (s : TribalChiefState) (pid total : Nat) (s' : TribalChiefState) : Prop where
  total : s'.totalAllocPoint = total
  rate : s'.tribalChiefTribePerBlock = s.tribalChiefTribePerBlock
  block : s'.blockNumber = s.blockNumber
  accounts : s'.userInfo = s.userInfo
  others : ∀ q, q ≠ pid → s'.poolInfo[q]? = s.poolInfo[q]?

theorem reweighed_of_add {sender stakedToken rewarder : Address} {allocPoint : BitVec 120}
    {rewardData : List RewardData}
    (succeeds : add env s sender allocPoint stakedToken rewarder rewardData = .ok s') :
    Reweighed s s.poolInfo.length (s.totalAllocPoint + allocPoint.toNat) s' := by
  simp only [add, bind_eq_ok_iff, pure_eq_ok_iff, checkedAdd_eq_ok_iff] at succeeds
  obtain ⟨_, _, _, _, _, _, _, ⟨_, sum⟩, _, _, _, _, same⟩ := succeeds
  subst sum
  subst same
  refine ⟨rfl, rfl, rfl, rfl, fun q other => ?_⟩
  rcases Nat.lt_or_ge q s.poolInfo.length with inside | outside
  · exact List.getElem?_append_left inside
  · have beyond : s.poolInfo.length + 1 ≤ q := Nat.lt_of_le_of_ne outside (Ne.symm other)
    rw [List.getElem?_eq_none outside]
    exact List.getElem?_eq_none (by rw [List.length_append]; exact beyond)

/-- The pool that is given another weight is updated first. -/
theorem reweighed_of_updatePool {u : TribalChiefState} (update : updatePool s pid = .ok u)
    (weight : PoolInfo) : Reweighed s pid s.totalAllocPoint
      { u with poolInfo := u.poolInfo.set pid weight } := by
  obtain ⟨pool, _, same⟩ := updated_of_updatePool update
  subst same
  refine ⟨rfl, rfl, rfl, rfl, fun q other => ?_⟩
  rw [List.getElem?_set_ne (Ne.symm other), updated, List.getElem?_set_ne (Ne.symm other)]

theorem reweighed_of_set {sender rewarder : Address} {allocPoint : BitVec 120}
    {overwrite : Bool}
    (succeeds : TribalChief.set env s sender pid allocPoint rewarder overwrite = .ok s') :
    Reweighed s pid (s.totalAllocPoint - allocAt s pid + allocPoint.toNat) s' := by
  simp only [TribalChief.set, bind_eq_ok_iff, pure_eq_ok_iff, element_eq_ok_iff,
    checkedSub_eq_ok_iff, checkedAdd_eq_ok_iff] at succeeds
  obtain ⟨_, _, u, update, weighed, here, _, ⟨_, others⟩, _, ⟨_, sum⟩, _, _, same⟩ := succeeds
  obtain ⟨pool, found, points, total⟩ := points_of_updatePool update
  cases found.symm.trans here
  subst others
  subst sum
  subst same
  have elsewhere := reweighed_of_updatePool update { weighed with allocPoint := allocPoint.toNat }
  refine ⟨?_, elsewhere.rate, elsewhere.block, elsewhere.accounts, elsewhere.others⟩
  rw [← points, ← total]

theorem reweighed_of_resetRewards {sender : Address}
    (succeeds : resetRewards env s sender pid = .ok s') :
    Reweighed s pid (s.totalAllocPoint - allocAt s pid) s' := by
  simp only [resetRewards, bind_eq_ok_iff, pure_eq_ok_iff, element_eq_ok_iff,
    checkedSub_eq_ok_iff] at succeeds
  obtain ⟨_, _, u, update, weighed, here, _, ⟨_, rest⟩, same⟩ := succeeds
  obtain ⟨pool, found, points, total⟩ := points_of_updatePool update
  cases found.symm.trans here
  subst rest
  subst same
  have elsewhere := reweighed_of_updatePool update
    { weighed with allocPoint := 0, unlocked := true }
  refine ⟨?_, elsewhere.rate, elsewhere.block, elsewhere.accounts, elsewhere.others⟩
  rw [← points, ← total]

theorem reweighed_of_admin {c : AdminCall} {sender : Address} {total : Nat}
    (reweighs : c.reweighs s = some (pid, total))
    (succeeds : admin env s sender c = .ok s') : Reweighed s pid total s' := by
  cases c with
  | add allocPoint stakedToken rewarder rewardData =>
      cases reweighs
      exact reweighed_of_add succeeds
  | set pid allocPoint rewarder overwrite =>
      cases reweighs
      exact reweighed_of_set succeeds
  | resetRewards pid =>
      cases reweighs
      exact reweighed_of_resetRewards succeeds
  | updateBlockReward newBlockReward => cases reweighs
  | lockPool pid => cases reweighs
  | unlockPool pid => cases reweighs
  | governorAddPoolMultiplier pid lockLength newRewardsMultiplier => cases reweighs
  | governorWithdrawTribe amount => cases reweighs
  | setContractAdminRole newContractAdminRole => cases reweighs
  | pause => cases reweighs
  | unpause => cases reweighs

/-! ## The preview after a call -/

section Reweighed

variable {total n : Nat}

theorem Reweighed.shareUnder_eq (reweighed : Reweighed s pid total s') (n : Nat)
    (pool : PoolInfo) : shareUnder s' n pool = shareUnder s n pool := by
  rw [shareUnder, shareUnder, reweighed.block, reweighed.rate]

theorem Reweighed.weighs_iff (reweighed : Reweighed s pid total s') :
    Weighs s' pool ↔ Weighs s pool := by
  constructor
  · intro given
    rcases given with ⟨emitted, weighted⟩
    rw [reweighed.block, reweighed.rate] at emitted weighted
    exact ⟨emitted, weighted⟩
  · intro given
    rcases given with ⟨emitted, weighted⟩
    rw [← reweighed.block, ← reweighed.rate] at emitted weighted
    exact ⟨emitted, weighted⟩

theorem Reweighed.sharesUnder_iff (reweighed : Reweighed s pid total s') :
    SharesUnder s' n pool ↔ SharesUnder s n pool := by
  constructor
  · intro given
    rcases given with ⟨divided, scaled, fits⟩
    rw [reweighed.block, reweighed.rate] at scaled
    rw [reweighed.shareUnder_eq] at fits
    exact ⟨divided, scaled, fits⟩
  · intro given
    rcases given with ⟨divided, scaled, fits⟩
    rw [← reweighed.block, ← reweighed.rate] at scaled
    rw [← reweighed.shareUnder_eq] at fits
    exact ⟨divided, scaled, fits⟩

/-- The preview of another pool, in terms of the state before the call. -/
theorem Reweighed.pendingRewards_iff (reweighed : Reweighed s pid total s') {q v : Nat}
    (found' : s'.poolInfo[q]? = some pool) : pendingRewards s' q user = .ok v ↔ ∃ share',
      ((pool.Behind s.blockNumber → Weighs s pool ∧ SharesUnder s total pool) ∧
        share' = if pool.Behind s.blockNumber then shareUnder s total pool
          else pool.accTribePerShare) ∧ Shows (s.userInfo q user) share' v := by
  simp only [pendingRewards_eq_ok_iff, found', Option.some.injEq, exists_and_left, exists_eq_left',
    previewShare_eq_ok_iff, reweighed.block, reweighed.total, reweighed.accounts,
    reweighed.weighs_iff, reweighed.sharesUnder_iff, reweighed.shareUnder_eq]

end Reweighed

/-- With `total` allocation points a virtual amount in the pool is granted what it is with those
there are. -/
structure Regrants (s : TribalChiefState) (total : Nat) (pool : PoolInfo) (virtualAmount : Nat) :
    Prop where
  shares : SharesUnder s total pool
  product : virtualAmount * shareUnder s total pool < 2 ^ 256
  same : virtualAmount * shareUnder s total pool / ACC_TRIBE_PRECISION =
    virtualAmount * shareUnder s s.totalAllocPoint pool / ACC_TRIBE_PRECISION

/-- **The preview of other pools.** What a user of pool `q` is shown stays the same through a
call on pool `pid` if and only if there is nothing to be accrued to `q`, or the total of the
weights stays the same, or rounding hides what becomes of it. -/
theorem pendingRewards_after_iff {c : AdminCall} {sender : Address} {total q v : Nat}
    (reweighs : c.reweighs s = some (pid, total))
    (succeeds : step env s (.admin sender c) = .ok s') (other : q ≠ pid)
    (found : s.poolInfo[q]? = some pool) (before : pendingRewards s q user = .ok v) :
    pendingRewards s' q user = .ok v ↔
      s.blockNumber ≤ pool.lastRewardBlock ∨ pool.virtualTotalSupply = 0 ∨
        total = s.totalAllocPoint ∨
        Regrants s total pool (s.userInfo q user).virtualAmount := by
  have reweighed := reweighed_of_admin reweighs succeeds
  have found' : s'.poolInfo[q]? = some pool := (reweighed.others q other).trans found
  obtain ⟨pool', share, here, computed, shows⟩ := pendingRewards_eq_ok_iff.mp before
  cases found.symm.trans here
  obtain ⟨fits, value⟩ := previewShare_eq_ok_iff.mp computed
  rw [reweighed.pendingRewards_iff found']
  by_cases behind : pool.Behind s.blockNumber
  · simp only [if_pos behind] at value ⊢
    subst value
    have unpaid : ¬ (s.blockNumber ≤ pool.lastRewardBlock) := Nat.not_le.mpr behind.1
    constructor
    · intro given
      rcases given with ⟨_, ⟨shares, same⟩, shows'⟩
      subst same
      refine .inr (.inr (.inr ⟨(shares behind).2, shows'.product, ?_⟩))
      have shown := shows.value
      have shown' := shows'.value
      omega
    · intro given
      rcases given with current | empty | same | regrants
      · exact absurd current unpaid
      · exact absurd empty behind.2
      · subst same
        exact ⟨_, ⟨fits, rfl⟩, shows⟩
      · refine ⟨_, ⟨fun _ => ⟨(fits behind).1, regrants.shares⟩, rfl⟩, regrants.product, ?_, ?_, ?_⟩
        · rw [regrants.same]
          exact shows.granted
        · rw [regrants.same]
          exact shows.unpaid
        · rw [regrants.same]
          exact shows.value
  · simp only [if_neg behind] at value ⊢
    subst value
    constructor
    · intro _
      rcases Nat.lt_or_ge pool.lastRewardBlock s.blockNumber with later | current
      · exact .inr (.inl (not_not.mp fun staked => behind ⟨later, staked⟩))
      · exact .inl current
    · intro _
      exact ⟨_, ⟨fun here => absurd here behind, rfl⟩, shows⟩

end TribalChief

namespace TribalChief.Sample

def addition : AdminCall := .add 100 31 0 [⟨0, 10000⟩]

/-- The same with an update. -/
def refreshed : List Action := waiting ++ [.updatePool 0]

end TribalChief.Sample

namespace TribalChief

theorem pendingRewards_after_sample : ∃ s',
    step Sample.env (run (step Sample.env) Sample.start Sample.refreshed)
      (.admin 1 Sample.addition) = .ok s' ∧ pendingRewards s' 0 5 = .ok (75 * 10 ^ 18) := by
  obtain ⟨s', succeeds⟩ := exists_ok_of_isOk (x := step Sample.env
    (run (step Sample.env) Sample.start Sample.refreshed) (.admin 1 Sample.addition))
    (by decide +kernel)
  have reweighs : Sample.addition.reweighs
    (run (step Sample.env) Sample.start Sample.refreshed) = some (1, 200) := by decide +kernel
  have found : (run (step Sample.env) Sample.start Sample.refreshed).poolInfo[0]? =
    some ⟨10 ^ 18, 75 * 10 ^ 23, 101, 100, false⟩ := by decide +kernel
  have before : pendingRewards (run (step Sample.env) Sample.start Sample.refreshed) 0 5 =
    .ok (75 * 10 ^ 18) := by decide +kernel
  have current : (run (step Sample.env) Sample.start Sample.refreshed).blockNumber ≤ 101 := by
    decide +kernel
  exact ⟨s', succeeds, (pendingRewards_after_iff reweighs succeeds (by decide) found before).mpr
    (.inl current)⟩

/-- When the first pool has not been updated, half of the rewards of the blocks before the
addition is gone. -/
theorem pendingRewards_halved :
    pendingRewards (run (step Sample.env) Sample.start Sample.waiting) 0 5 =
      .ok (75 * 10 ^ 18) ∧
    ((step Sample.env (run (step Sample.env) Sample.start Sample.waiting)
      (.admin 1 Sample.addition)).toOption.map fun s => pendingRewards s 0 5) =
        some (.ok (375 * 10 ^ 17)) := by
  decide +kernel

end TribalChief

end FeiProtocol
