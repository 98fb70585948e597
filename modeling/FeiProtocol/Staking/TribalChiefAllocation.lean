import FeiProtocol.Math.Tables
import FeiProtocol.Staking.TribalChiefSteps
import Mathlib.Algebra.BigOperators.Field
import Mathlib.Algebra.Order.BigOperators.Group.Finset
import Mathlib.Algebra.Order.Ring.Rat
import Mathlib.Data.Nat.Cast.Order.Field
import Mathlib.Tactic.Ring

/-!
# The allocation points of `TribalChief`

The total of the allocation points is kept beside the pools: `add` adds to it, `set` and
`resetRewards` take the old points of a pool out and put the new ones in.

* `Allocated`: the total is the sum over the pools.
* `allocated_of_step`: every transaction keeps it so.
* `totalAllocPoint_eq_sum`: it is so in every run. No update of the total underflows, and the
  pools' shares of a block come to no more than the reward of the block.
-/

namespace FeiProtocol

open Evm Finset

namespace TribalChief

variable {env : TribalChiefEnv} {s s' : TribalChiefState} {pid : Nat} {user : Address}
  {pool : PoolInfo}

/-! ## The total -/

/-- The total allocation points are those of the pools. -/
def Allocated (s : TribalChiefState) : Prop :=
  s.totalAllocPoint = ∑ i ∈ range s.poolInfo.length, allocAt s i

/-- The total covers every pool. -/
theorem Allocated.le (allocated : Allocated s) (pid : Nat) : allocAt s pid ≤ s.totalAllocPoint := by
  rcases Nat.lt_or_ge pid s.poolInfo.length with inside | outside
  · rw [allocated]
    exact single_le_sum (fun _ _ => Nat.zero_le _) (mem_range.mpr inside)
  · rw [allocAt, List.getElem?_eq_none outside, Option.elim_none]
    exact Nat.zero_le _

theorem alloc_congr (same : parameters s' = parameters s) :
    ∑ i ∈ range s'.poolInfo.length, allocAt s' i =
      ∑ i ∈ range s.poolInfo.length, allocAt s i := by
  simp only [parameters, Prod.mk.injEq] at same
  have lengths : s'.poolInfo.length = s.poolInfo.length := by
    rw [← List.length_map PoolInfo.allocPoint, same.2.2, List.length_map]
  rw [lengths]
  refine sum_congr rfl fun i _ => ?_
  have entries := congrArg (fun l : List Nat => (l[i]?).elim 0 id) same.2.2
  simp only [List.getElem?_map, Option.elim_map, Function.id_comp] at entries
  exact entries

theorem Allocated.congr (allocated : Allocated s) (same : parameters s' = parameters s) :
    Allocated s' := by
  rw [Allocated, alloc_congr same, ← allocated]
  exact congrArg (fun x => x.2.1) same

/-- A pool is given other points. -/
theorem Allocated.weigh (allocated : Allocated s) {allocPoint totalAllocPoint : Nat}
    {unlocked : Bool} (found : s.poolInfo[pid]? = some pool)
    (total : totalAllocPoint + pool.allocPoint = s.totalAllocPoint + allocPoint) :
    Allocated { s with
      totalAllocPoint
      poolInfo := s.poolInfo.set pid { pool with allocPoint, unlocked } } := by
  have inside := (List.getElem?_eq_some_iff.mp found).1
  have change := Tables.sum_change (f := allocAt s) (g := fun i =>
    ((s.poolInfo.set pid { pool with allocPoint, unlocked })[i]?).elim 0 PoolInfo.allocPoint)
    (mem_range.mpr inside) fun i _ other => by
      rw [List.getElem?_set_ne (Ne.symm other), allocAt]
  have before : allocAt s pid = pool.allocPoint := by rw [allocAt, found, Option.elim_some]
  rw [← allocated, before, List.getElem?_set_self inside, Option.elim_some] at change
  simp only [Allocated, List.length_set, allocAt] at change ⊢
  omega

/-- A pool is added. -/
theorem Allocated.add (allocated : Allocated s) (allocPoint : Nat)
    (stakedToken rewarder : Address) :
    Allocated { s with
      totalAllocPoint := s.totalAllocPoint + allocPoint
      stakedToken := s.stakedToken ++ [stakedToken]
      rewarder := s.rewarder ++ [rewarder]
      poolInfo := s.poolInfo ++ [⟨0, 0, s.blockNumber, allocPoint, false⟩] } := by
  simp only [Allocated, allocAt, List.length_append, List.length_singleton]
  rw [sum_range_succ, List.getElem?_concat_length, Option.elim_some, allocated]
  refine congrArg (· + allocPoint) (sum_congr rfl fun i mem => ?_)
  rw [List.getElem?_append_left (mem_range.mp mem), allocAt]

theorem Allocated.phase (allocated : Allocated s) (phase : Phase env s s') : Allocated s' := by
  cases phase with
  | rest length => exact allocated
  | tokens guarded => exact allocated
  | update found => exact allocated.congr (parameters_updated found)
  | weigh found total => exact allocated.weigh found total
  | add allocPoint stakedToken rewarder => exact allocated.add allocPoint stakedToken rewarder
  | rate => exact allocated
  | mine => exact allocated

/-- A user operation leaves the parameters alone. -/
theorem Acts.parameters_eq {mv : Move} (acts : Acts env pid user mv s s') :
    parameters s' = parameters s := by
  obtain @⟨pool, e', ledger, event, found, moves, settles, logs⟩ := acts
  have alloc : e'.pool.allocPoint = pool.allocPoint := by
    rw [moves.pool]
    rfl
  simp only [parameters, logged, book, map_set_of_getElem? found alloc]

theorem allocated_of_step {a : Action} (allocated : Allocated s)
    (succeeds : step env s a = .ok s') : Allocated s' := by
  by_cases external : a.External env
  · exact (transaction_of_step external succeeds).keeps
      (fun allocated phase => allocated.phase phase)
      (fun allocated acts => allocated.congr acts.parameters_eq) allocated
  · cases a with
    | token actor c =>
        obtain ⟨ledger, _, same⟩ := bind_eq_ok_iff.mp succeeds
        cases same
        exact allocated
    | deposit _ _ _ _ | withdrawAllAndHarvest _ _ _ | withdrawFromDeposit _ _ _ _ _
    | harvest _ _ _ | emergencyWithdraw _ _ _ | updatePool _ | massUpdatePools _ | admin _ _
    | mine _ => exact absurd trivial external

/-! ## Updates of the total -/

/-- A reset fails only where the update of the pool does. -/
theorem resetRewards_succeeds_iff (allocated : Allocated s) :
    (∃ s', resetRewards env s user pid = .ok s') ↔
      (env.core.isGovernor user || env.core.isGuardian user) = true ∧
        ∃ u, updatePool s pid = .ok u := by
  simp only [resetRewards, CoreRef.onlyGuardianOrGovernor, bind_eq_ok_iff, pure_eq_ok_iff,
    require_eq_ok_iff, element_eq_ok_iff, checkedSub_eq_ok_iff]
  constructor
  · intro given
    rcases given with ⟨_, _, authorised, u, update, _⟩
    exact ⟨authorised, u, update⟩
  · intro given
    rcases given with ⟨authorised, u, update⟩
    obtain ⟨pool, found, points, total⟩ := points_of_updatePool update
    have le : pool.allocPoint ≤ u.totalAllocPoint := by
      rw [points, total]
      exact allocated.le pid
    exact ⟨_, (), authorised, u, update, pool, found, _, ⟨le, rfl⟩, rfl⟩

/-- Setting the points of a pool fails besides only if the new total is zero or overflows. -/
theorem set_succeeds_iff (allocated : Allocated s) {allocPoint : BitVec 120} {rewarder : Address}
    {overwrite : Bool} :
    (∃ s', TribalChief.set env s user pid allocPoint rewarder overwrite = .ok s') ↔
      (env.core.isGovernor user || env.access.hasRole s.CONTRACT_ADMIN_ROLE user) = true ∧
        (∃ u, updatePool s pid = .ok u) ∧
        0 < s.totalAllocPoint - allocAt s pid + allocPoint.toNat ∧
        s.totalAllocPoint - allocAt s pid + allocPoint.toNat < 2 ^ 256 := by
  simp only [TribalChief.set, CoreRef.onlyGovernorOrAdmin, bind_eq_ok_iff, pure_eq_ok_iff,
    require_eq_ok_iff, element_eq_ok_iff, checkedSub_eq_ok_iff, checkedAdd_eq_ok_iff]
  constructor
  · intro given
    rcases given with ⟨_, _, authorised, u, update, pool', found', _, ⟨_, others⟩, _, ⟨fits, sum⟩,
      _, positive, _⟩
    obtain ⟨pool, found, points, total⟩ := points_of_updatePool update
    cases found'.symm.trans found
    subst others
    subst sum
    rw [points, total] at fits positive
    exact ⟨authorised, ⟨u, update⟩, positive, fits⟩
  · intro given
    rcases given with ⟨authorised, ⟨u, update⟩, positive, fits⟩
    obtain ⟨pool, found, points, total⟩ := points_of_updatePool update
    have le : pool.allocPoint ≤ u.totalAllocPoint := by
      rw [points, total]
      exact allocated.le pid
    rw [← points, ← total] at positive fits
    exact ⟨_, (), authorised, u, update, pool, found, _, ⟨le, rfl⟩, _, ⟨fits, rfl⟩, (), positive,
      rfl⟩

/-! ## Shares of a block -/

/-- The part of a block's reward that its points give a pool. -/
def portion (s : TribalChiefState) (pid : Nat) : ℚ :=
  s.tribalChiefTribePerBlock * allocAt s pid / s.totalAllocPoint

theorem Allocated.sum_portion_le (allocated : Allocated s) :
    ∑ i ∈ range s.poolInfo.length, portion s i ≤ s.tribalChiefTribePerBlock := by
  unfold portion
  rw [← sum_div, ← mul_sum, ← Nat.cast_sum, ← allocated]
  by_cases none : s.totalAllocPoint = 0
  · rw [none, Nat.cast_zero, div_zero]
    exact Nat.cast_nonneg _
  · rw [mul_div_cancel_right₀ _ (Nat.cast_ne_zero.mpr none)]

/-- What an update adds for a pool is its portion of the blocks, rounded down. -/
theorem tribeReward_le_portion {reward : Nat} (found : s.poolInfo[pid]? = some pool)
    (computes : tribeReward s pool = .ok reward) :
    (reward : ℚ) ≤ ((s.blockNumber - pool.lastRewardBlock : Nat) : ℚ) * portion s pid := by
  simp only [tribeReward, tribePerBlock, bind_eq_ok_iff, checkedSub_eq_ok_iff,
    checkedMul_eq_ok_iff, checkedDiv_eq_ok_iff] at computes
  obtain ⟨_, ⟨_, blocks⟩, _, ⟨_, emitted⟩, _, ⟨_, weighted⟩, _, rounded⟩ := computes
  subst blocks
  subst emitted
  subst weighted
  subst rounded
  refine le_of_le_of_eq Nat.cast_div_le ?_
  rw [portion, allocAt, found, Option.elim_some, Nat.cast_mul, Nat.cast_mul]
  ring

/-! ## Every run -/

/-- **The allocation total.** In every run the total is the sum over the pools and covers each of
them. So resetting a pool never underflows, nor does setting its points, and the pools' portions
of a block come to no more than its reward. -/
theorem totalAllocPoint_eq_sum (TRIBE : Address) (ledger : Ledger) (blockNumber : Nat)
    (actions : List Action) :
    let s := run (step env) (initialized env TRIBE ledger blockNumber) actions
    s.totalAllocPoint = ∑ i ∈ range s.poolInfo.length, allocAt s i ∧
    (∀ pid, allocAt s pid ≤ s.totalAllocPoint) ∧
    (∀ user (pid : UInt256), (∃ s', step env s (.admin user (.resetRewards pid)) = .ok s') ↔
      (env.core.isGovernor user || env.core.isGuardian user) = true ∧
        ∃ u, updatePool s pid.toNat = .ok u) ∧
    (∀ user (pid : UInt256) allocPoint rewarder overwrite,
      (∃ s', step env s (.admin user (.set pid allocPoint rewarder overwrite)) = .ok s') ↔
      (env.core.isGovernor user || env.access.hasRole s.CONTRACT_ADMIN_ROLE user) = true ∧
        (∃ u, updatePool s pid.toNat = .ok u) ∧
        0 < s.totalAllocPoint - allocAt s pid.toNat + allocPoint.toNat ∧
        s.totalAllocPoint - allocAt s pid.toNat + allocPoint.toNat < 2 ^ 256) ∧
    ∑ i ∈ range s.poolInfo.length, portion s i ≤ s.tribalChiefTribePerBlock ∧
    (∀ pid pool reward, s.poolInfo[pid]? = some pool → tribeReward s pool = .ok reward →
      (reward : ℚ) ≤ ((s.blockNumber - pool.lastRewardBlock : Nat) : ℚ) * portion s pid) := by
  intro s
  have initially : Allocated (initialized env TRIBE ledger blockNumber) := rfl
  have allocated : Allocated s := run_invariant (A := fun _ => True)
    (fun allocated _ succeeds => allocated_of_step allocated succeeds) initially
    fun _ _ => trivial
  exact ⟨allocated, allocated.le, fun user pid => resetRewards_succeeds_iff allocated,
    fun user pid allocPoint rewarder overwrite => set_succeeds_iff allocated,
    allocated.sum_portion_le, fun pid pool reward => tribeReward_le_portion⟩

end TribalChief

end FeiProtocol
