import FeiProtocol.Evm.History
import FeiProtocol.Staking.TribalChiefAllocation
import FeiProtocol.Staking.TribalChiefRecords
import Mathlib.Algebra.BigOperators.Intervals
import Mathlib.Algebra.Order.BigOperators.Group.Finset
import Mathlib.Algebra.Order.Floor.Semifield
import Mathlib.Data.Rat.Floor
import Mathlib.Order.Interval.Finset.Nat
import Mathlib.Tactic.Linarith

/-!
# Emission of `TribalChief` under `TribalChiefSyncV2`

Pools accrue lazily: an update applies the parameters of its own block to all blocks since the
update before. This is right as long as the parameters are only changed when every pool is up to
date, which is what the modifier `update` of `TribalChiefSyncV2` is for.

* `Accounted`: every update has accrued the sum of the pool's shares of the blocks in between,
  with what was in force in each of them, and the parameters have not changed since a pool's
  last update.
* `emission_accounted`: it holds along every run in which the parameters are changed through
  `TribalChiefSyncV2`.
-/

namespace FeiProtocol

open Evm Finset

namespace TribalChief

variable {env : TribalChiefEnv} {s s' : TribalChiefState} {g g' : Nat → TribalChiefState}
  {start pid i : Nat}

/-! ## The share of a pool -/

/-- What a pool earns in a block. -/
def shareOf (s : TribalChiefState) (pool : PoolInfo) : ℚ :=
  if 0 < pool.virtualTotalSupply ∧ s.totalAllocPoint ≠ 0 then
    s.tribalChiefTribePerBlock * pool.allocPoint / s.totalAllocPoint
  else 0

def shareAt (s : TribalChiefState) (pid : Nat) : ℚ :=
  (s.poolInfo[pid]?).elim 0 (shareOf s)

/-- What a pool has earned since its last update, if nothing changed. -/
def outstandingAt (s : TribalChiefState) (pid : Nat) : ℚ :=
  (s.poolInfo[pid]?).elim 0 fun pool =>
    ((s.blockNumber - pool.lastRewardBlock : Nat) : ℚ) * shareOf s pool

theorem shareOf_nonneg (s : TribalChiefState) (pool : PoolInfo) : 0 ≤ shareOf s pool := by
  unfold shareOf
  split
  · exact div_nonneg (mul_nonneg (Nat.cast_nonneg _) (Nat.cast_nonneg _)) (Nat.cast_nonneg _)
  · exact le_refl 0

theorem outstandingAt_nonneg (s : TribalChiefState) (pid : Nat) : 0 ≤ outstandingAt s pid := by
  unfold outstandingAt
  cases s.poolInfo[pid]? with
  | none => exact le_refl 0
  | some pool => exact mul_nonneg (Nat.cast_nonneg _) (shareOf_nonneg s pool)

/-- An update accrues the whole units of the shares since the update before. -/
theorem emission_eq_floor (s : TribalChiefState) (pool : PoolInfo) : emission s pool =
    ⌊((s.blockNumber - pool.lastRewardBlock : Nat) : ℚ) * shareOf s pool⌋₊ := by
  unfold emission shareOf
  split
  · rw [← mul_div_assoc, ← mul_assoc, ← Nat.cast_mul, ← Nat.cast_mul, Nat.floor_div_eq_div]
  · rw [mul_zero, Nat.floor_zero]

/-- A pool earns its portion, or nothing while it is empty. -/
theorem shareAt_le_portion (s : TribalChiefState) (pid : Nat) : shareAt s pid ≤ portion s pid := by
  unfold shareAt portion allocAt
  cases s.poolInfo[pid]? with
  | none => simp
  | some pool =>
      simp only [Option.elim_some, shareOf]
      split
      · exact le_refl _
      · exact div_nonneg (mul_nonneg (Nat.cast_nonneg _) (Nat.cast_nonneg _)) (Nat.cast_nonneg _)

/-- The pools share the emission of a block. -/
theorem sum_shareAt_le (allocated : Allocated s) :
    ∑ i ∈ range s.poolInfo.length, shareAt s i ≤ s.tribalChiefTribePerBlock :=
  le_trans (sum_le_sum fun i _ => shareAt_le_portion s i) allocated.sum_portion_le

/-! ## The invariant -/

/-- An update accrued the whole units of what the pool earned in the blocks since the one before,
where block `b` began with `g b`. -/
structure Earned (g : Nat → TribalChiefState) (r : Accrual) : Prop where
  later : r.since < r.upTo
  reward : r.tribeReward = ⌊∑ b ∈ Ioc r.since r.upTo, shareAt (g b) r.pid⌋₊

/-- The updates of a pool follow one another without gaps, up to its last. -/
structure Tiled (s : TribalChiefState) (pid : Nat) : Prop where
  chain : (updatesOf s pid).IsChain fun r r' => r.upTo = r'.since
  last : ∀ r ∈ (updatesOf s pid).getLast?,
    (s.poolInfo[pid]?).map PoolInfo.lastRewardBlock = some r.upTo

/-- The accounts of the emission since block `start`, where block `b` began with `g b`. -/
structure Accounted (start : Nat) (g : Nat → TribalChiefState) (s : TribalChiefState) :
    Prop where
  begun : start ≤ s.blockNumber
  alloc : s.totalAllocPoint = ∑ i ∈ range s.poolInfo.length, allocAt s i
  since : ∀ (i : Nat) (pool : PoolInfo), s.poolInfo[i]? = some pool →
    start ≤ pool.lastRewardBlock ∧ pool.lastRewardBlock ≤ s.blockNumber
  steady : ∀ (i : Nat) (pool : PoolInfo), s.poolInfo[i]? = some pool →
    ∀ b ∈ Ioc pool.lastRewardBlock s.blockNumber, shareAt (g b) i = shareOf s pool
  past : ∀ r ∈ s.accruals, r.upTo ≤ s.blockNumber
  earned : ∀ r ∈ s.accruals, Earned g r
  tiled : ∀ i, Tiled s i
  bound : ((s.accruals.map Accrual.tribeReward).sum : ℚ) +
      ∑ i ∈ range s.poolInfo.length, outstandingAt s i ≤
    ∑ b ∈ Ioc start s.blockNumber, ((g b).tribalChiefTribePerBlock : ℚ)

/-- What is known of the past does not depend on the future. -/
theorem Accounted.congr (accounted : Accounted start g s)
    (same : ∀ b ≤ s.blockNumber, g' b = g b) : Accounted start g' s where
  begun := accounted.begun
  alloc := accounted.alloc
  since := accounted.since
  steady i pool found b mem := by
    rw [same b (mem_Ioc.mp mem).2]
    exact accounted.steady i pool found b mem
  past := accounted.past
  earned r mem := by
    obtain ⟨later, reward⟩ := accounted.earned r mem
    refine ⟨later, reward.trans (congrArg _ (sum_congr rfl fun b inside => ?_))⟩
    rw [same b (Nat.le_trans (mem_Ioc.mp inside).2 (accounted.past r mem))]
  tiled := accounted.tiled
  bound := by
    refine le_of_le_of_eq accounted.bound (sum_congr rfl fun b mem => ?_)
    rw [same b (mem_Ioc.mp mem).2]

/-- The state afterwards has the pools of the state before, and those whose share is not the
same are up to date. -/
structure Carries (s s' : TribalChiefState) : Prop where
  block : s'.blockNumber = s.blockNumber
  accruals : s'.accruals = s.accruals
  kept : ∀ (i : Nat) (pool : PoolInfo), s.poolInfo[i]? = some pool →
    ∃ pool', s'.poolInfo[i]? = some pool' ∧ pool'.lastRewardBlock = pool.lastRewardBlock
  pools : ∀ (i : Nat) (pool' : PoolInfo), s'.poolInfo[i]? = some pool' →
    pool'.lastRewardBlock = s.blockNumber ∨ ∃ pool, s.poolInfo[i]? = some pool ∧
      pool'.lastRewardBlock = pool.lastRewardBlock ∧ shareOf s' pool' = shareOf s pool

theorem Carries.length_le (carries : Carries s s') : s.poolInfo.length ≤ s'.poolInfo.length := by
  by_contra shorter
  have inside : s'.poolInfo.length < s.poolInfo.length := Nat.not_le.mp shorter
  obtain ⟨pool', found, _⟩ := carries.kept _ _ (List.getElem?_eq_getElem inside)
  rw [List.getElem?_eq_none (Nat.le_refl _)] at found
  cases found

theorem Carries.outstandingAt_le (carries : Carries s s') (i : Nat) :
    outstandingAt s' i ≤ outstandingAt s i := by
  cases here : s'.poolInfo[i]? with
  | none =>
      have zero : outstandingAt s' i = 0 := by rw [outstandingAt, here, Option.elim_none]
      rw [zero]
      exact outstandingAt_nonneg s i
  | some pool' =>
      have value : outstandingAt s' i =
          ((s.blockNumber - pool'.lastRewardBlock : Nat) : ℚ) * shareOf s' pool' := by
        rw [outstandingAt, here, Option.elim_some, carries.block]
      rcases carries.pools i pool' here with current | ⟨pool, found, last, share⟩
      · rw [value, current, Nat.sub_self, Nat.cast_zero, zero_mul]
        exact outstandingAt_nonneg s i
      · rw [value, outstandingAt, found, Option.elim_some, last, share]

/-- What has been earned does not grow. -/
theorem Carries.sum_outstandingAt_le (carries : Carries s s') :
    ∑ i ∈ range s'.poolInfo.length, outstandingAt s' i ≤
      ∑ i ∈ range s.poolInfo.length, outstandingAt s i := by
  refine le_of_le_of_eq (sum_le_sum fun i _ => carries.outstandingAt_le i) ?_
  refine (sum_subset (range_mono carries.length_le) fun i _ beyond => ?_).symm
  have outside : s.poolInfo.length ≤ i := Nat.not_lt.mp fun h => beyond (mem_range.mpr h)
  rw [outstandingAt, List.getElem?_eq_none outside, Option.elim_none]

/-- **The step without updates.** -/
theorem Accounted.carry (accounted : Accounted start g s) (carries : Carries s s')
    (alloc : s'.totalAllocPoint = ∑ i ∈ range s'.poolInfo.length, allocAt s' i) :
    Accounted start g s' where
  begun := by
    rw [carries.block]
    exact accounted.begun
  alloc := alloc
  since i pool' found := by
    rw [carries.block]
    rcases carries.pools i pool' found with current | ⟨pool, old, last, _⟩
    · rw [current]
      exact ⟨accounted.begun, Nat.le_refl _⟩
    · rw [last]
      exact accounted.since i pool old
  steady i pool' found b mem := by
    rw [carries.block] at mem
    rcases carries.pools i pool' found with current | ⟨pool, old, last, share⟩
    · rw [current, Ioc_self] at mem
      exact absurd mem (notMem_empty b)
    · rw [last] at mem
      rw [share]
      exact accounted.steady i pool old b mem
  past := by
    rw [carries.accruals, carries.block]
    exact accounted.past
  earned := by
    rw [carries.accruals]
    exact accounted.earned
  tiled i := by
    obtain ⟨chain, last⟩ := accounted.tiled i
    unfold updatesOf at chain last
    refine ⟨?_, ?_⟩ <;> unfold updatesOf <;> rw [carries.accruals]
    · exact chain
    · intro r mem
      have before := last r mem
      obtain ⟨pool, found, same⟩ := Option.map_eq_some_iff.mp before
      obtain ⟨pool', found', kept⟩ := carries.kept i pool found
      rw [found', Option.map_some, kept, same]
  bound := by
    rw [carries.accruals, carries.block]
    exact le_trans (add_le_add_right carries.sum_outstandingAt_le _) accounted.bound

/-! ### Updates -/

theorem shareOf_congr (same : parameters s' = parameters s) (pool : PoolInfo) :
    shareOf s' pool = shareOf s pool := by
  simp only [parameters, Prod.mk.injEq] at same
  rw [shareOf, shareOf, same.1, same.2.1]

/-- The sum of the shares since the last update. -/
theorem Accounted.sum_shareAt (accounted : Accounted start g s) {pool : PoolInfo}
    (found : s.poolInfo[pid]? = some pool) :
    ∑ b ∈ Ioc pool.lastRewardBlock s.blockNumber, shareAt (g b) pid = outstandingAt s pid := by
  rw [sum_congr rfl (accounted.steady pid pool found), sum_const, Nat.card_Ioc, nsmul_eq_mul,
    outstandingAt, found, Option.elim_some]

theorem Accounted.tiled_updated (accounted : Accounted start g s) {pool : PoolInfo}
    (found : s.poolInfo[pid]? = some pool) (later : pool.lastRewardBlock < s.blockNumber)
    (i : Nat) : Tiled (updated s pid pool) i := by
  obtain ⟨chain, last⟩ := accounted.tiled i
  by_cases here : pid = i
  · subst here
    have stored : (updated s pid pool).poolInfo[pid]? = some (accrued s pool) :=
      List.getElem?_set_self (List.getElem?_eq_some_iff.mp found).1
    refine ⟨?_, ?_⟩
    · rw [updatesOf_updated later, if_pos rfl, List.isChain_append]
      refine ⟨chain, List.isChain_singleton _, fun r mem r' mem' => ?_⟩
      have before := last r mem
      rw [found] at before
      rw [List.head?_cons, Option.mem_some] at mem'
      rw [← mem']
      exact (Option.some.inj before).symm
    · intro r mem
      rw [updatesOf_updated later, if_pos rfl, List.getLast?_concat, Option.mem_some] at mem
      rw [stored, ← mem, Option.map_some, accrued, if_pos later]
  · have old : (updated s pid pool).poolInfo[i]? = s.poolInfo[i]? := List.getElem?_set_ne here
    refine ⟨?_, ?_⟩
    · rw [updatesOf_updated later, if_neg here, List.append_nil]
      exact chain
    · rw [updatesOf_updated later, if_neg here, List.append_nil, old]
      exact last

theorem outstandingAt_updated_of_ne {pool : PoolInfo} (found : s.poolInfo[pid]? = some pool)
    (other : i ≠ pid) : outstandingAt (updated s pid pool) i = outstandingAt s i := by
  have old : (updated s pid pool).poolInfo[i]? = s.poolInfo[i]? :=
    List.getElem?_set_ne (Ne.symm other)
  have block : (updated s pid pool).blockNumber = s.blockNumber := rfl
  have share : shareOf (updated s pid pool) = shareOf s :=
    funext (shareOf_congr (parameters_updated found))
  rw [outstandingAt, old, block, share, outstandingAt]

theorem outstandingAt_updated {pool : PoolInfo} (found : s.poolInfo[pid]? = some pool)
    (later : pool.lastRewardBlock < s.blockNumber) :
    outstandingAt (updated s pid pool) pid = 0 := by
  have stored : (updated s pid pool).poolInfo[pid]? = some (accrued s pool) :=
    List.getElem?_set_self (List.getElem?_eq_some_iff.mp found).1
  have block : (updated s pid pool).blockNumber = s.blockNumber := rfl
  rw [outstandingAt, stored, Option.elim_some, accrued, if_pos later, block, Nat.sub_self,
    Nat.cast_zero, zero_mul]

/-- An update accrues no more than was outstanding. -/
theorem Accounted.bound_updated (accounted : Accounted start g s) {pool : PoolInfo}
    (found : s.poolInfo[pid]? = some pool) (later : pool.lastRewardBlock < s.blockNumber) :
    (((updated s pid pool).accruals.map Accrual.tribeReward).sum : ℚ) +
        ∑ i ∈ range (updated s pid pool).poolInfo.length, outstandingAt (updated s pid pool) i ≤
      ∑ b ∈ Ioc start s.blockNumber, ((g b).tribalChiefTribePerBlock : ℚ) := by
  have accruals : (TribalChief.updated s pid pool).accruals =
      s.accruals ++ [⟨pid, pool.lastRewardBlock, s.blockNumber, emission s pool⟩] := by
    rw [TribalChief.updated, noted, if_pos later]
  have lengths : (TribalChief.updated s pid pool).poolInfo.length = s.poolInfo.length :=
    List.length_set
  have mem : pid ∈ range s.poolInfo.length :=
    mem_range.mpr (List.getElem?_eq_some_iff.mp found).1
  have change : _ + outstandingAt s pid = _ := Tables.sum_change
    (f := outstandingAt s) (g := outstandingAt (TribalChief.updated s pid pool)) mem
    fun i _ other => outstandingAt_updated_of_ne found other
  rw [outstandingAt_updated found later, add_zero] at change
  have whole : (emission s pool : ℚ) ≤ outstandingAt s pid := by
    rw [emission_eq_floor, outstandingAt, found, Option.elim_some]
    exact Nat.floor_le (mul_nonneg (Nat.cast_nonneg _) (shareOf_nonneg s pool))
  have before := accounted.bound
  rw [accruals, lengths, List.map_append, List.sum_append]
  simp only [List.map_cons, List.map_nil, List.sum_cons, List.sum_nil, Nat.add_zero,
    Nat.cast_add]
  refine le_trans ?_ before
  rw [← change]
  linarith

/-- **The step of an update.** -/
theorem Accounted.updated (accounted : Accounted start g s) {pool : PoolInfo}
    (found : s.poolInfo[pid]? = some pool) : Accounted start g (updated s pid pool) := by
  by_cases later : pool.lastRewardBlock < s.blockNumber
  · have stored : (TribalChief.updated s pid pool).poolInfo[pid]? = some (accrued s pool) :=
      List.getElem?_set_self (List.getElem?_eq_some_iff.mp found).1
    have current : (accrued s pool).lastRewardBlock = s.blockNumber := by
      rw [accrued, if_pos later]
    have accruals : (TribalChief.updated s pid pool).accruals =
        s.accruals ++ [⟨pid, pool.lastRewardBlock, s.blockNumber, emission s pool⟩] := by
      rw [TribalChief.updated, noted, if_pos later]
    have same := parameters_updated found
    constructor
    case begun => exact accounted.begun
    case alloc => exact accounted.alloc.trans (alloc_congr same).symm
    case since =>
      intro i pool' here
      rcases getElem?_set_cases here with ⟨_, value⟩ | ⟨_, old⟩
      · rw [value, current]
        exact ⟨accounted.begun, Nat.le_refl _⟩
      · exact accounted.since i pool' old
    case steady =>
      intro i pool' here b mem
      rw [shareOf_congr same]
      rcases getElem?_set_cases here with ⟨_, value⟩ | ⟨_, old⟩
      · rw [value, current] at mem
        exact absurd mem (Ioc_self s.blockNumber ▸ notMem_empty b)
      · exact accounted.steady i pool' old b mem
    case past =>
      rw [accruals]
      exact List.forall_mem_append.mpr ⟨accounted.past, by simp [TribalChief.updated]⟩
    case earned =>
      rw [accruals]
      refine List.forall_mem_append.mpr ⟨accounted.earned, List.forall_mem_singleton.mpr ?_⟩
      refine ⟨later, ?_⟩
      simp only
      rw [accounted.sum_shareAt found, outstandingAt, found, Option.elim_some]
      exact emission_eq_floor s pool
    case tiled => exact accounted.tiled_updated found later
    case bound => exact accounted.bound_updated found later
  · rw [updated_of_current found later]
    exact accounted

/-! ### Blocks -/

theorem outstandingAt_mine (blocks : Nat) (since : ∀ pool, s.poolInfo[i]? = some pool →
      pool.lastRewardBlock ≤ s.blockNumber) :
    outstandingAt { s with blockNumber := s.blockNumber + blocks } i =
      outstandingAt s i + blocks * shareAt s i := by
  unfold outstandingAt shareAt
  cases found : s.poolInfo[i]? with
  | none => simp
  | some pool =>
      have le := since pool found
      have longer : s.blockNumber + blocks - pool.lastRewardBlock =
          (s.blockNumber - pool.lastRewardBlock) + blocks := by omega
      simp only [Option.elim_some, longer, Nat.cast_add, add_mul]
      rfl

/-- **The step of the clock.** -/
theorem Accounted.mine (accounted : Accounted start g s) {blocks : Nat}
    (same : ∀ b ≤ s.blockNumber, g' b = g b)
    (new : ∀ b, s.blockNumber < b → b ≤ s.blockNumber + blocks → g' b = s) :
    Accounted start g' { s with blockNumber := s.blockNumber + blocks } := by
  have before := accounted.congr same
  have fresh : ∀ b ∈ Ioc s.blockNumber (s.blockNumber + blocks), g' b = s :=
    fun b mem => new b (mem_Ioc.mp mem).1 (mem_Ioc.mp mem).2
  constructor
  case begun => exact Nat.le_add_right_of_le accounted.begun
  case alloc => exact accounted.alloc
  case since =>
    intro i pool found
    obtain ⟨le, le'⟩ := accounted.since i pool found
    exact ⟨le, Nat.le_add_right_of_le le'⟩
  case steady =>
    intro i pool found b mem
    obtain ⟨after, upTo⟩ := mem_Ioc.mp mem
    rcases Nat.lt_or_ge s.blockNumber b with later | old
    · rw [new b later upTo, shareAt, found, Option.elim_some]
      rfl
    · exact before.steady i pool found b (mem_Ioc.mpr ⟨after, old⟩)
  case past => exact fun r mem => Nat.le_add_right_of_le (accounted.past r mem)
  case earned => exact before.earned
  case tiled => exact fun i => ⟨(accounted.tiled i).chain, (accounted.tiled i).last⟩
  case bound =>
    have grown : ∑ i ∈ range s.poolInfo.length,
        outstandingAt { s with blockNumber := s.blockNumber + blocks } i =
          ∑ i ∈ range s.poolInfo.length, outstandingAt s i +
            blocks * ∑ i ∈ range s.poolInfo.length, shareAt s i := by
      rw [mul_sum, ← sum_add_distrib]
      exact sum_congr rfl fun i _ =>
        outstandingAt_mine blocks fun pool found => (accounted.since i pool found).2
    have emitted : ∑ b ∈ Ioc s.blockNumber (s.blockNumber + blocks),
        ((g' b).tribalChiefTribePerBlock : ℚ) = blocks * s.tribalChiefTribePerBlock := by
      rw [sum_congr rfl fun b mem => by rw [fresh b mem], sum_const, Nat.card_Ioc,
        Nat.add_sub_cancel_left, nsmul_eq_mul]
    have shared := mul_le_mul_of_nonneg_left (sum_shareAt_le accounted.alloc)
      (Nat.cast_nonneg (α := ℚ) blocks)
    have bound := before.bound
    simp only
    rw [grown, ← sum_Ioc_consecutive _ accounted.begun (Nat.le_add_right _ blocks), emitted]
    linarith

/-! ### User operations and parameters -/

theorem carries_of_same (block : s'.blockNumber = s.blockNumber)
    (accruals : s'.accruals = s.accruals) (pools : s'.poolInfo = s.poolInfo)
    (same : parameters s' = parameters s) : Carries s s' where
  block := block
  accruals := accruals
  kept i pool found := by
    rw [pools]
    exact ⟨pool, found, rfl⟩
  pools i pool' found := by
    rw [pools] at found
    exact .inr ⟨pool', found, rfl, shareOf_congr same pool'⟩

/-- A pool is replaced by one with the same last update. -/
theorem carries_of_set {pool pool' : PoolInfo} (found : s.poolInfo[pid]? = some pool)
    (block : s'.blockNumber = s.blockNumber) (accruals : s'.accruals = s.accruals)
    (pools : s'.poolInfo = s.poolInfo.set pid pool')
    (last : pool'.lastRewardBlock = pool.lastRewardBlock)
    (share : pool.lastRewardBlock = s.blockNumber ∨ shareOf s' pool' = shareOf s pool)
    (others : ∀ i p, i ≠ pid → s.poolInfo[i]? = some p →
      p.lastRewardBlock = s.blockNumber ∨ shareOf s' p = shareOf s p) : Carries s s' where
  block := block
  accruals := accruals
  kept i p here := by
    rw [pools]
    by_cases same : i = pid
    · subst same
      cases here.symm.trans found
      exact ⟨pool', List.getElem?_set_self (List.getElem?_eq_some_iff.mp found).1, last⟩
    · exact ⟨p, by rw [List.getElem?_set_ne (Ne.symm same), here], rfl⟩
  pools i p here := by
    rw [pools] at here
    rcases getElem?_set_cases here with ⟨same, value⟩ | ⟨other, old⟩
    · rw [value, last]
      rcases share with current | share
      · exact .inl current
      · subst same
        exact .inr ⟨pool, found, rfl, share⟩
    · rcases others i p other old with current | share
      · exact .inl current
      · exact .inr ⟨p, old, rfl, share⟩

/-- A pool that is up to date was last updated in this block. -/
theorem Accounted.lastRewardBlock_eq (accounted : Accounted start g s) (current : Current s i)
    {pool : PoolInfo} (found : s.poolInfo[i]? = some pool) :
    pool.lastRewardBlock = s.blockNumber :=
  Nat.le_antisymm (accounted.since i pool found).2 (current pool found)

theorem Accounted.act {user : Address} {mv : Move} (accounted : Accounted start g s)
    (current : Current s pid) (acts : Acts env pid user mv s s') : Accounted start g s' := by
  have same := acts.parameters_eq
  obtain @⟨pool, e', ledger, event, found, moves, settles, logs⟩ := acts
  have last : e'.pool.lastRewardBlock = pool.lastRewardBlock := by
    rw [moves.pool]
    rfl
  refine accounted.carry (carries_of_set found rfl rfl rfl last
    (.inl (accounted.lastRewardBlock_eq current found)) fun i p _ _ =>
      .inr (shareOf_congr same p)) ?_
  exact Allocated.congr accounted.alloc same

theorem Quiet.accounted (accounted : Accounted start g s) (quiet : Quiet env s s') :
    Accounted start g s' := by
  obtain ⟨⟨phase, block⟩, same⟩ := quiet
  have alloc : Allocated s' := Allocated.congr accounted.alloc same
  cases phase with
  | rest length => exact accounted.carry (carries_of_same rfl rfl rfl same) alloc
  | tokens guarded => exact accounted.carry (carries_of_same rfl rfl rfl same) alloc
  | update found => exact accounted.updated found
  | @weigh pid pool allocPoint totalAllocPoint unlocked found total =>
      have entries := congrArg (fun x : Nat × Nat × List Nat => x.2.2[pid]?) same
      have stored := List.getElem?_set_self (a := { pool with allocPoint, unlocked })
        (List.getElem?_eq_some_iff.mp found).1
      simp only [TribalChief.parameters, List.getElem?_map, stored, found, Option.map_some,
        Option.some.injEq] at entries
      subst entries
      refine accounted.carry (carries_of_set found rfl rfl rfl rfl (.inr ?_) fun i p _ _ =>
        .inr (shareOf_congr same p)) alloc
      exact shareOf_congr same _
  | add allocPoint stakedToken rewarder =>
      have lengths := congrArg (fun x : Nat × Nat × List Nat => x.2.2.length) same
      simp [TribalChief.parameters] at lengths
  | rate => exact accounted.carry (carries_of_same rfl rfl rfl same) alloc
  | mine => exact accounted.carry (carries_of_same block rfl rfl same) alloc

theorem carries_of_current (block : s'.blockNumber = s.blockNumber)
    (accruals : s'.accruals = s.accruals)
    (kept : ∀ (i : Nat) (pool : PoolInfo), s.poolInfo[i]? = some pool →
      ∃ pool', s'.poolInfo[i]? = some pool' ∧ pool'.lastRewardBlock = pool.lastRewardBlock)
    (last : ∀ (i : Nat) (pool : PoolInfo), s'.poolInfo[i]? = some pool →
      pool.lastRewardBlock = s.blockNumber) : Carries s s' where
  block := block
  accruals := accruals
  kept := kept
  pools i pool' found := .inl (last i pool' found)

theorem Accounted.weigh (accounted : Accounted start g s) (current : ∀ i, Current s i)
    {pool : PoolInfo} {allocPoint totalAllocPoint : Nat} {unlocked : Bool}
    (found : s.poolInfo[pid]? = some pool)
    (total : totalAllocPoint + pool.allocPoint = s.totalAllocPoint + allocPoint) :
    Accounted start g { s with
      totalAllocPoint
      poolInfo := s.poolInfo.set pid { pool with allocPoint, unlocked } } := by
  have last : ∀ (i : Nat) (p : PoolInfo), s.poolInfo[i]? = some p →
      p.lastRewardBlock = s.blockNumber := fun i p here =>
    accounted.lastRewardBlock_eq (current i) here
  refine accounted.carry (carries_of_set found rfl rfl rfl rfl (.inl (last pid pool found))
    fun i p _ here => .inl (last i p here)) ?_
  exact Allocated.weigh accounted.alloc found total

theorem Accounted.add (accounted : Accounted start g s) (current : ∀ i, Current s i)
    (allocPoint : Nat) (stakedToken rewarder : Address) :
    Accounted start g { s with
      totalAllocPoint := s.totalAllocPoint + allocPoint
      stakedToken := s.stakedToken ++ [stakedToken]
      rewarder := s.rewarder ++ [rewarder]
      poolInfo := s.poolInfo ++ [⟨0, 0, s.blockNumber, allocPoint, false⟩] } := by
  refine accounted.carry (carries_of_current rfl rfl (fun i pool here => ⟨pool, ?_, rfl⟩)
    fun i pool here => ?_) ?_
  · rw [List.getElem?_append_left (List.getElem?_eq_some_iff.mp here).1, here]
  · rcases getElem?_push_cases here with ⟨_, value⟩ | old
    · rw [value]
    · exact accounted.lastRewardBlock_eq (current i) old
  · exact Allocated.add accounted.alloc allocPoint stakedToken rewarder

/-- With every pool up to date, anything may change. -/
theorem Still.accounted (accounted : Accounted start g s) (current : ∀ i, Current s i)
    (still : Still env s s') : Accounted start g s' ∧ ∀ i, Current s' i := by
  obtain ⟨phase, block⟩ := still
  cases phase with
  | rest length =>
      refine ⟨(?_ : Quiet env s _).accounted accounted, current⟩
      exact ⟨⟨.rest length, rfl⟩, rfl⟩
  | tokens guarded =>
      refine ⟨(?_ : Quiet env s _).accounted accounted, current⟩
      exact ⟨⟨.tokens guarded, rfl⟩, rfl⟩
  | update found => exact ⟨accounted.updated found, fun i => (current i).updated _⟩
  | @weigh pid pool allocPoint totalAllocPoint unlocked found total =>
      refine ⟨accounted.weigh current found total, fun i p here => ?_⟩
      rcases getElem?_set_cases here with ⟨_, value⟩ | ⟨_, old⟩
      · rw [value]
        exact current pid pool found
      · exact current i p old
  | add allocPoint stakedToken rewarder =>
      refine ⟨accounted.add current allocPoint stakedToken rewarder, fun i p here => ?_⟩
      rcases getElem?_push_cases here with ⟨_, value⟩ | old
      · rw [value]
      · exact current i p old
  | rate =>
      refine ⟨accounted.carry ?_ accounted.alloc, current⟩
      exact carries_of_current rfl rfl (fun i pool found => ⟨pool, found, rfl⟩)
        fun i pool found => accounted.lastRewardBlock_eq (current i) found
  | @mine blocks =>
      have none : blocks = 0 := Nat.add_left_cancel (block.trans (Nat.add_zero _).symm)
      subst none
      exact ⟨accounted, current⟩

/-! ## Transactions -/

theorem Accounted.admin {user : Address} {c : AdminCall} (accounted : Accounted start g s)
    (current : ∀ i, Current s i) (succeeds : TribalChief.admin env s user c = .ok s') :
    Accounted start g s' := by
  have stills : Stills env s s' := (stills_of_admin succeeds).1
  exact (keeps_of_chain (I := fun t => Accounted start g t ∧ ∀ i, Current t i)
    (fun both still => still.accounted both.1 both.2) ⟨accounted, current⟩ stills).1

/-- An update of all pools. -/
theorem Accounted.massUpdatePools (accounted : Accounted start g s)
    (succeeds : TribalChief.massUpdatePools s (List.range s.poolInfo.length) = .ok s') :
    Accounted start g s' ∧ ∀ i, Current s' i := by
  refine ⟨?_, fun i => current_of_massUpdatePools succeeds ?_⟩
  · refine foldlM_invariant (I := Accounted start g) ?_ accounted succeeds
    intro t pid t' accounted _ succeeds
    obtain ⟨pool, found, same⟩ := updated_of_updatePool succeeds
    subst same
    exact accounted.updated found
  · rcases Nat.lt_or_ge i s.poolInfo.length with inside | outside
    · exact .inl (List.mem_range.mpr inside)
    · refine .inr fun pool found => ?_
      rw [List.getElem?_eq_none outside] at found
      cases found

/-- **The step of the `TribalChief`.** -/
theorem Accounted.step {a : Action} (accounted : Accounted start g s)
    (external : a.External env) (keeps : ¬ a.Adjusts)
    (succeeds : TribalChief.step env s a = .ok s') (same : ∀ b ≤ s.blockNumber, g' b = g b)
    (new : ∀ b, s.blockNumber < b → b ≤ s'.blockNumber → g' b = s) : Accounted start g' s' := by
  by_cases mines : ∃ blocks, a = .mine blocks
  · obtain ⟨blocks, mines⟩ := mines
    subst mines
    cases succeeds
    exact accounted.mine same new
  · have still : ∀ blocks, a ≠ .mine blocks := fun blocks mined => mines ⟨blocks, mined⟩
    refine (transaction_of_step external succeeds).keeps_of_current
      (fun kept quiet => quiet.accounted kept) (fun current kept acts => kept.act current acts)
      (fun kind => ?_) (accounted.congr same)
    exact keeps_of_chain (fun kept quiet => quiet.accounted kept) (accounted.congr same)
      (quiets_of_step external kind keeps still succeeds).1

theorem accounted_initialized (TRIBE : Address) (ledger : Ledger) (blockNumber : Nat) :
    Accounted blockNumber g (initialized env TRIBE ledger blockNumber) where
  begun := Nat.le_refl _
  alloc := rfl
  since _ _ found := nomatch found
  steady _ _ found := nomatch found
  past _ mem := nomatch mem
  earned _ mem := nomatch mem
  tiled _ := ⟨List.isChain_nil, fun _ mem => nomatch mem⟩
  bound := by simp [initialized]

/-- No transaction takes a block back. -/
theorem blockNumber_le_step {a : Action} (succeeds : TribalChief.step env s a = .ok s') :
    s.blockNumber ≤ s'.blockNumber := by
  by_cases external : a.External env
  · refine (transaction_of_step external succeeds).keeps (I := fun t => s.blockNumber ≤
      t.blockNumber) (fun le phase => ?_) (fun le acts => ?_) (Nat.le_refl _)
    · cases phase with
      | mine => exact Nat.le_add_right_of_le le
      | rest length => exact le
      | tokens guarded => exact le
      | update found => exact le
      | weigh found total => exact le
      | add allocPoint stakedToken rewarder => exact le
      | rate => exact le
    · obtain @⟨pool, e', ledger, event, found, moves, settles, logs⟩ := acts
      exact le
  · cases a with
    | token actor c =>
        obtain ⟨ledger, _, same⟩ := bind_eq_ok_iff.mp succeeds
        cases same
        exact Nat.le_refl _
    | deposit user pid amount lockLength => exact absurd trivial external
    | withdrawAllAndHarvest user pid dst => exact absurd trivial external
    | withdrawFromDeposit user pid amount dst index => exact absurd trivial external
    | harvest user pid dst => exact absurd trivial external
    | emergencyWithdraw user pid dst => exact absurd trivial external
    | updatePool pid => exact absurd trivial external
    | massUpdatePools pids => exact absurd trivial external
    | admin user c => exact absurd trivial external
    | mine blocks => exact absurd trivial external

end TribalChief

namespace TribalChiefSyncV2

open TribalChief

variable {W : Type} {env : TribalChiefSyncEnv W} {s s' : TribalChiefSyncState W}
  {g : Nat → TribalChiefState} {start : Nat}

/-! ## Synchronized actions -/

theorem accounted_of_execute {data : AdminCall} {salt : Bytes32}
    (accounted : Accounted start g s.tribalChief) (current : ∀ i, Current s.tribalChief i)
    (succeeds : execute env s data salt = .ok s') : Accounted start g s'.tribalChief := by
  simp only [execute, bind_eq_ok_iff, pure_eq_ok_iff] at succeeds
  obtain ⟨_, _, tribalChief, calls, same⟩ := succeeds
  subst same
  exact accounted.admin current calls

/-- The modifier `update` lets an action start with every pool up to date. -/
theorem accounted_of_synced
    {action : TribalChiefSyncState W → Except Revert (TribalChiefSyncState W)}
    (accounted : Accounted start g s.tribalChief)
    (acts : ∀ {t t'}, Accounted start g t.tribalChief → (∀ i, Current t.tribalChief i) →
      action t = .ok t' → Accounted start g t'.tribalChief)
    (succeeds : synced env s action = .ok s') : Accounted start g s'.tribalChief := by
  simp only [synced, bind_eq_ok_iff, pure_eq_ok_iff] at succeeds
  obtain ⟨tribalChief, updates, t, does, _, _, same⟩ := succeeds
  subst same
  obtain ⟨accounted, current⟩ := accounted.massUpdatePools updates
  have after : Accounted start g t.tribalChief := acts accounted current does
  exact after

theorem accounted_of_autoDecreaseRewards (accounted : Accounted start g s.tribalChief)
    (succeeds : autoDecreaseRewards env s = .ok s') : Accounted start g s'.tribalChief := by
  refine accounted_of_synced accounted (fun accounted current does => ?_) succeeds
  simp only [bind_eq_ok_iff, pure_eq_ok_iff] at does
  obtain ⟨_, _, _, _, _, _, tribalChief, calls, same⟩ := does
  subst same
  exact accounted.admin current calls

/-- **The step.** -/
theorem accounted_of_step {g' : Nat → TribalChiefState} {a : Action W}
    (accounted : Accounted start g s.tribalChief) (synchronized : a.Synchronized env)
    (succeeds : step env s a = .ok s') (same : ∀ b ≤ s.tribalChief.blockNumber, g' b = g b)
    (new : ∀ b, s.tribalChief.blockNumber < b → b ≤ s'.tribalChief.blockNumber →
      g' b = s.tribalChief) : Accounted start g' s'.tribalChief := by
  have before := accounted.congr same
  cases a with
  | tribalChief a =>
      obtain ⟨tribalChief, calls, same'⟩ := bind_eq_ok_iff.mp succeeds
      cases same'
      exact accounted.step synchronized.1 synchronized.2 calls same new
  | autoDecreaseRewards => exact accounted_of_autoDecreaseRewards before succeeds
  | decreaseRewards tribePerBlock salt =>
      exact accounted_of_synced before accounted_of_execute succeeds
  | addPool allocPoint stakedToken rewarder rewardData salt =>
      exact accounted_of_synced before accounted_of_execute succeeds
  | setPool pid allocPoint rewarder overwrite salt =>
      exact accounted_of_synced before accounted_of_execute succeeds
  | resetPool pid salt => exact accounted_of_synced before accounted_of_execute succeeds
  | outside seconds world =>
      cases succeeds
      exact before

/-- The block that a state is in. -/
def blockOf (s : TribalChiefSyncState W) : Nat := s.tribalChief.blockNumber

theorem blockNumber_le_admin {env : TribalChiefEnv} {t t' : TribalChiefState} {user : Address}
    {c : AdminCall} (succeeds : admin env t user c = .ok t') :
    t.blockNumber ≤ t'.blockNumber := by
  have steps : TribalChief.step env t (.admin user c) = .ok t' := succeeds
  exact blockNumber_le_step steps

theorem blockOf_le_execute {data : AdminCall} {salt : Bytes32}
    (succeeds : execute env s data salt = .ok s') : blockOf s ≤ blockOf s' := by
  simp only [execute, bind_eq_ok_iff, pure_eq_ok_iff] at succeeds
  obtain ⟨_, _, tribalChief, calls, same⟩ := succeeds
  subst same
  exact blockNumber_le_admin calls

theorem blockOf_le_synced
    {action : TribalChiefSyncState W → Except Revert (TribalChiefSyncState W)}
    (acts : ∀ {t t'}, action t = .ok t' → blockOf t ≤ blockOf t')
    (succeeds : synced env s action = .ok s') : blockOf s ≤ blockOf s' := by
  simp only [synced, bind_eq_ok_iff, pure_eq_ok_iff] at succeeds
  obtain ⟨tribalChief, updates, t, does, _, _, same⟩ := succeeds
  subst same
  have first : s.tribalChief.blockNumber ≤ tribalChief.blockNumber := by
    refine foldlM_invariant (I := fun t => s.tribalChief.blockNumber ≤ t.blockNumber) ?_
      (Nat.le_refl _) updates
    intro t pid t' le _ succeeds
    obtain ⟨pool, _, same⟩ := updated_of_updatePool succeeds
    subst same
    exact le
  exact Nat.le_trans first (acts does)

theorem blockOf_le_autoDecreaseRewards (succeeds : autoDecreaseRewards env s = .ok s') :
    blockOf s ≤ blockOf s' := by
  refine blockOf_le_synced (fun does => ?_) succeeds
  simp only [bind_eq_ok_iff, pure_eq_ok_iff] at does
  obtain ⟨_, _, _, _, _, _, tribalChief, calls, same⟩ := does
  subst same
  exact blockNumber_le_admin calls

theorem clock (env : TribalChiefSyncEnv W) : Clock (step env) blockOf := by
  intro s a s' succeeds
  cases a with
  | tribalChief a =>
      obtain ⟨tribalChief, calls, same⟩ := bind_eq_ok_iff.mp succeeds
      cases same
      exact blockNumber_le_step calls
  | autoDecreaseRewards => exact blockOf_le_autoDecreaseRewards succeeds
  | decreaseRewards tribePerBlock salt => exact blockOf_le_synced blockOf_le_execute succeeds
  | addPool allocPoint stakedToken rewarder rewardData salt =>
      exact blockOf_le_synced blockOf_le_execute succeeds
  | setPool pid allocPoint rewarder overwrite salt =>
      exact blockOf_le_synced blockOf_le_execute succeeds
  | resetPool pid salt => exact blockOf_le_synced blockOf_le_execute succeeds
  | outside seconds world =>
      cases succeeds
      exact Nat.le_refl _

/-! ## The result -/

/-- The `TribalChief` as it is when block `b` begins. -/
def begins (env : TribalChiefSyncEnv W) (start : TribalChiefSyncState W)
    (history : List (Action W)) (b : Nat) : TribalChiefState :=
  (stateBefore (step env) blockOf start history b).tribalChief

/-- **Emission accounting.** If the parameters are only changed through `TribalChiefSyncV2`, then
every update of a pool has accrued the whole units of the sum of its shares of the blocks since
the update before, with the values that were in force in each of these blocks; and all pools
together have accrued no more than the emission of all blocks. What a transaction of the run
records of a pool is what it adds to the pool's accumulator, and every update of a pool in a later
block than its last is recorded. -/
theorem emission_accounted {start : TribalChiefSyncState W} {TRIBE : Address} {ledger : Ledger}
    {blockNumber : Nat}
    (fresh : start.tribalChief = initialized env.tribalChief TRIBE ledger blockNumber)
    {history : List (Action W)} (synchronized : ∀ a ∈ history, a.Synchronized env)
    (reached : s = run (step env) start history) :
    (∀ r ∈ s.tribalChief.accruals, r.since < r.upTo ∧ r.tribeReward =
      ⌊∑ b ∈ Ioc r.since r.upTo, shareAt (begins env start history b) r.pid⌋₊) ∧
    (∀ pid, (updatesOf s.tribalChief pid).IsChain (fun r r' => r.upTo = r'.since) ∧
      ∀ pool, s.tribalChief.poolInfo[pid]? = some pool →
        ∀ r ∈ (updatesOf s.tribalChief pid).getLast?, r.upTo = pool.lastRewardBlock) ∧
    (s.tribalChief.accruals.map Accrual.tribeReward).sum ≤
      ∑ b ∈ Ioc blockNumber s.tribalChief.blockNumber,
        (begins env start history b).tribalChiefTribePerBlock ∧
    ∀ (a : Action W) s', a.Synchronized env → step env s a = .ok s' →
      ∀ (pid : Nat) pool, s.tribalChief.poolInfo[pid]? = some pool →
        (∃ pool', s'.tribalChief.poolInfo[pid]? = some pool' ∧
          Credited s.tribalChief s'.tribalChief pid pool pool') ∧
        (∀ n : UInt256, a = .tribalChief (.updatePool n) → n.toNat = pid →
          pool.lastRewardBlock < s.tribalChief.blockNumber →
          updatesOf s'.tribalChief pid = updatesOf s.tribalChief pid ++ [⟨pid,
            pool.lastRewardBlock, s.tribalChief.blockNumber, emission s.tribalChief pool⟩]) := by
  have accounted : Accounted blockNumber (begins env start history) s.tribalChief := by
    rw [reached]
    refine run_history (I := fun g t => Accounted blockNumber (fun b => (g b).tribalChief)
      t.tribalChief) (P := fun a => a.Synchronized env) (clock env) ?_ ?_ ?_ synchronized
    · intro g g' t accounted same
      exact accounted.congr fun b le => congrArg _ (same b le)
    · intro g g' t a t' accounted synchronized succeeds same new
      exact accounted_of_step accounted synchronized succeeds
        (fun b le => congrArg _ (same b le)) fun b later le => congrArg _ (new b later le)
    · rw [fresh]
      exact accounted_initialized TRIBE ledger blockNumber
  refine ⟨fun r mem => ⟨(accounted.earned r mem).later, (accounted.earned r mem).reward⟩,
    fun pid => ⟨(accounted.tiled pid).chain, fun pool found r mem => ?_⟩, ?_,
    fun a s' synchronized succeeds pid pool found =>
      ⟨credited_of_step synchronized succeeds found, fun n updates same later => ?_⟩⟩
  · have last := (accounted.tiled pid).last r mem
    rw [found, Option.map_some] at last
    exact (Option.some.inj last).symm
  · have nonneg : 0 ≤ ∑ i ∈ range s.tribalChief.poolInfo.length,
        outstandingAt s.tribalChief i := sum_nonneg fun i _ => outstandingAt_nonneg _ i
    have bound := accounted.bound
    rw [← Nat.cast_sum] at bound
    exact Nat.cast_le (α := ℚ).mp (by linarith)
  · subst updates
    subst same
    exact recorded_of_updatePool found later succeeds

end TribalChiefSyncV2

namespace TribalChiefSyncV2.Sample

/-- Pool 0 earns 75 TRIBE a block for 3 blocks, then 60, and, with a second pool, 40 and 30. -/
def history : List (Action (SyncWorld Nat Unit)) :=
  [.addPool 100 30 0 [⟨0, 10000⟩] 7, .tribalChief (.deposit 5 0 (10 ^ 18) 0),
    .tribalChief (.mine 3), .decreaseRewards (60 * 10 ^ 18) 8, .tribalChief (.mine 1),
    .addPool 50 31 0 [⟨0, 10000⟩] 9, .tribalChief (.mine 2), .outside 1000 (worldAt (40 * 10 ^ 18)),
    .autoDecreaseRewards, .tribalChief (.mine 3), .tribalChief (.updatePool 0)]

theorem history_synchronized : ∀ a ∈ history, a.Synchronized syncing := by
  simp [history, Action.Synchronized, TribalChief.Action.External, TribalChief.Action.Adjusts]

end TribalChiefSyncV2.Sample

namespace TribalChiefSyncV2

open TribalChief

theorem emission_accounted_sample :
    ((run (step Sample.syncing) Sample.deployed Sample.history).tribalChief.accruals.map
      Accrual.tribeReward).sum ≤ ∑ b ∈ Ioc 100
        (run (step Sample.syncing) Sample.deployed Sample.history).tribalChief.blockNumber,
          (begins Sample.syncing Sample.deployed Sample.history b).tribalChiefTribePerBlock := by
  have fresh : Sample.deployed.tribalChief = initialized Sample.syncing.tribalChief 20
    TribalChief.Sample.ledger 100 := rfl
  exact (emission_accounted fresh Sample.history_synchronized rfl).2.2.1

end TribalChiefSyncV2

end FeiProtocol
