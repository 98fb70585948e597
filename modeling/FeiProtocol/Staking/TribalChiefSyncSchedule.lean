import FeiProtocol.Staking.TribalChiefSyncV2

/-!
# The schedule of `TribalChiefSyncV2`

The constructor takes a list of falling rates with the times from which they may be applied, and
`autoDecreaseRewards` applies them one by one. Each application passes three guards: the
schedule's own, that of the `TribalChief` against rates that do not fall, and that of the
distributor against speeds that do not change.

* `applied_in_order`: the rates that a run applies are the first ones of the schedule.
* `autoDecreaseRewards_succeeds_iff`: when the next one can be applied.
* `schedule_applied`: both, for every schedule and every run.
-/

namespace FeiProtocol

open Evm

namespace TribalChiefSyncV2

open TribalChief

section Schedule

variable {W : Type} {env : TribalChiefSyncEnv W} {s s' : TribalChiefSyncState W}
  {rewards timestamps : List UInt256} {k : Nat}

/-! ## What the constructor stores -/

/-- The first `k` rates of the schedule have been taken. -/
structure Remaining (rewards timestamps : List UInt256) (k : Nat) (s : TribalChiefSyncState W) :
    Prop where
  queue : s.rewardsArray = (rewards.drop k).reverse
  schedule : ∀ (i : Nat) (r t : UInt256), rewards[i]? = some r → timestamps[i]? = some t →
    s.rewardsSchedule r.toNat = t.toNat

/-- The loop of the constructor, which writes times under ever lower rates. -/
theorem scheduled_of_foldlM {entries : List (UInt256 × UInt256)} {acc acc' : Scheduling}
    (loop : entries.foldlM schedule acc = .ok acc') :
    acc'.rewardsArray = (entries.map Prod.fst).reverse ++ acc.rewardsArray ∧
    (∀ e ∈ entries, acc'.rewardsSchedule e.1.toNat = e.2.toNat) ∧
    ∀ rate, acc.lastReward ≤ rate → acc'.rewardsSchedule rate = acc.rewardsSchedule rate := by
  induction entries generalizing acc with
  | nil =>
      rw [foldlM_nil_eq_ok_iff] at loop
      subst loop
      exact ⟨rfl, List.forall_mem_nil _, fun _ _ => rfl⟩
  | cons e rest ih =>
      obtain ⟨mid, first, loop⟩ := foldlM_cons_eq_ok_iff.mp loop
      simp only [schedule, bind_eq_ok_iff, pure_eq_ok_iff, require_eq_ok_iff, exists_const]
        at first
      obtain ⟨lower, _, same⟩ := first
      obtain ⟨queue, times, kept⟩ := ih loop
      subst same
      refine ⟨?_, ?_, fun rate above => ?_⟩
      · rw [queue, List.map_cons, List.reverse_cons, List.append_assoc, List.singleton_append]
      · rw [List.forall_mem_cons]
        refine ⟨?_, times⟩
        exact (kept _ (Nat.le_refl _)).trans (Function.update_self _ _ _)
      · exact (kept _ (Nat.le_trans (Nat.le_of_lt lower) above)).trans
          (Function.update_of_ne (Nat.ne_of_gt (Nat.lt_of_lt_of_le lower above)) _ _)

theorem remaining_of_construct {tribalChief : TribalChiefState} {timestamp : Nat} {world : W}
    (succeeds : construct rewards timestamps tribalChief timestamp world = .ok s) :
    Remaining rewards timestamps 0 s := by
  simp only [construct, bind_eq_ok_iff, pure_eq_ok_iff, require_eq_ok_iff, exists_const]
    at succeeds
  obtain ⟨length, scheduled, loop, same⟩ := succeeds
  obtain ⟨queue, times, _⟩ := scheduled_of_foldlM loop
  subst same
  constructor
  · rw [queue, List.map_fst_zip (Nat.le_of_eq length), List.append_nil, List.drop_zero]
  · intro i r t reward time
    refine times (r, t) (List.mem_of_getElem? (i := i) ?_)
    rw [List.getElem?_zip_eq_some]
    exact ⟨reward, time⟩

/-! ## What a run applies -/

/-- The rate that a transaction applies, and when. -/
def appliedStep (s : TribalChiefSyncState W) (a : Action W) (s' : TribalChiefSyncState W) :
    List (Nat × Nat) :=
  match a with
  | .autoDecreaseRewards => [(s'.tribalChief.tribalChiefTribePerBlock, s.timestamp)]
  | _ => []

/-- The rates that a run applies by the schedule, oldest first. -/
def applied (env : TribalChiefSyncEnv W) : TribalChiefSyncState W → List (Action W) →
    List (Nat × Nat)
  | _, [] => []
  | s, a :: as =>
      (match step env s a with
        | .ok s' => appliedStep s a s'
        | .error _ => []) ++ applied env (commit (step env) s a) as

/-- A run applies the schedule from place `k` on: each rate in its turn, after its time. -/
def InOrder (rewards timestamps : List UInt256) (k : Nat) (rates : List (Nat × Nat)) : Prop :=
  ∀ i rate time, rates[i]? = some (rate, time) → ∃ r t, rewards[k + i]? = some r ∧
    timestamps[k + i]? = some t ∧ rate = r.toNat ∧ t.toNat < time

theorem Remaining.congr (remaining : Remaining rewards timestamps k s)
    (queue : s'.rewardsArray = s.rewardsArray)
    (schedule : s'.rewardsSchedule = s.rewardsSchedule) : Remaining rewards timestamps k s' := by
  refine ⟨queue.trans remaining.queue, fun i r t reward time => ?_⟩
  rw [schedule]
  exact remaining.schedule i r t reward time

/-- What the modifier `update` does around an action. -/
theorem synced_eq_ok_iff
    {action : TribalChiefSyncState W → Except Revert (TribalChiefSyncState W)} :
    synced env s action = .ok s' ↔ ∃ t m w,
      massUpdatePools s.tribalChief (List.range s.tribalChief.poolInfo.length) = .ok t ∧
      action { s with tribalChief := t } = .ok m ∧
      env.setAutoRewardsDistribution m.tribalChief m.world = .ok w ∧
        { m with world := w } = s' := by
  simp only [synced, bind_eq_ok_iff, pure_eq_ok_iff]
  constructor
  · intro given
    rcases given with ⟨t, updates, m, acts, w, sets, same⟩
    exact ⟨t, m, w, updates, acts, sets, same⟩
  · intro given
    rcases given with ⟨t, m, w, updates, acts, sets, same⟩
    exact ⟨t, updates, m, acts, w, sets, same⟩

/-- The next rate of the schedule. -/
theorem nextRewardsRate_eq_ok_iff {r : UInt256} :
    nextRewardsRate s = .ok r ↔ s.rewardsArray.getLast? = some r := by
  simp only [nextRewardsRate, bind_eq_ok_iff, checkedSub_eq_ok_iff, element_eq_ok_iff]
  rw [List.getLast?_eq_getElem?]
  constructor
  · intro given
    rcases given with ⟨_, ⟨_, value⟩, found⟩
    rw [value]
    exact found
  · intro found
    refine ⟨_, ⟨?_, rfl⟩, found⟩
    cases shape : s.rewardsArray with
    | nil => rw [shape] at found; cases found
    | cons r rest => exact Nat.succ_le_succ (Nat.zero_le _)

theorem isRewardDecreaseAvailable_iff {r : UInt256} (next : s.rewardsArray.getLast? = some r) :
    isRewardDecreaseAvailable s = .ok true ↔ s.rewardsSchedule r.toNat < s.timestamp := by
  have some : s.rewardsArray.length > 0 := by
    cases shape : s.rewardsArray with
    | nil => rw [shape] at next; cases next
    | cons r rest => exact Nat.succ_pos _
  simp only [isRewardDecreaseAvailable, if_pos some, nextRewardTimestamp, bind_eq_ok_iff,
    pure_eq_ok_iff, nextRewardsRate_eq_ok_iff, next, Option.some.injEq, exists_eq_left',
    decide_eq_true_eq]

/-- What `updateBlockReward` takes. -/
theorem updateBlockReward_eq_ok_iff {chief : TribalChiefEnv} {t t' : TribalChiefState}
    {sender : Address} {rate : Nat} : updateBlockReward chief t sender rate = .ok t' ↔
      (chief.core.isGovernor sender || chief.access.hasRole t.CONTRACT_ADMIN_ROLE sender) = true ∧
      (isContractAdmin chief t sender = true → rate < t.tribalChiefTribePerBlock) ∧
      { t with tribalChiefTribePerBlock := rate } = t' := by
  simp only [updateBlockReward, CoreRef.onlyGovernorOrAdmin, bind_eq_ok_iff, pure_eq_ok_iff,
    require_eq_ok_iff, exists_const]
  refine and_congr_right fun _ => ?_
  split
  · rename_i admin
    simp only [require_eq_ok_iff, exists_const, admin, true_implies]
  · rename_i other
    simp [other]

/-- What an application of the schedule passes, and what it does. -/
theorem autoDecreaseRewards_eq_ok_iff : autoDecreaseRewards env s = .ok s' ↔ ∃ t r w,
    massUpdatePools s.tribalChief (List.range s.tribalChief.poolInfo.length) = .ok t ∧
    s.rewardsArray.getLast? = some r ∧ s.rewardsSchedule r.toNat < s.timestamp ∧
    (env.tribalChief.core.isGovernor env.this ||
      env.tribalChief.access.hasRole t.CONTRACT_ADMIN_ROLE env.this) = true ∧
    (isContractAdmin env.tribalChief t env.this = true → r.toNat < t.tribalChiefTribePerBlock) ∧
    env.setAutoRewardsDistribution { t with tribalChiefTribePerBlock := r.toNat } s.world = .ok w ∧
    { s with
      tribalChief := { t with tribalChiefTribePerBlock := r.toNat }
      rewardsArray := s.rewardsArray.dropLast
      world := w } = s' := by
  rw [autoDecreaseRewards, synced_eq_ok_iff]
  simp only [bind_eq_ok_iff, pure_eq_ok_iff, require_eq_ok_iff, exists_const,
    nextRewardsRate_eq_ok_iff, TribalChief.admin, updateBlockReward_eq_ok_iff]
  constructor
  · intro given
    rcases given with ⟨t, m, w, updates, ⟨_, available, rfl, r, next, _, ⟨role, lower, rfl⟩, rfl⟩,
      sets, same⟩
    exact ⟨t, r, w, updates, next, (isRewardDecreaseAvailable_iff next).mp available, role, lower,
      sets, same⟩
  · intro given
    rcases given with ⟨t, r, w, updates, next, passed, role, lower, sets, same⟩
    exact ⟨t, _, w, updates, ⟨true, (isRewardDecreaseAvailable_iff next).mpr passed, rfl, r, next,
      _, ⟨role, lower, rfl⟩, rfl⟩, sets, same⟩

theorem kept_of_execute {data : TribalChief.AdminCall} {salt : Bytes32}
    (succeeds : execute env s data salt = .ok s') :
    s'.rewardsArray = s.rewardsArray ∧ s'.rewardsSchedule = s.rewardsSchedule := by
  simp only [execute, bind_eq_ok_iff, pure_eq_ok_iff] at succeeds
  obtain ⟨_, _, _, _, same⟩ := succeeds
  subst same
  exact ⟨rfl, rfl⟩

/-- The actions that go through the timelock leave the schedule alone. -/
theorem kept_of_synced {data : TribalChief.AdminCall} {salt : Bytes32}
    (succeeds : (synced env s fun s => execute env s data salt) = .ok s') :
    s'.rewardsArray = s.rewardsArray ∧ s'.rewardsSchedule = s.rewardsSchedule := by
  obtain ⟨t, m, w, _, executes, _, same⟩ := synced_eq_ok_iff.mp succeeds
  obtain ⟨queue, schedule⟩ := kept_of_execute executes
  subst same
  exact ⟨queue, schedule⟩

/-- A transaction applies the next rate of the schedule, or leaves the schedule alone. -/
theorem step_cases {a : Action W} (succeeds : step env s a = .ok s') :
    (∃ r, s.rewardsArray.getLast? = some r ∧ s.rewardsSchedule r.toNat < s.timestamp ∧
      appliedStep s a s' = [(r.toNat, s.timestamp)] ∧
      s'.rewardsArray = s.rewardsArray.dropLast ∧ s'.rewardsSchedule = s.rewardsSchedule) ∨
    (appliedStep s a s' = [] ∧ s'.rewardsArray = s.rewardsArray ∧
      s'.rewardsSchedule = s.rewardsSchedule) := by
  cases a with
  | tribalChief a =>
      obtain ⟨t, _, same⟩ := bind_eq_ok_iff.mp succeeds
      cases same
      exact .inr ⟨rfl, rfl, rfl⟩
  | autoDecreaseRewards =>
      obtain ⟨t, r, w, _, next, passed, _, _, _, same⟩ := autoDecreaseRewards_eq_ok_iff.mp succeeds
      subst same
      exact .inl ⟨r, next, passed, rfl, rfl, rfl⟩
  | decreaseRewards tribePerBlock salt => exact .inr ⟨rfl, kept_of_synced succeeds⟩
  | addPool allocPoint stakedToken rewarder rewardData salt =>
      exact .inr ⟨rfl, kept_of_synced succeeds⟩
  | setPool pid allocPoint rewarder overwrite salt => exact .inr ⟨rfl, kept_of_synced succeeds⟩
  | resetPool pid salt => exact .inr ⟨rfl, kept_of_synced succeeds⟩
  | outside seconds world =>
      cases succeeds
      exact .inr ⟨rfl, rfl, rfl⟩

/-- The next rate is the one in place `k`. -/
theorem Remaining.next (remaining : Remaining rewards timestamps k s) :
    s.rewardsArray.getLast? = rewards[k]? := by
  rw [remaining.queue, List.getLast?_reverse, List.head?_drop]

theorem Remaining.dropped (remaining : Remaining rewards timestamps k s)
    (queue : s'.rewardsArray = s.rewardsArray.dropLast)
    (schedule : s'.rewardsSchedule = s.rewardsSchedule) :
    Remaining rewards timestamps (k + 1) s' := by
  constructor
  · rw [queue, remaining.queue, List.dropLast_reverse, List.tail_drop]
  · intro i r t reward time
    rw [schedule]
    exact remaining.schedule i r t reward time

/-- What is left of a sorted array is sorted, with the times it had. -/
theorem Remaining.sorted {timestamp : Nat} (remaining : Remaining rewards timestamps k s')
    (known : Remaining rewards timestamps 0 s) (length : rewards.length = timestamps.length)
    (start : (s.rewardsArray.Pairwise fun r r' => r.toNat < r'.toNat) ∧
      ∀ r ∈ s.rewardsArray, timestamp < s.rewardsSchedule r.toNat) :
    (s'.rewardsArray.Pairwise fun r r' => r.toNat < r'.toNat) ∧
      ∀ r ∈ s'.rewardsArray, timestamp < s'.rewardsSchedule r.toNat := by
  have left : s'.rewardsArray.Sublist s.rewardsArray := by
    rw [remaining.queue, known.queue, List.drop_zero]
    exact (List.drop_sublist k rewards).reverse
  refine ⟨start.1.sublist left, fun r mem => ?_⟩
  have listed : r ∈ rewards := by
    rw [remaining.queue, List.mem_reverse] at mem
    exact List.mem_of_mem_drop mem
  obtain ⟨i, reward⟩ := List.mem_iff_getElem?.mp listed
  have inside : i < timestamps.length := length ▸ (List.getElem?_eq_some_iff.mp reward).1
  have time := List.getElem?_eq_getElem inside
  rw [remaining.schedule i r _ reward time, ← known.schedule i r _ reward time]
  exact start.2 r (left.subset mem)

theorem InOrder.append {rates rates' : List (Nat × Nat)}
    (first : InOrder rewards timestamps k rates)
    (second : InOrder rewards timestamps (k + rates.length) rates') :
    InOrder rewards timestamps k (rates ++ rates') := by
  intro i rate time here
  rcases Nat.lt_or_ge i rates.length with inside | outside
  · rw [List.getElem?_append_left inside] at here
    exact first i rate time here
  · rw [List.getElem?_append_right outside] at here
    have place : k + rates.length + (i - rates.length) = k + i := by omega
    obtain ⟨r, t, reward, time⟩ := second _ rate time here
    rw [place] at reward time
    exact ⟨r, t, reward, time⟩

/-- What one transaction applies is the next rate, in time. -/
theorem Remaining.step (length : rewards.length = timestamps.length) {a : Action W}
    (remaining : Remaining rewards timestamps k s)
    (succeeds : TribalChiefSyncV2.step env s a = .ok s') :
    Remaining rewards timestamps (k + (appliedStep s a s').length) s' ∧
      InOrder rewards timestamps k (appliedStep s a s') := by
  rcases step_cases succeeds with ⟨r, next, passed, rates, queue, schedule⟩ |
    ⟨rates, queue, schedule⟩
  · rw [rates]
    refine ⟨remaining.dropped queue schedule, fun i rate time here => ?_⟩
    rw [List.getElem?_singleton] at here
    split at here
    · rename_i zero
      cases here
      subst zero
      rw [remaining.next] at next
      have inside : k < timestamps.length :=
        length ▸ (List.getElem?_eq_some_iff.mp next).1
      have time := List.getElem?_eq_getElem inside
      rw [remaining.schedule k r _ next time] at passed
      exact ⟨r, _, next, time, rfl, passed⟩
    · cases here
  · rw [rates]
    refine ⟨remaining.congr queue schedule, fun i rate time here => ?_⟩
    cases here

/-- **The schedule.** A run applies it from its place on: in order, each rate once, and after its
time. -/
theorem applied_in_order (length : rewards.length = timestamps.length)
    (remaining : Remaining rewards timestamps k s) (as : List (Action W)) :
    Remaining rewards timestamps (k + (applied env s as).length) (run (step env) s as) ∧
      InOrder rewards timestamps k (applied env s as) := by
  induction as generalizing k s with
  | nil =>
      refine ⟨remaining, fun i rate time here => ?_⟩
      cases here
  | cons a as ih =>
      rw [applied, run_cons]
      cases called : step env s a with
      | error e =>
          rw [commit_of_error called]
          exact ih remaining
      | ok s' =>
          rw [commit_of_ok called]
          dsimp only
          obtain ⟨remaining', first⟩ := remaining.step length called
          obtain ⟨last, second⟩ := ih remaining'
          rw [List.length_append, ← Nat.add_assoc]
          exact ⟨last, first.append second⟩

end Schedule

/-! ## When the pools can be updated -/

section Pools

variable {s s' : TribalChiefState} {pid : Nat} {pool : PoolInfo}

/-- The update of a pool that is behind fits its words. -/
def Updatable (s : TribalChiefState) (pool : PoolInfo) : Prop :=
  pool.lastRewardBlock < s.blockNumber → s.blockNumber < 2 ^ 128 ∧
    (0 < pool.virtualTotalSupply ∧ s.totalAllocPoint ≠ 0 → UpdateFits s pool)

theorem updatePool_succeeds_iff (found : s.poolInfo[pid]? = some pool) :
    (∃ s', updatePool s pid = .ok s') ↔ Updatable s pool := by
  constructor
  · rintro ⟨s', succeeds⟩ later
    simp only [updatePool, bind_eq_ok_iff, element_eq_ok_iff, found, Option.some.injEq,
      exists_eq_left', if_pos later, pure_eq_ok_iff, toNat_toUint_eq_ok_iff] at succeeds
    obtain ⟨⟨reward, share⟩, computed, _, ⟨small, _⟩, _⟩ := succeeds
    refine ⟨small, fun live => ?_⟩
    simp only [if_pos live, bind_eq_ok_iff, pure_eq_ok_iff,
      tribeReward_eq_ok_iff (Nat.le_of_lt later) live] at computed
    obtain ⟨_, ⟨emitted, weighted, value⟩, _, added, _⟩ := computed
    subst value
    obtain ⟨scaled, fits, _⟩ := (addReward_eq_ok_iff live.1).mp added
    exact ⟨small, emitted, weighted, scaled, fits⟩
  · intro updatable
    by_cases later : pool.lastRewardBlock < s.blockNumber
    · obtain ⟨small, fits⟩ := updatable later
      by_cases live : 0 < pool.virtualTotalSupply ∧ s.totalAllocPoint ≠ 0
      · exact ⟨_, updatePool_succeeds found (fits live)⟩
      · simp only [updatePool, bind_eq_ok_iff, element_eq_ok_iff, found, Option.some.injEq,
          exists_eq_left', if_pos later, if_neg live, pure_eq_ok_iff, toNat_toUint_eq_ok_iff]
        exact ⟨_, _, rfl, _, ⟨small, rfl⟩, rfl⟩
    · simp only [updatePool, bind_eq_ok_iff, element_eq_ok_iff, found, Option.some.injEq,
        exists_eq_left', if_neg later]
      exact ⟨_, rfl⟩

theorem Updatable.congr (updatable : Updatable s pool) (block : s'.blockNumber = s.blockNumber)
    (total : s'.totalAllocPoint = s.totalAllocPoint)
    (rate : s'.tribalChiefTribePerBlock = s.tribalChiefTribePerBlock) : Updatable s' pool := by
  unfold Updatable at updatable ⊢
  rw [block, total]
  intro later
  obtain ⟨small, fits⟩ := updatable later
  refine ⟨small, fun live => ?_⟩
  have fits := fits live
  have emission' : emission s' pool = emission s pool := by
    unfold emission
    rw [block, total, rate]
  refine ⟨block ▸ small, ?_, ?_, ?_, ?_⟩
  · rw [block, rate]
    exact fits.emitted
  · rw [block, rate]
    exact fits.weighted
  · rw [emission']
    exact fits.scaled
  · rw [currentShare, emission']
    exact fits.share

/-- The same weights, rate and role, in the same block. -/
structure SameWeights (s s' : TribalChiefState) : Prop where
  block : s'.blockNumber = s.blockNumber
  total : s'.totalAllocPoint = s.totalAllocPoint
  rate : s'.tribalChiefTribePerBlock = s.tribalChiefTribePerBlock
  role : s'.CONTRACT_ADMIN_ROLE = s.CONTRACT_ADMIN_ROLE
  weights : ∀ i : Nat,
    (s'.poolInfo[i]?).map PoolInfo.allocPoint = (s.poolInfo[i]?).map PoolInfo.allocPoint

theorem sameWeights_updated (found : s.poolInfo[pid]? = some pool) :
    SameWeights s (updated s pid pool) := by
  refine ⟨rfl, rfl, rfl, rfl, fun i => ?_⟩
  have weight : (accrued s pool).allocPoint = pool.allocPoint := by
    unfold accrued
    split
    · rfl
    · rfl
  rw [updated, List.getElem?_set]
  split
  · rename_i same
    subst same
    rw [if_pos (List.getElem?_eq_some_iff.mp found).1, found, Option.map_some, Option.map_some,
      weight]
  · rfl

theorem SameWeights.trans {s'' : TribalChiefState} (first : SameWeights s s')
    (second : SameWeights s' s'') : SameWeights s s'' where
  block := second.block.trans first.block
  total := second.total.trans first.total
  rate := second.rate.trans first.rate
  role := second.role.trans first.role
  weights i := (second.weights i).trans (first.weights i)

theorem sameWeights_of_massUpdatePools {pids : List Nat}
    (succeeds : massUpdatePools s pids = .ok s') : SameWeights s s' := by
  refine foldlM_invariant (I := fun t => SameWeights s t) ?_ ⟨rfl, rfl, rfl, rfl, fun _ => rfl⟩
    succeeds
  intro t pid t' alike _ updates
  obtain ⟨pool, found, same⟩ := updated_of_updatePool updates
  subst same
  exact alike.trans (sameWeights_updated found)

/-- Different pools can be updated together if each can. -/
theorem massUpdatePools_succeeds_iff {pids : List Nat} (distinct : pids.Nodup) :
    (∃ s', massUpdatePools s pids = .ok s') ↔
      ∀ pid ∈ pids, ∃ pool, s.poolInfo[pid]? = some pool ∧ Updatable s pool := by
  induction pids generalizing s with
  | nil => exact ⟨fun _ => List.forall_mem_nil _, fun _ => ⟨s, rfl⟩⟩
  | cons pid rest ih =>
      obtain ⟨new, distinct⟩ := List.nodup_cons.mp distinct
      -- an update of this pool leaves the others as they are
      have others : ∀ {pool}, s.poolInfo[pid]? = some pool →
          ((∀ i ∈ rest, ∃ p, (updated s pid pool).poolInfo[i]? = some p ∧
              Updatable (updated s pid pool) p) ↔
            ∀ i ∈ rest, ∃ p, s.poolInfo[i]? = some p ∧ Updatable s p) := by
        intro pool _
        refine forall₂_congr fun i mem => exists_congr fun p => ?_
        have other : pid ≠ i := fun same => new (same ▸ mem)
        rw [updated, List.getElem?_set_ne other]
        exact and_congr_right fun _ =>
          ⟨fun up => up.congr rfl rfl rfl, fun up => up.congr rfl rfl rfl⟩
      rw [List.forall_mem_cons]
      simp only [massUpdatePools, foldlM_cons_eq_ok_iff] at ih ⊢
      constructor
      · intro given
        rcases given with ⟨s', t, first, later⟩
        obtain ⟨pool, found, same⟩ := updated_of_updatePool first
        subst same
        exact ⟨⟨pool, found, (updatePool_succeeds_iff found).mp ⟨_, first⟩⟩,
          (others found).mp ((ih distinct).mp ⟨s', later⟩)⟩
      · intro given
        rcases given with ⟨⟨pool, found, updatable⟩, rest_updatable⟩
        obtain ⟨t, first⟩ := (updatePool_succeeds_iff found).mpr updatable
        obtain ⟨pool', found', same⟩ := updated_of_updatePool first
        cases found.symm.trans found'
        subst same
        obtain ⟨s', later⟩ := (ih distinct).mpr ((others found).mpr rest_updatable)
        exact ⟨s', _, first, later⟩

theorem massUpdatePools_all_iff :
    (∃ s', massUpdatePools s (List.range s.poolInfo.length) = .ok s') ↔
      ∀ pool ∈ s.poolInfo, Updatable s pool := by
  rw [massUpdatePools_succeeds_iff List.nodup_range]
  constructor
  · intro all pool mem
    obtain ⟨i, found⟩ := List.mem_iff_getElem?.mp mem
    obtain ⟨pool', found', updatable⟩ := all i
      (List.mem_range.mpr (List.getElem?_eq_some_iff.mp found).1)
    cases found.symm.trans found'
    exact updatable
  · intro all i mem
    have found := List.getElem?_eq_getElem (List.mem_range.mp mem)
    exact ⟨_, found, all _ (List.mem_of_getElem? found)⟩

end Pools

/-! ## With the distributor -/

section Distributor

open AutoRewardsDistributor (Accepts)

variable {V T : Type}

/-- The rate `rate` can be applied: it is lower, every pool can be updated, and the distributor
takes over what it makes of the speed. -/
structure Applicable (distributor : AutoRewardsDistributorEnv V)
    (s : TribalChiefSyncState (SyncWorld V T)) (rate : Nat) : Prop where
  lower : rate < s.tribalChief.tribalChiefTribePerBlock
  updatable : ∀ pool ∈ s.tribalChief.poolInfo, Updatable s.tribalChief pool
  accepted : ∃ pool, s.tribalChief.poolInfo[distributor.tribalChiefRewardIndex]? = some pool ∧
    Accepts distributor s.tribalChief s.world.distributor rate pool.allocPoint

variable {tribalChief : TribalChiefEnv} {this timelock : Address}
  {execute : T → AdminCall → Bytes32 → Bytes32 → Except Revert T}
  {distributor : AutoRewardsDistributorEnv V} {s : TribalChiefSyncState (SyncWorld V T)}

/-- What the distributor makes of a rate depends on the weights of the pools. -/
theorem sets_iff {chief t : TribalChiefState} {d : AutoRewardsDistributorState V} {rate : Nat}
    (alike : SameWeights chief t) :
    (∃ d', AutoRewardsDistributor.setAutoRewardsDistribution distributor
        { t with tribalChiefTribePerBlock := rate } d = .ok d') ↔
      ∃ pool, chief.poolInfo[distributor.tribalChiefRewardIndex]? = some pool ∧
        Accepts distributor chief d rate pool.allocPoint := by
  rw [AutoRewardsDistributor.setAutoRewardsDistribution_succeeds_iff]
  have weights := alike.weights distributor.tribalChiefRewardIndex
  constructor
  · intro given
    rcases given with ⟨pool, found, accepts⟩
    rw [found, Option.map_some] at weights
    obtain ⟨pool', found', weight⟩ := Option.map_eq_some_iff.mp weights.symm
    exact ⟨pool', found', weight ▸ accepts.congr alike.total.symm⟩
  · intro given
    rcases given with ⟨pool, found, accepts⟩
    rw [found, Option.map_some] at weights
    obtain ⟨pool', found', weight⟩ := Option.map_eq_some_iff.mp weights
    exact ⟨pool', found', weight ▸ accepts.congr alike.total⟩

/-- **The next rate.** When its time has passed, it is applied exactly if it is applicable. -/
theorem autoDecreaseRewards_succeeds_iff {r : UInt256}
    (admin : isContractAdmin tribalChief s.tribalChief this = true)
    (next : s.rewardsArray.getLast? = some r) (passed : s.rewardsSchedule r.toNat < s.timestamp) :
    (∃ s', autoDecreaseRewards (syncEnv tribalChief this timelock execute distributor) s = .ok s') ↔
      Applicable distributor s r.toNat := by
  simp only [autoDecreaseRewards_eq_ok_iff]
  constructor
  · intro given
    rcases given with ⟨_, t, r', w, updates, next', _, _, lower, sets, _⟩
    cases next.symm.trans next'
    have alike := sameWeights_of_massUpdatePools updates
    obtain ⟨d, sets, _⟩ := bind_eq_ok_iff.mp sets
    refine ⟨?_, massUpdatePools_all_iff.mp ⟨t, updates⟩, (sets_iff alike).mp ⟨d, sets⟩⟩
    rw [← alike.rate]
    apply lower
    rw [isContractAdmin, alike.role]
    exact admin
  · intro applicable
    obtain ⟨t, updates⟩ := massUpdatePools_all_iff.mpr applicable.updatable
    have alike := sameWeights_of_massUpdatePools updates
    obtain ⟨d, sets⟩ := (sets_iff alike).mpr applicable.accepted
    refine ⟨_, t, r, _, updates, next, passed, ?_, fun _ => ?_,
      bind_eq_ok_iff.mpr ⟨d, sets, rfl⟩, rfl⟩
    · rw [alike.role, Bool.or_eq_true]
      exact .inr admin
    · rw [alike.rate]
      exact applicable.lower

/-- **The schedule, over a run.** From deployment on, the rates that are applied are the first
ones of the schedule: in order, each once, and after its time. When the time of the next one has
passed, it is applied exactly if it is applicable. The ones that are left are taken from the end
of the array, where they fall, and their times lie after the deployment. -/
theorem schedule_applied {rewards timestamps : List UInt256} {chief : TribalChiefState}
    {timestamp : Nat} {world : SyncWorld V T} {start : TribalChiefSyncState (SyncWorld V T)}
    (deployed : construct rewards timestamps chief timestamp world = .ok start)
    (as : List (Action (SyncWorld V T))) :
    let env := syncEnv tribalChief this timelock execute distributor
    let s := run (step env) start as
    let k := (applied env start as).length
    InOrder rewards timestamps 0 (applied env start as) ∧
      (∀ r t, rewards[k]? = some r → timestamps[k]? = some t → t.toNat < s.timestamp →
        isContractAdmin tribalChief s.tribalChief this = true →
        ((∃ s', step env s .autoDecreaseRewards = .ok s') ↔ Applicable distributor s r.toNat)) ∧
      (s.rewardsArray.Pairwise fun r r' => r.toNat < r'.toNat) ∧
      ∀ r ∈ s.rewardsArray, timestamp < s.rewardsSchedule r.toNat := by
  intro env s k
  have length : rewards.length = timestamps.length := by
    simp only [construct, bind_eq_ok_iff, require_eq_ok_iff, exists_const] at deployed
    exact deployed.1
  have known := remaining_of_construct deployed
  obtain ⟨remaining, order⟩ := @applied_in_order _ env _ _ _ _ length known as
  rw [Nat.zero_add] at remaining
  refine ⟨order, fun r t reward time passed admin => ?_, remaining.sorted known length
    (construct_sorted start deployed)⟩
  refine autoDecreaseRewards_succeeds_iff admin (remaining.next.trans reward) ?_
  rw [remaining.schedule k r t reward time]
  exact passed

end Distributor

end TribalChiefSyncV2

namespace TribalChiefSyncV2.Sample

open TribalChief

/-- Time passes with one pool. -/
def quiet : List (Action (SyncWorld Nat Unit)) :=
  [.addPool 100 30 0 [⟨0, 10000⟩] 7, .outside 600 (worldAt (75 * 10 ^ 18))]

/-- The rate is lowered to 40 TRIBE by hand. -/
def undercut : List (Action (SyncWorld Nat Unit)) :=
  [.addPool 100 30 0 [⟨0, 10000⟩] 7, .decreaseRewards (40 * 10 ^ 18) 8,
    .outside 600 (worldAt (40 * 10 ^ 18))]

/-- The pool that the distributor serves loses its weight. -/
def disused : List (Action (SyncWorld Nat Unit)) :=
  [.addPool 100 30 0 [⟨0, 10000⟩] 7, .addPool 50 31 0 [⟨0, 10000⟩] 8, .resetPool 0 9,
    .outside 600 (worldAt 0)]

theorem quiet_applicable :
    Applicable distributor (run (step syncing) deployed quiet) (50 * 10 ^ 18) := by
  refine ⟨by decide, ?_, _, rfl, ⟨rfl, fun _ => by decide, by decide, rfl, rfl, _, rfl⟩⟩
  intro pool mem later
  refine ⟨by decide, fun live => ?_⟩
  rcases List.mem_singleton.mp mem with rfl
  exact absurd later (by decide)

theorem schedule_applied_sample : InOrder [50 * 10 ^ 18] [1000] 0 (applied syncing deployed quiet) ∧
    ∃ s', step syncing (run (step syncing) deployed quiet) .autoDecreaseRewards = .ok s' := by
  obtain ⟨order, applied_iff, _⟩ := @schedule_applied Nat Unit chiefEnv 0x5C 1
    (fun world _ _ _ => .ok world) distributor _ _ _ _ _ _ deployed_eq quiet
  exact ⟨order, (applied_iff (50 * 10 ^ 18) 1000 rfl rfl (by decide) rfl).mpr quiet_applicable⟩

/-- After a manual decrease below it the next rate cannot be applied any more, and neither can one
that leaves the distributor's speed as it is. -/
theorem schedule_stuck :
    (isRewardDecreaseAvailable (run (step syncing) deployed undercut) = .ok true ∧
      isContractAdmin chiefEnv (run (step syncing) deployed undercut).tribalChief 0x5C = true ∧
      step syncing (run (step syncing) deployed undercut) .autoDecreaseRewards =
        .error (.reason "TribalChief: admin can only lower reward rate")) ∧
    (isRewardDecreaseAvailable (run (step syncing) deployed disused) = .ok true ∧
      isContractAdmin chiefEnv (run (step syncing) deployed disused).tribalChief 0x5C = true ∧
      step syncing (run (step syncing) deployed disused) .autoDecreaseRewards =
        .error (.reason "AutoRewardsDistributor: update not needed")) :=
  ⟨⟨rfl, rfl, rfl⟩, rfl, rfl, rfl⟩

end TribalChiefSyncV2.Sample

end FeiProtocol
