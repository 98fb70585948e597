import FeiProtocol.Staking.TribalChiefSyncV2

/-!
# What updates of `TribalChief` record

An update of a pool notes what it accrued. A transaction updates a pool before it changes the
pool's virtual supply, and after an update in a block there is no other in the same block. So a
transaction notes at most one update of a pool, and what it notes is what it adds to the pool's
accumulator at the virtual supply that it finds.

* `Credited`: what a transaction does to a pool's records, accumulator and last update.
* `credited_of_step`: it does so in every transaction.
-/

namespace FeiProtocol

open Evm

namespace TribalChief

variable {env : TribalChiefEnv} {s t u : TribalChiefState} {pid i : Nat} {p p' q : PoolInfo}

/-- The updates of pool `pid`. -/
def updatesOf (s : TribalChiefState) (pid : Nat) : List Accrual :=
  s.accruals.filter fun r => r.pid = pid

theorem updated_of_current {pool : PoolInfo} (found : s.poolInfo[pid]? = some pool)
    (current : ¬ pool.lastRewardBlock < s.blockNumber) : updated s pid pool = s := by
  rw [updated, accrued, if_neg current, noted, if_neg current, set_of_getElem? found,
    List.append_nil]

theorem updatesOf_updated {pool : PoolInfo} (later : pool.lastRewardBlock < s.blockNumber)
    (i : Nat) : updatesOf (updated s pid pool) i = updatesOf s i ++
      if pid = i then [⟨pid, pool.lastRewardBlock, s.blockNumber, emission s pool⟩] else [] := by
  unfold updatesOf updated noted
  rw [if_pos later, List.filter_append, List.filter_singleton]
  simp only [Bool.cond_decide]

/-- Between two states of a block, either nothing is recorded of a pool and its accumulator stays,
or one update from the pool's last block to this one is, and the accumulator grows by what the
update notes, for each unit of the virtual supply. -/
inductive Credited (s t : TribalChiefState) (pid : Nat) (p q : PoolInfo) : Prop where
  | idle (records : updatesOf t pid = updatesOf s pid)
      (share : q.accTribePerShare = p.accTribePerShare)
      (last : q.lastRewardBlock = p.lastRewardBlock)
  | noted (tribeReward : Nat) (later : p.lastRewardBlock < s.blockNumber)
      (records : updatesOf t pid =
        updatesOf s pid ++ [⟨pid, p.lastRewardBlock, s.blockNumber, tribeReward⟩])
      (share : q.accTribePerShare =
        p.accTribePerShare + tribeReward * ACC_TRIBE_PRECISION / p.virtualTotalSupply)
      (last : q.lastRewardBlock = s.blockNumber)

theorem Credited.refl (s : TribalChiefState) (pid : Nat) (p : PoolInfo) : Credited s s pid p p :=
  .idle rfl rfl rfl

/-- What the records, the accumulator and the last update have in common does not matter. -/
theorem Credited.congr (credited : Credited s t pid p q)
    (records : updatesOf u pid = updatesOf t pid) (share : p'.accTribePerShare = q.accTribePerShare)
    (last : p'.lastRewardBlock = q.lastRewardBlock) : Credited s u pid p p' := by
  cases credited with
  | idle records' share' last' =>
      exact .idle (records.trans records') (share.trans share') (last.trans last')
  | noted tribeReward later records' share' last' =>
      exact .noted tribeReward later (records.trans records') (share.trans share')
        (last.trans last')

/-! ## Inside of a transaction -/

/-- A pool in the course of a transaction: its virtual supply changes only once it has been
updated. -/
structure Kept (s t : TribalChiefState) (pid : Nat) (p q : PoolInfo) : Prop where
  credited : Credited s t pid p q
  supply : s.blockNumber ≤ q.lastRewardBlock ∨ q.virtualTotalSupply = p.virtualTotalSupply

/-- All pools of `s`, in the course of a transaction that is made in `s`. -/
structure Progress (s t : TribalChiefState) : Prop where
  block : t.blockNumber = s.blockNumber
  pools : ∀ (i : Nat) (p : PoolInfo), s.poolInfo[i]? = some p →
    ∃ q, t.poolInfo[i]? = some q ∧ Kept s t i p q

theorem Progress.refl (s : TribalChiefState) : Progress s s :=
  ⟨rfl, fun i p found => ⟨p, found, .refl s i p, .inr rfl⟩⟩

/-- What touches neither pools nor records. -/
theorem Progress.congr (progress : Progress s t) (block : u.blockNumber = t.blockNumber)
    (pools : u.poolInfo = t.poolInfo) (accruals : u.accruals = t.accruals) : Progress s u := by
  refine ⟨block.trans progress.block, fun i p found => ?_⟩
  obtain ⟨q, stored, credited, supply⟩ := progress.pools i p found
  have records : updatesOf u i = updatesOf t i := by rw [updatesOf, accruals, updatesOf]
  exact ⟨q, by rw [pools, stored], credited.congr records rfl rfl, supply⟩

/-- A pool is replaced by one with the same accumulator and last update; its virtual supply may
differ if it is up to date. -/
theorem Progress.replace (progress : Progress s t) (stored : t.poolInfo[pid]? = some q)
    (block : u.blockNumber = t.blockNumber) (accruals : u.accruals = t.accruals)
    (pools : u.poolInfo = t.poolInfo.set pid p') (share : p'.accTribePerShare = q.accTribePerShare)
    (last : p'.lastRewardBlock = q.lastRewardBlock)
    (supply : t.blockNumber ≤ q.lastRewardBlock ∨ p'.virtualTotalSupply = q.virtualTotalSupply) :
    Progress s u := by
  refine ⟨block.trans progress.block, fun i p found => ?_⟩
  obtain ⟨r, stored', credited, same⟩ := progress.pools i p found
  have records : updatesOf u i = updatesOf t i := by rw [updatesOf, accruals, updatesOf]
  by_cases here : pid = i
  · subst here
    cases stored.symm.trans stored'
    refine ⟨p', ?_, credited.congr records share last, ?_⟩
    · rw [pools]
      exact List.getElem?_set_self (List.getElem?_eq_some_iff.mp stored).1
    · rw [last, ← progress.block]
      rcases supply with current | supply
      · exact .inl current
      · exact (progress.block.symm ▸ same).imp_right supply.trans
  · refine ⟨r, ?_, credited.congr records rfl rfl, same⟩
    rw [pools, List.getElem?_set_ne here, stored']

/-- **The step of an update.** -/
theorem Progress.updated (progress : Progress s t) (stored : t.poolInfo[pid]? = some q) :
    Progress s (updated t pid q) := by
  by_cases later : q.lastRewardBlock < t.blockNumber
  · refine ⟨progress.block, fun i p found => ?_⟩
    obtain ⟨r, stored', credited, same⟩ := progress.pools i p found
    by_cases here : pid = i
    · subst here
      cases stored.symm.trans stored'
      have value : accrued t q = { q with
          accTribePerShare := currentShare t q, lastRewardBlock := t.blockNumber } := if_pos later
      refine ⟨accrued t q, List.getElem?_set_self (List.getElem?_eq_some_iff.mp stored).1, ?_, ?_⟩
      · -- the pool has not been updated before, in this block
        cases credited with
        | idle records share last =>
            have supply := same.resolve_left (Nat.not_le.mpr (progress.block ▸ later))
            refine .noted (emission t q) ?_ ?_ ?_ ?_
            · rw [← last, ← progress.block]
              exact later
            · rw [updatesOf_updated later, if_pos rfl, records, last, progress.block]
            · rw [value, currentShare, share, supply]
            · rw [value, progress.block]
        | noted tribeReward later' records share last =>
            rw [last, progress.block] at later
            exact absurd later (Nat.lt_irrefl _)
      · rw [value]
        exact .inl (Nat.le_of_eq progress.block.symm)
    · have records : updatesOf (TribalChief.updated t pid q) i = updatesOf t i := by
        rw [updatesOf_updated later, if_neg here, List.append_nil]
      exact ⟨r, (List.getElem?_set_ne here).trans stored', credited.congr records rfl rfl, same⟩
  · rw [updated_of_current stored later]
    exact progress

theorem Still.progress (progress : Progress s t) (still : Still env t u) : Progress s u := by
  obtain ⟨phase, block⟩ := still
  cases phase with
  | rest length => exact progress.congr rfl rfl rfl
  | tokens guarded => exact progress.congr rfl rfl rfl
  | update found => exact progress.updated found
  | weigh found total => exact progress.replace found rfl rfl rfl rfl rfl (.inr rfl)
  | add allocPoint stakedToken rewarder =>
      refine ⟨progress.block, fun i p found => ?_⟩
      obtain ⟨q, stored, kept⟩ := progress.pools i p found
      refine ⟨q, ?_, kept.credited.congr rfl rfl rfl, kept.supply⟩
      rw [List.getElem?_append_left (List.getElem?_eq_some_iff.mp stored).1, stored]
  | rate => exact progress.congr rfl rfl rfl
  | mine => exact progress.congr block rfl rfl

/-- A user operation changes the virtual supply of a pool that is up to date. -/
theorem Acts.progress {user : Address} {mv : Move} (current : Current t pid)
    (progress : Progress s t) (acts : Acts env pid user mv t u) : Progress s u := by
  obtain @⟨pool, e', ledger, event, found, moves, settles, logs⟩ := acts
  have pool := moves.pool
  exact progress.replace found rfl rfl rfl (by rw [pool]; rfl) (by rw [pool]; rfl)
    (.inl (current _ found))

/-! ## Transactions -/

theorem progress_of_step {a : Action} (external : a.External env) (keeps : ¬ a.Adjusts)
    (still : ∀ blocks, a ≠ .mine blocks) (succeeds : step env s a = .ok t) : Progress s t := by
  refine (transaction_of_step external succeeds).keeps_of_current (I := Progress s)
    (fun progress quiet => quiet.toStill.progress progress)
    (fun current progress acts => acts.progress current progress) (fun kind => ?_) (.refl s)
  exact keeps_of_chain (fun progress quiet => quiet.toStill.progress progress) (Progress.refl s)
    (quiets_of_step external kind keeps still succeeds).1

theorem progress_of_admin {user : Address} {c : AdminCall} (progress : Progress s t)
    (succeeds : admin env t user c = .ok u) : Progress s u :=
  keeps_of_chain (fun progress still => still.progress progress) progress
    (stills_of_admin succeeds).1

theorem progress_of_massUpdatePools {pids : List Nat} (succeeds : massUpdatePools s pids = .ok t) :
    Progress s t := by
  refine foldlM_invariant (I := Progress s) ?_ (.refl s) succeeds
  intro t pid u progress _ updates
  obtain ⟨pool, found, same⟩ := updated_of_updatePool updates
  subst same
  exact progress.updated found

end TribalChief

namespace TribalChiefSyncV2

open TribalChief

variable {W : Type} {env : TribalChiefSyncEnv W} {s s' : TribalChiefSyncState W}
  {begun : TribalChiefState}

theorem progress_of_execute {data : AdminCall} {salt : Bytes32}
    (progress : Progress begun s.tribalChief) (succeeds : execute env s data salt = .ok s') :
    Progress begun s'.tribalChief := by
  simp only [execute, bind_eq_ok_iff, pure_eq_ok_iff] at succeeds
  obtain ⟨_, _, tribalChief, calls, same⟩ := succeeds
  subst same
  exact progress_of_admin progress calls

theorem progress_of_synced
    {action : TribalChiefSyncState W → Except Revert (TribalChiefSyncState W)}
    (acts : ∀ {t t'}, Progress s.tribalChief t.tribalChief → action t = .ok t' →
      Progress s.tribalChief t'.tribalChief)
    (succeeds : synced env s action = .ok s') : Progress s.tribalChief s'.tribalChief := by
  simp only [synced, bind_eq_ok_iff, pure_eq_ok_iff] at succeeds
  obtain ⟨tribalChief, updates, t, does, _, _, same⟩ := succeeds
  subst same
  have after : Progress s.tribalChief t.tribalChief :=
    acts (progress_of_massUpdatePools updates) does
  exact after

theorem progress_of_autoDecreaseRewards (succeeds : autoDecreaseRewards env s = .ok s') :
    Progress s.tribalChief s'.tribalChief := by
  refine progress_of_synced (fun progress does => ?_) succeeds
  simp only [bind_eq_ok_iff, pure_eq_ok_iff] at does
  obtain ⟨_, _, _, _, _, _, tribalChief, calls, same⟩ := does
  subst same
  exact progress_of_admin progress calls

/-- **Records and accumulators.** What a transaction records of a pool is what it adds to the
pool's accumulator. -/
theorem credited_of_step {a : Action W} (synchronized : a.Synchronized env)
    (succeeds : step env s a = .ok s') {pid : Nat} {p : PoolInfo}
    (found : s.tribalChief.poolInfo[pid]? = some p) :
    ∃ q, s'.tribalChief.poolInfo[pid]? = some q ∧
      Credited s.tribalChief s'.tribalChief pid p q := by
  have credited : Progress s.tribalChief s'.tribalChief → ∃ q,
      s'.tribalChief.poolInfo[pid]? = some q ∧ Credited s.tribalChief s'.tribalChief pid p q := by
    intro progress
    obtain ⟨q, stored, kept⟩ := progress.pools pid p found
    exact ⟨q, stored, kept.credited⟩
  cases a with
  | tribalChief a =>
      obtain ⟨tribalChief, calls, same⟩ := bind_eq_ok_iff.mp succeeds
      cases same
      by_cases mines : ∃ blocks, a = .mine blocks
      · obtain ⟨blocks, mines⟩ := mines
        subst mines
        cases calls
        exact ⟨p, found, .idle rfl rfl rfl⟩
      · exact credited (progress_of_step synchronized.1 synchronized.2
          (fun blocks mined => mines ⟨blocks, mined⟩) calls)
  | autoDecreaseRewards => exact credited (progress_of_autoDecreaseRewards succeeds)
  | decreaseRewards tribePerBlock salt =>
      exact credited (progress_of_synced progress_of_execute succeeds)
  | addPool allocPoint stakedToken rewarder rewardData salt =>
      exact credited (progress_of_synced progress_of_execute succeeds)
  | setPool pid allocPoint rewarder overwrite salt =>
      exact credited (progress_of_synced progress_of_execute succeeds)
  | resetPool pid salt => exact credited (progress_of_synced progress_of_execute succeeds)
  | outside seconds world =>
      cases succeeds
      exact ⟨p, found, .refl _ pid p⟩

/-- An update in a later block is recorded. -/
theorem recorded_of_updatePool {pid : UInt256} {p : PoolInfo}
    (found : s.tribalChief.poolInfo[pid.toNat]? = some p)
    (later : p.lastRewardBlock < s.tribalChief.blockNumber)
    (succeeds : step env s (.tribalChief (.updatePool pid)) = .ok s') :
    updatesOf s'.tribalChief pid.toNat = updatesOf s.tribalChief pid.toNat ++
      [⟨pid.toNat, p.lastRewardBlock, s.tribalChief.blockNumber, emission s.tribalChief p⟩] := by
  obtain ⟨tribalChief, calls, same⟩ := bind_eq_ok_iff.mp succeeds
  cases same
  obtain ⟨q, stored, updates⟩ := updated_of_updatePool calls
  cases found.symm.trans stored
  subst updates
  rw [updatesOf_updated later, if_pos rfl]

end TribalChiefSyncV2

end FeiProtocol
