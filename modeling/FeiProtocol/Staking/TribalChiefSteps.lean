import FeiProtocol.Staking.TribalChief
import Mathlib.Algebra.BigOperators.Group.List.Basic

/-!
# What the functions of `TribalChief` do

A user operation updates the pool and then changes one user's entry in it: the pool's virtual
supply, the user's virtual amount and reward debt, and the user's deposits. `Moves` says how,
once for each kind of operation.

* `updated_of_updatePool`: an update replaces the pool by `accrued s pool`.
* `acts_of_deposit` and its siblings: what the bodies of the user operations do.
* `transaction_of_step`: a transaction by its kind.
* `Phase` and `keeps_of_chain`: a transaction as a sequence of elementary changes, each of which
  an invariant can be checked against by itself.
-/

namespace FeiProtocol

open Evm

namespace TribalChief

open CoreRef ReentrancyGuard

variable {env : TribalChiefEnv} {s s' : TribalChiefState}

/-! ## Updating a pool -/

/-- What the blocks since its last update add to a pool's rewards. -/
def emission (s : TribalChiefState) (pool : PoolInfo) : Nat :=
  if 0 < pool.virtualTotalSupply ∧ s.totalAllocPoint ≠ 0 then
    (s.blockNumber - pool.lastRewardBlock) * s.tribalChiefTribePerBlock * pool.allocPoint /
      s.totalAllocPoint
  else 0

/-- The accumulator of a pool brought up to the current block. -/
def currentShare (s : TribalChiefState) (pool : PoolInfo) : Nat :=
  pool.accTribePerShare + emission s pool * ACC_TRIBE_PRECISION / pool.virtualTotalSupply

/-- A pool brought up to the current block. -/
def accrued (s : TribalChiefState) (pool : PoolInfo) : PoolInfo :=
  if pool.lastRewardBlock < s.blockNumber then
    { pool with accTribePerShare := currentShare s pool, lastRewardBlock := s.blockNumber }
  else pool

/-- What an update notes in the history. -/
def noted (s : TribalChiefState) (pid : Nat) (pool : PoolInfo) : List Accrual :=
  if pool.lastRewardBlock < s.blockNumber then
    [⟨pid, pool.lastRewardBlock, s.blockNumber, emission s pool⟩]
  else []

/-- The products of an update fit their words. -/
structure UpdateFits (s : TribalChiefState) (pool : PoolInfo) : Prop where
  block : s.blockNumber < 2 ^ 128
  emitted : (s.blockNumber - pool.lastRewardBlock) * s.tribalChiefTribePerBlock < 2 ^ 256
  weighted : (s.blockNumber - pool.lastRewardBlock) * s.tribalChiefTribePerBlock *
    pool.allocPoint < 2 ^ 256
  scaled : emission s pool * ACC_TRIBE_PRECISION < 2 ^ 256
  share : currentShare s pool < 2 ^ 256

theorem emission_eq {pool : PoolInfo}
    (live : 0 < pool.virtualTotalSupply ∧ s.totalAllocPoint ≠ 0) : emission s pool =
      (s.blockNumber - pool.lastRewardBlock) * s.tribalChiefTribePerBlock * pool.allocPoint /
        s.totalAllocPoint :=
  if_pos live

theorem emission_eq_zero {pool : PoolInfo}
    (idle : ¬ (0 < pool.virtualTotalSupply ∧ s.totalAllocPoint ≠ 0)) : emission s pool = 0 :=
  if_neg idle

theorem currentShare_of_idle {pool : PoolInfo}
    (idle : ¬ (0 < pool.virtualTotalSupply ∧ s.totalAllocPoint ≠ 0)) :
    currentShare s pool = pool.accTribePerShare := by
  rw [currentShare, emission_eq_zero idle, Nat.zero_mul, Nat.zero_div, Nat.add_zero]

theorem accrued_unlocked (s : TribalChiefState) (pool : PoolInfo) :
    (accrued s pool).unlocked = pool.unlocked := by
  unfold accrued
  split <;> rfl

/-- The effect of an update of pool `pid`. -/
def updated (s : TribalChiefState) (pid : Nat) (pool : PoolInfo) : TribalChiefState :=
  { s with
    poolInfo := s.poolInfo.set pid (accrued s pool)
    accruals := s.accruals ++ noted s pid pool }

theorem tribeReward_eq_ok_iff {pool : PoolInfo} {reward : Nat}
    (later : pool.lastRewardBlock ≤ s.blockNumber)
    (live : 0 < pool.virtualTotalSupply ∧ s.totalAllocPoint ≠ 0) :
    tribeReward s pool = .ok reward ↔
      (s.blockNumber - pool.lastRewardBlock) * s.tribalChiefTribePerBlock < 2 ^ 256 ∧
      (s.blockNumber - pool.lastRewardBlock) * s.tribalChiefTribePerBlock * pool.allocPoint <
        2 ^ 256 ∧ reward = emission s pool := by
  rw [emission_eq live]
  simp only [tribeReward, tribePerBlock, bind_eq_ok_iff, checkedSub_eq_ok_iff,
    checkedMul_eq_ok_iff, checkedDiv_eq_ok_iff]
  constructor
  · intro given
    rcases given with ⟨_, ⟨_, blocks⟩, _, ⟨fits, product⟩, _, ⟨fits', weighted⟩, _, value⟩
    subst blocks
    subst product
    subst weighted
    exact ⟨fits, fits', value.symm⟩
  · intro given
    rcases given with ⟨fits, fits', value⟩
    exact ⟨_, ⟨later, rfl⟩, _, ⟨fits, rfl⟩, _, ⟨fits', rfl⟩, live.2, value.symm⟩

theorem addReward_eq_ok_iff {pool : PoolInfo} {share : Nat}
    (live : 0 < pool.virtualTotalSupply) : addReward pool (emission s pool) = .ok share ↔
      emission s pool * ACC_TRIBE_PRECISION < 2 ^ 256 ∧ currentShare s pool < 2 ^ 256 ∧
        share = currentShare s pool := by
  simp only [addReward, bind_eq_ok_iff, checkedMul_eq_ok_iff, checkedDiv_eq_ok_iff,
    checkedAdd_eq_ok_iff]
  constructor
  · intro given
    rcases given with ⟨_, ⟨fits, product⟩, _, ⟨_, perShare⟩, fits', value⟩
    subst product
    subst perShare
    exact ⟨fits, fits', value.symm⟩
  · intro given
    rcases given with ⟨fits, fits', value⟩
    exact ⟨_, ⟨fits, rfl⟩, _, ⟨Nat.pos_iff_ne_zero.mp live, rfl⟩, fits', value.symm⟩

theorem set_of_getElem? {α : Type} {l : List α} {i : Nat} {x : α} (found : l[i]? = some x) :
    l.set i x = l := by
  obtain ⟨inside, value⟩ := List.getElem?_eq_some_iff.mp found
  rw [← value, List.set_getElem_self]

/-- The elements of a list after an assignment. -/
theorem getElem?_set_cases {α : Type} {l : List α} {i j : Nat} {x y : α}
    (found : (l.set j x)[i]? = some y) : i = j ∧ y = x ∨ i ≠ j ∧ l[i]? = some y := by
  by_cases same : i = j
  · subst same
    rw [List.getElem?_set_self'] at found
    obtain ⟨_, _, value⟩ := Option.map_eq_some_iff.mp found
    exact .inl ⟨rfl, value.symm⟩
  · rw [List.getElem?_set_ne (Ne.symm same)] at found
    exact .inr ⟨same, found⟩

/-- The elements of a list after a push. -/
theorem getElem?_push_cases {α : Type} {l : List α} {i : Nat} {x y : α}
    (found : (l ++ [x])[i]? = some y) : i = l.length ∧ y = x ∨ l[i]? = some y := by
  rcases Nat.lt_or_ge i l.length with inside | outside
  · rw [List.getElem?_append_left inside] at found
    exact .inr found
  · rw [List.getElem?_append_right outside, List.getElem?_singleton] at found
    split at found
    · rename_i last
      cases found
      exact .inl ⟨by omega, rfl⟩
    · cases found

/-- An update that succeeds. -/
theorem updated_of_updatePool {pid : Nat} (succeeds : updatePool s pid = .ok s') :
    ∃ pool, s.poolInfo[pid]? = some pool ∧ s' = updated s pid pool := by
  simp only [updatePool, bind_eq_ok_iff, element_eq_ok_iff] at succeeds
  obtain ⟨pool, found, succeeds⟩ := succeeds
  refine ⟨pool, found, ?_⟩
  by_cases later : pool.lastRewardBlock < s.blockNumber
  · rw [if_pos later] at succeeds
    simp only [bind_eq_ok_iff, pure_eq_ok_iff, toNat_toUint_eq_ok_iff] at succeeds
    obtain ⟨⟨reward, share⟩, computed, _, ⟨_, block⟩, same⟩ := succeeds
    subst block
    have values : reward = emission s pool ∧ share = currentShare s pool := by
      by_cases live : 0 < pool.virtualTotalSupply ∧ s.totalAllocPoint ≠ 0
      · rw [if_pos live] at computed
        simp only [bind_eq_ok_iff, pure_eq_ok_iff,
          tribeReward_eq_ok_iff (Nat.le_of_lt later) live] at computed
        obtain ⟨_, ⟨_, _, value⟩, _, added, pair⟩ := computed
        subst value
        cases pair
        exact ⟨rfl, ((addReward_eq_ok_iff live.1).mp added).2.2⟩
      · rw [if_neg live] at computed
        cases computed
        exact ⟨(emission_eq_zero live).symm, (currentShare_of_idle live).symm⟩
    rw [← same, updated, accrued, if_pos later, noted, if_pos later, values.1, values.2]
  · rw [if_neg later] at succeeds
    cases succeeds
    rw [updated, accrued, if_neg later, noted, if_neg later, set_of_getElem? found,
      List.append_nil]

/-- An update succeeds when its products fit. -/
theorem updatePool_succeeds {pid : Nat} {pool : PoolInfo} (found : s.poolInfo[pid]? = some pool)
    (fits : UpdateFits s pool) : updatePool s pid = .ok (updated s pid pool) := by
  suffices succeeds : ∃ s', updatePool s pid = .ok s' by
    obtain ⟨s', succeeds⟩ := succeeds
    obtain ⟨pool', found', same⟩ := updated_of_updatePool succeeds
    cases found.symm.trans found'
    rw [succeeds, same]
  simp only [updatePool, bind_eq_ok_iff, element_eq_ok_iff]
  refine exists_comm.mp ⟨pool, ?_⟩
  by_cases later : pool.lastRewardBlock < s.blockNumber
  · rw [if_pos later]
    simp only [bind_eq_ok_iff, pure_eq_ok_iff, toNat_toUint_eq_ok_iff]
    by_cases live : 0 < pool.virtualTotalSupply ∧ s.totalAllocPoint ≠ 0
    · rw [if_pos live]
      have rewarded := (tribeReward_eq_ok_iff (Nat.le_of_lt later) live).mpr
        ⟨fits.emitted, fits.weighted, rfl⟩
      have added := (addReward_eq_ok_iff (s := s) live.1).mpr ⟨fits.scaled, fits.share, rfl⟩
      refine ⟨_, found, (emission s pool, currentShare s pool), ?_, _, ⟨fits.block, rfl⟩, rfl⟩
      simp only [bind_eq_ok_iff, pure_eq_ok_iff]
      exact ⟨_, rewarded, _, added, rfl⟩
    · rw [if_neg live]
      exact ⟨_, found, _, rfl, _, ⟨fits.block, rfl⟩, rfl⟩
  · rw [if_neg later]
    exact ⟨_, found, rfl⟩

/-! ## Deposits of one user -/

/-- What a deposit counts in its pool. -/
def DepositInfo.virtualAmount (d : DepositInfo) : Nat :=
  d.amount * d.multiplier / SCALE_FACTOR

/-- The principal of a list of deposits. -/
def principal (ds : List DepositInfo) : Nat :=
  (ds.map DepositInfo.amount).sum

/-- The virtual amount of a list of deposits, each rounded down. -/
def virtualPrincipal (ds : List DepositInfo) : Nat :=
  (ds.map DepositInfo.virtualAmount).sum

section Lists

variable {d : DepositInfo} {ds es : List DepositInfo}

@[simp]
theorem principal_nil : principal [] = 0 := rfl

@[simp]
theorem principal_cons : principal (d :: ds) = d.amount + principal ds := rfl

@[simp]
theorem virtualPrincipal_nil : virtualPrincipal [] = 0 := rfl

@[simp]
theorem virtualPrincipal_cons :
    virtualPrincipal (d :: ds) = d.virtualAmount + virtualPrincipal ds := rfl

@[simp]
theorem principal_append : principal (ds ++ es) = principal ds + principal es := by
  rw [principal, List.map_append, List.sum_append, principal, principal]

@[simp]
theorem virtualPrincipal_append :
    virtualPrincipal (ds ++ es) = virtualPrincipal ds + virtualPrincipal es := by
  rw [virtualPrincipal, List.map_append, List.sum_append, virtualPrincipal, virtualPrincipal]

/-- Rewriting one element of a list. -/
theorem sum_map_set {f : DepositInfo → Nat} {i : Nat} (found : ds[i]? = some d)
    (d' : DepositInfo) : ((ds.set i d').map f).sum + f d = (ds.map f).sum + f d' := by
  induction ds generalizing i with
  | nil => cases found
  | cons e ds ih =>
      cases i with
      | zero =>
          cases found
          simp only [List.set_cons_zero, List.map_cons, List.sum_cons]
          omega
      | succ i =>
          have rest := ih (i := i) found
          simp only [List.set_cons_succ, List.map_cons, List.sum_cons] at rest ⊢
          omega

/-- A deposit that is paid out leaves an empty record; the others stay. -/
def cleared (b : Nat) (u : Bool) (d : DepositInfo) : DepositInfo :=
  if d.Released b u then ⟨0, 0, 0⟩ else d

variable {b : Nat} {u : Bool}

theorem principal_cleared (ds : List DepositInfo) :
    principal (ds.map (cleared b u)) +
      principal (ds.filter fun d => d.Released b u) = principal ds := by
  induction ds with
  | nil => rfl
  | cons d ds ih =>
      by_cases released : d.Released b u
      · simp [cleared, released] at ih ⊢
        omega
      · simp [cleared, released] at ih ⊢
        omega

theorem virtualPrincipal_cleared (ds : List DepositInfo) :
    virtualPrincipal (ds.map (cleared b u)) +
      virtualPrincipal (ds.filter fun d => d.Released b u) =
        virtualPrincipal ds := by
  have empty : DepositInfo.virtualAmount ⟨0, 0, 0⟩ = 0 := rfl
  induction ds with
  | nil => rfl
  | cons d ds ih =>
      by_cases released : d.Released b u
      · simp [cleared, released, empty] at ih ⊢
        omega
      · simp [cleared, released] at ih ⊢
        omega

/-- The loop in `withdrawAllAndHarvest`. -/
theorem swept_of_sweep {acc out : Sweep}
    (succeeds : ds.foldlM (sweep b u) acc = .ok out) :
    out.processedDeposits = acc.processedDeposits +
        (ds.filter fun d => d.Released b u).length ∧
      out.unlockedTotalAmount = acc.unlockedTotalAmount +
        principal (ds.filter fun d => d.Released b u) ∧
      out.virtualLiquidityDelta = acc.virtualLiquidityDelta +
        virtualPrincipal (ds.filter fun d => d.Released b u) ∧
      out.deposits = acc.deposits ++ ds.map (cleared b u) := by
  induction ds generalizing acc with
  | nil =>
      rw [foldlM_nil_eq_ok_iff] at succeeds
      subst succeeds
      simp
  | cons d ds ih =>
      obtain ⟨next, first, rest⟩ := foldlM_cons_eq_ok_iff.mp succeeds
      obtain ⟨processed, total, delta, deposits⟩ := ih rest
      by_cases released : d.Released b u
      · have passes : ¬ (d.unlockBlock > b ∧ u = false) := by
          intro given
          rcases given with ⟨later, shut⟩
          rcases released with early | opened
          · omega
          · rw [shut] at opened
            cases opened
        rw [sweep, if_neg passes] at first
        simp only [bind_eq_ok_iff, pure_eq_ok_iff, checkedAdd_eq_ok_iff,
          checkedMul_eq_ok_iff] at first
        obtain ⟨_, ⟨_, total'⟩, _, ⟨_, scaled⟩, _, ⟨_, delta'⟩, same⟩ := first
        subst total'
        subst scaled
        subst delta'
        subst same
        simp only [List.filter_cons, released, decide_true, if_true, List.length_cons,
          principal_cons, virtualPrincipal_cons, List.map_cons, cleared]
        rw [processed, total, delta, deposits, List.append_assoc]
        exact ⟨Nat.add_right_comm _ _ _, Nat.add_assoc _ _ _, Nat.add_assoc _ _ _, rfl⟩
      · have waits : d.unlockBlock > b ∧ u = false := by
          unfold DepositInfo.Released at released
          push Not at released
          exact ⟨released.1, Bool.eq_false_iff.mpr released.2⟩
        rw [sweep, if_pos waits, pure_eq_ok_iff] at first
        subst first
        simp only [List.filter_cons, released, decide_false, Bool.false_eq_true, if_false,
          List.map_cons, cleared]
        rw [processed, total, delta, deposits, List.append_assoc]
        exact ⟨rfl, rfl, rfl, rfl⟩

/-- The loop in `emergencyWithdraw`. -/
theorem gathered_of_gather {acc out : Nat × Nat}
    (succeeds : ds.foldlM (gather b u) acc = .ok out) :
    (∀ d ∈ ds, d.Released b u) ∧ out.1 = acc.1 + principal ds ∧
      out.2 = acc.2 + virtualPrincipal ds := by
  induction ds generalizing acc with
  | nil =>
      rw [foldlM_nil_eq_ok_iff] at succeeds
      subst succeeds
      exact ⟨List.forall_mem_nil _, rfl, rfl⟩
  | cons d ds ih =>
      obtain ⟨next, first, rest⟩ := foldlM_cons_eq_ok_iff.mp succeeds
      obtain ⟨released, total, delta⟩ := ih rest
      simp only [gather, bind_eq_ok_iff, pure_eq_ok_iff, require_eq_ok_iff, exists_const,
        checkedAdd_eq_ok_iff, checkedMul_eq_ok_iff] at first
      obtain ⟨here, _, ⟨_, total'⟩, _, ⟨_, scaled⟩, _, ⟨_, delta'⟩, same⟩ := first
      subst total'
      subst scaled
      subst delta'
      subst same
      refine ⟨List.forall_mem_cons.mpr ⟨here, released⟩, ?_, ?_⟩
      · rw [total, principal_cons, Nat.add_assoc]
      · rw [delta, virtualPrincipal_cons, Nat.add_assoc]
        rfl

/-- That loop passes when every lock has ended and the totals fit. -/
theorem gather_succeeds (released : ∀ d ∈ ds, d.Released b u)
    (scaled : ∀ d ∈ ds, d.amount * d.multiplier < 2 ^ 256) (acc : Nat × Nat)
    (total : acc.1 + principal ds < 2 ^ 256) (delta : acc.2 + virtualPrincipal ds < 2 ^ 256) :
    ds.foldlM (gather b u) acc =
      .ok (acc.1 + principal ds, acc.2 + virtualPrincipal ds) := by
  induction ds generalizing acc with
  | nil => rfl
  | cons d ds ih =>
      obtain ⟨here, released⟩ := List.forall_mem_cons.mp released
      obtain ⟨fits, scaled⟩ := List.forall_mem_cons.mp scaled
      rw [principal_cons, ← Nat.add_assoc] at total
      rw [virtualPrincipal_cons, ← Nat.add_assoc] at delta
      have first : gather b u acc d =
          .ok (acc.1 + d.amount, acc.2 + d.virtualAmount) := by
        simp only [gather, bind_eq_ok_iff, pure_eq_ok_iff, require_eq_ok_iff, exists_const,
          checkedAdd_eq_ok_iff, checkedMul_eq_ok_iff]
        have total' : acc.1 + d.amount < 2 ^ 256 :=
          Nat.lt_of_le_of_lt (Nat.le_add_right _ _) total
        have delta' : acc.2 + d.virtualAmount < 2 ^ 256 :=
          Nat.lt_of_le_of_lt (Nat.le_add_right _ _) delta
        exact ⟨here, _, ⟨total', rfl⟩, _, ⟨fits, rfl⟩, _, ⟨delta', rfl⟩, rfl⟩
      refine foldlM_cons_eq_ok_iff.mpr ⟨_, first, ?_⟩
      rw [ih released scaled _ total delta, principal_cons, virtualPrincipal_cons,
        Nat.add_assoc, Nat.add_assoc]

end Lists

/-! ## One user's entry in one pool -/

/-- A pool, with what it holds of one user. -/
structure Entry : Type where
  pool : PoolInfo
  account : UserInfo
  deposits : List DepositInfo

/-- What the accumulator of a pool grants a virtual amount. -/
def PoolInfo.granted (pool : PoolInfo) (virtualAmount : Nat) : Nat :=
  virtualAmount * pool.accTribePerShare / ACC_TRIBE_PRECISION

/-- The rewards a user has not been paid, which may be negative. -/
def Entry.pending (e : Entry) : Int :=
  e.pool.granted e.account.virtualAmount - e.account.rewardDebt

def entryAt (s : TribalChiefState) (pid : Nat) (user : Address) (pool : PoolInfo) : Entry :=
  ⟨pool, s.userInfo pid user, s.depositInfo pid user⟩

/-- The state with one user's entry in pool `pid` replaced. -/
def book (s : TribalChiefState) (pid : Nat) (user : Address) (e : Entry) : TribalChiefState :=
  { s with
    poolInfo := s.poolInfo.set pid e.pool
    userInfo := update₂ s.userInfo pid user e.account
    depositInfo := update₂ s.depositInfo pid user e.deposits }

/-- The state after the token transfer and the event of an operation. -/
def logged (s : TribalChiefState) (ledger : Ledger) (event : TribalChiefEvent) :
    TribalChiefState :=
  { s with ledger, events := s.events ++ [event] }

/-- Only the account is replaced. -/
theorem book_account {pid : Nat} {user : Address} {pool : PoolInfo}
    (found : s.poolInfo[pid]? = some pool) (account : UserInfo) :
    book s pid user ⟨pool, account, s.depositInfo pid user⟩ =
      { s with userInfo := update₂ s.userInfo pid user account } := by
  rw [book, set_of_getElem? found, update₂_eq_self]

/-- The operations on an entry. `sweep` pays out the deposits that are released while others
stay, `close` all there are. -/
inductive Move : Type where
  | deposit (amount multiplier unlockBlock : Nat)
  | withdraw (amount index : Nat)
  | harvest
  | sweep
  | close

/-- What an operation does to an entry. -/
inductive Moves (b : Nat) : Move → Entry → Entry → Prop where
  | deposit {e : Entry} {amount multiplier unlockBlock delta : Nat}
      (fits : amount * multiplier < 2 ^ 256) (counts : delta = amount * multiplier / SCALE_FACTOR)
      (room : e.pool.virtualTotalSupply + delta < 2 ^ 256) :
      Moves b (.deposit amount multiplier unlockBlock) e
        { pool := { e.pool with virtualTotalSupply := e.pool.virtualTotalSupply + delta }
          account := ⟨e.account.rewardDebt + e.pool.granted delta,
            e.account.virtualAmount + delta⟩
          deposits := e.deposits ++ [⟨amount, unlockBlock, multiplier⟩] }
  | withdraw {e : Entry} {d : DepositInfo} {amount index delta : Nat}
      (found : e.deposits[index]? = some d) (released : d.Released b e.pool.unlocked)
      (enough : amount ≤ d.amount) (counts : delta = amount * d.multiplier / SCALE_FACTOR)
      (virtual : delta ≤ e.account.virtualAmount)
      (supply : delta ≤ e.pool.virtualTotalSupply) :
      Moves b (.withdraw amount index) e
        { pool := { e.pool with virtualTotalSupply := e.pool.virtualTotalSupply - delta }
          account := ⟨e.account.rewardDebt - e.pool.granted delta,
            e.account.virtualAmount - delta⟩
          deposits := e.deposits.set index { d with amount := d.amount - amount } }
  | harvest {e : Entry} (solvent : 0 ≤ e.pending) :
      Moves b .harvest e
        { e with account := ⟨e.pool.granted e.account.virtualAmount, e.account.virtualAmount⟩ }
  | sweep {e : Entry} {delta : Nat}
      (waiting : ∃ d ∈ e.deposits, ¬ d.Released b e.pool.unlocked)
      (counts : delta = virtualPrincipal
        (e.deposits.filter fun d => d.Released b e.pool.unlocked))
      (virtual : delta ≤ e.account.virtualAmount)
      (supply : delta ≤ e.pool.virtualTotalSupply) :
      Moves b .sweep e
        { pool := { e.pool with virtualTotalSupply := e.pool.virtualTotalSupply - delta }
          account := ⟨e.pool.granted (e.account.virtualAmount - delta),
            e.account.virtualAmount - delta⟩
          deposits := e.deposits.map (cleared b e.pool.unlocked) }
  | close {e : Entry} (released : ∀ d ∈ e.deposits, d.Released b e.pool.unlocked)
      (supply : virtualPrincipal e.deposits ≤ e.pool.virtualTotalSupply) :
      Moves b .close e
        { pool := { e.pool with
            virtualTotalSupply := e.pool.virtualTotalSupply - virtualPrincipal e.deposits }
          account := ⟨0, 0⟩
          deposits := [] }

/-- An operation changes nothing of a pool but its virtual supply. -/
theorem Moves.pool {b : Nat} {mv : Move} {e e' : Entry} (moves : Moves b mv e e') :
    e'.pool = { e.pool with virtualTotalSupply := e'.pool.virtualTotalSupply } := by
  cases moves with
  | deposit fits counts room => rfl
  | withdraw found released enough counts virtual supply => rfl
  | harvest solvent => rfl
  | sweep waiting counts virtual supply => rfl
  | close released supply => rfl

/-- The token transfer of an operation. -/
def Settles (env : TribalChiefEnv) (s : TribalChiefState) (pid : Nat) (user : Address)
    (e e' : Entry) (ledger : Ledger) : Move → Prop
  | .deposit amount _ _ => ∃ token, s.stakedToken[pid]? = some token ∧
      s.ledger.safeTransferFrom env.this token user env.this amount = .ok ledger
  | .harvest => ∃ dst, e.pending = 0 ∧ ledger = s.ledger ∨
      s.ledger.safeTransfer env.this s.TRIBE dst e.pending.toNat = .ok ledger
  | _ => ∃ dst, principal e.deposits = principal e'.deposits ∧ ledger = s.ledger ∨
      ∃ token, s.stakedToken[pid]? = some token ∧ s.ledger.safeTransfer env.this token dst
        (principal e.deposits - principal e'.deposits) = .ok ledger

/-- The TRIBE that an event reports as harvested from pool `pid`. -/
def harvestedFrom (pid : Nat) : TribalChiefEvent → Nat
  | .Harvest _ pid' amount => if pid' = pid then amount else 0
  | _ => 0

/-- The event of an operation. -/
def Logs (pid : Nat) (e : Entry) (event : TribalChiefEvent) : Move → Prop
  | .harvest => ∃ user, event = .Harvest user pid e.pending.toNat
  | _ => ∀ pid, harvestedFrom pid event = 0

/-- A user operation, after its pool update. -/
inductive Acts (env : TribalChiefEnv) (pid : Nat) (user : Address) (mv : Move) :
    TribalChiefState → TribalChiefState → Prop where
  | intro {s : TribalChiefState} {pool : PoolInfo} {e' : Entry} {ledger : Ledger}
      {event : TribalChiefEvent} (found : s.poolInfo[pid]? = some pool)
      (moves : Moves s.blockNumber mv (entryAt s pid user pool) e')
      (settles : Settles env s pid user (entryAt s pid user pool) e' ledger mv)
      (logs : Logs pid (entryAt s pid user pool) event mv) :
      Acts env pid user mv s (logged (book s pid user e') ledger event)

section Bodies

variable {user dst : Address} {pid amount index : Nat} {lockLength : BitVec 64}

theorem acts_of_deposit (succeeds : _deposit env s user pid amount lockLength = .ok s') :
    ∃ u multiplier unlockBlock, updatePool s pid = .ok u ∧
      multiplier = u.rewardMultipliers pid lockLength.toNat ∧
      Acts env pid user (.deposit amount multiplier unlockBlock) u s' := by
  simp only [_deposit, bind_eq_ok_iff, pure_eq_ok_iff, require_eq_ok_iff, exists_const,
    element_eq_ok_iff, checkedAdd_eq_ok_iff, checkedMul_eq_ok_iff, toInt256_eq_ok_iff,
    checkedIntAdd_eq_ok_iff, toNat_toUint_eq_ok_iff] at succeeds
  obtain ⟨_, _, u, update, pool, found, _, _, _, unlockBlock, _, _, ⟨fits, scaled⟩, _,
    ⟨_, virtualAmount⟩, _, ⟨_, product⟩, _, ⟨_, debt⟩, _, ⟨_, rewardDebt⟩, _, ⟨room, supply⟩, _,
    _, token, staked, ledger, paid, same⟩ := succeeds
  subst scaled
  subst virtualAmount
  subst product
  subst debt
  subst rewardDebt
  subst supply
  subst same
  refine ⟨u, _, unlockBlock, update, rfl, ?_⟩
  exact .intro found (.deposit fits rfl room) ⟨token, staked, paid⟩ fun _ => rfl

theorem acts_of_harvest (succeeds : _harvest env s user pid dst = .ok s') :
    Acts env pid user .harvest s s' := by
  simp only [_harvest, bind_eq_ok_iff, pure_eq_ok_iff, exists_const, element_eq_ok_iff,
    checkedMul_eq_ok_iff, toInt256_eq_ok_iff, checkedIntSub_eq_ok_iff, assert_eq_ok_iff,
    toUint256_eq_ok_iff] at succeeds
  obtain ⟨pool, found, _, ⟨_, product⟩, _, ⟨_, accumulated⟩, _, ⟨_, unpaid⟩, ⟨_, solvent⟩, _,
    ⟨_, pendingTribe⟩, _, _, _, ledger, paid, _, _, same⟩ := succeeds
  subst product
  subst accumulated
  subst unpaid
  subst pendingTribe
  subst same
  have moves := Moves.harvest (b := s.blockNumber) (e := entryAt s pid user pool) solvent
  have acts : Settles env s pid user (entryAt s pid user pool) _ ledger .harvest →
      Acts env pid user .harvest s _ := fun settles => .intro found moves settles ⟨user, rfl⟩
  rw [entryAt, book_account found] at acts
  refine acts ⟨dst, ?_⟩
  split at paid
  · exact .inr paid
  · rename_i none
    cases paid
    refine .inl ⟨?_, rfl⟩
    have zero := not_not.mp none
    exact Int.le_antisymm (Int.toNat_eq_zero.mp zero) solvent

/-- What is paid back is what the deposits lose, if that is anything. -/
theorem repaid_of_payment {before after paidOut : Nat} {ledger : Ledger}
    (loses : after + paidOut = before)
    (pays : (if paidOut ≠ 0 then do
        let token ← element s.stakedToken pid
        s.ledger.safeTransfer env.this token dst paidOut
      else .ok s.ledger) = .ok ledger) :
    ∃ dst, before = after ∧ ledger = s.ledger ∨ ∃ token, s.stakedToken[pid]? = some token ∧
      s.ledger.safeTransfer env.this token dst (before - after) = .ok ledger := by
  refine ⟨dst, ?_⟩
  by_cases none : paidOut = 0
  · rw [if_neg (not_not.mpr none)] at pays
    cases pays
    exact .inl ⟨by omega, rfl⟩
  · rw [if_pos none] at pays
    simp only [bind_eq_ok_iff, element_eq_ok_iff] at pays
    obtain ⟨token, staked, pays⟩ := pays
    have value : before - after = paidOut := by omega
    exact .inr ⟨token, staked, by rw [value]; exact pays⟩

theorem acts_of_withdrawAll (succeeds : _withdrawAll env s user pid dst = .ok s') :
    Acts env pid user .sweep s s' ∨ Acts env pid user .close s s' := by
  simp only [_withdrawAll, bind_eq_ok_iff, pure_eq_ok_iff, element_eq_ok_iff,
    checkedSub_eq_ok_iff] at succeeds
  obtain ⟨pool, found, swept, loop, ⟨account, deposits⟩, left, _, ⟨supply, total⟩, _, _, ledger,
    paid, same⟩ := succeeds
  obtain ⟨processed, amount, delta, passed⟩ := swept_of_sweep loop
  simp only [Nat.zero_add, List.nil_append] at processed amount delta passed
  subst total
  subst same
  by_cases all : swept.processedDeposits = (s.depositInfo pid user).length
  · rw [if_pos all] at left
    cases left
    have released : ∀ d ∈ s.depositInfo pid user, d.Released s.blockNumber pool.unlocked := by
      rw [processed, List.length_filter_eq_length_iff] at all
      exact fun d hd => of_decide_eq_true (all d hd)
    have whole : (s.depositInfo pid user).filter
        (fun d => d.Released s.blockNumber pool.unlocked) = s.depositInfo pid user :=
      List.filter_eq_self.mpr fun d hd => decide_eq_true (released d hd)
    rw [whole] at amount delta
    rw [delta] at supply ⊢
    refine .inr (.intro found (.close released supply) ?_ fun _ => rfl)
    have loses : principal [] + swept.unlockedTotalAmount = principal (s.depositInfo pid user) := by
      rw [amount]
      exact Nat.zero_add _
    exact repaid_of_payment loses paid
  · rw [if_neg all] at left
    simp only [bind_eq_ok_iff, pure_eq_ok_iff, checkedSub_eq_ok_iff, checkedMul_eq_ok_iff,
      toInt256_eq_ok_iff] at left
    obtain ⟨_, ⟨virtual, value⟩, _, ⟨_, product⟩, _, ⟨_, debt⟩, pair⟩ := left
    subst value
    subst product
    subst debt
    cases pair
    have waiting : ∃ d ∈ s.depositInfo pid user, ¬ d.Released s.blockNumber pool.unlocked := by
      by_contra none
      push Not at none
      apply all
      rw [processed, List.length_filter_eq_length_iff]
      exact fun d hd => decide_eq_true (none d hd)
    rw [passed]
    refine .inl (.intro found (.sweep waiting delta virtual supply) ?_ fun _ => rfl)
    refine repaid_of_payment ?_ paid
    rw [amount]
    exact principal_cleared _

theorem acts_of_withdrawFromDeposit
    (succeeds : _withdrawFromDeposit env s user pid amount dst index = .ok s') :
    ∃ u, updatePool s pid = .ok u ∧ Acts env pid user (.withdraw amount index) u s' := by
  simp only [_withdrawFromDeposit, bind_eq_ok_iff, pure_eq_ok_iff, require_eq_ok_iff,
    exists_const, element_eq_ok_iff, checkedSub_eq_ok_iff, checkedMul_eq_ok_iff,
    toInt256_eq_ok_iff, checkedIntSub_eq_ok_iff] at succeeds
  obtain ⟨_, u, update, pool, found, d, here, released, _, ⟨_, scaled⟩, _, ⟨enough, left⟩, _,
    ⟨_, product⟩, _, ⟨_, debt⟩, _, ⟨_, rewardDebt⟩, _, ⟨virtual, virtualAmount⟩, _,
    ⟨supply, total⟩, token, staked, ledger, paid, same⟩ := succeeds
  subst scaled
  subst left
  subst product
  subst debt
  subst rewardDebt
  subst virtualAmount
  subst total
  subst same
  refine ⟨u, update, .intro found (.withdraw here released enough rfl virtual supply) ?_
    fun _ => rfl⟩
  have loses := sum_map_set (f := DepositInfo.amount) here { d with amount := d.amount - amount }
  have value : principal (u.depositInfo pid user) - principal
      ((u.depositInfo pid user).set index { d with amount := d.amount - amount }) = amount := by
    simp only [principal] at loses ⊢
    omega
  exact ⟨dst, .inr ⟨token, staked, by rw [← paid]; exact congrArg _ value⟩⟩

theorem acts_of_emergencyWithdraw
    (succeeds : _emergencyWithdraw env s user pid dst = .ok s') :
    ∃ u, updatePool s pid = .ok u ∧ Acts env pid user .close u s' := by
  simp only [_emergencyWithdraw, bind_eq_ok_iff, pure_eq_ok_iff, element_eq_ok_iff,
    checkedSub_eq_ok_iff] at succeeds
  obtain ⟨u, update, pool, found, ⟨total, delta⟩, loop, _, ⟨supply, left⟩, _, _, token, staked,
    ledger, paid, same⟩ := succeeds
  obtain ⟨released, amount, virtual⟩ := gathered_of_gather loop
  simp only [Nat.zero_add] at amount virtual
  subst amount
  subst virtual
  subst left
  subst same
  refine ⟨u, update, .intro found (.close released supply) ?_ fun _ => rfl⟩
  exact ⟨dst, .inr ⟨token, staked, paid⟩⟩

end Bodies

/-! ## Transactions by kind -/

/-- The contract's own tokens after what others do with theirs, and after TRIBE is taken out. -/
structure Guarded (env : TribalChiefEnv) (s : TribalChiefState) (ledger : Ledger) : Prop where
  unapproved : s.ledger.Unapproved env.this → ledger.Unapproved env.this
  balance : s.ledger.Unapproved env.this → ∀ token, token ≠ s.TRIBE →
    s.ledger.balanceOf token env.this ≤ ledger.balanceOf token env.this

/-- The elementary changes that are not user operations. `rest` changes flags, multipliers,
rewarders, the role and the guard, which no reward or deposit depends on. -/
inductive Phase (env : TribalChiefEnv) : TribalChiefState → TribalChiefState → Prop where
  | rest {s : TribalChiefState} {rewardMultipliers : Nat → Nat → Nat} {rewarder : List Address}
      {CONTRACT_ADMIN_ROLE : Bytes32} {paused : Bool} {status : Nat}
      (same : rewarder.length = s.rewarder.length) :
      Phase env s { s with
        rewardMultipliers, rewarder, CONTRACT_ADMIN_ROLE, _paused := paused, _status := status }
  | tokens {s : TribalChiefState} {ledger : Ledger} (guarded : Guarded env s ledger) :
      Phase env s { s with ledger }
  | update {s : TribalChiefState} {pid : Nat} {pool : PoolInfo}
      (found : s.poolInfo[pid]? = some pool) : Phase env s (updated s pid pool)
  | weigh {s : TribalChiefState} {pid : Nat} {pool : PoolInfo} {allocPoint totalAllocPoint : Nat}
      {unlocked : Bool} (found : s.poolInfo[pid]? = some pool)
      (total : totalAllocPoint + pool.allocPoint = s.totalAllocPoint + allocPoint) :
      Phase env s { s with
        totalAllocPoint
        poolInfo := s.poolInfo.set pid { pool with allocPoint, unlocked } }
  | add {s : TribalChiefState} (allocPoint : Nat) (stakedToken rewarder : Address) :
      Phase env s { s with
        totalAllocPoint := s.totalAllocPoint + allocPoint
        stakedToken := s.stakedToken ++ [stakedToken]
        rewarder := s.rewarder ++ [rewarder]
        poolInfo := s.poolInfo ++ [⟨0, 0, s.blockNumber, allocPoint, false⟩] }
  | rate {s : TribalChiefState} {newBlockReward : Nat} :
      Phase env s { s with tribalChiefTribePerBlock := newBlockReward }
  | mine {s : TribalChiefState} {blocks : Nat} :
      Phase env s { s with blockNumber := s.blockNumber + blocks }

/-- Any number of elementary changes. -/
abbrev Phases (env : TribalChiefEnv) : TribalChiefState → TribalChiefState → Prop :=
  Relation.ReflTransGen (Phase env)

/-- What rewards depend on besides stakes and blocks. -/
def parameters (s : TribalChiefState) : Nat × Nat × List Nat :=
  (s.tribalChiefTribePerBlock, s.totalAllocPoint, s.poolInfo.map PoolInfo.allocPoint)

def allocAt (s : TribalChiefState) (pid : Nat) : Nat :=
  (s.poolInfo[pid]?).elim 0 PoolInfo.allocPoint

/-- An elementary change within a block. -/
structure Still (env : TribalChiefEnv) (s s' : TribalChiefState) : Prop where
  phase : Phase env s s'
  block : s'.blockNumber = s.blockNumber

/-- One that leaves the parameters alone. -/
structure Quiet (env : TribalChiefEnv) (s s' : TribalChiefState) : Prop
    extends Still env s s' where
  parameters : parameters s' = parameters s

/-- The same within a block. -/
abbrev Stills (env : TribalChiefEnv) : TribalChiefState → TribalChiefState → Prop :=
  Relation.ReflTransGen (Still env)

/-- The same with the parameters left alone. -/
abbrev Quiets (env : TribalChiefEnv) : TribalChiefState → TribalChiefState → Prop :=
  Relation.ReflTransGen (Quiet env)

theorem Stills.phases (stills : Stills env s s') : Phases env s s' :=
  Relation.ReflTransGen.mono (fun _ _ still => still.phase) _ _ stills

theorem Quiets.stills (quiets : Quiets env s s') : Stills env s s' :=
  Relation.ReflTransGen.mono (fun _ _ quiet => quiet.toStill) _ _ quiets

theorem map_set_of_getElem? {α β : Type} {l : List α} {i : Nat} {x y : α} {f : α → β}
    (found : l[i]? = some x) (same : f y = f x) : (l.set i y).map f = l.map f := by
  have found' : (l.map f)[i]? = some (f x) := by
    rw [List.getElem?_map, found]
    rfl
  rw [List.map_set, same, set_of_getElem? found']

theorem allocPoint_accrued (s : TribalChiefState) (pool : PoolInfo) :
    (accrued s pool).allocPoint = pool.allocPoint := by
  unfold accrued
  split <;> rfl

theorem parameters_updated {pid : Nat} {pool : PoolInfo}
    (found : s.poolInfo[pid]? = some pool) : parameters (updated s pid pool) = parameters s := by
  simp only [parameters, updated, map_set_of_getElem? found (allocPoint_accrued s pool)]

/-- The pool that an update leaves, and the total. -/
theorem points_of_updatePool {pid : Nat} {u : TribalChiefState}
    (update : updatePool s pid = .ok u) :
    ∃ pool, u.poolInfo[pid]? = some pool ∧ pool.allocPoint = allocAt s pid ∧
      u.totalAllocPoint = s.totalAllocPoint := by
  obtain ⟨pool, found, same⟩ := updated_of_updatePool update
  subst same
  refine ⟨accrued s pool, List.getElem?_set_self (List.getElem?_eq_some_iff.mp found).1, ?_, rfl⟩
  rw [allocPoint_accrued, allocAt, found, Option.elim_some]

theorem quiet_update {pid : Nat} {pool : PoolInfo} (found : s.poolInfo[pid]? = some pool) :
    Quiet env s (updated s pid pool) :=
  ⟨⟨.update found, rfl⟩, parameters_updated found⟩

theorem quiet_unlock {pid : Nat} {pool : PoolInfo} (unlocked : Bool)
    (found : s.poolInfo[pid]? = some pool) :
    Quiet env s { s with poolInfo := s.poolInfo.set pid { pool with unlocked } } := by
  have same := map_set_of_getElem? (f := PoolInfo.allocPoint) (y := { pool with unlocked }) found
    rfl
  refine ⟨⟨.weigh found rfl, rfl⟩, ?_⟩
  simp only [parameters, same]

/-- The state inside of a guarded call, after its pool update. -/
def opened (s : TribalChiefState) (pid : Nat) (pool : PoolInfo) : TribalChiefState :=
  { updated s pid pool with _status := _ENTERED }

/-- The state that a guarded call leaves. -/
def closed (s : TribalChiefState) : TribalChiefState :=
  { s with _status := _NOT_ENTERED }

/-- Not a user operation. -/
def Action.Administers : Action → Prop
  | .updatePool _ => True
  | .massUpdatePools _ => True
  | .admin _ _ => True
  | .token _ _ => True
  | .mine _ => True
  | _ => False

/-- A call that changes the reward rate or allocation points. -/
def AdminCall.Adjusts : AdminCall → Prop
  | .updateBlockReward _ => True
  | .add _ _ _ _ => True
  | .set _ _ _ _ => True
  | .resetRewards _ => True
  | _ => False

/-- A transaction with such a call. -/
def Action.Adjusts : Action → Prop
  | .admin _ c => c.Adjusts
  | _ => False

/-- What a transaction does, by kind: a user operation, or administration and the outside. -/
inductive Transaction (env : TribalChiefEnv) (s : TribalChiefState) :
    Action → TribalChiefState → Prop where
  | deposit {user : Address} {pid amount : UInt256} {lockLength : BitVec 64} {pool : PoolInfo}
      {m : TribalChiefState} {unlockBlock : Nat} (found : s.poolInfo[pid.toNat]? = some pool)
      (acts : Acts env pid.toNat user (.deposit amount.toNat
        (s.rewardMultipliers pid.toNat lockLength.toNat) unlockBlock)
        (opened s pid.toNat pool) m) :
      Transaction env s (.deposit user pid amount lockLength) (closed m)
  | withdrawAll {user : Address} {pid : UInt256} {dst : Address} {pool : PoolInfo}
      {h m : TribalChiefState} (found : s.poolInfo[pid.toNat]? = some pool)
      (harvests : Acts env pid.toNat user .harvest (opened s pid.toNat pool) h)
      (acts : Acts env pid.toNat user .sweep h m ∨ Acts env pid.toNat user .close h m) :
      Transaction env s (.withdrawAllAndHarvest user pid dst) (closed m)
  | withdraw {user : Address} {pid amount : UInt256} {dst : Address} {index : UInt256}
      {pool : PoolInfo} {m : TribalChiefState} (found : s.poolInfo[pid.toNat]? = some pool)
      (acts : Acts env pid.toNat user (.withdraw amount.toNat index.toNat)
        (opened s pid.toNat pool) m) :
      Transaction env s (.withdrawFromDeposit user pid amount dst index) (closed m)
  | harvest {user : Address} {pid : UInt256} {dst : Address} {pool : PoolInfo}
      {m : TribalChiefState} (found : s.poolInfo[pid.toNat]? = some pool)
      (acts : Acts env pid.toNat user .harvest (opened s pid.toNat pool) m) :
      Transaction env s (.harvest user pid dst) (closed m)
  | emergency {user : Address} {pid : UInt256} {dst : Address} {pool : PoolInfo}
      {m : TribalChiefState} (found : s.poolInfo[pid.toNat]? = some pool)
      (acts : Acts env pid.toNat user .close (opened s pid.toNat pool) m) :
      Transaction env s (.emergencyWithdraw user pid dst) (closed m)
  | other {a : Action} {s' : TribalChiefState} (kind : a.Administers) (phases : Phases env s s')
      (status : s'._status = s._status) : Transaction env s a s'

/-- The actor of a token call is not the contract, which makes no such calls. -/
def Action.External (env : TribalChiefEnv) : Action → Prop
  | .token actor _ => actor ≠ env.this
  | _ => True

theorem quiets_of_updatePool {pid : Nat} (succeeds : updatePool s pid = .ok s') :
    Quiets env s s' ∧ s'._status = s._status := by
  obtain ⟨pool, found, same⟩ := updated_of_updatePool succeeds
  subst same
  exact ⟨.single (quiet_update found), rfl⟩

theorem quiets_of_massUpdatePools {pids : List Nat}
    (succeeds : massUpdatePools s pids = .ok s') : Quiets env s s' ∧ s'._status = s._status := by
  refine foldlM_invariant (I := fun t => Quiets env s t ∧ t._status = s._status) ?_
    ⟨.refl, rfl⟩ succeeds
  intro t pid t' ⟨quiets, status⟩ _ succeeds
  obtain ⟨more, kept⟩ := quiets_of_updatePool succeeds
  exact ⟨quiets.trans more, kept.trans status⟩

theorem quiets_of_setUnlocked {pid : Nat} {unlocked : Bool}
    (succeeds : setUnlocked s pid unlocked = .ok s') :
    Quiets env s s' ∧ s'._status = s._status := by
  simp only [setUnlocked, bind_eq_ok_iff, pure_eq_ok_iff, element_eq_ok_iff] at succeeds
  obtain ⟨pool, found, same⟩ := succeeds
  subst same
  exact ⟨.single (quiet_unlock unlocked found), rfl⟩

theorem stills_of_add {user stakedToken rewarder : Address} {allocPoint : BitVec 120}
    {rewardData : List RewardData}
    (succeeds : add env s user allocPoint stakedToken rewarder rewardData = .ok s') :
    Stills env s s' ∧ s'._status = s._status := by
  simp only [add, bind_eq_ok_iff, pure_eq_ok_iff, require_eq_ok_iff, exists_const,
    toNat_toUint_eq_ok_iff, checkedAdd_eq_ok_iff] at succeeds
  obtain ⟨_, _, _, _, ⟨_, block⟩, _, ⟨_, total⟩, _, rewardMultipliers, _, same⟩ := succeeds
  subst block
  subst total
  subst same
  exact ⟨.tail (.single ⟨.add allocPoint.toNat stakedToken rewarder, rfl⟩) ⟨.rest rfl, rfl⟩, rfl⟩

theorem stills_of_set {user rewarder : Address} {pid : Nat} {allocPoint : BitVec 120}
    {overwrite : Bool} (succeeds : set env s user pid allocPoint rewarder overwrite = .ok s') :
    Stills env s s' ∧ s'._status = s._status := by
  simp only [set, bind_eq_ok_iff, pure_eq_ok_iff, require_eq_ok_iff, exists_const,
    element_eq_ok_iff, checkedSub_eq_ok_iff, checkedAdd_eq_ok_iff] at succeeds
  obtain ⟨_, _, u, update, pool, found, _, ⟨covered, others⟩, _, ⟨_, total⟩, _, same⟩ := succeeds
  subst others
  subst same
  obtain ⟨quiets, status⟩ : Quiets env s u ∧ _ := quiets_of_updatePool update
  refine ⟨(quiets.stills.tail ⟨.weigh found (by omega), rfl⟩).tail ⟨.rest ?_, rfl⟩, status⟩
  split
  · exact List.length_set
  · rfl

theorem stills_of_resetRewards {user : Address} {pid : Nat}
    (succeeds : resetRewards env s user pid = .ok s') :
    Stills env s s' ∧ s'._status = s._status := by
  simp only [resetRewards, bind_eq_ok_iff, pure_eq_ok_iff, element_eq_ok_iff,
    checkedSub_eq_ok_iff] at succeeds
  obtain ⟨_, _, u, update, pool, found, _, ⟨covered, total⟩, same⟩ := succeeds
  subst same
  obtain ⟨quiets, status⟩ : Quiets env s u ∧ _ := quiets_of_updatePool update
  refine ⟨(quiets.stills.tail ⟨.weigh found (by omega), rfl⟩).tail ⟨.rest ?_, rfl⟩, status⟩
  exact List.length_set

theorem quiets_of_governorAddPoolMultiplier {user : Address} {pid : Nat}
    {lockLength newRewardsMultiplier : BitVec 64}
    (succeeds : governorAddPoolMultiplier env s user pid lockLength newRewardsMultiplier =
      .ok s') : Quiets env s s' ∧ s'._status = s._status := by
  simp only [governorAddPoolMultiplier, bind_eq_ok_iff, pure_eq_ok_iff, element_eq_ok_iff]
    at succeeds
  obtain ⟨_, _, pool, found, same⟩ := succeeds
  subst same
  exact ⟨.tail (.single (quiet_unlock _ found)) ⟨⟨.rest rfl, rfl⟩, rfl⟩, rfl⟩

theorem quiets_of_governorWithdrawTribe {user : Address} {amount : Nat}
    (succeeds : governorWithdrawTribe env s user amount = .ok s') :
    Quiets env s s' ∧ s'._status = s._status := by
  simp only [governorWithdrawTribe, bind_eq_ok_iff, pure_eq_ok_iff] at succeeds
  obtain ⟨_, _, ledger, paid, same⟩ := succeeds
  subst same
  have moved := Ledger.safeTransfer_moved paid
  refine ⟨.single ⟨⟨.tokens ⟨moved.unapproved, fun _ token other => ?_⟩, rfl⟩, rfl⟩, rfl⟩
  have exact := moved.balance token env.this
  rw [if_neg fun h => other h.1, if_neg fun h => other h.1] at exact
  exact Nat.le_of_eq exact.symm

theorem quiets_of_admin {user : Address} {c : AdminCall} (keeps : ¬ c.Adjusts)
    (succeeds : admin env s user c = .ok s') : Quiets env s s' ∧ s'._status = s._status := by
  cases c with
  | updateBlockReward newBlockReward => exact absurd trivial keeps
  | lockPool pid =>
      obtain ⟨_, _, shut⟩ := bind_eq_ok_iff.mp succeeds
      exact quiets_of_setUnlocked shut
  | unlockPool pid =>
      obtain ⟨_, _, opens⟩ := bind_eq_ok_iff.mp succeeds
      exact quiets_of_setUnlocked opens
  | governorAddPoolMultiplier pid lockLength newRewardsMultiplier =>
      exact quiets_of_governorAddPoolMultiplier succeeds
  | governorWithdrawTribe amount => exact quiets_of_governorWithdrawTribe succeeds
  | add allocPoint stakedToken rewarder rewardData => exact absurd trivial keeps
  | set pid allocPoint rewarder overwrite => exact absurd trivial keeps
  | resetRewards pid => exact absurd trivial keeps
  | setContractAdminRole newContractAdminRole =>
      simp only [admin, bind_eq_ok_iff, pure_eq_ok_iff] at succeeds
      obtain ⟨_, _, same⟩ := succeeds
      subst same
      exact ⟨.single ⟨⟨.rest rfl, rfl⟩, rfl⟩, rfl⟩
  | pause =>
      have same := pause_eq succeeds
      subst same
      exact ⟨.single ⟨⟨.rest rfl, rfl⟩, rfl⟩, rfl⟩
  | unpause =>
      have same := unpause_eq succeeds
      subst same
      exact ⟨.single ⟨⟨.rest rfl, rfl⟩, rfl⟩, rfl⟩

theorem stills_of_updateBlockReward {user : Address} {newBlockReward : Nat}
    (succeeds : updateBlockReward env s user newBlockReward = .ok s') :
    Stills env s s' ∧ s'._status = s._status := by
  simp only [updateBlockReward, bind_eq_ok_iff, pure_eq_ok_iff] at succeeds
  obtain ⟨_, _, _, _, same⟩ := succeeds
  subst same
  exact ⟨.single ⟨.rate, rfl⟩, rfl⟩

theorem stills_of_admin {user : Address} {c : AdminCall}
    (succeeds : admin env s user c = .ok s') : Stills env s s' ∧ s'._status = s._status := by
  have quietly : ¬ c.Adjusts → Stills env s s' ∧ s'._status = s._status := fun keeps =>
    ⟨(quiets_of_admin keeps succeeds).1.stills, (quiets_of_admin keeps succeeds).2⟩
  cases c with
  | updateBlockReward newBlockReward => exact stills_of_updateBlockReward succeeds
  | add allocPoint stakedToken rewarder rewardData => exact stills_of_add succeeds
  | set pid allocPoint rewarder overwrite => exact stills_of_set succeeds
  | resetRewards pid => exact stills_of_resetRewards succeeds
  | lockPool pid => exact quietly not_false
  | unlockPool pid => exact quietly not_false
  | governorAddPoolMultiplier pid lockLength newRewardsMultiplier => exact quietly not_false
  | governorWithdrawTribe amount => exact quietly not_false
  | setContractAdminRole newContractAdminRole => exact quietly not_false
  | pause => exact quietly not_false
  | unpause => exact quietly not_false

/-- Administration that leaves the parameters alone, and the outside. -/
theorem quiets_of_step {a : Action} (external : a.External env) (kind : a.Administers)
    (keeps : ¬ a.Adjusts) (still : ∀ blocks, a ≠ .mine blocks)
    (succeeds : step env s a = .ok s') : Quiets env s s' ∧ s'._status = s._status := by
  cases a with
  | deposit user pid amount lockLength => exact kind.elim
  | withdrawAllAndHarvest user pid dst => exact kind.elim
  | withdrawFromDeposit user pid amount dst index => exact kind.elim
  | harvest user pid dst => exact kind.elim
  | emergencyWithdraw user pid dst => exact kind.elim
  | updatePool pid => exact quiets_of_updatePool succeeds
  | massUpdatePools pids => exact quiets_of_massUpdatePools succeeds
  | admin user c => exact quiets_of_admin keeps succeeds
  | token actor c =>
      obtain ⟨ledger, performs, same⟩ := bind_eq_ok_iff.mp succeeds
      cases same
      refine ⟨.single ⟨⟨.tokens ⟨fun none => ?_, fun none token _ => ?_⟩, rfl⟩, rfl⟩, rfl⟩
      · exact (Ledger.perform_custody none external performs).unapproved
      · have custody := Ledger.perform_custody none external performs
        have balance := custody.balance token
        have received := custody.received_le token
        omega
  | mine blocks => exact absurd rfl (still blocks)

/-- The update at the start of a guarded call. -/
theorem opened_of_updatePool {pid : Nat} {u : TribalChiefState}
    (succeeds : updatePool (ReentrancyGuard.withStatus s _ENTERED) pid = .ok u) :
    ∃ pool, s.poolInfo[pid]? = some pool ∧ u = opened s pid pool :=
  updated_of_updatePool succeeds

/-- **Transactions by kind.** -/
theorem transaction_of_step {a : Action} (external : a.External env)
    (succeeds : step env s a = .ok s') : Transaction env s a s' := by
  cases a with
  | deposit user pid amount lockLength =>
      rw [step, TribalChief.deposit, nonReentrant_inversion] at succeeds
      obtain ⟨_, m, body, same⟩ := succeeds
      subst same
      obtain ⟨u, multiplier, unlockBlock, update, value, acts⟩ := acts_of_deposit body
      obtain ⟨pool, found, same⟩ := opened_of_updatePool update
      subst same
      subst value
      exact .deposit found acts
  | withdrawAllAndHarvest user pid dst =>
      rw [step, TribalChief.withdrawAllAndHarvest, nonReentrant_inversion] at succeeds
      obtain ⟨_, m, body, same⟩ := succeeds
      subst same
      simp only [bind_eq_ok_iff] at body
      obtain ⟨u, update, h, harvests, withdraws⟩ := body
      obtain ⟨pool, found, same⟩ := opened_of_updatePool update
      subst same
      exact .withdrawAll found (acts_of_harvest harvests) (acts_of_withdrawAll withdraws)
  | withdrawFromDeposit user pid amount dst index =>
      rw [step, TribalChief.withdrawFromDeposit, nonReentrant_inversion] at succeeds
      obtain ⟨_, m, body, same⟩ := succeeds
      subst same
      obtain ⟨u, update, acts⟩ := acts_of_withdrawFromDeposit body
      obtain ⟨pool, found, same⟩ := opened_of_updatePool update
      subst same
      exact .withdraw found acts
  | harvest user pid dst =>
      rw [step, TribalChief.harvest, nonReentrant_inversion] at succeeds
      obtain ⟨_, m, body, same⟩ := succeeds
      subst same
      simp only [bind_eq_ok_iff] at body
      obtain ⟨u, update, harvests⟩ := body
      obtain ⟨pool, found, same⟩ := opened_of_updatePool update
      subst same
      exact .harvest found (acts_of_harvest harvests)
  | emergencyWithdraw user pid dst =>
      rw [step, TribalChief.emergencyWithdraw, nonReentrant_inversion] at succeeds
      obtain ⟨_, m, body, same⟩ := succeeds
      subst same
      obtain ⟨u, update, acts⟩ := acts_of_emergencyWithdraw body
      obtain ⟨pool, found, same⟩ := opened_of_updatePool update
      subst same
      exact .emergency found acts
  | updatePool pid =>
      obtain ⟨quiets, status⟩ := quiets_of_step external trivial not_false (by simp) succeeds
      exact .other trivial quiets.stills.phases status
  | massUpdatePools pids =>
      obtain ⟨quiets, status⟩ := quiets_of_step external trivial not_false (by simp) succeeds
      exact .other trivial quiets.stills.phases status
  | admin user c =>
      obtain ⟨stills, status⟩ := stills_of_admin succeeds
      exact .other trivial stills.phases status
  | token actor c =>
      obtain ⟨quiets, status⟩ := quiets_of_step external trivial not_false (by simp) succeeds
      exact .other trivial quiets.stills.phases status
  | mine blocks =>
      cases succeeds
      exact .other trivial (.single .mine) rfl

/-- What elementary changes of one kind keep, any number of them keeps. -/
theorem keeps_of_chain {r : TribalChiefState → TribalChiefState → Prop}
    {I : TribalChiefState → Prop} (change : ∀ {s s'}, I s → r s s' → I s') (init : I s)
    (chain : Relation.ReflTransGen r s s') : I s' := by
  induction chain with
  | refl => exact init
  | tail _ last ih => exact change ih last

theorem quiets_opened {pid : Nat} {pool : PoolInfo} (found : s.poolInfo[pid]? = some pool) :
    Quiets env s (opened s pid pool) :=
  .tail (.single (quiet_update found)) ⟨⟨.rest rfl, rfl⟩, rfl⟩

theorem phases_opened {pid : Nat} {pool : PoolInfo} (found : s.poolInfo[pid]? = some pool) :
    Phases env s (opened s pid pool) :=
  (quiets_opened found).stills.phases

theorem quiet_closed (s : TribalChiefState) : Quiet env s (closed s) := ⟨⟨.rest rfl, rfl⟩, rfl⟩

theorem phase_closed (s : TribalChiefState) : Phase env s (closed s) := .rest rfl

/-! ### Pools that are up to date -/

/-- Pool `pid` has been updated in this block. -/
def Current (s : TribalChiefState) (pid : Nat) : Prop :=
  ∀ pool ∈ s.poolInfo[pid]?, s.blockNumber ≤ pool.lastRewardBlock

theorem lastRewardBlock_accrued (s : TribalChiefState) (pool : PoolInfo) :
    (accrued s pool).lastRewardBlock = max pool.lastRewardBlock s.blockNumber := by
  unfold accrued
  split
  · rename_i later
    exact (Nat.max_eq_right (Nat.le_of_lt later)).symm
  · rename_i current
    exact (Nat.max_eq_left (Nat.not_lt.mp current)).symm

theorem current_updated (s : TribalChiefState) (pid : Nat) (pool : PoolInfo) :
    Current (updated s pid pool) pid := by
  intro pool' found
  rcases getElem?_set_cases found with ⟨_, value⟩ | ⟨other, _⟩
  · rw [value, lastRewardBlock_accrued]
    exact Nat.le_max_right _ _
  · exact absurd rfl other

theorem Current.updated {pid i : Nat} (current : Current s i) (pool : PoolInfo) :
    Current (updated s pid pool) i := by
  by_cases same : i = pid
  · subst same
    exact current_updated s i pool
  · intro pool' found
    rcases getElem?_set_cases found with ⟨here, _⟩ | ⟨_, old⟩
    · exact absurd here same
    · exact current pool' old

theorem current_opened (s : TribalChiefState) (pid : Nat) (pool : PoolInfo) :
    Current (opened s pid pool) pid :=
  current_updated s pid pool

theorem Acts.current {pid : Nat} {user : Address} {mv : Move} (current : Current s pid)
    (acts : Acts env pid user mv s s') : Current s' pid := by
  obtain @⟨pool, e', ledger, event, found, moves, settles, logs⟩ := acts
  intro pool' found'
  rcases getElem?_set_cases found' with ⟨_, value⟩ | ⟨other, _⟩
  · rw [value, moves.pool]
    exact current pool found
  · exact absurd rfl other

theorem current_of_massUpdatePools {pids : List Nat} {i : Nat}
    (succeeds : massUpdatePools s pids = .ok s') (mem : i ∈ pids ∨ Current s i) :
    Current s' i := by
  induction pids generalizing s with
  | nil =>
      rw [massUpdatePools, foldlM_nil_eq_ok_iff] at succeeds
      subst succeeds
      exact mem.resolve_left List.not_mem_nil
  | cons pid pids ih =>
      obtain ⟨next, first, rest⟩ := foldlM_cons_eq_ok_iff.mp succeeds
      obtain ⟨pool, found, same⟩ := updated_of_updatePool first
      subst same
      refine ih rest ?_
      rcases mem with mem | current
      · rcases List.mem_cons.mp mem with here | later
        · subst here
          exact .inr (current_updated s i pool)
        · exact .inl later
      · exact .inr (current.updated pool)

/-- What the quiet changes and the user operations on a pool that is up to date keep, a
transaction keeps. -/
theorem Transaction.keeps_of_current {I : TribalChiefState → Prop} {a : Action}
    (quiet : ∀ {s s'}, I s → Quiet env s s' → I s')
    (act : ∀ {s s' pid user mv}, Current s pid → I s → Acts env pid user mv s s' → I s')
    (other : a.Administers → I s') (init : I s) (transaction : Transaction env s a s') :
    I s' := by
  have inside : ∀ {pid : Nat} {pool : PoolInfo}, s.poolInfo[pid]? = some pool →
      I (opened s pid pool) := fun found => keeps_of_chain quiet init (quiets_opened found)
  cases transaction with
  | deposit found acts =>
      exact quiet (act (current_opened _ _ _) (inside found) acts) (quiet_closed _)
  | withdrawAll found harvests acts =>
      have mid := act (current_opened _ _ _) (inside found) harvests
      have current := harvests.current (current_opened _ _ _)
      rcases acts with acts | acts
      · exact quiet (act current mid acts) (quiet_closed _)
      · exact quiet (act current mid acts) (quiet_closed _)
  | withdraw found acts =>
      exact quiet (act (current_opened _ _ _) (inside found) acts) (quiet_closed _)
  | harvest found acts =>
      exact quiet (act (current_opened _ _ _) (inside found) acts) (quiet_closed _)
  | emergency found acts =>
      exact quiet (act (current_opened _ _ _) (inside found) acts) (quiet_closed _)
  | other kind phases status => exact other kind

/-- What the elementary changes and the user operations keep, a transaction keeps. -/
theorem Transaction.keeps {I : TribalChiefState → Prop} {a : Action}
    (phase : ∀ {s s'}, I s → Phase env s s' → I s')
    (act : ∀ {s s' pid user mv}, I s → Acts env pid user mv s s' → I s') (init : I s)
    (transaction : Transaction env s a s') : I s' := by
  refine transaction.keeps_of_current (fun kept quiet => phase kept quiet.phase)
    (fun _ => act) (fun administers => ?_) init
  cases transaction with
  | other kind phases status => exact keeps_of_chain phase init phases
  | deposit found acts => exact administers.elim
  | withdrawAll found harvests acts => exact administers.elim
  | withdraw found acts => exact administers.elim
  | harvest found acts => exact administers.elim
  | emergency found acts => exact administers.elim

end TribalChief

namespace TribalChief.Sample

/-- The contract is `0xAA`, account 1 governs, and there are no rewarders. -/
def env : TribalChiefEnv where
  core :=
    { isMinter := fun _ => false
      isBurner := fun _ => false
      isPCVController := fun _ => false
      isGovernor := fun a => a = 1
      isGuardian := fun a => a = 2 }
  access := { hasRole := fun _ _ => false, roles := ⟨1, 2, 3, 4⟩ }
  coreAddress := 0xC0
  this := 0xAA
  TRIBAL_CHIEF_ADMIN_ROLE := 9
  onSushiReward _ _ _ _ _ _ _ := .ok ()

/-- Everybody holds tokens, and has approved the contract. -/
def ledger : Ledger where
  erc20 _ :=
    { balanceOf := fun _ => 10 ^ 30
      allowance := fun owner spender => if spender = 0xAA ∧ owner ≠ 0xAA then 10 ^ 30 else 0
      totalSupply := 10 ^ 30
      unlimited := false }
  transfers := []

theorem unapproved : ledger.Unapproved env.this := fun _ _ =>
  if_neg fun both => both.2 rfl

/-- TRIBE is token 20. -/
def start : TribalChiefState := initialized env 20 ledger 100

/-- A pool for token 30, with locks of 0 and 50 blocks. -/
def addPool : Action := .admin 1 (.add 100 30 0 [⟨0, 10000⟩, ⟨50, 15000⟩])

end TribalChief.Sample

end FeiProtocol
