import FeiProtocol.Math.Tables
import FeiProtocol.Staking.TribalChiefSteps
import Mathlib.Algebra.Order.BigOperators.Group.Finset
import Mathlib.Algebra.Order.BigOperators.Group.List

/-!
# The principal staked in `TribalChief`

What is deposited stays in the contract and can be taken out again. The three records of a
deposit are rounded differently, so between them only inequalities hold (`Sound`): the deposits
of a user never count for more than the user's virtual amount, nor the users' virtual amounts
for more than the pool's virtual supply.

* `Acts.sound`, `Phase.sound`: every operation keeps this.
* `withdrawFromDeposit_succeeds`, `emergencyWithdraw_succeeds`: from a sound state, released
  deposits can be withdrawn.
* `principal_retrievable`: all of it, for every run.
-/

namespace FeiProtocol

open Evm

namespace TribalChief

open CoreRef ReentrancyGuard

variable {env : TribalChiefEnv} {s s' : TribalChiefState} {pid : Nat} {user : Address}
  {mv : Move} {e e' : Entry} {b : Nat}

/-! ## One entry -/

/-- The deposits of an entry are covered by the account's virtual amount. -/
structure Entry.Covered (e : Entry) : Prop where
  virtual : virtualPrincipal e.deposits ≤ e.account.virtualAmount
  fits : ∀ d ∈ e.deposits, d.amount * d.multiplier < 2 ^ 256

/-- Taking part of a deposit out takes at most its share of the virtual amount. -/
theorem virtualAmount_partial {d : DepositInfo} {amount : Nat} (enough : amount ≤ d.amount) :
    DepositInfo.virtualAmount { d with amount := d.amount - amount } +
      amount * d.multiplier / SCALE_FACTOR ≤ d.virtualAmount := by
  have parts : (d.amount - amount) * d.multiplier + amount * d.multiplier =
      d.amount * d.multiplier := by
    rw [← Nat.add_mul, Nat.sub_add_cancel enough]
  calc DepositInfo.virtualAmount { d with amount := d.amount - amount } +
        amount * d.multiplier / SCALE_FACTOR
    _ ≤ ((d.amount - amount) * d.multiplier + amount * d.multiplier) / SCALE_FACTOR :=
      Nat.div_add_div_le_add_div
    _ = d.virtualAmount := by rw [parts, DepositInfo.virtualAmount]

theorem Moves.covered (moves : Moves b mv e e') (covered : e.Covered) : e'.Covered := by
  cases moves with
  | deposit fits counts room =>
      subst counts
      constructor
      · have before := covered.virtual
        simp only [virtualPrincipal_append, virtualPrincipal_cons, virtualPrincipal_nil,
          DepositInfo.virtualAmount] at before ⊢
        omega
      · intro d mem
        rcases List.mem_append.mp mem with old | new
        · exact covered.fits d old
        · rw [List.mem_singleton.mp new]
          exact fits
  | @withdraw _ d amount index _ found released enough counts virtual supply =>
      subst counts
      constructor
      · have change := sum_map_set (f := DepositInfo.virtualAmount) found
          { d with amount := d.amount - amount }
        have part := virtualAmount_partial enough
        have before := covered.virtual
        simp only [virtualPrincipal] at before ⊢
        omega
      · intro d' mem
        rcases List.mem_or_eq_of_mem_set mem with old | new
        · exact covered.fits d' old
        · rw [new]
          exact Nat.lt_of_le_of_lt (Nat.mul_le_mul_right _ (Nat.sub_le _ _))
            (covered.fits d (List.mem_of_getElem? found))
  | harvest solvent => exact ⟨covered.virtual, covered.fits⟩
  | sweep waiting counts virtual supply =>
      subst counts
      constructor
      · have parts : _ = virtualPrincipal e.deposits :=
          virtualPrincipal_cleared (u := e.pool.unlocked) (b := b) e.deposits
        have before := covered.virtual
        simp only
        omega
      · intro d' mem
        obtain ⟨d, old, same⟩ := List.mem_map.mp mem
        rw [← same, cleared]
        split
        · decide
        · exact covered.fits d old
  | close released supply => exact ⟨Nat.le_refl _, List.forall_mem_nil _⟩

/-- The virtual supply gives up no more than the account does. -/
theorem Moves.supply (moves : Moves b mv e e') (covered : e.Covered) :
    e.pool.virtualTotalSupply + e'.account.virtualAmount ≤
      e'.pool.virtualTotalSupply + e.account.virtualAmount := by
  have before := covered.virtual
  cases moves with
  | deposit fits counts room =>
      simp only
      omega
  | withdraw found released enough counts virtual supply =>
      simp only
      omega
  | harvest solvent => exact Nat.le_refl _
  | sweep waiting counts virtual supply =>
      simp only
      omega
  | close released supply =>
      simp only
      omega

theorem Moves.supply_lt (moves : Moves b mv e e')
    (fits : e.pool.virtualTotalSupply < 2 ^ 256) : e'.pool.virtualTotalSupply < 2 ^ 256 := by
  cases moves with
  | deposit _ counts room => exact room
  | withdraw found released enough counts virtual supply =>
      exact Nat.lt_of_le_of_lt (Nat.sub_le _ _) fits
  | harvest solvent => exact fits
  | sweep waiting counts virtual supply => exact Nat.lt_of_le_of_lt (Nat.sub_le _ _) fits
  | close released supply => exact Nat.lt_of_le_of_lt (Nat.sub_le _ _) fits

/-- What an operation pays in. -/
def Move.paidIn : Move → Nat
  | .deposit amount _ _ => amount
  | _ => 0

theorem Moves.principal_le (moves : Moves b mv e e') :
    principal e'.deposits ≤ principal e.deposits + mv.paidIn := by
  cases moves with
  | deposit fits counts room =>
      rw [principal_append]
      exact Nat.le_refl _
  | @withdraw _ d amount index _ found released enough counts virtual supply =>
      have change := sum_map_set (f := DepositInfo.amount) found
        { d with amount := d.amount - amount }
      simp only [principal, Move.paidIn] at change ⊢
      omega
  | harvest solvent => exact Nat.le_refl _
  | sweep waiting counts virtual supply =>
      have parts : _ = principal e.deposits :=
        principal_cleared (u := e.pool.unlocked) (b := b) e.deposits
      simp only
      omega
  | close released supply => exact Nat.zero_le _

/-! ## All entries -/

/-- The principal that all users have in pool `pid`. -/
def poolPrincipal (s : TribalChiefState) (pid : Nat) : Nat :=
  ∑ user, principal (s.depositInfo pid user)

/-- The principal in all pools that stake `token`. -/
def staked (s : TribalChiefState) (token : Address) : Nat :=
  ∑ pid ∈ Finset.range s.stakedToken.length,
    if s.stakedToken[pid]? = some token then poolPrincipal s pid else 0

/-- What is recorded is consistent, and backed by the tokens held. -/
structure Sound (env : TribalChiefEnv) (s : TribalChiefState) : Prop where
  tokens : s.stakedToken.length = s.poolInfo.length
  rewarders : s.rewarder.length = s.poolInfo.length
  absent : ∀ pid user, s.poolInfo.length ≤ pid → s.depositInfo pid user = []
  idle : ∀ pid user, s.poolInfo.length ≤ pid → s.userInfo pid user = ⟨0, 0⟩
  covered : ∀ (pid : Nat) (user : Address) (pool : PoolInfo), s.poolInfo[pid]? = some pool →
    (entryAt s pid user pool).Covered
  supply : ∀ (pid : Nat) (pool : PoolInfo), s.poolInfo[pid]? = some pool →
    ∑ user, (s.userInfo pid user).virtualAmount ≤ pool.virtualTotalSupply
  supply_lt : ∀ (pid : Nat) (pool : PoolInfo), s.poolInfo[pid]? = some pool →
    pool.virtualTotalSupply < 2 ^ 256
  unapproved : s.ledger.Unapproved env.this
  backed : ∀ token, token ≠ s.TRIBE → staked s token ≤ s.ledger.balanceOf token env.this

/-- Replacing one entry replaces its principal. -/
theorem staked_book {u : Address} (inside : pid < s.stakedToken.length) (token : Address) :
    staked (book s pid u e) token +
        (if s.stakedToken[pid]? = some token then principal (s.depositInfo pid u) else 0) =
      staked s token +
        if s.stakedToken[pid]? = some token then principal e.deposits else 0 := by
  have row : poolPrincipal (book s pid u e) pid + principal (s.depositInfo pid u) =
      poolPrincipal s pid + principal e.deposits :=
    Tables.sum_update₂ principal s.depositInfo pid u e.deposits
  have change : staked (book s pid u e) token +
      (if s.stakedToken[pid]? = some token then poolPrincipal s pid else 0) = staked s token +
        if s.stakedToken[pid]? = some token then poolPrincipal (book s pid u e) pid else 0 :=
    Tables.sum_change
      (f := fun i => if s.stakedToken[i]? = some token then poolPrincipal s i else 0)
      (g := fun i => if s.stakedToken[i]? = some token then poolPrincipal (book s pid u e) i
        else 0) (Finset.mem_range.mpr inside) fun i _ other => by
          simp only [poolPrincipal, book]
          rw [Tables.sum_update₂_of_ne principal s.depositInfo u e.deposits other]
  split at change
  · rename_i here
    rw [if_pos here, if_pos here]
    omega
  · rename_i elsewhere
    rw [if_neg elsewhere, if_neg elsewhere]
    omega

/-- A payment of what the deposits lose. -/
theorem backed_of_repaid {ledger : Ledger} {before after : Nat}
    (none : s.ledger.Unapproved env.this) (loses : after ≤ before)
    (repaid : ∃ dst, before = after ∧ ledger = s.ledger ∨ ∃ token,
      s.stakedToken[pid]? = some token ∧
        s.ledger.safeTransfer env.this token dst (before - after) = .ok ledger) :
    ledger.Unapproved env.this ∧ ∀ token, token ≠ s.TRIBE →
      s.ledger.balanceOf token env.this + (if s.stakedToken[pid]? = some token then after else 0) ≤
        ledger.balanceOf token env.this +
          if s.stakedToken[pid]? = some token then before else 0 := by
  obtain ⟨dst, ⟨same, kept⟩ | ⟨token, staked, paid⟩⟩ := repaid
  · subst kept
    rw [same]
    exact ⟨none, fun _ _ => Nat.le_refl _⟩
  · have moved := Ledger.safeTransfer_moved paid
    refine ⟨moved.unapproved none, fun token' _ => ?_⟩
    have exact := moved.balance token' env.this
    rw [staked]
    by_cases same : token' = token
    · subst same
      simp only [true_and, if_true] at exact ⊢
      omega
    · have other : ¬ some token = some token' := fun h => same (Option.some.inj h).symm
      rw [if_neg fun h => same h.1, if_neg fun h => same h.1] at exact
      rw [if_neg other, if_neg other]
      omega

/-- The tokens that leave the contract are at most what its deposits lose. -/
theorem Settles.backed {ledger : Ledger} (moves : Moves b mv e e')
    (none : s.ledger.Unapproved env.this) (settles : Settles env s pid user e e' ledger mv) :
    ledger.Unapproved env.this ∧ ∀ token, token ≠ s.TRIBE →
      s.ledger.balanceOf token env.this +
          (if s.stakedToken[pid]? = some token then principal e'.deposits else 0) ≤
        ledger.balanceOf token env.this +
          if s.stakedToken[pid]? = some token then principal e.deposits else 0 := by
  cases moves with
  | deposit fits counts room =>
      obtain ⟨token, staked, paid⟩ := settles
      have moved := Ledger.safeTransferFrom_moved paid
      refine ⟨moved.unapproved none, fun token' _ => ?_⟩
      have exact := moved.balance token' env.this
      rw [staked]
      simp only [principal_append, principal_cons, principal_nil, Nat.add_zero]
      by_cases same : token' = token
      · subst same
        by_cases self : env.this = user
        · -- a deposit of the contract itself has no allowance
          have approved := (Ledger.safeTransferFrom_eq_ok_iff.mp paid).1
          rw [← self, none] at approved
          simp only [true_and, if_true, self] at exact ⊢
          omega
        · simp only [true_and, if_true, self, if_false] at exact ⊢
          omega
      · have other : ¬ some token = some token' := fun h => same (Option.some.inj h).symm
        rw [if_neg fun h => same h.1, if_neg fun h => same h.1] at exact
        rw [if_neg other, if_neg other]
        omega
  | withdraw found released enough counts virtual supply =>
      have loses := (Moves.withdraw found released enough counts virtual supply).principal_le
      exact backed_of_repaid none loses settles
  | harvest solvent =>
      obtain ⟨dst, ⟨_, kept⟩ | paid⟩ := settles
      · subst kept
        exact ⟨none, fun _ _ => Nat.le_refl _⟩
      · have moved := Ledger.safeTransfer_moved paid
        refine ⟨moved.unapproved none, fun token tribe => ?_⟩
        have exact := moved.balance token env.this
        rw [if_neg fun h => tribe h.1, if_neg fun h => tribe h.1] at exact
        simp only
        omega
  | sweep waiting counts virtual supply =>
      have loses := (Moves.sweep waiting counts virtual supply).principal_le
      exact backed_of_repaid none loses settles
  | close released supply => exact backed_of_repaid none (Nat.zero_le _) settles

/-- **Every user operation keeps the records sound.** -/
theorem Acts.sound (sound : Sound env s) (acts : Acts env pid user mv s s') : Sound env s' := by
  obtain @⟨pool, e', ledger, event, found, moves, settles, logs⟩ := acts
  have covered := sound.covered pid user pool found
  have inside : pid < s.poolInfo.length := (List.getElem?_eq_some_iff.mp found).1
  obtain ⟨unapproved, balance⟩ := settles.backed moves sound.unapproved
  have length : (book s pid user e').poolInfo.length = s.poolInfo.length := List.length_set
  have elsewhere : ∀ i (u : Address), s.poolInfo.length ≤ i → ¬ (i = pid ∧ u = user) := by
    intro i u outside same
    omega
  constructor
  · exact sound.tokens.trans length.symm
  · exact sound.rewarders.trans length.symm
  · intro i u outside
    have outside : s.poolInfo.length ≤ i := length ▸ outside
    simp only [logged, book, update₂_of_ne _ _ (elsewhere i u outside)]
    exact sound.absent i u outside
  · intro i u outside
    have outside : s.poolInfo.length ≤ i := length ▸ outside
    simp only [logged, book, update₂_of_ne _ _ (elsewhere i u outside)]
    exact sound.idle i u outside
  · intro i u pool' here
    simp only [entryAt, logged, book]
    rcases getElem?_set_cases here with ⟨same, value⟩ | ⟨other, old⟩
    · subst same
      by_cases self : u = user
      · subst self
        rw [update₂_self, update₂_self]
        exact ⟨(moves.covered covered).virtual, (moves.covered covered).fits⟩
      · rw [update₂_of_ne _ _ fun h => self h.2, update₂_of_ne _ _ fun h => self h.2]
        exact ⟨(sound.covered i u pool found).virtual, (sound.covered i u pool found).fits⟩
    · rw [update₂_of_ne _ _ fun h => other h.1, update₂_of_ne _ _ fun h => other h.1]
      exact sound.covered i u pool' old
  · intro i pool' here
    rcases getElem?_set_cases here with ⟨same, value⟩ | ⟨other, old⟩
    · subst same
      subst value
      have row := Tables.sum_update₂ UserInfo.virtualAmount s.userInfo i user e'.account
      have before := sound.supply i pool found
      have change := moves.supply covered
      simp only [entryAt, logged, book] at row change ⊢
      omega
    · simp only [logged, book]
      rw [Tables.sum_update₂_of_ne UserInfo.virtualAmount s.userInfo user e'.account other]
      exact sound.supply i pool' old
  · intro i pool' here
    rcases getElem?_set_cases here with ⟨same, value⟩ | ⟨other, old⟩
    · subst value
      exact moves.supply_lt (sound.supply_lt pid pool found)
    · exact sound.supply_lt i pool' old
  · exact unapproved
  · intro token tribe
    have before := sound.backed token tribe
    have change := balance token tribe
    have booked := staked_book (s := s) (u := user) (e := e') (sound.tokens ▸ inside) token
    simp only [entryAt] at change
    change staked (book s pid user e') token ≤ ledger.balanceOf token env.this
    omega

/-- An update leaves a pool's virtual supply as it is. -/
theorem accrued_virtualTotalSupply (s : TribalChiefState) (pool : PoolInfo) :
    (accrued s pool).virtualTotalSupply = pool.virtualTotalSupply := by
  unfold accrued
  split <;> rfl

/-- Soundness does not depend on a pool's accumulator, weight or lock. -/
theorem Sound.replacePool {pool pool' : PoolInfo} {t : TribalChiefState} (sound : Sound env s)
    (found : s.poolInfo[pid]? = some pool)
    (pools : t.poolInfo = s.poolInfo.set pid pool')
    (supply : pool'.virtualTotalSupply = pool.virtualTotalSupply) (TRIBE : t.TRIBE = s.TRIBE)
    (tokens : t.stakedToken = s.stakedToken) (rewarders : t.rewarder = s.rewarder)
    (accounts : t.userInfo = s.userInfo) (deposits : t.depositInfo = s.depositInfo)
    (ledger : t.ledger = s.ledger) : Sound env t := by
  have length : t.poolInfo.length = s.poolInfo.length := by rw [pools, List.length_set]
  have held : ∀ {i : Nat} {p' : PoolInfo}, t.poolInfo[i]? = some p' →
      ∃ p, s.poolInfo[i]? = some p ∧ p'.virtualTotalSupply = p.virtualTotalSupply := by
    intro i p' here
    rw [pools] at here
    rcases getElem?_set_cases here with ⟨same, value⟩ | ⟨_, old⟩
    · subst same
      subst value
      exact ⟨pool, found, supply⟩
    · exact ⟨p', old, rfl⟩
  constructor
  · rw [tokens, length, sound.tokens]
  · rw [rewarders, length, sound.rewarders]
  · rw [deposits, length]
    exact sound.absent
  · rw [accounts, length]
    exact sound.idle
  · intro i u p' here
    obtain ⟨p, old, _⟩ := held here
    simp only [entryAt, accounts, deposits]
    exact ⟨(sound.covered i u p old).virtual, (sound.covered i u p old).fits⟩
  · intro i p' here
    obtain ⟨p, old, same⟩ := held here
    rw [accounts, same]
    exact sound.supply i p old
  · intro i p' here
    obtain ⟨p, old, same⟩ := held here
    rw [same]
    exact sound.supply_lt i p old
  · rw [ledger]
    exact sound.unapproved
  · intro token tribe
    rw [TRIBE] at tribe
    have same : staked t token = staked s token := by
      simp only [staked, poolPrincipal, tokens, deposits]
    rw [same, ledger]
    exact sound.backed token tribe

theorem Sound.push (sound : Sound env s) (allocPoint : Nat) (stakedToken rewarder : Address) :
    Sound env { s with
      totalAllocPoint := s.totalAllocPoint + allocPoint
      stakedToken := s.stakedToken ++ [stakedToken]
      rewarder := s.rewarder ++ [rewarder]
      poolInfo := s.poolInfo ++ [⟨0, 0, s.blockNumber, allocPoint, false⟩] } := by
  have empty : poolPrincipal s s.poolInfo.length = 0 :=
    Finset.sum_eq_zero fun u _ => by rw [sound.absent _ u (Nat.le_refl _), principal_nil]
  constructor
  · simp only [List.length_append, sound.tokens, List.length_singleton]
  · simp only [List.length_append, sound.rewarders, List.length_singleton]
  · intro i u outside
    rw [List.length_append] at outside
    exact sound.absent i u (Nat.le_of_add_right_le outside)
  · intro i u outside
    rw [List.length_append] at outside
    exact sound.idle i u (Nat.le_of_add_right_le outside)
  · intro i u pool here
    rcases getElem?_push_cases here with ⟨last, _⟩ | old
    · have none := sound.absent i u (Nat.le_of_eq last.symm)
      constructor
      · simp only [entryAt, none, virtualPrincipal_nil, Nat.zero_le]
      · simp only [entryAt, none]
        exact List.forall_mem_nil _
    · exact sound.covered i u pool old
  · intro i pool here
    rcases getElem?_push_cases here with ⟨last, _⟩ | old
    · refine Nat.le_trans (Nat.le_of_eq (Finset.sum_eq_zero fun u _ => ?_)) (Nat.zero_le _)
      rw [sound.idle i u (Nat.le_of_eq last.symm)]
    · exact sound.supply i pool old
  · intro i pool here
    rcases getElem?_push_cases here with ⟨_, value⟩ | old
    · subst value
      exact Nat.two_pow_pos 256
    · exact sound.supply_lt i pool old
  · exact sound.unapproved
  · intro token tribe
    refine Nat.le_trans (Nat.le_of_eq ?_) (sound.backed token tribe)
    simp only [staked, List.length_append, List.length_singleton, Finset.sum_range_succ]
    rw [sound.tokens]
    change _ + (if _ then poolPrincipal s s.poolInfo.length else 0) = _
    rw [empty, ite_self, Nat.add_zero]
    refine Finset.sum_congr rfl fun i mem => ?_
    rw [List.getElem?_append_left (sound.tokens ▸ Finset.mem_range.mp mem)]
    rfl

/-- **So does everything else that the contract does.** -/
theorem Phase.sound (sound : Sound env s) (phase : Phase env s s') : Sound env s' := by
  cases phase with
  | rest same =>
      exact ⟨sound.tokens, same.trans sound.rewarders, sound.absent, sound.idle, sound.covered,
        sound.supply, sound.supply_lt, sound.unapproved, sound.backed⟩
  | tokens guarded =>
      refine ⟨sound.tokens, sound.rewarders, sound.absent, sound.idle, sound.covered,
        sound.supply, sound.supply_lt, guarded.unapproved sound.unapproved, ?_⟩
      intro token tribe
      exact Nat.le_trans (sound.backed token tribe)
        (guarded.balance sound.unapproved token tribe)
  | @update pid pool found =>
      exact sound.replacePool found rfl (accrued_virtualTotalSupply s pool) rfl rfl rfl rfl rfl rfl
  | weigh found total => exact sound.replacePool found rfl rfl rfl rfl rfl rfl rfl rfl
  | add allocPoint stakedToken rewarder => exact sound.push allocPoint stakedToken rewarder
  | rate =>
      exact ⟨sound.tokens, sound.rewarders, sound.absent, sound.idle, sound.covered,
        sound.supply, sound.supply_lt, sound.unapproved, sound.backed⟩
  | mine =>
      exact ⟨sound.tokens, sound.rewarders, sound.absent, sound.idle, sound.covered,
        sound.supply, sound.supply_lt, sound.unapproved, sound.backed⟩

/-! ## Locks -/

theorem Phase.depositInfo (phase : Phase env s s') : s'.depositInfo = s.depositInfo := by
  cases phase with
  | rest same => rfl
  | tokens guarded => rfl
  | update found => rfl
  | weigh found total => rfl
  | add allocPoint stakedToken rewarder => rfl
  | rate => rfl
  | mine => rfl

theorem Phases.depositInfo (phases : Phases env s s') : s'.depositInfo = s.depositInfo := by
  induction phases with
  | refl => rfl
  | tail _ last ih => exact last.depositInfo.trans ih

/-- An operation leaves the deposits alone that are not released. -/
theorem Moves.locked {d : DepositInfo} {i : Nat} (moves : Moves b mv e e')
    (here : e.deposits[i]? = some d) (locked : ¬ d.Released b e.pool.unlocked) :
    e'.deposits[i]? = some d := by
  cases moves with
  | deposit fits counts room =>
      have inside := (List.getElem?_eq_some_iff.mp here).1
      rw [List.getElem?_append_left inside]
      exact here
  | @withdraw _ d' amount index _ found released enough counts virtual supply =>
      have other : index ≠ i := by
        intro same
        rw [same, here] at found
        cases found
        exact locked released
      rw [List.getElem?_set_ne other]
      exact here
  | harvest solvent => exact here
  | sweep waiting counts virtual supply =>
      rw [List.getElem?_map, here, Option.map_some, cleared, if_neg locked]
  | close released supply => exact absurd (released d (List.mem_of_getElem? here)) locked

/-- The deposit `i` of `user` in pool `pid` is `d`, and may not be paid out. -/
structure Locked (s : TribalChiefState) (pid : Nat) (user : Address) (i : Nat)
    (d : DepositInfo) : Prop where
  here : (s.depositInfo pid user)[i]? = some d
  shut : ∀ pool, s.poolInfo[pid]? = some pool → ¬ d.Released s.blockNumber pool.unlocked

theorem Acts.locked {i j : Nat} {u : Address} {d : DepositInfo} (locked : Locked s j u i d)
    (acts : Acts env pid user mv s s') : Locked s' j u i d := by
  obtain @⟨pool, e', ledger, event, found, moves, settles, logs⟩ := acts
  constructor
  · simp only [logged, book, update₂_apply]
    split
    · rename_i same
      obtain ⟨same, self⟩ := same
      subst same
      subst self
      exact moves.locked locked.here (locked.shut pool found)
    · exact locked.here
  · intro pool' here
    rcases getElem?_set_cases here with ⟨same, value⟩ | ⟨_, old⟩
    · subst same
      subst value
      rw [moves.pool]
      exact locked.shut pool found
    · exact locked.shut pool' old

theorem Locked.opened {i j : Nat} {u : Address} {d : DepositInfo} {pool : PoolInfo}
    (locked : Locked s j u i d) (found : s.poolInfo[pid]? = some pool) :
    Locked (opened s pid pool) j u i d := by
  refine ⟨locked.here, fun pool' here => ?_⟩
  rcases getElem?_set_cases here with ⟨same, value⟩ | ⟨_, old⟩
  · subst same
    rw [value, accrued_unlocked]
    exact locked.shut pool found
  · exact locked.shut pool' old

/-- **Locked deposits stay.** A transaction leaves alone the deposits that are not released. -/
theorem Transaction.locked {a : Action} {i : Nat} {d : DepositInfo}
    (transaction : Transaction env s a s') (locked : Locked s pid user i d) :
    (s'.depositInfo pid user)[i]? = some d := by
  cases transaction with
  | deposit found acts => exact (acts.locked (locked.opened found)).here
  | withdrawAll found harvests acts =>
      have mid := harvests.locked (locked.opened found)
      rcases acts with acts | acts
      · exact (acts.locked mid).here
      · exact (acts.locked mid).here
  | withdraw found acts => exact (acts.locked (locked.opened found)).here
  | harvest found acts => exact (acts.locked (locked.opened found)).here
  | emergency found acts => exact (acts.locked (locked.opened found)).here
  | other kind phases status =>
      rw [phases.depositInfo]
      exact locked.here

/-! ## Taking the principal out -/

section Retrieve

variable {pool : PoolInfo} {d : DepositInfo} {token : Address} {amount index : Nat}

theorem Sound.principal_le (sound : Sound env s) (staking : s.stakedToken[pid]? = some token)
    (other : token ≠ s.TRIBE) (user : Address) :
    principal (s.depositInfo pid user) ≤ s.ledger.balanceOf token env.this := by
  have inside : pid < s.stakedToken.length := (List.getElem?_eq_some_iff.mp staking).1
  calc principal (s.depositInfo pid user)
    _ ≤ poolPrincipal s pid :=
      Finset.single_le_sum (f := fun u => principal (s.depositInfo pid u))
        (fun _ _ => Nat.zero_le _) (Finset.mem_univ user)
    _ = if s.stakedToken[pid]? = some token then poolPrincipal s pid else 0 :=
      (if_pos staking).symm
    _ ≤ staked s token :=
      Finset.single_le_sum
        (f := fun i => if s.stakedToken[i]? = some token then poolPrincipal s i else 0)
        (fun _ _ => Nat.zero_le _) (Finset.mem_range.mpr inside)
    _ ≤ s.ledger.balanceOf token env.this := sound.backed token other

theorem Sound.virtualAmount_le (sound : Sound env s) (found : s.poolInfo[pid]? = some pool)
    (user : Address) : (s.userInfo pid user).virtualAmount ≤ pool.virtualTotalSupply :=
  Nat.le_trans (Finset.single_le_sum (f := fun u => (s.userInfo pid u).virtualAmount)
    (fun _ _ => Nat.zero_le _) (Finset.mem_univ user)) (sound.supply pid pool found)

/-- The arithmetic of rewards fits its words when `delta` of an account is withdrawn. -/
structure RewardsFit (s : TribalChiefState) (pool : PoolInfo) (account : UserInfo)
    (delta : Nat) : Prop where
  update : UpdateFits s pool
  product : delta * (accrued s pool).accTribePerShare < 2 ^ 256
  debt : -2 ^ 255 ≤ account.rewardDebt - (accrued s pool).granted delta ∧
    account.rewardDebt - (accrued s pool).granted delta < 2 ^ 255

/-- What fits a word fits a signed one after the division. -/
theorem div_precision_lt {n : Nat} (fits : n < 2 ^ 256) : n / ACC_TRIBE_PRECISION < 2 ^ 255 := by
  rw [Nat.div_lt_iff_lt_mul (by decide)]
  refine Nat.lt_of_lt_of_le fits ?_
  rw [show (2 : Nat) ^ 256 = 2 ^ 255 * 2 from rfl]
  exact Nat.mul_le_mul_left _ (by decide)

theorem mul_partial_lt {amount : Nat} (enough : amount ≤ d.amount)
    (fits : d.amount * d.multiplier < 2 ^ 256) : amount * d.multiplier < 2 ^ 256 :=
  Nat.lt_of_le_of_lt (Nat.mul_le_mul_right _ enough) fits

/-- **A released deposit can be withdrawn, in whole or in part.** -/
theorem withdrawFromDeposit_succeeds (sound : Sound env s) (idle : s._status ≠ _ENTERED)
    (found : s.poolInfo[pid]? = some pool) (staking : s.stakedToken[pid]? = some token)
    (other : token ≠ s.TRIBE) (here : (s.depositInfo pid user)[index]? = some d)
    (released : d.Released s.blockNumber pool.unlocked) (enough : amount ≤ d.amount)
    (fits : RewardsFit s pool (s.userInfo pid user) (amount * d.multiplier / SCALE_FACTOR))
    (dst : Address) : ∃ s', withdrawFromDeposit env s user pid amount dst index = .ok s' ∧
      s.ledger.safeTransfer env.this token dst amount = .ok s'.ledger := by
  have covered := sound.covered pid user pool found
  have inside : index < (s.depositInfo pid user).length := (List.getElem?_eq_some_iff.mp here).1
  have mem := List.mem_of_getElem? here
  have part := virtualAmount_partial enough
  have counted : d.virtualAmount ≤ virtualPrincipal (s.depositInfo pid user) :=
    List.le_sum_of_mem (List.mem_map_of_mem mem)
  have virtual := covered.virtual
  have supply := sound.virtualAmount_le found user
  have held : d.amount ≤ principal (s.depositInfo pid user) :=
    List.le_sum_of_mem (List.mem_map_of_mem mem)
  have balance := Nat.le_trans enough (Nat.le_trans held (sound.principal_le staking other user))
  obtain ⟨ledger, paid⟩ := Ledger.safeTransfer_succeeds balance dst
  have update := updatePool_succeeds (s := withStatus s _ENTERED) found
    ⟨fits.update.block, fits.update.emitted, fits.update.weighted, fits.update.scaled,
      fits.update.share⟩
  have flag := accrued_unlocked s pool
  have stored : (updated (withStatus s _ENTERED) pid pool).poolInfo[pid]? =
      some (accrued s pool) := by
    have bound := (List.getElem?_eq_some_iff.mp found).1
    exact List.getElem?_set_self bound
  simp only [entryAt] at virtual
  rw [withdrawFromDeposit]
  simp only [nonReentrant_inversion, _withdrawFromDeposit, bind_eq_ok_iff, pure_eq_ok_iff,
    require_eq_ok_iff, exists_const, element_eq_ok_iff, checkedSub_eq_ok_iff,
    checkedMul_eq_ok_iff, toInt256_eq_ok_iff, checkedIntSub_eq_ok_iff]
  refine ⟨_, ⟨idle, _, ⟨inside, _, update, _, stored, _, here, ?_, _,
    ⟨mul_partial_lt enough (covered.fits d mem), rfl⟩, _, ⟨enough, rfl⟩, _, ⟨fits.product, rfl⟩,
    _, ⟨div_precision_lt fits.product, rfl⟩, _, ⟨fits.debt, rfl⟩, _, ⟨?_, rfl⟩, _, ⟨?_, rfl⟩, _,
    staking, _, paid, rfl⟩, rfl⟩, paid⟩
  · rw [flag]
    exact released
  · change amount * d.multiplier / SCALE_FACTOR ≤ (s.userInfo pid user).virtualAmount
    omega
  · rw [accrued_virtualTotalSupply]
    omega

/-- No rewarder reverts. -/
def QuietRewarders (env : TribalChiefEnv) : Prop :=
  ∀ s rewarder pid user recipient amount newLpAmount,
    env.onSushiReward s rewarder pid user recipient amount newLpAmount = .ok ()

theorem callRewarder_succeeds (quiet : QuietRewarders env) (inside : pid < s.rewarder.length)
    (user recipient : Address) (amount newLpAmount : Nat) :
    callRewarder env s pid user recipient amount newLpAmount = .ok () := by
  simp only [callRewarder, bind_eq_ok_iff, element_eq_ok_iff]
  refine ⟨_, List.getElem?_eq_getElem inside, ?_⟩
  split
  · exact quiet _ _ _ _ _ _ _
  · rfl

/-- **When all deposits of a user are released, an emergency withdrawal returns all of them.** -/
theorem emergencyWithdraw_succeeds (sound : Sound env s) (idle : s._status ≠ _ENTERED)
    (quiet : QuietRewarders env) (found : s.poolInfo[pid]? = some pool)
    (staking : s.stakedToken[pid]? = some token) (other : token ≠ s.TRIBE)
    (released : ∀ d ∈ s.depositInfo pid user, d.Released s.blockNumber pool.unlocked)
    (fits : UpdateFits s pool) (balance : s.ledger.balanceOf token env.this < 2 ^ 256)
    (dst : Address) : ∃ s', emergencyWithdraw env s user pid dst = .ok s' ∧
      s.ledger.safeTransfer env.this token dst (principal (s.depositInfo pid user)) =
        .ok s'.ledger := by
  have covered := sound.covered pid user pool found
  have bound := (List.getElem?_eq_some_iff.mp found).1
  have held := sound.principal_le staking other user
  have supply := Nat.le_trans covered.virtual (sound.virtualAmount_le found user)
  obtain ⟨ledger, paid⟩ := Ledger.safeTransfer_succeeds held dst
  have update := updatePool_succeeds (s := withStatus s _ENTERED) found
    ⟨fits.block, fits.emitted, fits.weighted, fits.scaled, fits.share⟩
  have flag := accrued_unlocked s pool
  have stored : (updated (withStatus s _ENTERED) pid pool).poolInfo[pid]? =
      some (accrued s pool) := List.getElem?_set_self bound
  have gathered := gather_succeeds released covered.fits (0, 0)
    (by rw [Nat.zero_add]; exact Nat.lt_of_le_of_lt held balance)
    (by rw [Nat.zero_add]; exact Nat.lt_of_le_of_lt supply (sound.supply_lt pid pool found))
  rw [Nat.zero_add, Nat.zero_add] at gathered
  have rewards : pid < s.rewarder.length := by rwa [sound.rewarders]
  rw [emergencyWithdraw]
  simp only [nonReentrant_inversion, _emergencyWithdraw, bind_eq_ok_iff, pure_eq_ok_iff,
    element_eq_ok_iff, checkedSub_eq_ok_iff]
  refine ⟨_, ⟨idle, _, ⟨_, update, _, stored,
    (principal (s.depositInfo pid user), virtualPrincipal (s.depositInfo pid user)), ?_, _,
    ⟨?_, rfl⟩, (), ?_, _, staking, _, paid, rfl⟩, rfl⟩, paid⟩
  · rw [flag]
    exact gathered
  · rw [accrued_virtualTotalSupply]
    exact supply
  · refine callRewarder_succeeds quiet ?_ _ _ _ _
    exact rewards

end Retrieve

/-! ## The result -/

theorem Transaction.idle {a : Action} (transaction : Transaction env s a s')
    (idle : s._status ≠ _ENTERED) : s'._status ≠ _ENTERED := by
  have left : _NOT_ENTERED ≠ _ENTERED := by decide
  cases transaction with
  | deposit found acts => exact left
  | withdrawAll found harvests acts => exact left
  | withdraw found acts => exact left
  | harvest found acts => exact left
  | emergency found acts => exact left
  | other kind phases status =>
      rw [status]
      exact idle

theorem sound_initialized {TRIBE : Address} {ledger : Ledger} {blockNumber : Nat}
    (none : ledger.Unapproved env.this) :
    Sound env (initialized env TRIBE ledger blockNumber) where
  tokens := rfl
  rewarders := rfl
  absent _ _ _ := rfl
  idle _ _ _ := rfl
  covered _ _ _ found := nomatch found
  supply _ _ found := nomatch found
  supply_lt _ _ found := nomatch found
  unapproved := none
  backed _ _ := Nat.zero_le _

theorem run_sound {TRIBE : Address} {ledger : Ledger} {blockNumber : Nat}
    (none : ledger.Unapproved env.this) {history : List Action}
    (external : ∀ a ∈ history, a.External env) :
    Sound env (run (step env) (initialized env TRIBE ledger blockNumber) history) ∧
      (run (step env) (initialized env TRIBE ledger blockNumber) history)._status ≠ _ENTERED := by
  apply run_invariant (I := fun s => Sound env s ∧ s._status ≠ _ENTERED)
    (A := fun a => a.External env)
  · intro s a s' ⟨sound, idle⟩ external succeeds
    have transaction := transaction_of_step external succeeds
    exact ⟨transaction.keeps Phase.sound Acts.sound sound, transaction.idle idle⟩
  · have fresh : (0 : Nat) ≠ _ENTERED := by decide
    exact ⟨sound_initialized none, fresh⟩
  · exact external

/-- **Principal.** In every state that the contract can reach, each token other than TRIBE is
held to the sum of its live deposits, virtual amounts cover deposits and the virtual supply
covers virtual amounts, no transaction touches a deposit whose lock has not ended while its pool
is locked, and every part of a released deposit can be withdrawn. -/
theorem principal_retrievable {TRIBE : Address} {ledger : Ledger} {blockNumber : Nat}
    (none : ledger.Unapproved env.this) {history : List Action}
    (external : ∀ a ∈ history, a.External env)
    (reached : s = run (step env) (initialized env TRIBE ledger blockNumber) history) :
    (∀ token, token ≠ s.TRIBE → staked s token ≤ s.ledger.balanceOf token env.this) ∧
    (∀ (pid : Nat) (pool : PoolInfo), s.poolInfo[pid]? = some pool →
      ∑ user, (s.userInfo pid user).virtualAmount ≤ pool.virtualTotalSupply ∧
      ∀ user, virtualPrincipal (s.depositInfo pid user) ≤ (s.userInfo pid user).virtualAmount) ∧
    (∀ a s', a.External env → step env s a = .ok s' →
      ∀ (pid : Nat) (pool : PoolInfo) (user : Address) (index : Nat) (d : DepositInfo),
      s.poolInfo[pid]? = some pool → (s.depositInfo pid user)[index]? = some d →
      s.blockNumber < d.unlockBlock → pool.unlocked = false →
      (s'.depositInfo pid user)[index]? = some d) ∧
    ∀ (pid : Nat) (pool : PoolInfo) (token user : Address), s.poolInfo[pid]? = some pool →
      s.stakedToken[pid]? = some token → token ≠ s.TRIBE →
      (∀ (index : Nat) (d : DepositInfo) (amount : Nat), (s.depositInfo pid user)[index]? = some d →
        d.Released s.blockNumber pool.unlocked → amount ≤ d.amount →
        RewardsFit s pool (s.userInfo pid user) (amount * d.multiplier / SCALE_FACTOR) →
        ∀ dst, ∃ s', withdrawFromDeposit env s user pid amount dst index = .ok s' ∧
          s.ledger.safeTransfer env.this token dst amount = .ok s'.ledger) ∧
      (QuietRewarders env → (∀ d ∈ s.depositInfo pid user,
          d.Released s.blockNumber pool.unlocked) → UpdateFits s pool →
        s.ledger.balanceOf token env.this < 2 ^ 256 →
        ∀ dst, ∃ s', emergencyWithdraw env s user pid dst = .ok s' ∧
          s.ledger.safeTransfer env.this token dst (principal (s.depositInfo pid user)) =
            .ok s'.ledger) := by
  obtain ⟨sound, idle⟩ : Sound env s ∧ s._status ≠ _ENTERED := by
    rw [reached]
    exact run_sound none external
  refine ⟨sound.backed, ?_, ?_, ?_⟩
  · intro pid pool found
    exact ⟨sound.supply pid pool found, fun user => (sound.covered pid user pool found).virtual⟩
  · intro a s' external succeeds pid pool user index d found here early shut
    refine (transaction_of_step external succeeds).locked ⟨here, fun pool' found' => ?_⟩
    cases found.symm.trans found'
    intro given
    rcases given with late | opened
    · exact Nat.not_le.mpr early late
    · rw [shut] at opened
      cases opened
  · intro pid pool token user found staking other
    constructor
    · intro index d amount here released enough fits dst
      exact withdrawFromDeposit_succeeds sound idle found staking other here released enough
        fits dst
    · intro quiet released fits balance dst
      exact emergencyWithdraw_succeeds sound idle quiet found staking other released fits
        balance dst

end TribalChief

namespace TribalChief.Sample

/-- Account 5 stakes 100 for no time and 301 for 50 blocks, and takes 40 out again. -/
def stakes : List Action :=
  [addPool, .deposit 5 0 100 0, .deposit 5 0 301 50, .mine 10, .withdrawFromDeposit 5 0 40 5 0]

def staked : TribalChiefState := run (step env) start stakes

theorem stakes_external : ∀ a ∈ stakes, a.External env := by
  simp [stakes, addPool, Action.External]

/-- The pool, ten blocks of rewards later. -/
def pool : PoolInfo := ⟨511, 136116152450090744101633393829401088929219, 110, 100, false⟩

end TribalChief.Sample

namespace TribalChief

/-- The rest of the first deposit can be withdrawn, while the second stays. -/
theorem principal_retrievable_sample :
    (∃ s', withdrawFromDeposit Sample.env Sample.staked 5 0 60 5 0 = .ok s') ∧
    ∃ s', step Sample.env Sample.staked (.withdrawAllAndHarvest 5 0 5) = .ok s' ∧
      (s'.depositInfo 0 5)[1]? = some ⟨301, 150, 15000⟩ := by
  obtain ⟨_, _, locked, retrieves⟩ := principal_retrievable Sample.unapproved
    Sample.stakes_external (s := Sample.staked) rfl
  have found : Sample.staked.poolInfo[0]? = some Sample.pool := by decide +kernel
  constructor
  · have fits : RewardsFit Sample.staked Sample.pool (Sample.staked.userInfo 0 5)
        (60 * 10000 / SCALE_FACTOR) :=
      ⟨⟨by decide +kernel, by decide +kernel, by decide +kernel, by decide +kernel,
        by decide +kernel⟩, by decide +kernel, by decide +kernel⟩
    obtain ⟨withdraw, _⟩ := retrieves 0 Sample.pool 30 5 found (by decide +kernel) (by decide)
    obtain ⟨s', succeeds, _⟩ := withdraw 0 ⟨60, 100, 10000⟩ 60 (by decide +kernel)
      (by decide +kernel) (Nat.le_refl _) fits 5
    exact ⟨s', succeeds⟩
  · obtain ⟨s', succeeds⟩ := exists_ok_of_isOk
      (x := step Sample.env Sample.staked (.withdrawAllAndHarvest 5 0 5)) (by decide +kernel)
    refine ⟨s', succeeds, ?_⟩
    exact locked (.withdrawAllAndHarvest 5 0 5) s' trivial succeeds 0 Sample.pool 5 1 _ found
      (by decide +kernel) (by decide +kernel) rfl

end TribalChief

end FeiProtocol
