import FeiProtocol.Staking.TribalChiefPrincipal

/-!
# The virtual supply of pools in `TribalChief`

A partial withdrawal takes the rounded virtual amount of its part off the account and off the
pool, and the part that stays is rounded again when it is withdrawn. What the account counts
beyond its deposits is its `residue`. A withdrawal of all deposits deletes the account with its
residue, but takes only the deposits off the pool.

* `Acts.balanced_iff`: what becomes of the virtual supply in one operation.
* `virtualTotalSupply_iff`: along a run the virtual supply of every pool is what its users have,
  and zero when nothing is staked, exactly if no account is closed with a residue and no pool is
  emptied of principal with one.
* `virtualTotalSupply_stuck`: otherwise rewards accrue to nobody.
-/

namespace FeiProtocol

open Evm

namespace TribalChief

open CoreRef ReentrancyGuard

variable {env : TribalChiefEnv} {s s' t : TribalChiefState} {pid : Nat} {user : Address}
  {mv : Move} {e e' : Entry} {b : Nat} {pool : PoolInfo}

/-- What an entry counts beyond its deposits. -/
def Entry.residue (e : Entry) : Nat :=
  e.account.virtualAmount - virtualPrincipal e.deposits

/-- What an account counts beyond its deposits. -/
def residue (s : TribalChiefState) (pid : Nat) (user : Address) : Nat :=
  (s.userInfo pid user).virtualAmount - virtualPrincipal (s.depositInfo pid user)

/-- The virtual supply of every pool is what its users have, and zero when none of them has
anything in it. -/
structure Balanced (s : TribalChiefState) : Prop where
  supply : ∀ (pid : Nat) (pool : PoolInfo), s.poolInfo[pid]? = some pool →
    pool.virtualTotalSupply = ∑ user, (s.userInfo pid user).virtualAmount
  emptied : ∀ (pid : Nat) (pool : PoolInfo), s.poolInfo[pid]? = some pool →
    (∀ user, principal (s.depositInfo pid user) = 0) → pool.virtualTotalSupply = 0

/-! ## One entry -/

/-- What an operation deletes without taking it off the pool. -/
def Move.forgets (e : Entry) : Move → Nat
  | .close => e.residue
  | _ => 0

/-- The principal that an operation takes out of an entry. -/
def Move.takes (b : Nat) (e : Entry) : Move → Nat
  | .withdraw amount _ => amount
  | .sweep => principal (e.deposits.filter fun d => d.Released b e.pool.unlocked)
  | .close => principal e.deposits
  | _ => 0

theorem Moves.forgets (moves : Moves b mv e e') (covered : e.Covered) :
    e'.pool.virtualTotalSupply + e.account.virtualAmount =
      e.pool.virtualTotalSupply + e'.account.virtualAmount + mv.forgets e := by
  have before := covered.virtual
  cases moves with
  | deposit fits counts room =>
      simp only [Move.forgets]
      omega
  | withdraw found released enough counts virtual supply =>
      simp only [Move.forgets]
      omega
  | harvest solvent => rfl
  | sweep waiting counts virtual supply =>
      simp only [Move.forgets]
      omega
  | close released supply =>
      simp only [Move.forgets, Entry.residue]
      omega

theorem Moves.takes (moves : Moves b mv e e') :
    principal e'.deposits + mv.takes b e = principal e.deposits + mv.paidIn := by
  cases moves with
  | deposit fits counts room =>
      rw [principal_append]
      rfl
  | @withdraw _ d amount index _ found released enough counts virtual supply =>
      have change := sum_map_set (f := DepositInfo.amount) found
        { d with amount := d.amount - amount }
      simp only [principal, Move.paidIn, Move.takes] at change ⊢
      omega
  | harvest solvent => rfl
  | sweep waiting counts virtual supply => exact principal_cleared e.deposits
  | close released supply => exact Nat.zero_add _

theorem amount_of_principal {ds : List DepositInfo} {d : DepositInfo} (none : principal ds = 0)
    (mem : d ∈ ds) : d.amount = 0 :=
  Nat.eq_zero_of_le_zero (none ▸ List.single_le_sum (fun _ _ => Nat.zero_le _) d.amount
    (List.mem_map_of_mem mem))

theorem virtualPrincipal_of_principal {ds : List DepositInfo} (none : principal ds = 0) :
    virtualPrincipal ds = 0 := by
  refine List.sum_eq_zero fun n mem => ?_
  obtain ⟨d, here, value⟩ := List.mem_map.mp mem
  rw [← value, DepositInfo.virtualAmount, amount_of_principal none here, Nat.zero_mul,
    Nat.zero_div]

/-- An operation that leaves no principal keeps the residue, unless it closes the account. -/
theorem Moves.residue (moves : Moves b mv e e') (emptied : principal e'.deposits = 0)
    (stays : mv ≠ .close) : e'.residue = e.residue := by
  unfold Entry.residue
  rw [virtualPrincipal_of_principal emptied]
  cases moves with
  | @deposit _ amount multiplier unlockBlock delta fits counts room =>
      simp only [principal_append, principal_cons, principal_nil] at emptied
      have none : principal e.deposits = 0 := by omega
      have nothing : amount = 0 := by omega
      subst nothing
      rw [Nat.zero_mul, Nat.zero_div] at counts
      subst counts
      rw [virtualPrincipal_of_principal none]
      rfl
  | @withdraw _ d amount index _ found released enough counts virtual supply =>
      subst counts
      have change := sum_map_set (f := DepositInfo.virtualAmount) found
        { d with amount := d.amount - amount }
      have whole := virtualPrincipal_of_principal emptied
      have least : d.amount - amount = 0 := amount_of_principal emptied
        (List.mem_of_getElem? (List.getElem?_set_self (List.getElem?_eq_some_iff.mp found).1))
      have all : amount = d.amount := by omega
      have left : DepositInfo.virtualAmount { d with amount := d.amount - amount } = 0 := by
        rw [DepositInfo.virtualAmount, least, Nat.zero_mul, Nat.zero_div]
      have value : amount * d.multiplier / SCALE_FACTOR = d.virtualAmount := by
        rw [all, DepositInfo.virtualAmount]
      simp only [virtualPrincipal] at change whole ⊢
      omega
  | harvest solvent => rw [virtualPrincipal_of_principal emptied]
  | sweep waiting counts virtual supply =>
      subst counts
      have parts := virtualPrincipal_cleared (u := e.pool.unlocked) (b := b) e.deposits
      rw [virtualPrincipal_of_principal emptied] at parts
      simp only
      omega
  | close released supply => exact absurd rfl stays

/-! ## All entries -/

theorem poolPrincipal_eq_zero_iff : poolPrincipal s pid = 0 ↔
    ∀ user, principal (s.depositInfo pid user) = 0 := by
  simp only [poolPrincipal, Finset.sum_eq_zero_iff, Finset.mem_univ, true_imp_iff]

/-- Where nothing is staked, what is left of the virtual amounts is residues. -/
theorem emptied_iff
    (supply : pool.virtualTotalSupply = ∑ user, (s.userInfo pid user).virtualAmount) :
    ((∀ user, principal (s.depositInfo pid user) = 0) → pool.virtualTotalSupply = 0) ↔
      (poolPrincipal s pid = 0 → ∀ user, residue s pid user = 0) := by
  rw [poolPrincipal_eq_zero_iff, supply, Finset.sum_eq_zero_iff]
  have value : (∀ user, principal (s.depositInfo pid user) = 0) → ∀ user,
      residue s pid user = (s.userInfo pid user).virtualAmount := by
    intro none user
    rw [residue, virtualPrincipal_of_principal (none user), Nat.sub_zero]
  constructor
  · intro emptied none user
    rw [value none user]
    exact emptied none user (Finset.mem_univ user)
  · intro emptied none user _
    rw [← value none user]
    exact emptied none user

/-- The residues in a pool that is emptied, without closing an account with one. -/
theorem residue_book {b : Nat} {e' : Entry} (moves : Moves b mv (entryAt s pid user pool) e')
    (nothing : mv.forgets (entryAt s pid user pool) = 0)
    (none : poolPrincipal (book s pid user e') pid = 0) (u : Address) :
    residue (book s pid user e') pid u = residue s pid u := by
  by_cases self : u = user
  · subst self
    have emptied : principal e'.deposits = 0 := by
      have all := poolPrincipal_eq_zero_iff.mp none u
      simp only [book, update₂_self] at all
      exact all
    simp only [residue, book, update₂_self]
    by_cases closes : mv = .close
    · subst closes
      have gone : (entryAt s pid u pool).residue = 0 := nothing
      have final : e'.account.virtualAmount = 0 := by
        cases moves with
        | close released supply => rfl
      rw [final, Nat.zero_sub]
      exact gone.symm
    · exact moves.residue emptied closes
  · simp only [residue, book]
    rw [update₂_of_ne _ _ fun h => self h.2, update₂_of_ne _ _ fun h => self h.2]

/-- **What becomes of the virtual supply in one operation.** -/
theorem Acts.balanced_iff (sound : Sound env s) (balanced : Balanced s)
    (found : s.poolInfo[pid]? = some pool) (acts : Acts env pid user mv s s') :
    Balanced s' ↔ mv.forgets (entryAt s pid user pool) = 0 ∧
      (poolPrincipal s pid + mv.paidIn = mv.takes s.blockNumber (entryAt s pid user pool) →
        ∀ u, residue s pid u = 0) := by
  obtain @⟨pool', e', ledger, event, found', moves, settles, logs⟩ := acts
  cases found.symm.trans found'
  have covered := sound.covered pid user pool found
  have inside : pid < s.poolInfo.length := (List.getElem?_eq_some_iff.mp found).1
  have here : (book s pid user e').poolInfo[pid]? = some e'.pool := List.getElem?_set_self inside
  have counts := Tables.sum_update₂ UserInfo.virtualAmount s.userInfo pid user e'.account
  have stakes := Tables.sum_update₂ principal s.depositInfo pid user e'.deposits
  have forgets := moves.forgets covered
  have takes := moves.takes
  have before := balanced.supply pid pool found
  have gap : e'.pool.virtualTotalSupply =
      ∑ u, ((book s pid user e').userInfo pid u).virtualAmount +
        mv.forgets (entryAt s pid user pool) := by
    simp only [entryAt, book] at forgets counts ⊢
    omega
  have drained : poolPrincipal (book s pid user e') pid = 0 ↔ poolPrincipal s pid + mv.paidIn =
      mv.takes s.blockNumber (entryAt s pid user pool) := by
    simp only [entryAt, book, poolPrincipal] at takes stakes ⊢
    omega
  have residues := residue_book moves
  constructor
  · intro after
    have nothing : mv.forgets (entryAt s pid user pool) = 0 := by
      have exact : e'.pool.virtualTotalSupply =
        ∑ u, ((book s pid user e').userInfo pid u).virtualAmount := after.supply pid e'.pool here
      omega
    refine ⟨nothing, fun all u => ?_⟩
    have none := drained.mpr all
    have emptied := (emptied_iff (s := book s pid user e') (after.supply pid e'.pool here)).mp
      (after.emptied pid e'.pool here) none u
    rw [← residues nothing none u]
    exact emptied
  · intro given
    rcases given with ⟨nothing, emptied⟩
    rw [nothing, Nat.add_zero] at gap
    constructor
    · intro i pool' found'
      rcases getElem?_set_cases found' with ⟨same, value⟩ | ⟨other, old⟩
      · subst same
        subst value
        exact gap
      · refine (balanced.supply i pool' old).trans (Eq.symm ?_)
        exact Tables.sum_update₂_of_ne UserInfo.virtualAmount s.userInfo user e'.account other
    · intro i pool' found'
      rcases getElem?_set_cases found' with ⟨same, value⟩ | ⟨other, old⟩
      · subst same
        subst value
        refine (emptied_iff (s := book s i user e') gap).mpr fun none u => ?_
        rw [residues nothing none u]
        exact emptied (drained.mp none) u
      · intro none
        refine balanced.emptied i pool' old fun u => ?_
        have none := none u
        simp only [logged, book] at none
        rw [update₂_of_ne _ _ fun h => other h.1] at none
        exact none

/-- The virtual supplies and the accounts of `t` are those of `s`. -/
structure Alike (s t : TribalChiefState) : Prop where
  deposits : t.depositInfo = s.depositInfo
  counts : ∀ pid user, (t.userInfo pid user).virtualAmount = (s.userInfo pid user).virtualAmount
  supplies : ∀ pid : Nat, (t.poolInfo[pid]?).map PoolInfo.virtualTotalSupply =
    (s.poolInfo[pid]?).map PoolInfo.virtualTotalSupply

theorem Alike.symm (alike : Alike s t) : Alike t s :=
  ⟨alike.deposits.symm, fun pid user => (alike.counts pid user).symm,
    fun pid => (alike.supplies pid).symm⟩

theorem Alike.trans {u : TribalChiefState} (first : Alike s t) (second : Alike t u) : Alike s u :=
  ⟨second.deposits.trans first.deposits,
    fun pid user => (second.counts pid user).trans (first.counts pid user),
    fun pid => (second.supplies pid).trans (first.supplies pid)⟩

theorem Alike.residue (alike : Alike s t) : residue t = residue s := by
  funext pid user
  simp only [TribalChief.residue, alike.counts, alike.deposits]

theorem Alike.poolPrincipal (alike : Alike s t) : poolPrincipal t = poolPrincipal s := by
  funext pid
  simp only [TribalChief.poolPrincipal, alike.deposits]

theorem Alike.balanced (alike : Alike s t) (balanced : Balanced s) : Balanced t := by
  have held : ∀ {i : Nat} {p' : PoolInfo}, t.poolInfo[i]? = some p' →
      ∃ p, s.poolInfo[i]? = some p ∧ p.virtualTotalSupply = p'.virtualTotalSupply := by
    intro i p' here
    have same := alike.supplies i
    rw [here, Option.map_some] at same
    exact Option.map_eq_some_iff.mp same.symm
  constructor
  · intro i p' here
    obtain ⟨p, old, same⟩ := held here
    rw [← same, balanced.supply i p old]
    exact Finset.sum_congr rfl fun user _ => (alike.counts i user).symm
  · intro i p' here none
    obtain ⟨p, old, same⟩ := held here
    rw [alike.deposits] at none
    rw [← same]
    exact balanced.emptied i p old none

theorem alike_replacePool {pool' : PoolInfo} (found : s.poolInfo[pid]? = some pool)
    (supply : pool'.virtualTotalSupply = pool.virtualTotalSupply) (i : Nat) :
    ((s.poolInfo.set pid pool')[i]?).map PoolInfo.virtualTotalSupply =
      (s.poolInfo[i]?).map PoolInfo.virtualTotalSupply := by
  rw [← List.getElem?_map, map_set_of_getElem? found supply, List.getElem?_map]

/-- Everything but the user operations keeps the balance. -/
theorem Phase.balanced (both : Sound env s ∧ Balanced s) (phase : Phase env s s') :
    Sound env s' ∧ Balanced s' := by
  obtain ⟨sound, balanced⟩ := both
  refine ⟨phase.sound sound, ?_⟩
  cases phase with
  | rest same => exact ⟨balanced.supply, balanced.emptied⟩
  | tokens guarded => exact ⟨balanced.supply, balanced.emptied⟩
  | @update pid pool found =>
      exact Alike.balanced (s := s) ⟨rfl, fun _ _ => rfl,
        alike_replacePool found (accrued_virtualTotalSupply s pool)⟩ balanced
  | weigh found total =>
      exact Alike.balanced (s := s) ⟨rfl, fun _ _ => rfl, alike_replacePool found rfl⟩ balanced
  | add allocPoint stakedToken rewarder =>
      constructor
      · intro i pool here
        rcases getElem?_push_cases here with ⟨last, value⟩ | old
        · subst value
          refine (Finset.sum_eq_zero fun u _ => ?_).symm
          rw [sound.idle i u (Nat.le_of_eq last.symm)]
        · exact balanced.supply i pool old
      · intro i pool here none
        rcases getElem?_push_cases here with ⟨_, value⟩ | old
        · rw [value]
        · exact balanced.emptied i pool old none
  | rate => exact ⟨balanced.supply, balanced.emptied⟩
  | mine => exact ⟨balanced.supply, balanced.emptied⟩

/-! ## Transactions -/

def unlockedAt (s : TribalChiefState) (pid : Nat) : Bool :=
  (s.poolInfo[pid]?).elim false PoolInfo.unlocked

/-- The account that a withdrawal is made from, and the principal that it takes out. -/
def Action.withdraws (s : TribalChiefState) : Action → Option (Nat × Address × Nat)
  | .withdrawAllAndHarvest user pid _ => some (pid.toNat, user,
      principal ((s.depositInfo pid.toNat user).filter fun d =>
        d.Released s.blockNumber (unlockedAt s pid.toNat)))
  | .withdrawFromDeposit user pid amount _ _ => some (pid.toNat, user, amount.toNat)
  | .emergencyWithdraw user pid _ =>
      some (pid.toNat, user, principal (s.depositInfo pid.toNat user))
  | _ => none

/-- The withdrawal takes all deposits there are. -/
def Action.Closes (s : TribalChiefState) : Action → Prop
  | .withdrawAllAndHarvest user pid _ => ∀ d ∈ s.depositInfo pid.toNat user,
      d.Released s.blockNumber (unlockedAt s pid.toNat)
  | .emergencyWithdraw _ _ _ => True
  | _ => False

/-- An account that is closed has no residue, and no account has one in a pool from which the
last principal is taken. -/
def Action.Exact (s : TribalChiefState) (a : Action) : Prop :=
  ∀ pid user amount, a.withdraws s = some (pid, user, amount) →
    (a.Closes s → residue s pid user = 0) ∧
    (poolPrincipal s pid = amount → ∀ u, residue s pid u = 0)

theorem alike_opened (found : s.poolInfo[pid]? = some pool) : Alike s (opened s pid pool) :=
  ⟨rfl, fun _ _ => rfl, alike_replacePool found (accrued_virtualTotalSupply s pool)⟩

theorem alike_closed (s : TribalChiefState) : Alike s (closed s) :=
  ⟨rfl, fun _ _ => rfl, fun _ => rfl⟩

theorem found_opened (found : s.poolInfo[pid]? = some pool) :
    (opened s pid pool).poolInfo[pid]? = some (accrued s pool) :=
  List.getElem?_set_self (List.getElem?_eq_some_iff.mp found).1

theorem unlockedAt_eq (found : s.poolInfo[pid]? = some pool) :
    (accrued s pool).unlocked = unlockedAt s pid := by
  rw [unlockedAt, found, Option.elim_some, accrued]
  split <;> rfl

theorem Balanced.residue (balanced : Balanced s) (found : s.poolInfo[pid]? = some pool)
    (none : poolPrincipal s pid = 0) (user : Address) : residue s pid user = 0 :=
  (emptied_iff (balanced.supply pid pool found)).mp (balanced.emptied pid pool found) none user

/-- A harvest changes neither pools nor deposits nor virtual amounts. -/
theorem Acts.alike_harvest (acts : Acts env pid user .harvest s s') :
    Alike s s' ∧ s'.poolInfo = s.poolInfo ∧ s'.blockNumber = s.blockNumber := by
  obtain @⟨pool, e', ledger, event, found, moves, settles, logs⟩ := acts
  cases moves with
  | harvest solvent =>
      refine ⟨⟨?_, fun i u => ?_, alike_replacePool found rfl⟩, set_of_getElem? found, rfl⟩
      · simp only [logged, book, entryAt, update₂_eq_self]
      · simp only [logged, book, entryAt, update₂_apply]
        split
        · rename_i same
          rw [same.1, same.2]
        · rfl

theorem Acts.waiting (found : s.poolInfo[pid]? = some pool)
    (acts : Acts env pid user .sweep s s') :
    ∃ d ∈ s.depositInfo pid user, ¬ d.Released s.blockNumber pool.unlocked := by
  obtain @⟨pool, e', ledger, event, found', moves, settles, logs⟩ := acts
  cases found.symm.trans found'
  cases moves with
  | sweep waiting counts virtual supply => exact waiting

theorem Acts.released (found : s.poolInfo[pid]? = some pool)
    (acts : Acts env pid user .close s s') :
    ∀ d ∈ s.depositInfo pid user, d.Released s.blockNumber pool.unlocked := by
  obtain @⟨pool, e', ledger, event, found', moves, settles, logs⟩ := acts
  cases found.symm.trans found'
  cases moves with
  | close released supply => exact released

/-- A guarded operation on state `t`, which is like the state `s` before the transaction. -/
theorem balanced_closed_iff (sound : Sound env t) (balanced : Balanced s) (alike : Alike s t)
    (found : t.poolInfo[pid]? = some pool) (acts : Acts env pid user mv t s') :
    Balanced (closed s') ↔ mv.forgets (entryAt t pid user pool) = 0 ∧
      (poolPrincipal s pid + mv.paidIn = mv.takes t.blockNumber (entryAt t pid user pool) →
        ∀ u, residue s pid u = 0) := by
  have exact := acts.balanced_iff sound (alike.balanced balanced) found
  rw [alike.residue, alike.poolPrincipal] at exact
  exact ⟨fun after => exact.mp ((alike_closed s').symm.balanced after),
    fun condition => (alike_closed s').balanced (exact.mpr condition)⟩

theorem balanced_closed_iff_of_free (sound : Sound env t) (balanced : Balanced s)
    (alike : Alike s t) (found : t.poolInfo[pid]? = some pool)
    (acts : Acts env pid user mv t s') (free : mv.paidIn = 0) :
    Balanced (closed s') ↔ mv.forgets (entryAt t pid user pool) = 0 ∧
      (poolPrincipal s pid = mv.takes t.blockNumber (entryAt t pid user pool) →
        ∀ u, residue s pid u = 0) := by
  have exact := balanced_closed_iff sound balanced alike found acts
  rw [free, Nat.add_zero] at exact
  exact exact

theorem exact_of_none {a : Action} (none : a.withdraws s = none) : a.Exact s := by
  intro pid user amount some
  rw [none] at some
  cases some

theorem exact_iff {a : Action} {amount : Nat}
    (withdraws : a.withdraws s = some (pid, user, amount)) :
    a.Exact s ↔ (a.Closes s → residue s pid user = 0) ∧
      (poolPrincipal s pid = amount → ∀ u, residue s pid u = 0) := by
  constructor
  · intro exact
    exact exact pid user amount withdraws
  · intro condition pid' user' amount' same
    cases withdraws.symm.trans same
    exact condition

section Withdrawals

variable {h m : TribalChiefState}

/-- The first half of `withdrawAllAndHarvest` has harvested; not all deposits are released. -/
theorem Acts.swept_iff (acts : Acts env pid user .sweep h m) (sound : Sound env h)
    (balanced : Balanced s) (alike : Alike s h) (block : h.blockNumber = s.blockNumber)
    (found : s.poolInfo[pid]? = some pool) (found' : h.poolInfo[pid]? = some (accrued s pool)) :
    (∃ d ∈ s.depositInfo pid user, ¬ d.Released s.blockNumber (unlockedAt s pid)) ∧
      (Balanced (closed m) ↔ (poolPrincipal s pid = principal ((s.depositInfo pid user).filter
        fun d => d.Released s.blockNumber (unlockedAt s pid)) → ∀ u, residue s pid u = 0)) := by
  have waiting := acts.waiting found'
  have exact := balanced_closed_iff_of_free sound balanced alike found' acts rfl
  have takes : Move.takes h.blockNumber (entryAt h pid user (accrued s pool)) .sweep =
      principal ((s.depositInfo pid user).filter fun d =>
        d.Released s.blockNumber (unlockedAt s pid)) := by
    change principal ((h.depositInfo pid user).filter fun d =>
      d.Released h.blockNumber (accrued s pool).unlocked) = _
    rw [alike.deposits, block, unlockedAt_eq found]
  rw [takes] at exact
  simp only [Move.forgets, true_and] at exact
  rw [alike.deposits, block, unlockedAt_eq found] at waiting
  exact ⟨waiting, exact⟩

/-- All deposits are released. -/
theorem Acts.closed_iff (acts : Acts env pid user .close h m) (sound : Sound env h)
    (balanced : Balanced s) (alike : Alike s h) (block : h.blockNumber = s.blockNumber)
    (found : s.poolInfo[pid]? = some pool) (found' : h.poolInfo[pid]? = some (accrued s pool)) :
    (∀ d ∈ s.depositInfo pid user, d.Released s.blockNumber (unlockedAt s pid)) ∧
      (Balanced (closed m) ↔ residue s pid user = 0 ∧
        (poolPrincipal s pid = principal (s.depositInfo pid user) → ∀ u, residue s pid u = 0)) := by
  have released := acts.released found'
  have exact := balanced_closed_iff_of_free sound balanced alike found' acts rfl
  simp only [Move.forgets, Move.takes] at exact
  have forgets : (entryAt h pid user (accrued s pool)).residue = residue s pid user := by
    rw [← alike.residue]
    rfl
  have takes : principal (entryAt h pid user (accrued s pool)).deposits =
      principal (s.depositInfo pid user) := by
    rw [← alike.deposits]
    rfl
  rw [forgets, takes] at exact
  rw [alike.deposits, block, unlockedAt_eq found] at released
  exact ⟨released, exact⟩

end Withdrawals

/-- **One transaction.** -/
theorem Transaction.balanced_iff {a : Action} (sound : Sound env s) (balanced : Balanced s)
    (transaction : Transaction env s a s') : Balanced s' ↔ a.Exact s := by
  have inside : ∀ {i : Nat} {p : PoolInfo}, s.poolInfo[i]? = some p →
      Sound env (opened s i p) := fun found =>
    keeps_of_chain (fun sound phase => phase.sound sound) sound (phases_opened found)
  cases transaction with
  | deposit found acts =>
      have exact := balanced_closed_iff (inside found) balanced (alike_opened found)
        (found_opened found) acts
      simp only [Move.forgets, Move.paidIn, Move.takes, true_and] at exact
      rw [exact]
      refine iff_of_true (fun all => ?_) (exact_of_none rfl)
      exact balanced.residue found (Nat.eq_zero_of_add_eq_zero_right all)
  | harvest found acts =>
      have exact := balanced_closed_iff_of_free (inside found) balanced (alike_opened found)
        (found_opened found) acts rfl
      simp only [Move.forgets, Move.takes, true_and] at exact
      rw [exact]
      exact iff_of_true (balanced.residue found) (exact_of_none rfl)
  | withdraw found acts =>
      have exact := balanced_closed_iff_of_free (inside found) balanced (alike_opened found)
        (found_opened found) acts rfl
      simp only [Move.forgets, Move.takes, true_and] at exact
      rw [exact, exact_iff rfl]
      exact (and_iff_right False.elim).symm
  | emergency found acts =>
      have exact := balanced_closed_iff_of_free (inside found) balanced (alike_opened found)
        (found_opened found) acts rfl
      simp only [Move.forgets, Move.takes] at exact
      rw [exact, exact_iff rfl]
      exact and_congr_left fun _ => ⟨fun nothing _ => nothing, fun condition => condition trivial⟩
  | @withdrawAll user pid dst pool h m found harvests acts =>
      obtain ⟨alike, pools, block⟩ := harvests.alike_harvest
      have sound' : Sound env h := harvests.sound (inside found)
      have alike' : Alike s h := (alike_opened found).trans alike
      have found' : h.poolInfo[pid.toNat]? = some (accrued s pool) := by
        rw [pools]
        exact found_opened found
      rw [exact_iff rfl]
      rcases acts with acts | acts
      · obtain ⟨⟨d, mem, locked⟩, exact⟩ := acts.swept_iff sound' balanced alike' block found found'
        rw [exact]
        exact (and_iff_right fun closes => absurd (closes d mem) locked).symm
      · obtain ⟨released, exact⟩ := acts.closed_iff sound' balanced alike' block found found'
        have whole : (s.depositInfo pid.toNat user).filter
            (fun d => d.Released s.blockNumber (unlockedAt s pid.toNat)) =
              s.depositInfo pid.toNat user :=
          List.filter_eq_self.mpr fun d mem => decide_eq_true (released d mem)
        rw [exact, whole]
        exact and_congr_left fun _ =>
          ⟨fun nothing _ => nothing, fun condition => condition released⟩
  | other kind phases status =>
      have kept := keeps_of_chain (I := fun t => Sound env t ∧ Balanced t)
        (fun both phase => phase.balanced both) ⟨sound, balanced⟩ phases
      refine iff_of_true kept.2 (exact_of_none ?_)
      cases a with
      | withdrawAllAndHarvest user pid dst => exact kind.elim
      | withdrawFromDeposit user pid amount dst index => exact kind.elim
      | emergencyWithdraw user pid dst => exact kind.elim
      | deposit user pid amount lockLength => rfl
      | harvest user pid dst => rfl
      | updatePool pid => rfl
      | massUpdatePools pids => rfl
      | admin user c => rfl
      | token actor c => rfl
      | mine blocks => rfl

theorem balanced_initialized {TRIBE : Address} {ledger : Ledger} {blockNumber : Nat} :
    Balanced (initialized env TRIBE ledger blockNumber) where
  supply _ _ found := nomatch found
  emptied _ _ found := nomatch found

/-- **The virtual supply.** In every state of a run the virtual supply of each pool is the sum of
the virtual amounts of its users, and zero when they have no principal in it, if and only if
every withdrawal of the run is exact. -/
theorem virtualTotalSupply_iff {TRIBE : Address} {ledger : Ledger} {blockNumber : Nat}
    (none : ledger.Unapproved env.this) {history : List Action}
    (external : ∀ a ∈ history, a.External env) :
    (∀ prior, prior <+: history →
      Balanced (run (step env) (initialized env TRIBE ledger blockNumber) prior)) ↔
    Along (step env) (fun s a => ∀ s', step env s a = .ok s' → a.Exact s)
      (initialized env TRIBE ledger blockNumber) history := by
  refine run_iff_along (I := Sound env) (A := fun a => a.External env) ?_
    (sound_initialized none) balanced_initialized external
  intro s a s' sound balanced external succeeds
  have transaction := transaction_of_step external succeeds
  exact ⟨transaction.keeps (fun sound phase => phase.sound sound)
    (fun sound acts => acts.sound sound) sound, transaction.balanced_iff sound balanced⟩

/-! ## Other accounts -/

/-- The user of a user operation. -/
def Action.user? : Action → Option Address
  | .deposit user _ _ _ => some user
  | .withdrawAllAndHarvest user _ _ => some user
  | .withdrawFromDeposit user _ _ _ _ => some user
  | .harvest user _ _ => some user
  | .emergencyWithdraw user _ _ => some user
  | _ => none

/-- The account of `u` in pool `i`. -/
def accountAt (s : TribalChiefState) (i : Nat) (u : Address) : UserInfo × List DepositInfo :=
  (s.userInfo i u, s.depositInfo i u)

theorem Acts.accountAt {i : Nat} {u : Address} (other : u ≠ user)
    (acts : Acts env pid user mv s s') : accountAt s' i u = accountAt s i u := by
  obtain @⟨pool, e', ledger, event, found, moves, settles, logs⟩ := acts
  simp only [TribalChief.accountAt, logged, book]
  rw [update₂_of_ne _ _ fun h => other h.2, update₂_of_ne _ _ fun h => other h.2]

theorem Phase.accountAt {i : Nat} {u : Address} (phase : Phase env s s') :
    accountAt s' i u = accountAt s i u := by
  cases phase with
  | rest same => rfl
  | tokens guarded => rfl
  | update found => rfl
  | weigh found total => rfl
  | add allocPoint stakedToken rewarder => rfl
  | rate => rfl
  | mine => rfl

/-- A transaction changes no account but its user's. -/
theorem Transaction.accountAt {a : Action} {i : Nat} {u : Address}
    (transaction : Transaction env s a s') (stranger : a.user? ≠ some u) :
    accountAt s' i u = accountAt s i u := by
  have other : ∀ {user : Address}, some user ≠ some u → u ≠ user := fun differs same =>
    differs (congrArg some same.symm)
  cases transaction with
  | deposit found acts =>
      have kept := acts.accountAt (i := i) (other stranger)
      exact kept
  | withdrawAll found harvests acts =>
      have first := harvests.accountAt (i := i) (other stranger)
      have kept : accountAt _ i u = accountAt _ i u := acts.elim
        (fun acts => acts.accountAt (other stranger)) fun acts => acts.accountAt (other stranger)
      exact kept.trans first
  | withdraw found acts =>
      have kept := acts.accountAt (i := i) (other stranger)
      exact kept
  | harvest found acts =>
      have kept := acts.accountAt (i := i) (other stranger)
      exact kept
  | emergency found acts =>
      have kept := acts.accountAt (i := i) (other stranger)
      exact kept
  | other kind phases status =>
      exact keeps_of_chain (I := fun t => TribalChief.accountAt t i u = TribalChief.accountAt s i u)
        (fun same phase => phase.accountAt.trans same) rfl phases

theorem run_accountAt {i : Nat} {u : Address} {history : List Action}
    (external : ∀ a ∈ history, a.External env) (strangers : ∀ a ∈ history, a.user? ≠ some u) :
    accountAt (run (step env) s history) i u = accountAt s i u := by
  refine run_invariant (I := fun t => accountAt t i u = accountAt s i u)
    (A := fun a => a.External env ∧ a.user? ≠ some u) ?_ rfl
    fun a mem => ⟨external a mem, strangers a mem⟩
  intro t a t' same both succeeds
  exact ((transaction_of_step both.1 succeeds).accountAt both.2).trans same

end TribalChief

namespace TribalChief.Sample

/-- Account 5 stakes 100 and takes 40 of them out again. -/
def halfway : List Action :=
  [addPool, .deposit 5 0 100 0, .mine 1, .withdrawFromDeposit 5 0 40 5 0]

theorem halfway_external : ∀ a ∈ halfway, a.External env := by
  simp [halfway, addPool, Action.External]

/-- Account 5 stakes 2, each of which counts one and a half, and takes them out one by one. -/
def piecemeal : List Action :=
  [addPool, .deposit 5 0 2 50, .mine 50, .withdrawFromDeposit 5 0 1 5 0, .emergencyWithdraw 5 0 5]

theorem piecemeal_external : ∀ a ∈ piecemeal, a.External env := by
  simp [piecemeal, addPool, Action.External]

theorem piecemeal_strangers {u : Address} (other : u ≠ 5) :
    ∀ a ∈ piecemeal, a.user? ≠ some u := by
  simp only [piecemeal, addPool, List.mem_cons, List.not_mem_nil, or_false, forall_eq_or_imp,
    forall_eq, Action.user?, ne_eq, Option.some.injEq, reduceCtorEq, not_false_eq_true, true_and]
  exact ⟨Ne.symm other, Ne.symm other, Ne.symm other⟩

end TribalChief.Sample

namespace TribalChief

theorem virtualTotalSupply_sample :
    Balanced (run (step Sample.env) Sample.start Sample.halfway) := by
  have exact : Along (step Sample.env) (fun s a => ∀ s', step Sample.env s a = .ok s' → a.Exact s)
      Sample.start Sample.halfway := by
    refine ⟨?_, ?_, ?_, ?_, trivial⟩
    · intro _ _ _ _ _ none
      cases none
    · intro _ _ _ _ _ none
      cases none
    · intro _ _ _ _ _ none
      cases none
    · intro _ _ _ _ _ same
      cases same
      refine ⟨False.elim, fun last => ?_⟩
      have staked := Finset.single_le_sum (f := fun u => principal
        ((run (step Sample.env) Sample.start
          [Sample.addPool, .deposit 5 0 100 0, .mine 1]).depositInfo 0 u))
        (fun _ _ => Nat.zero_le _) (Finset.mem_univ 5)
      have value : principal ((run (step Sample.env) Sample.start
        [Sample.addPool, .deposit 5 0 100 0, .mine 1]).depositInfo 0 5) = 100 := by decide +kernel
      rw [value] at staked
      have all : 100 ≤ 40 := Nat.le_trans staked (Nat.le_of_eq last)
      omega
  exact (virtualTotalSupply_iff Sample.unapproved Sample.halfway_external).mpr exact _
    (List.prefix_refl _)

/-- A pool that nobody has anything in keeps a virtual supply of one, to which all its rewards
accrue. -/
theorem virtualTotalSupply_stuck :
    ((run (step Sample.env) Sample.start Sample.piecemeal).poolInfo[0]?).map
        PoolInfo.virtualTotalSupply = some 1 ∧
    ∀ user, accountAt (run (step Sample.env) Sample.start Sample.piecemeal) 0 user =
      (⟨0, 0⟩, []) := by
  refine ⟨by decide +kernel, fun user => ?_⟩
  by_cases self : user = 5
  · subst self
    decide +kernel
  · rw [run_accountAt Sample.piecemeal_external (Sample.piecemeal_strangers self)]
    rfl

end TribalChief

end FeiProtocol
