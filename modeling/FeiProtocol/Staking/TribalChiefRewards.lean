import FeiProtocol.Math.RewardShares
import FeiProtocol.Staking.TribalChiefPrincipal

/-!
# Rounding of the rewards in `TribalChief`

Reward debts are rounded separately from the rewards they are compared with. A deposit's debt
is rounded down, which favours the user, and so is what a partial withdrawal takes off it, which
disfavours the user.

* `harvest_never_panics`: no user's debt exceeds the user's rewards exactly if no partial
  withdrawal loses a unit that the user does not have pending; then the assertions in `_harvest`
  hold.
* `harvest_panics`: otherwise a user can be barred from harvesting.
* `harvests_le_accrued`: a pool never pays more than it has accrued and the run's `dust`, which is
  what debts leave off in the users' favour.
* `harvests_exceed_accrued`: it can pay that much.
-/

namespace FeiProtocol

open Evm

namespace TribalChief

open CoreRef ReentrancyGuard RewardShares

variable {env : TribalChiefEnv} {s s' : TribalChiefState} {pid : Nat} {user : Address}
  {mv : Move} {e e' : Entry} {b : Nat}

/-! ## Entries as reward shares -/

def UserInfo.share (u : UserInfo) : Share := ⟨u.virtualAmount, u.rewardDebt⟩

theorem Entry.pending_eq (e : Entry) : e.pending =
    e.account.share.pending ACC_TRIBE_PRECISION e.pool.accTribePerShare := rfl

/-- The reward before rounding, scaled by the precision. -/
def Entry.owed (e : Entry) : Int :=
  e.account.share.owed ACC_TRIBE_PRECISION e.pool.accTribePerShare

/-- An account that has been paid is owed the remainder. -/
theorem Entry.owed_of_settled {e : Entry}
    (settled : e.account.rewardDebt = e.pool.granted e.account.virtualAmount) :
    e.owed = (e.account.virtualAmount * e.pool.accTribePerShare % ACC_TRIBE_PRECISION : Nat) := by
  have value := Share.owed_settle (P := ACC_TRIBE_PRECISION) (x := e.account.share)
    (A := e.pool.accTribePerShare)
  unfold Entry.owed UserInfo.share
  rw [settled]
  exact value

theorem precision_pos : 0 < ACC_TRIBE_PRECISION := by decide

theorem accTribePerShare_le_accrued (s : TribalChiefState) (pool : PoolInfo) :
    pool.accTribePerShare ≤ (accrued s pool).accTribePerShare := by
  unfold accrued
  split
  · exact Nat.le_add_right _ _
  · exact Nat.le_refl _

/-! ## Debts and the assertion -/

/-- The unit that is lost when `n` of the account's virtual amount are withdrawn. -/
def Entry.carry (e : Entry) (n : Nat) : Nat :=
  RewardShares.carry ACC_TRIBE_PRECISION
    ((e.account.virtualAmount - n) * e.pool.accTribePerShare) (n * e.pool.accTribePerShare)

/-- What an operation does to the pending reward. -/
theorem Moves.pending (moves : Moves b mv e e') :
    (∃ amount index d, mv = .withdraw amount index ∧ e.deposits[index]? = some d ∧
      e'.pending = e.pending - e.carry (amount * d.multiplier / SCALE_FACTOR)) ∨
    ((∀ amount index, mv ≠ .withdraw amount index) ∧ (0 ≤ e.pending → 0 ≤ e'.pending)) := by
  cases moves with
  | @deposit _ amount multiplier unlockBlock delta fits counts room =>
      refine .inr ⟨fun _ _ => Move.noConfusion, fun before => ?_⟩
      have change := Share.pending_enter (x := e.account.share) (n := delta)
        (A := e.pool.accTribePerShare) precision_pos
      rw [Entry.pending_eq] at before ⊢
      refine le_of_le_of_eq ?_ change.symm
      omega
  | @withdraw _ d amount index delta found released enough counts virtual supply =>
      subst counts
      exact .inl ⟨amount, index, d, rfl, found,
        Share.pending_leave (x := e.account.share) precision_pos virtual⟩
  | harvest solvent =>
      refine .inr ⟨fun _ _ => Move.noConfusion, fun _ => ?_⟩
      exact (Share.pending_settle (x := e.account.share)).ge
  | sweep waiting counts virtual supply =>
      refine .inr ⟨fun _ _ => Move.noConfusion, fun _ => ?_⟩
      exact (sub_self _).ge
  | close released supply =>
      refine .inr ⟨fun _ _ => Move.noConfusion, fun _ => ?_⟩
      simp [Entry.pending, PoolInfo.granted]

/-- No user's debt exceeds the user's rewards. -/
structure Solvent (env : TribalChiefEnv) (s : TribalChiefState) : Prop where
  sound : Sound env s
  pending : ∀ (pid : Nat) (user : Address) (pool : PoolInfo), s.poolInfo[pid]? = some pool →
    0 ≤ (entryAt s pid user pool).pending

theorem Phase.solvent (solvent : Solvent env s) (phase : Phase env s s') : Solvent env s' := by
  refine ⟨phase.sound solvent.sound, fun i u p here => ?_⟩
  cases phase with
  | rest same => exact solvent.pending i u p here
  | tokens guarded => exact solvent.pending i u p here
  | @update pid pool found =>
      rcases getElem?_set_cases here with ⟨same, value⟩ | ⟨_, old⟩
      · subst same
        subst value
        exact Int.le_trans (solvent.pending i u pool found)
          (Share.pending_mono (x := (s.userInfo i u).share) (accTribePerShare_le_accrued s pool))
      · exact solvent.pending i u p old
  | @weigh pid pool allocPoint totalAllocPoint unlocked found total =>
      rcases getElem?_set_cases here with ⟨same, value⟩ | ⟨_, old⟩
      · subst same
        subst value
        exact solvent.pending i u pool found
      · exact solvent.pending i u p old
  | add allocPoint stakedToken rewarder =>
      rcases getElem?_push_cases here with ⟨last, value⟩ | old
      · have none := solvent.sound.idle i u (Nat.le_of_eq last.symm)
        simp [Entry.pending, entryAt, none, PoolInfo.granted]
      · exact solvent.pending i u p old
  | rate => exact solvent.pending i u p here
  | mine => exact solvent.pending i u p here

/-- The operation loses no more than the user has pending. -/
def Affordable (s : TribalChiefState) (pid : Nat) (user : Address) (mv : Move) : Prop :=
  ∀ pool e', s.poolInfo[pid]? = some pool →
    Moves s.blockNumber mv (entryAt s pid user pool) e' →
    0 ≤ (entryAt s pid user pool).pending → 0 ≤ e'.pending

theorem affordable_of_ne (s : TribalChiefState) (pid : Nat) (user : Address)
    (other : ∀ amount index, mv ≠ .withdraw amount index) : Affordable s pid user mv := by
  intro pool e' found moves before
  rcases moves.pending with ⟨amount, index, _, same, _⟩ | ⟨_, kept⟩
  · exact absurd same (other amount index)
  · exact kept before

theorem Acts.solvent (solvent : Solvent env s) (affordable : Affordable s pid user mv)
    (acts : Acts env pid user mv s s') : Solvent env s' := by
  refine ⟨acts.sound solvent.sound, fun i u p here => ?_⟩
  obtain @⟨pool, e', ledger, event, found, moves, settles, logs⟩ := acts
  simp only [entryAt, logged, book, update₂_apply]
  rcases getElem?_set_cases here with ⟨same, value⟩ | ⟨other, old⟩
  · subst same
    subst value
    by_cases self : u = user
    · subst self
      rw [if_pos ⟨rfl, rfl⟩]
      exact affordable pool e' found moves (solvent.pending i u pool found)
    · rw [if_neg fun h => self h.2]
      have kept := solvent.pending i u pool found
      rw [Entry.pending_eq] at kept ⊢
      simp only
      rw [moves.pool]
      exact kept
  · rw [if_neg fun h => other h.1]
    exact solvent.pending i u p old

/-- A partial withdrawal loses no more than the user has pending: the remainders of what is
withdrawn and of what is left do not add up to a unit, or a unit is pending. -/
def Rounds (s : TribalChiefState) : Action → Prop
  | .withdrawFromDeposit user pid amount _ index =>
      ∀ pool ∈ s.poolInfo[pid.toNat]?, ∀ d ∈ (s.depositInfo pid.toNat user)[index.toNat]?,
        ((entryAt s pid.toNat user (accrued s pool)).carry
            (amount.toNat * d.multiplier / SCALE_FACTOR) : Int) ≤
          (entryAt s pid.toNat user (accrued s pool)).pending
  | _ => True

instance (s : TribalChiefState) : ∀ a, Decidable (Rounds s a)
  | .deposit _ _ _ _ => .isTrue trivial
  | .withdrawAllAndHarvest _ _ _ => .isTrue trivial
  | .withdrawFromDeposit user pid amount _ index => inferInstanceAs (Decidable
      (∀ pool ∈ s.poolInfo[pid.toNat]?, ∀ d ∈ (s.depositInfo pid.toNat user)[index.toNat]?,
        ((entryAt s pid.toNat user (accrued s pool)).carry
            (amount.toNat * d.multiplier / SCALE_FACTOR) : Int) ≤
          (entryAt s pid.toNat user (accrued s pool)).pending))
  | .harvest _ _ _ => .isTrue trivial
  | .emergencyWithdraw _ _ _ => .isTrue trivial
  | .updatePool _ => .isTrue trivial
  | .massUpdatePools _ => .isTrue trivial
  | .admin _ _ => .isTrue trivial
  | .token _ _ => .isTrue trivial
  | .mine _ => .isTrue trivial

/-- The pool inside of a guarded call. -/
theorem getElem?_opened {pool pool' : PoolInfo} (found : s.poolInfo[pid]? = some pool)
    (found' : (opened s pid pool).poolInfo[pid]? = some pool') : pool' = accrued s pool := by
  have inside := (List.getElem?_eq_some_iff.mp found).1
  have stored : (opened s pid pool).poolInfo[pid]? = some (accrued s pool) :=
    List.getElem?_set_self inside
  exact Option.some.inj (found'.symm.trans stored)

/-- A withdrawal that rounds safely is affordable. -/
theorem affordable_of_rounds {pid amount index : UInt256} {dst : Address} {pool : PoolInfo}
    (found : s.poolInfo[pid.toNat]? = some pool)
    (rounds : Rounds s (.withdrawFromDeposit user pid amount dst index)) :
    Affordable (opened s pid.toNat pool) pid.toNat user
      (.withdraw amount.toNat index.toNat) := by
  intro pool' e' found' moves before
  have current := getElem?_opened found found'
  subst current
  rcases moves.pending with ⟨_, _, d, same, here, change⟩ | ⟨_, kept⟩
  · cases same
    have enough := rounds pool found d here
    rw [change]
    exact Int.sub_nonneg_of_le enough
  · exact kept before

/-- **The step.** Every transaction that rounds safely keeps debts below rewards. -/
theorem Transaction.solvent {a : Action} (transaction : Transaction env s a s')
    (rounds : Rounds s a) (solvent : Solvent env s) : Solvent env s' := by
  have inside : ∀ {pid : Nat} {pool : PoolInfo}, s.poolInfo[pid]? = some pool →
      Solvent env (opened s pid pool) := fun found =>
    keeps_of_chain Phase.solvent solvent (phases_opened found)
  cases transaction with
  | deposit found acts =>
      exact (phase_closed _).solvent
        (acts.solvent (inside found) (affordable_of_ne _ _ _ fun _ _ => Move.noConfusion))
  | withdrawAll found harvests acts =>
      have mid := harvests.solvent (inside found)
        (affordable_of_ne _ _ _ fun _ _ => Move.noConfusion)
      rcases acts with acts | acts
      · exact (phase_closed _).solvent
          (acts.solvent mid (affordable_of_ne _ _ _ fun _ _ => Move.noConfusion))
      · exact (phase_closed _).solvent
          (acts.solvent mid (affordable_of_ne _ _ _ fun _ _ => Move.noConfusion))
  | withdraw found acts =>
      exact (phase_closed _).solvent
        (acts.solvent (inside found) (affordable_of_rounds found rounds))
  | harvest found acts =>
      exact (phase_closed _).solvent
        (acts.solvent (inside found) (affordable_of_ne _ _ _ fun _ _ => Move.noConfusion))
  | emergency found acts =>
      exact (phase_closed _).solvent
        (acts.solvent (inside found) (affordable_of_ne _ _ _ fun _ _ => Move.noConfusion))
  | other kind phases status => exact keeps_of_chain Phase.solvent solvent phases

/-- A withdrawal that does not round safely leaves its user in debt. -/
theorem rounds_of_solvent {pid amount index : UInt256} {dst : Address} (after : Solvent env s')
    (transaction : Transaction env s (.withdrawFromDeposit user pid amount dst index) s') :
    Rounds s (.withdrawFromDeposit user pid amount dst index) := by
  cases transaction with
  | @withdraw _ _ _ _ _ pool m found acts =>
      obtain @⟨pool', e', ledger, event, found', moves, settles, logs⟩ := acts
      have current := getElem?_opened found found'
      subst current
      intro p here d mem
      cases found.symm.trans here
      rcases moves.pending with ⟨_, _, d', same, here', change⟩ | ⟨other, _⟩
      · cases same
        cases here'.symm.trans mem
        have stored : (closed (logged (book (opened s pid.toNat pool) pid.toNat user e') ledger
            event)).poolInfo[pid.toNat]? = some e'.pool :=
          List.getElem?_set_self (List.getElem?_eq_some_iff.mp found').1
        have nonneg := after.pending pid.toNat user e'.pool stored
        simp only [entryAt, closed, logged, book, update₂_self] at nonneg
        have nonneg : 0 ≤ e'.pending := nonneg
        rw [change] at nonneg
        exact Int.le_of_sub_nonneg nonneg
      · exact absurd rfl (other _ _)
  | other kind phases status => exact kind.elim

/-- The condition is exact. -/
theorem Transaction.solvent_iff {a : Action} (transaction : Transaction env s a s')
    (solvent : Solvent env s) : Solvent env s' ↔ Rounds s a := by
  refine ⟨fun after => ?_, fun rounds => transaction.solvent rounds solvent⟩
  cases a with
  | withdrawFromDeposit user pid amount dst index => exact rounds_of_solvent after transaction
  | deposit user pid amount lockLength => trivial
  | withdrawAllAndHarvest user pid dst => trivial
  | harvest user pid dst => trivial
  | emergencyWithdraw user pid dst => trivial
  | updatePool pid => trivial
  | massUpdatePools pids => trivial
  | admin user c => trivial
  | token actor c => trivial
  | mine blocks => trivial

/-! ### What the functions revert with -/

section Reverts

variable {F : Revert → Prop}

/-- What arithmetic and array accesses revert with. -/
structure Ordinary (F : Revert → Prop) : Prop where
  overflow : F (.panic 0x11)
  division : F (.panic 0x12)
  bounds : F (.panic 0x32)

theorem fails_toNat_toUint {bits n : Nat}
    (reason : F (.reason s!"SafeCast: value doesn't fit in {bits} bits")) :
    Fails F (BitVec.toNat <$> toUint bits n) :=
  ((fails_require fun _ => reason).bind fun _ _ => fails_pure _).map _

theorem fails_toInt256 (n : Nat)
    (reason : F (.reason "SafeCast: value doesn't fit in an int256")) : Fails F (toInt256 n) :=
  (fails_require fun _ => reason).bind fun _ _ => fails_pure _

theorem fails_tribeReward (ordinary : Ordinary F) (pool : PoolInfo) :
    Fails F (tribeReward s pool) := by
  refine (fails_checkedSub _ _ ordinary.overflow).bind fun _ _ => ?_
  refine (fails_checked _ ordinary.overflow).bind fun _ _ => ?_
  refine (fails_checked _ ordinary.overflow).bind fun _ _ => ?_
  exact fails_checkedDiv _ _ ordinary.division

theorem fails_addReward (ordinary : Ordinary F) (pool : PoolInfo) (reward : Nat) :
    Fails F (addReward pool reward) := by
  refine (fails_checked _ ordinary.overflow).bind fun _ _ => ?_
  refine (fails_checkedDiv _ _ ordinary.division).bind fun _ _ => ?_
  exact fails_checked _ ordinary.overflow

theorem fails_updatePool (ordinary : Ordinary F)
    (reason : F (.reason "SafeCast: value doesn't fit in 128 bits")) (pid : Nat) :
    Fails F (updatePool s pid) := by
  refine (fails_element _ _ ordinary.bounds).bind fun pool _ => .ite (fun _ => ?_) fun _ => ?_
  · refine Fails.bind ?_ fun _ _ => ?_
    · refine .ite (fun _ => ?_) fun _ => fails_ok _
      refine (fails_tribeReward ordinary pool).bind fun _ _ => ?_
      exact (fails_addReward ordinary pool _).bind fun _ _ => fails_pure _
    · exact (fails_toNat_toUint reason).bind fun _ _ => fails_pure _
  · exact fails_pure _

/-- Where no debt exceeds the rewards, what is unpaid is not negative. -/
theorem fails_unpaid {α : Type} {virtualAmount accTribePerShare : Nat} {rewardDebt : Int}
    {rest : Int → Int → Except Revert α} (ordinary : Ordinary F)
    (reason : F (.reason "SafeCast: value doesn't fit in an int256"))
    (nonneg : 0 ≤ ((virtualAmount * accTribePerShare / ACC_TRIBE_PRECISION : Nat) : Int) -
      rewardDebt)
    (fails : ∀ accumulated unpaid, 0 ≤ accumulated → 0 ≤ unpaid →
      Fails F (rest accumulated unpaid)) :
    Fails F (do
      let product ← checkedMul virtualAmount accTribePerShare
      let accumulated ← toInt256 (product / ACC_TRIBE_PRECISION)
      let unpaid ← checkedIntSub accumulated rewardDebt
      rest accumulated unpaid) := by
  refine (fails_checked _ ordinary.overflow).bind fun product multiplied => ?_
  have multiplied := (checkedMul_eq_ok_iff.mp multiplied).2
  refine (fails_toInt256 _ reason).bind fun accumulated converted => ?_
  have converted := (toInt256_eq_ok_iff.mp converted).2
  refine (fails_checkedInt _ ordinary.overflow).bind fun unpaid subtracted => ?_
  have subtracted := (checkedIntSub_eq_ok_iff.mp subtracted).2
  have granted : 0 ≤ accumulated := by
    rw [← converted]
    exact Int.natCast_nonneg _
  have positive : 0 ≤ unpaid := by
    rw [← subtracted, ← converted, ← multiplied]
    exact nonneg
  exact fails accumulated unpaid granted positive

theorem fails_toUint256 {n : Int} (positive : 0 ≤ n) : Fails F (toUint256 n) :=
  (fails_require fun fails => absurd positive fails).bind fun _ _ => fails_pure _

end Reverts

/-- The message of a failed conversion of a negative amount. -/
def negative : String := "SafeCast: value must be positive"

/-- **Pending rewards can be shown.** -/
theorem pendingRewards_ne_negative (solvent : Solvent env s) (pid : Nat) (user : Address) :
    pendingRewards s pid user ≠ .error (.reason negative) := by
  have ordinary : Ordinary fun e => e ≠ .reason negative := ⟨nofun, nofun, nofun⟩
  suffices fails : Fails (fun e => e ≠ .reason negative) (pendingRewards s pid user) from
    fun reverts => fails _ reverts rfl
  refine (fails_element _ _ ordinary.bounds).bind fun pool found => ?_
  have found := element_eq_ok_iff.mp found
  refine Fails.bind ?_ fun share computed => ?_
  · refine .ite (fun _ => ?_) fun _ => fails_ok _
    exact (fails_tribeReward ordinary pool).bind fun _ _ => fails_addReward ordinary pool _
  · -- the accumulator it computes is at least the one that is stored
    have grown : pool.accTribePerShare ≤ share := by
      split at computed
      · obtain ⟨_, _, added⟩ := bind_eq_ok_iff.mp computed
        simp only [addReward, bind_eq_ok_iff, checkedMul_eq_ok_iff, checkedDiv_eq_ok_iff,
          checkedAdd_eq_ok_iff] at added
        obtain ⟨_, _, _, _, _, value⟩ := added
        omega
      · cases computed
        exact Nat.le_refl _
    have nonneg := Int.le_trans (solvent.pending pid user pool found)
      (Share.pending_mono (x := (s.userInfo pid user).share) grown)
    exact fails_unpaid ordinary (by decide) nonneg fun _ _ _ positive => fails_toUint256 positive

/-- No assertion fails. -/
def NotAssertion (e : Revert) : Prop := e ≠ .panic 0x01

theorem ordinary_notAssertion : Ordinary NotAssertion := ⟨nofun, nofun, nofun⟩

/-- The rewarders' own assertions do not fail. -/
def SoundRewarders (env : TribalChiefEnv) : Prop :=
  ∀ s rewarder pid user recipient amount newLpAmount,
    Fails NotAssertion (env.onSushiReward s rewarder pid user recipient amount newLpAmount)

theorem callRewarder_fails (rewarders : SoundRewarders env) (pid : Nat)
    (user recipient : Address) (amount newLpAmount : Nat) :
    Fails NotAssertion (callRewarder env s pid user recipient amount newLpAmount) := by
  refine (fails_element _ _ ordinary_notAssertion.bounds).bind fun _ _ => ?_
  exact .ite (fun _ => rewarders _ _ _ _ _ _ _) fun _ => fails_pure _

theorem safeTransfer_fails (w : Ledger) (operator token dst : Address) (amount : Nat) :
    Fails NotAssertion (w.safeTransfer operator token dst amount) := by
  refine Fails.bind ?_ fun _ _ => fails_pure _
  exact (fails_require fun _ => nofun).bind fun _ _ => fails_pure _

theorem _harvest_fails (rewarders : SoundRewarders env) (solvent : Solvent env s) (pid : Nat)
    (user dst : Address) : Fails NotAssertion (_harvest env s user pid dst) := by
  have ordinary := ordinary_notAssertion
  refine (fails_element _ _ ordinary.bounds).bind fun pool found => ?_
  have nonneg := solvent.pending pid user pool (element_eq_ok_iff.mp found)
  refine fails_unpaid ordinary nofun nonneg fun accumulated unpaid granted positive => ?_
  refine (fails_assert ⟨granted, positive⟩).bind fun _ _ => ?_
  refine (fails_toUint256 positive).bind fun pendingTribe _ => ?_
  refine (fails_toInt256 _ nofun).bind fun signed value => ?_
  have value := (toInt256_eq_ok_iff.mp value).2
  have nonneg' : 0 ≤ signed := by
    rw [← value]
    exact Int.natCast_nonneg _
  refine (fails_assert nonneg').bind fun _ _ => ?_
  refine Fails.bind (.ite (fun _ => safeTransfer_fails _ _ _ _ _) fun _ => fails_ok _)
    fun _ _ => ?_
  exact (callRewarder_fails rewarders _ _ _ _ _).bind fun _ _ => fails_pure _

theorem _withdrawAll_fails (rewarders : SoundRewarders env) (pid : Nat) (user dst : Address) :
    Fails NotAssertion (_withdrawAll env s user pid dst) := by
  have ordinary := ordinary_notAssertion
  refine (fails_element _ _ ordinary.bounds).bind fun pool _ => ?_
  refine Fails.bind (.foldlM (fun acc d => ?_) _ _) fun swept _ => ?_
  · refine .ite (fun _ => fails_pure _) fun _ => ?_
    refine (fails_checked _ ordinary.overflow).bind fun _ _ => ?_
    refine (fails_checked _ ordinary.overflow).bind fun _ _ => ?_
    exact (fails_checked _ ordinary.overflow).bind fun _ _ => fails_pure _
  refine Fails.bind (.ite (fun _ => fails_ok _) fun _ => ?_) fun _ _ => ?_
  · refine (fails_checkedSub _ _ ordinary.overflow).bind fun _ _ => ?_
    refine (fails_checked _ ordinary.overflow).bind fun _ _ => ?_
    exact (fails_toInt256 _ nofun).bind fun _ _ => fails_pure _
  refine (fails_checkedSub _ _ ordinary.overflow).bind fun _ _ => ?_
  refine (callRewarder_fails rewarders _ _ _ _ _).bind fun _ _ => ?_
  refine Fails.bind (.ite (fun _ => ?_) fun _ => fails_ok _) fun _ _ => fails_pure _
  exact (fails_element _ _ ordinary.bounds).bind fun _ _ => safeTransfer_fails _ _ _ _ _

/-- A guarded body. -/
theorem nonReentrant_fails {body : TribalChiefState → Except Revert TribalChiefState}
    (inner : Fails NotAssertion (body (ReentrancyGuard.withStatus s _ENTERED))) :
    Fails NotAssertion (nonReentrant body s) :=
  (fails_require fun _ => nofun).bind fun _ _ => inner.bind fun _ _ => fails_pure _

/-- An update keeps debts below rewards. -/
theorem solvent_of_updatePool (solvent : Solvent env s) {u : TribalChiefState}
    (update : updatePool (ReentrancyGuard.withStatus s _ENTERED) pid = .ok u) :
    Solvent env u := by
  obtain ⟨pool, found, same⟩ := opened_of_updatePool update
  rw [same]
  exact keeps_of_chain Phase.solvent solvent (phases_opened found)

/-- **Harvests do not panic.** -/
theorem harvest_fails (rewarders : SoundRewarders env) (solvent : Solvent env s) (pid : Nat)
    (user dst : Address) : Fails NotAssertion (harvest env s user pid dst) := by
  apply nonReentrant_fails
  refine (fails_updatePool ordinary_notAssertion nofun pid).bind fun u update => ?_
  exact _harvest_fails rewarders (solvent_of_updatePool solvent update) pid user dst

theorem withdrawAllAndHarvest_fails (rewarders : SoundRewarders env) (solvent : Solvent env s)
    (pid : Nat) (user dst : Address) :
    Fails NotAssertion (withdrawAllAndHarvest env s user pid dst) := by
  apply nonReentrant_fails
  refine (fails_updatePool ordinary_notAssertion nofun pid).bind fun u update => ?_
  refine (_harvest_fails rewarders (solvent_of_updatePool solvent update) pid user dst).bind
    fun h _ => ?_
  exact _withdrawAll_fails rewarders pid user dst

/-! ### The result -/

/-- Every partial withdrawal of a run that succeeds rounds safely. -/
def SafelyRounded (env : TribalChiefEnv) (start : TribalChiefState) (history : List Action) :
    Prop :=
  Along (step env) (fun s a => ∀ s', step env s a = .ok s' → Rounds s a) start history

/-- No user's debt exceeds what the user has been granted. -/
def DebtsGranted (s : TribalChiefState) : Prop :=
  ∀ (pid : Nat) (user : Address) (pool : PoolInfo), s.poolInfo[pid]? = some pool →
    (s.userInfo pid user).rewardDebt ≤ pool.granted (s.userInfo pid user).virtualAmount

theorem solvent_iff_debtsGranted (sound : Sound env s) : Solvent env s ↔ DebtsGranted s :=
  ⟨fun solvent pid user pool found => Int.le_of_sub_nonneg (solvent.pending pid user pool found),
    fun granted => ⟨sound, fun pid user pool found =>
      Int.sub_nonneg_of_le (granted pid user pool found)⟩⟩

/-- **Harvesting.** In every state of a run no user's debt exceeds the user's rewards, if and only
if every partial withdrawal that succeeds rounds safely; and then nobody is barred from
harvesting. -/
theorem harvest_never_panics {TRIBE : Address} {ledger : Ledger} {blockNumber : Nat}
    (none : ledger.Unapproved env.this) {history : List Action}
    (external : ∀ a ∈ history, a.External env) :
    let start := initialized env TRIBE ledger blockNumber
    ((∀ prior, prior <+: history → DebtsGranted (run (step env) start prior)) ↔
      SafelyRounded env start history) ∧
    (SafelyRounded env start history → ∀ prior, prior <+: history → ∀ (pid : Nat) (user : Address),
      pendingRewards (run (step env) start prior) pid user ≠ .error (.reason negative) ∧
      (SoundRewarders env → ∀ dst,
        harvest env (run (step env) start prior) user pid dst ≠ .error (.panic 0x01) ∧
        withdrawAllAndHarvest env (run (step env) start prior) user pid dst ≠
          .error (.panic 0x01))) := by
  intro start
  have sound : Sound env start := sound_initialized none
  have keeps : ∀ {s a s'}, Sound env s → a.External env → step env s a = .ok s' →
      Sound env s' := fun sound external succeeds =>
    (transaction_of_step external succeeds).keeps Phase.sound Acts.sound sound
  have exact : (∀ prior, prior <+: history → DebtsGranted (run (step env) start prior)) ↔
      SafelyRounded env start history := by
    refine run_iff_along (I := Sound env) (A := fun a => a.External env) ?_ sound
      (fun _ _ _ found => nomatch found) external
    intro s a s' sound granted external succeeds
    have after := keeps sound external succeeds
    have solvent := (solvent_iff_debtsGranted sound).mpr granted
    have exact := (transaction_of_step external succeeds).solvent_iff solvent
    exact ⟨after, (solvent_iff_debtsGranted after).symm.trans exact⟩
  refine ⟨exact, fun rounded prior start pid user => ?_⟩
  have sound : Sound env (run (step env) _ prior) := run_invariant (I := Sound env) keeps sound
    fun a mem => external a (start.subset mem)
  have solvent := (solvent_iff_debtsGranted sound).mpr (exact.mpr rounded prior start)
  refine ⟨pendingRewards_ne_negative solvent pid user, fun rewarders dst => ⟨?_, ?_⟩⟩
  · exact fun panics => harvest_fails rewarders solvent pid user dst _ panics rfl
  · exact fun panics => withdrawAllAndHarvest_fails rewarders solvent pid user dst _ panics rfl

end TribalChief

namespace TribalChief.Sample

/-- After one block, half a unit of TRIBE has been granted to each unit that is staked. -/
def halves : List Action := [addPool, .deposit 5 0 (150 * 10 ^ 18) 0, .mine 1]

/-- Account 6 stakes two units, waits two blocks, and takes one out again. -/
def patient : List Action :=
  halves ++ [.deposit 6 0 2 0, .mine 2, .withdrawFromDeposit 6 0 1 6 0]

/-- The same without waiting. -/
def hasty : List Action := halves ++ [.deposit 6 0 2 0, .withdrawFromDeposit 6 0 1 6 0]

theorem patient_external : ∀ a ∈ patient, a.External env := by
  simp [patient, halves, addPool, Action.External]

theorem patient_rounded : SafelyRounded env start patient := by
  have rounds : Along (step env) (fun s a => Rounds s a) start patient := by decide +kernel
  exact rounds.imp fun _ _ rounds _ _ => rounds

end TribalChief.Sample

namespace TribalChief

theorem harvest_never_panics_sample :
    harvest Sample.env (run (step Sample.env) Sample.start Sample.patient) 6 0 6 ≠
      .error (.panic 0x01) := by
  obtain ⟨_, harvests⟩ := @harvest_never_panics _ 20 _ 100 Sample.unapproved _
    Sample.patient_external
  exact ((harvests Sample.patient_rounded _ (List.prefix_refl _) 0 6).2
    (fun _ _ _ _ _ _ _ => nofun) 6).1

/-- A user who takes one of two units out in the block of the deposit owes one unit and has
been granted none: the assertion fails, and the pending reward cannot be shown. -/
theorem harvest_panics :
    (run (step Sample.env) Sample.start Sample.hasty).userInfo 0 6 = ⟨1, 1⟩ ∧
    harvest Sample.env (run (step Sample.env) Sample.start Sample.hasty) 6 0 6 =
      .error (.panic 0x01) ∧
    withdrawAllAndHarvest Sample.env (run (step Sample.env) Sample.start Sample.hasty) 6 0 6 =
      .error (.panic 0x01) ∧
    pendingRewards (run (step Sample.env) Sample.start Sample.hasty) 0 6 =
      .error (.reason "SafeCast: value must be positive") :=
  ⟨by decide +kernel, rfl, rfl, by decide +kernel⟩

open RewardShares

/-! ## Payments and accruals -/

/-- The accumulator of pool `pid`. -/
def accOf (s : TribalChiefState) (pid : Nat) : Nat :=
  (s.poolInfo[pid]?).elim 0 PoolInfo.accTribePerShare

/-- The TRIBE that harvests of pool `pid` have paid. -/
def harvested (s : TribalChiefState) (pid : Nat) : Nat :=
  (s.events.map (harvestedFrom pid)).sum

/-- The TRIBE that updates have accrued to pool `pid`. -/
def rewarded (s : TribalChiefState) (pid : Nat) : Nat :=
  (s.accruals.map fun a => if a.pid = pid then a.tribeReward else 0).sum

/-- What pool `pid` owes, before rounding. -/
def owedBy (s : TribalChiefState) (pid : Nat) : Nat :=
  ∑ user, ((s.userInfo pid user).share.owed ACC_TRIBE_PRECISION (accOf s pid)).toNat

/-- Between two states, pool `pid` has handed out at most `dust` more than it accrued. -/
def Overdraws (pid : Nat) (s : TribalChiefState) (dust : Nat) (s' : TribalChiefState) : Prop :=
  ACC_TRIBE_PRECISION * harvested s' pid + owedBy s' pid + ACC_TRIBE_PRECISION * rewarded s pid ≤
    ACC_TRIBE_PRECISION * harvested s pid + owedBy s pid + ACC_TRIBE_PRECISION * rewarded s' pid +
      dust

theorem Overdraws.refl (pid : Nat) (s : TribalChiefState) : Overdraws pid s 0 s :=
  Nat.le_add_right _ 0

theorem Overdraws.trans {t : TribalChiefState} {m n : Nat} (first : Overdraws pid s m s')
    (second : Overdraws pid s' n t) : Overdraws pid s (m + n) t := by
  unfold Overdraws at first second ⊢
  omega

theorem Overdraws.of_eq (payments : harvested s' pid = harvested s pid)
    (owed : owedBy s' pid = owedBy s pid) (accruals : rewarded s' pid = rewarded s pid) :
    Overdraws pid s 0 s' := by
  unfold Overdraws
  rw [payments, owed, accruals, Nat.add_zero]

theorem owedBy_congr (accounts : s'.userInfo = s.userInfo) (share : accOf s' pid = accOf s pid) :
    owedBy s' pid = owedBy s pid := by
  unfold owedBy
  rw [accounts, share]

theorem accOf_of_getElem? {pool : PoolInfo} (found : s.poolInfo[pid]? = some pool) :
    accOf s pid = pool.accTribePerShare := by
  rw [accOf, found]
  rfl

/-- Replacing one pool by another with the same accumulator. -/
theorem accOf_set {pool pool' : PoolInfo} (pools : s'.poolInfo = s.poolInfo.set pid pool')
    (found : s.poolInfo[pid]? = some pool) (same : pool'.accTribePerShare = pool.accTribePerShare)
    (i : Nat) :
    accOf s' i = accOf s i := by
  unfold accOf
  rw [pools]
  by_cases here : i = pid
  · subst here
    rw [List.getElem?_set_self', found]
    exact same
  · rw [List.getElem?_set_ne (Ne.symm here)]

theorem accOf_push (pools : s'.poolInfo = s.poolInfo ++ [⟨0, 0, n, m, false⟩]) (i : Nat) :
    accOf s' i = accOf s i := by
  unfold accOf
  rw [pools]
  rcases Nat.lt_trichotomy i s.poolInfo.length with inside | last | beyond
  · rw [List.getElem?_append_left inside]
  · rw [last, List.getElem?_concat_length, List.getElem?_eq_none (Nat.le_refl _)]
    rfl
  · rw [List.getElem?_eq_none (Nat.le_of_lt beyond), List.getElem?_eq_none]
    rw [List.length_append, List.length_singleton]
    exact beyond

/-- An update accrues what it adds to the accumulator. -/
theorem overdraws_updated {pool : PoolInfo} (sound : Sound env s)
    (found : s.poolInfo[pid]? = some pool) (i : Nat) : Overdraws i s 0 (updated s pid pool) := by
  by_cases later : pool.lastRewardBlock < s.blockNumber
  · have accrues : rewarded (updated s pid pool) i =
        rewarded s i + if pid = i then emission s pool else 0 := by
      simp only [rewarded, updated, noted, if_pos later, List.map_append, List.sum_append,
        List.map_cons, List.map_nil, List.sum_cons, List.sum_nil, Nat.add_zero]
    by_cases here : pid = i
    · subst here
      have stored : (updated s pid pool).poolInfo[pid]? = some (accrued s pool) :=
        List.getElem?_set_self (List.getElem?_eq_some_iff.mp found).1
      have grown : accOf (updated s pid pool) pid = accOf s pid +
          emission s pool * ACC_TRIBE_PRECISION / pool.virtualTotalSupply := by
        rw [accOf_of_getElem? stored, accOf_of_getElem? found, accrued, if_pos later,
          currentShare]
      have shared : owedBy (updated s pid pool) pid ≤
          owedBy s pid + ACC_TRIBE_PRECISION * emission s pool := by
        unfold owedBy
        rw [grown]
        exact sum_owed_grow_le (fun u => (s.userInfo pid u).share)
          (sound.supply pid pool found) (emission s pool)
      have paid : harvested (updated s pid pool) pid = harvested s pid := rfl
      rw [if_pos rfl] at accrues
      unfold Overdraws
      rw [paid, accrues, Nat.mul_add]
      omega
    · rw [if_neg here, Nat.add_zero] at accrues
      refine .of_eq rfl (owedBy_congr rfl ?_) accrues
      unfold accOf updated
      rw [List.getElem?_set_ne here]
  · refine .of_eq rfl (owedBy_congr rfl ?_) ?_
    · refine accOf_set rfl found ?_ i
      rw [accrued, if_neg later]
    · simp only [rewarded, updated, noted, if_neg later, List.append_nil]

theorem Phase.overdraws (sound : Sound env s) (phase : Phase env s s') (i : Nat) :
    Overdraws i s 0 s' := by
  cases phase with
  | rest same => exact .of_eq rfl rfl rfl
  | tokens guarded => exact .of_eq rfl rfl rfl
  | update found => exact overdraws_updated sound found i
  | weigh found total =>
      refine .of_eq rfl (owedBy_congr rfl (accOf_set rfl found ?_ i)) rfl
      rfl
  | add allocPoint stakedToken rewarder =>
      exact .of_eq rfl (owedBy_congr rfl (accOf_push rfl i)) rfl
  | rate => exact .of_eq rfl rfl rfl
  | mine => exact .of_eq rfl rfl rfl

theorem Phases.overdraws (sound : Sound env s) (phases : Phases env s s') (i : Nat) :
    Sound env s' ∧ Overdraws i s 0 s' := by
  induction phases with
  | refl => exact ⟨sound, .refl i s⟩
  | tail _ last ih =>
      have both := ih.2.trans (last.overdraws ih.1 i)
      rw [Nat.add_zero] at both
      exact ⟨last.sound ih.1, both⟩

/-- What rounding gives the user in an operation. -/
def dustOf (e e' : Entry) : Move → Nat
  | .deposit amount multiplier _ =>
      amount * multiplier / SCALE_FACTOR * e.pool.accTribePerShare % ACC_TRIBE_PRECISION
  | .sweep => e'.owed.toNat - e.owed.toNat
  | _ => 0

/-- An operation pays and leaves owed no more than was owed, and the dust. -/
theorem Moves.owed {event : TribalChiefEvent} (moves : Moves b mv e e')
    (logs : Logs pid e event mv) :
    ACC_TRIBE_PRECISION * harvestedFrom pid event + e'.owed.toNat ≤
      e.owed.toNat + dustOf e e' mv := by
  cases moves with
  | @deposit _ amount multiplier unlockBlock delta fits counts room =>
      subst counts
      have change := Share.owed_enter (P := ACC_TRIBE_PRECISION) (x := e.account.share)
        (A := e.pool.accTribePerShare) (n := amount * multiplier / SCALE_FACTOR)
      rw [logs pid, Nat.mul_zero, Nat.zero_add]
      change (Share.owed _ _ (e.account.share.enter _ _ _)).toNat ≤ _
      rw [change]
      simp only [Entry.owed, dustOf]
      omega
  | @withdraw _ d amount index delta found released enough counts virtual supply =>
      have change := Share.owed_leave (P := ACC_TRIBE_PRECISION) (x := e.account.share)
        (A := e.pool.accTribePerShare) virtual
      rw [logs pid, Nat.mul_zero, Nat.zero_add]
      change (Share.owed _ _ (e.account.share.leave _ _ _)).toNat ≤ _
      rw [change]
      simp only [Entry.owed, dustOf]
      omega
  | harvest solvent =>
      obtain ⟨user, same⟩ := logs
      have before := Share.owed_eq (P := ACC_TRIBE_PRECISION) (x := e.account.share)
        (A := e.pool.accTribePerShare)
      have after := Share.owed_settle (P := ACC_TRIBE_PRECISION) (x := e.account.share)
        (A := e.pool.accTribePerShare)
      rw [same, harvestedFrom, if_pos rfl]
      change _ + (Share.owed _ _ (e.account.share.settle _ _)).toNat ≤ _
      rw [after, Int.toNat_natCast]
      have paid : ((ACC_TRIBE_PRECISION * e.pending.toNat : Nat) : Int) =
          ACC_TRIBE_PRECISION * e.pending := by
        push_cast
        rw [Int.toNat_of_nonneg solvent]
      rw [Entry.pending_eq] at paid ⊢
      simp only [Entry.owed, dustOf]
      omega
  | sweep waiting counts virtual supply =>
      rw [logs pid, Nat.mul_zero, Nat.zero_add]
      simp only [dustOf]
      omega
  | close released supply =>
      rw [logs pid, Nat.mul_zero, Nat.zero_add]
      have none : Share.owed ACC_TRIBE_PRECISION e.pool.accTribePerShare ⟨0, 0⟩ = 0 := by
        simp [Share.owed]
      change (Share.owed _ _ ⟨0, 0⟩).toNat ≤ _
      rw [none]
      exact Nat.zero_le _

/-- An operation of one user overdraws its pool by at most the dust it makes. -/
theorem Acts.overdraws (acts : Acts env pid user mv s s') : ∃ pool e',
    s.poolInfo[pid]? = some pool ∧ Moves s.blockNumber mv (entryAt s pid user pool) e' ∧
      s'.poolInfo[pid]? = some e'.pool ∧ s'.userInfo pid user = e'.account ∧
      Overdraws pid s (dustOf (entryAt s pid user pool) e' mv) s' := by
  obtain @⟨pool, e', ledger, event, found, moves, settles, logs⟩ := acts
  have inside := (List.getElem?_eq_some_iff.mp found).1
  have stored : (book s pid user e').poolInfo[pid]? = some e'.pool :=
    List.getElem?_set_self inside
  refine ⟨pool, e', found, moves, stored, update₂_self _ _ _ _, ?_⟩
  have same : e'.pool.accTribePerShare = pool.accTribePerShare := by
    rw [moves.pool]
    rfl
  have share : accOf (logged (book s pid user e') ledger event) pid = accOf s pid :=
    accOf_set rfl found same pid
  have payments : harvested (logged (book s pid user e') ledger event) pid =
      harvested s pid + harvestedFrom pid event := by
    simp only [harvested, logged, book, List.map_append, List.sum_append, List.map_cons,
      List.map_nil, List.sum_cons, List.sum_nil, Nat.add_zero]
  have owed : owedBy (logged (book s pid user e') ledger event) pid +
      (entryAt s pid user pool).owed.toNat = owedBy s pid + e'.owed.toNat := by
    unfold owedBy
    rw [share, accOf_of_getElem? found]
    simp only [Entry.owed]
    rw [same]
    exact Tables.sum_update₂
      (fun u : UserInfo => (u.share.owed ACC_TRIBE_PRECISION pool.accTribePerShare).toNat)
      s.userInfo pid user e'.account
  have accruals : rewarded (logged (book s pid user e') ledger event) pid = rewarded s pid := rfl
  have moved := moves.owed logs
  unfold Overdraws
  rw [payments, accruals, Nat.mul_add]
  omega

theorem Acts.overdraws_of_ne (acts : Acts env pid user mv s s') {i : Nat} (other : i ≠ pid) :
    Overdraws i s 0 s' := by
  obtain @⟨pool, e', ledger, event, found, moves, settles, logs⟩ := acts
  have unpaid : harvestedFrom i event = 0 := by
    cases moves with
    | harvest solvent =>
        obtain ⟨user, same⟩ := logs
        rw [same, harvestedFrom, if_neg (Ne.symm other)]
    | deposit fits counts room => exact logs i
    | withdraw found released enough counts virtual supply => exact logs i
    | sweep waiting counts virtual supply => exact logs i
    | close released supply => exact logs i
  refine .of_eq ?_ ?_ rfl
  · simp only [harvested, logged, book, List.map_append, List.sum_append, List.map_cons,
      List.map_nil, List.sum_cons, List.sum_nil, unpaid, Nat.add_zero]
  · have same : e'.pool.accTribePerShare = pool.accTribePerShare := by
      rw [moves.pool]
      rfl
    unfold owedBy
    rw [show accOf (logged (book s pid user e') ledger event) i = accOf s i from
      accOf_set rfl found same i]
    exact Tables.sum_update₂_of_ne
      (fun u : UserInfo => (u.share.owed ACC_TRIBE_PRECISION (accOf s i)).toNat)
      s.userInfo user e'.account other

/-! ### Dust -/

/-- What is left off the debt of a deposit, in units of the precision. -/
def depositDust (s : TribalChiefState) (amount multiplier : Nat) (pool : PoolInfo) : Nat :=
  amount * multiplier / SCALE_FACTOR * (accrued s pool).accTribePerShare % ACC_TRIBE_PRECISION

/-- What is left off the debt of an account that `withdrawAllAndHarvest` leaves with locked
deposits, beyond what its harvest left unpaid. -/
def sweepDust (s : TribalChiefState) (account : UserInfo) (deposits : List DepositInfo)
    (pool : PoolInfo) : Nat :=
  let released := deposits.filter fun d => d.Released s.blockNumber pool.unlocked
  let share := (accrued s pool).accTribePerShare
  if released.length = deposits.length then 0
  else (account.virtualAmount - virtualPrincipal released) * share % ACC_TRIBE_PRECISION -
    account.virtualAmount * share % ACC_TRIBE_PRECISION

/-- What rounding gives away in a transaction on pool `pid`. -/
def dust (s : TribalChiefState) (pid : Nat) : Action → Nat
  | .deposit _ pid' amount lockLength =>
      if pid'.toNat = pid then (s.poolInfo[pid]?).elim 0
        (depositDust s amount.toNat (s.rewardMultipliers pid lockLength.toNat))
      else 0
  | .withdrawAllAndHarvest user pid' _ =>
      if pid'.toNat = pid then (s.poolInfo[pid]?).elim 0
        (sweepDust s (s.userInfo pid user) (s.depositInfo pid user))
      else 0
  | _ => 0

theorem remainder_le (n : Nat) : n % ACC_TRIBE_PRECISION ≤ ACC_TRIBE_PRECISION :=
  Nat.le_of_lt (Nat.mod_lt n precision_pos)

theorem elim_le {f : PoolInfo → Nat} {c : Nat} (bound : ∀ pool, f pool ≤ c)
    (o : Option PoolInfo) : o.elim 0 f ≤ c := by
  cases o with
  | none => exact Nat.zero_le _
  | some pool => exact bound pool

/-- Rounding gives away less than a unit at a time. -/
theorem dust_le (s : TribalChiefState) (pid : Nat) (a : Action) :
    dust s pid a ≤ ACC_TRIBE_PRECISION := by
  cases a with
  | deposit user pid' amount lockLength =>
      simp only [dust]
      split
      · exact elim_le (fun pool => remainder_le _) _
      · exact Nat.zero_le _
  | withdrawAllAndHarvest user pid' dst =>
      simp only [dust]
      split
      · refine elim_le (fun pool => ?_) _
        simp only [sweepDust]
        split
        · exact Nat.zero_le _
        · exact Nat.le_trans (Nat.sub_le _ _) (remainder_le _)
      · exact Nat.zero_le _
  | withdrawFromDeposit user pid' amount dst index => exact Nat.zero_le _
  | harvest user pid' dst => exact Nat.zero_le _
  | emergencyWithdraw user pid' dst => exact Nat.zero_le _
  | updatePool pid' => exact Nat.zero_le _
  | massUpdatePools pids => exact Nat.zero_le _
  | admin user c => exact Nat.zero_le _
  | token actor c => exact Nat.zero_le _
  | mine blocks => exact Nat.zero_le _

/-- The operations that give nothing away. -/
theorem Acts.overdraws_zero (acts : Acts env pid user mv s s')
    (none : ∀ e e', dustOf e e' mv = 0) (i : Nat) : Overdraws i s 0 s' := by
  by_cases here : i = pid
  · subst here
    obtain ⟨pool, e', _, _, _, _, overdraws⟩ := acts.overdraws
    rwa [none] at overdraws
  · exact acts.overdraws_of_ne here

theorem Overdraws.weaken {m n : Nat} (overdraws : Overdraws pid s m s') (le : m ≤ n) :
    Overdraws pid s n s' := by
  unfold Overdraws at overdraws ⊢
  omega

theorem Overdraws.after {t : TribalChiefState} {n : Nat} (first : Overdraws pid s 0 s')
    (second : Overdraws pid s' n t) : Overdraws pid s n t := by
  have both := first.trans second
  rwa [Nat.zero_add] at both

theorem Overdraws.close {n : Nat} (overdraws : Overdraws pid s n s') :
    Overdraws pid s n (closed s') :=
  overdraws.trans (.of_eq rfl rfl rfl)

/-- A deposit inside of its call. -/
theorem overdraws_deposit {pool : PoolInfo} {m : TribalChiefState}
    {amount multiplier unlockBlock i : Nat} (found : s.poolInfo[pid]? = some pool)
    (acts : Acts env pid user (.deposit amount multiplier unlockBlock) (opened s pid pool) m) :
    Overdraws i (opened s pid pool)
      (if pid = i then depositDust s amount multiplier pool else 0) m := by
  by_cases here : pid = i
  · subst here
    obtain ⟨pool', e', found', _, _, _, overdraws⟩ := acts.overdraws
    have current := getElem?_opened found found'
    subst current
    rw [if_pos rfl]
    exact overdraws
  · rw [if_neg here]
    exact acts.overdraws_of_ne (Ne.symm here)

/-- The entry that a harvest leaves. -/
theorem entryAt_harvested {pool pool' : PoolInfo} {h : TribalChiefState}
    (found : s.poolInfo[pid]? = some pool)
    (harvests : Acts env pid user .harvest (opened s pid pool) h)
    (found' : h.poolInfo[pid]? = some pool') :
    h.blockNumber = s.blockNumber ∧ entryAt h pid user pool' =
      { pool := accrued s pool
        account := ⟨(accrued s pool).granted (s.userInfo pid user).virtualAmount,
          (s.userInfo pid user).virtualAmount⟩
        deposits := s.depositInfo pid user } := by
  obtain @⟨current, e', ledger, event, here, moves, settles, logs⟩ := harvests
  have same := getElem?_opened found here
  subst same
  cases moves with
  | harvest solvent =>
      have stored := Option.some.inj
        (found'.symm.trans (List.getElem?_set_self (List.getElem?_eq_some_iff.mp here).1))
      subst stored
      refine ⟨rfl, ?_⟩
      simp only [entryAt, logged, book, update₂_self]
      rfl

/-- The second half of `withdrawAllAndHarvest`. -/
theorem overdraws_withdrawAll {pool : PoolInfo} {h m : TribalChiefState} {i : Nat}
    (found : s.poolInfo[pid]? = some pool)
    (harvests : Acts env pid user .harvest (opened s pid pool) h)
    (acts : Acts env pid user .sweep h m ∨ Acts env pid user .close h m) :
    Overdraws i h (if pid = i then
      sweepDust s (s.userInfo pid user) (s.depositInfo pid user) pool else 0) m := by
  rcases acts with acts | acts
  · by_cases here : pid = i
    · subst here
      rw [if_pos rfl]
      obtain ⟨pool', e', found', moves, _, _, overdraws⟩ := acts.overdraws
      obtain ⟨block, entry⟩ := entryAt_harvested found harvests found'
      rw [entry] at moves overdraws
      rw [block] at moves
      cases moves with
      | sweep waiting counts virtual supply =>
          simp only [accrued_unlocked] at waiting counts
          have some_wait : ((s.depositInfo pid user).filter
              fun d => d.Released s.blockNumber pool.unlocked).length ≠
                (s.depositInfo pid user).length := by
            intro all
            rw [List.length_filter_eq_length_iff] at all
            obtain ⟨d, mem, waits⟩ := waiting
            exact waits (of_decide_eq_true (all d mem))
          refine overdraws.weaken ?_
          rw [sweepDust]
          simp only
          rw [if_neg some_wait, dustOf, ← counts]
          rw [Entry.owed_of_settled rfl, Entry.owed_of_settled rfl, Int.toNat_natCast,
            Int.toNat_natCast]
    · rw [if_neg here]
      exact acts.overdraws_of_ne (Ne.symm here)
  · exact (acts.overdraws_zero (fun _ _ => rfl) i).weaken (Nat.zero_le _)

/-- **The step.** A transaction overdraws a pool by at most its dust. -/
theorem Transaction.overdraws {a : Action} (transaction : Transaction env s a s')
    (sound : Sound env s) (i : Nat) : Overdraws i s (dust s i a) s' := by
  have inside : ∀ {pid : Nat} {pool : PoolInfo}, s.poolInfo[pid]? = some pool →
      Overdraws i s 0 (opened s pid pool) := fun found =>
    ((phases_opened found).overdraws sound i).2
  cases transaction with
  | @deposit user pid amount lockLength pool m unlockBlock found acts =>
      refine ((inside found).after (overdraws_deposit found acts).close).weaken ?_
      simp only [dust]
      split
      · rename_i here
        subst here
        rw [found]
        exact Nat.le_refl _
      · exact Nat.le_refl _
  | @withdrawAll user pid dst pool h m found harvests acts =>
      have pays := harvests.overdraws_zero (fun _ _ => rfl) i
      have leaves := overdraws_withdrawAll (i := i) found harvests acts
      refine ((inside found).after (pays.after leaves.close)).weaken ?_
      simp only [dust]
      split
      · rename_i here
        subst here
        rw [found]
        exact Nat.le_refl _
      · exact Nat.le_refl _
  | withdraw found acts =>
      exact (inside found).after (acts.overdraws_zero (fun _ _ => rfl) i).close
  | harvest found acts =>
      exact (inside found).after (acts.overdraws_zero (fun _ _ => rfl) i).close
  | emergency found acts =>
      exact (inside found).after (acts.overdraws_zero (fun _ _ => rfl) i).close
  | other kind phases status =>
      exact (phases.overdraws sound i).2.weaken (Nat.zero_le _)

/-- A run overdraws a pool by at most its dust. -/
theorem run_overdraws {TRIBE : Address} {ledger : Ledger} {blockNumber : Nat}
    (none : ledger.Unapproved env.this) {history : List Action}
    (external : ∀ a ∈ history, a.External env) (i : Nat) :
    Overdraws i (initialized env TRIBE ledger blockNumber)
      (total (step env) (fun s a _ => dust s i a) (initialized env TRIBE ledger blockNumber)
          history)
      (run (step env) (initialized env TRIBE ledger blockNumber) history) := by
  refine (run_total (I := Sound env) (R := Overdraws i) (P := fun _ a => a.External env)
    (.refl i) .trans ?_ (sound_initialized none) (along_of_forall external)).2
  intro s a s' sound external succeeds
  have transaction := transaction_of_step external succeeds
  exact ⟨transaction.keeps Phase.sound Acts.sound sound, transaction.overdraws sound i⟩

/-- The rewards of pool `pid` that users have pending, leaving off those who are in debt. -/
def pendingOf (s : TribalChiefState) (pid : Nat) : Nat :=
  ∑ user, ((s.userInfo pid user).share.pending ACC_TRIBE_PRECISION (accOf s pid)).toNat

theorem mul_pendingOf_le (s : TribalChiefState) (pid : Nat) :
    ACC_TRIBE_PRECISION * pendingOf s pid ≤ owedBy s pid :=
  mul_sum_pending_le fun u => (s.userInfo pid u).share

theorem owedBy_initialized (TRIBE : Address) (ledger : Ledger) (blockNumber : Nat) (pid : Nat) :
    owedBy (initialized env TRIBE ledger blockNumber) pid = 0 :=
  Finset.sum_eq_zero fun _ _ => by simp [initialized, UserInfo.share, Share.owed]

/-- What has been paid and is pending, by what has been accrued and the dust of the run. -/
theorem paid_le {TRIBE : Address} {ledger : Ledger} {blockNumber : Nat}
    (none : ledger.Unapproved env.this) {history : List Action}
    (external : ∀ a ∈ history, a.External env)
    (reached : s = run (step env) (initialized env TRIBE ledger blockNumber) history) :
    ACC_TRIBE_PRECISION * (harvested s pid + pendingOf s pid) ≤
      ACC_TRIBE_PRECISION * rewarded s pid +
        total (step env) (fun s a _ => dust s pid a)
          (initialized env TRIBE ledger blockNumber) history := by
  have overdraws : Overdraws pid (initialized env TRIBE ledger blockNumber) _ _ :=
    run_overdraws none external pid
  have owed : owedBy (initialized env TRIBE ledger blockNumber) pid = 0 :=
    owedBy_initialized TRIBE ledger blockNumber pid
  have paid : harvested (initialized env TRIBE ledger blockNumber) pid = 0 := rfl
  have accrued : rewarded (initialized env TRIBE ledger blockNumber) pid = 0 := rfl
  have pending := mul_pendingOf_le s pid
  rw [← reached] at overdraws
  unfold Overdraws at overdraws
  rw [owed, paid, accrued] at overdraws
  rw [Nat.mul_add]
  omega

/-- The dust of a run on pool `pid`. -/
def dustOfRun (env : TribalChiefEnv) (pid : Nat) (start : TribalChiefState)
    (history : List Action) : Nat :=
  total (step env) (fun s a _ => dust s pid a) start history

/-- **Reward solvency.** With all that is pending counted as paid, a pool never pays more than it
has accrued and the dust of the run, which is less than one unit for each transaction; and not
more than it has accrued if the dust of the whole run is less than one unit, as it is when no
transaction that succeeds makes any. -/
theorem harvests_le_accrued {TRIBE : Address} {ledger : Ledger} {blockNumber : Nat}
    (none : ledger.Unapproved env.this) {history : List Action}
    (external : ∀ a ∈ history, a.External env)
    (reached : s = run (step env) (initialized env TRIBE ledger blockNumber) history) :
    let start := initialized env TRIBE ledger blockNumber
    (dustOfRun env pid start history < ACC_TRIBE_PRECISION →
      harvested s pid + pendingOf s pid ≤ rewarded s pid) ∧
    (Along (step env) (fun s a => ∀ s', step env s a = .ok s' → dust s pid a = 0) start history →
      harvested s pid + pendingOf s pid ≤ rewarded s pid) ∧
    ACC_TRIBE_PRECISION * (harvested s pid + pendingOf s pid) ≤
      ACC_TRIBE_PRECISION * rewarded s pid + dustOfRun env pid start history ∧
    harvested s pid + pendingOf s pid ≤ rewarded s pid + history.length := by
  intro start
  have paid : _ * (_ + pendingOf s pid) ≤ _ + dustOfRun env pid start history :=
    paid_le none external reached
  have small : dustOfRun env pid start history < ACC_TRIBE_PRECISION →
      harvested s pid + pendingOf s pid ≤ rewarded s pid := by
    intro less
    have fewer := Nat.lt_of_le_of_lt paid (Nat.add_lt_add_left less _)
    rw [← Nat.mul_succ] at fewer
    exact Nat.le_of_lt_succ (Nat.lt_of_mul_lt_mul_left fewer)
  refine ⟨small, fun exact => small ?_, paid, ?_⟩
  · rw [dustOfRun, total_eq_zero exact]
    exact precision_pos
  · have bound : dustOfRun env pid start history ≤ history.length * ACC_TRIBE_PRECISION :=
      total_le (fun s a => dust_le s pid a) _ _
    refine Nat.le_of_mul_le_mul_left ?_ precision_pos
    rw [Nat.mul_add _ (rewarded s pid), Nat.mul_comm _ history.length]
    exact Nat.le_trans paid (Nat.add_le_add_left bound _)

end TribalChief

namespace TribalChief.Sample

/-- Account 6 stakes two units at once, and both accounts harvest. -/
def together : List Action :=
  halves ++ [.deposit 6 0 2 0, .mine 2, .harvest 5 0 5, .withdrawFromDeposit 6 0 1 6 0,
    .harvest 6 0 6]

/-- Account 6 stakes them one by one. -/
def apart : List Action :=
  halves ++ [.deposit 6 0 1 0, .deposit 6 0 1 0, .harvest 5 0 5, .harvest 6 0 6]

theorem together_external : ∀ a ∈ together, a.External env := by
  simp [together, halves, addPool, Action.External]

theorem together_exact : dustOfRun env 0 start together = 0 := by decide +kernel

end TribalChief.Sample

namespace TribalChief

theorem harvests_le_accrued_sample :
    harvested (run (step Sample.env) Sample.start Sample.together) 0 +
        pendingOf (run (step Sample.env) Sample.start Sample.together) 0 ≤
      rewarded (run (step Sample.env) Sample.start Sample.together) 0 := by
  have reached : run (step Sample.env) Sample.start Sample.together =
    run (step Sample.env) (initialized Sample.env 20 Sample.ledger 100) Sample.together := rfl
  obtain ⟨whole, _⟩ := @harvests_le_accrued _ _ 0 20 _ 100 Sample.unapproved _
    Sample.together_external reached
  exact whole (lt_of_eq_of_lt Sample.together_exact precision_pos)

theorem rewarded_apart :
    rewarded (run (step Sample.env) Sample.start Sample.apart) 0 = 75 * 10 ^ 18 := by
  decide +kernel

theorem harvested_apart :
    harvested (run (step Sample.env) Sample.start Sample.apart) 0 = 75 * 10 ^ 18 + 1 := by
  decide +kernel

/-- Two deposits of one unit each, at half a unit of TRIBE for each, leave no debt and have
been granted one unit: the pool pays more than it has accrued. -/
theorem harvests_exceed_accrued :
    ¬ harvested (run (step Sample.env) Sample.start Sample.apart) 0 +
        pendingOf (run (step Sample.env) Sample.start Sample.apart) 0 ≤
      rewarded (run (step Sample.env) Sample.start Sample.apart) 0 := by
  rw [rewarded_apart, harvested_apart]
  omega

end TribalChief

end FeiProtocol
