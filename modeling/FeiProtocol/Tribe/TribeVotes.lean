import FeiProtocol.Tribe.TribeSteps
import Mathlib.Data.FinEnum

/-!
# Votes and balances of `Tribe`

The votes of a delegate are the balances of those who delegate to it, whoever transfers, mints
and delegates what. So the arithmetic on votes cannot fail.

* `Ballots`: the invariant.
* `votes_eq_balances`: it holds in every state, and an operation whose own checks pass succeeds.
-/

namespace FeiProtocol

open Evm

namespace Tribe

open Checkpoints Tally

variable {env : TribeEnv} {s s' t : TribeState} {src dst srcRep dstRep : Address} {amount : Nat}

/-- The votes of a delegate are the balances of those who delegate to it. -/
structure Ballots (s : TribeState) : Prop where
  mined : 0 < s.blockNumber
  sum : ∑ a, s.balances a = s.totalSupply
  supply_lt : s.totalSupply < 2 ^ 96
  votes : ∀ d, d ≠ 0 → getCurrentVotes s d = tally s.balances s.delegates d
  recorded : ∀ a, Recorded s a

theorem Akin.ballots (ballots : Ballots s) (akin : Akin s t) : Ballots t := by
  constructor
  · rw [akin.block]
    exact ballots.mined
  · rw [akin.balances, akin.supply]
    exact ballots.sum
  · rw [akin.supply]
    exact ballots.supply_lt
  · rw [akin.balances, akin.delegates]
    intro d nonzero
    rw [getCurrentVotes_congr akin.checkpoints akin.numCheckpoints]
    exact ballots.votes d nonzero
  · exact fun a => (ballots.recorded a).congr akin.checkpoints akin.numCheckpoints
      (Nat.le_of_eq akin.block.symm)

/-- Before a move, the votes lag behind the balances by the amount that is moved. -/
structure Lagging (t : TribeState) (srcRep dstRep : Address) (amount : Nat) : Prop where
  mined : 0 < t.blockNumber
  sum : ∑ a, t.balances a = t.totalSupply
  supply_lt : t.totalSupply < 2 ^ 96
  votes : ∀ d, d ≠ 0 → getCurrentVotes t d + (if dstRep = d then amount else 0) =
    tally t.balances t.delegates d + if srcRep = d then amount else 0
  recorded : ∀ a, Recorded t a

/-- The move makes up for it. -/
theorem Lagging.ballots (lagging : Lagging t srcRep dstRep amount)
    (moved : Moved t s' srcRep dstRep amount) : Ballots s' := by
  constructor
  · rw [moved.block]
    exact lagging.mined
  · rw [moved.balances, moved.supply]
    exact lagging.sum
  · rw [moved.supply]
    exact lagging.supply_lt
  · rw [moved.balances, moved.delegates]
    intro d nonzero
    have before := lagging.votes d nonzero
    have change := moved.votes d nonzero
    omega
  · exact moved.recorded lagging.mined lagging.recorded

/-- The move succeeds. -/
theorem Lagging.moves (lagging : Lagging t srcRep dstRep amount)
    (small : t.blockNumber < 2 ^ 32) :
    ∃ s', _moveDelegates t srcRep dstRep amount = .ok s' := by
  refine moveDelegates_succeeds lagging.recorded lagging.mined small (fun other nonzero => ?_)
    fun other nonzero => ?_
  · have before := lagging.votes srcRep nonzero
    rw [if_pos rfl, if_neg (Ne.symm other)] at before
    omega
  · have before := lagging.votes dstRep nonzero
    have bound := tally_le t.balances t.delegates dstRep
    have fits := lagging.supply_lt
    rw [if_pos rfl, if_neg other] at before
    rw [lagging.sum] at bound
    omega

/-! ## The three kinds of moves -/

theorem Ballots.redelegated (ballots : Ballots s) (delegator delegatee : Address) :
    Lagging (redelegated s delegator delegatee) (s.delegates delegator) delegatee
      (s.balances delegator) where
  mined := ballots.mined
  sum := ballots.sum
  supply_lt := ballots.supply_lt
  votes d nonzero := by
    have others : ∀ k, k ≠ delegator →
        Function.update s.delegates delegator delegatee k = s.delegates k :=
      fun k other => Function.update_of_ne other _ _
    have change := tally_choice s.balances others d
    have votes : getCurrentVotes (Tribe.redelegated s delegator delegatee) d = _ :=
      ballots.votes d nonzero
    rw [Function.update_self] at change
    rw [votes]
    exact change.symm
  recorded a := (ballots.recorded a).congr rfl rfl (Nat.le_refl _)

/-- Adding to one balance. -/
theorem sum_update (balances : Address → Nat) (a : Address) (v : Nat) :
    ∑ k, Function.update balances a v k + balances a = ∑ k, balances k + v := by
  have change := Tables.sum_change (f := balances) (g := Function.update balances a v)
    (Finset.mem_univ a) fun k _ other => Function.update_of_ne other _ _
  rw [Function.update_self] at change
  exact change

theorem tally_update (balances : Address → Nat) (choice : Address → Address) (a : Address)
    (v : Nat) (d : Address) : tally (Function.update balances a v) choice d +
      (if choice a = d then balances a else 0) =
        tally balances choice d + if choice a = d then v else 0 := by
  have others : ∀ k, k ≠ a → Function.update balances a v k = balances k :=
    fun k other => Function.update_of_ne other _ _
  have change := tally_weights choice others d
  rw [Function.update_self] at change
  exact change

theorem Ballots.transferred (ballots : Ballots s) (dst : Address)
    (enough : amount ≤ s.balances src) :
    Lagging (transferred s src dst amount) (s.delegates src) (s.delegates dst) amount where
  mined := ballots.mined
  sum := by
    have taken := sum_update s.balances src (s.balances src - amount)
    have given := sum_update (Function.update s.balances src (s.balances src - amount)) dst
      (Function.update s.balances src (s.balances src - amount) dst + amount)
    have sum := ballots.sum
    simp only [Tribe.transferred]
    omega
  supply_lt := ballots.supply_lt
  votes d nonzero := by
    have taken := tally_update s.balances s.delegates src (s.balances src - amount) d
    have given := tally_update (Function.update s.balances src (s.balances src - amount))
      s.delegates dst (Function.update s.balances src (s.balances src - amount) dst + amount) d
    have votes : getCurrentVotes (Tribe.transferred s src dst amount) d = _ :=
      ballots.votes d nonzero
    rw [votes]
    simp only [Tribe.transferred]
    by_cases source : s.delegates src = d <;> by_cases target : s.delegates dst = d <;>
      simp only [source, target, if_true, if_false] at taken given ⊢ <;> omega
  recorded a := (ballots.recorded a).congr rfl rfl (Nat.le_refl _)

theorem Ballots.minted (ballots : Ballots s) (dst : Address)
    (fits : s.totalSupply + amount < 2 ^ 96) :
    Lagging (minted s dst amount) 0 (s.delegates dst) amount where
  mined := ballots.mined
  sum := by
    have given := sum_update s.balances dst (s.balances dst + amount)
    have sum := ballots.sum
    simp only [Tribe.minted]
    omega
  supply_lt := fits
  votes d nonzero := by
    have given := tally_update s.balances s.delegates dst (s.balances dst + amount) d
    have votes : getCurrentVotes (Tribe.minted s dst amount) d = _ := ballots.votes d nonzero
    rw [votes, if_neg (Ne.symm nonzero)]
    simp only [Tribe.minted]
    by_cases target : s.delegates dst = d <;>
      simp only [target, if_true, if_false] at given ⊢ <;> omega
  recorded a := (ballots.recorded a).congr rfl rfl (Nat.le_refl _)

/-! ## Runs -/

/-- **The step.** -/
theorem Transaction.ballots (transaction : Transaction s s') (ballots : Ballots s) :
    Ballots s' := by
  cases transaction with
  | keeps akin => exact akin.ballots ballots
  | delegates akin succeeds =>
      exact ((akin.ballots ballots).redelegated _ _).ballots (moved_of_moveDelegates succeeds)
  | transfers akin succeeds =>
      obtain ⟨_, _, enough, _, moves⟩ := transferTokens_eq_ok_iff.mp succeeds
      exact ((akin.ballots ballots).transferred _ enough).ballots (moved_of_moveDelegates moves)
  | mints succeeds =>
      obtain ⟨_, _, _, _, fits, _, moves⟩ := mint_eq_ok_iff.mp succeeds
      exact (ballots.minted _ fits).ballots (moved_of_moveDelegates moves)
  | mine blocks seconds =>
      refine ⟨Nat.add_pos_left ballots.mined _, ballots.sum, ballots.supply_lt, ballots.votes,
        fun a => ?_⟩
      exact (ballots.recorded a).congr rfl rfl (Nat.le_add_right _ _)

/-- One account holds everything. -/
theorem sum_single (a : Address) (v : Nat) :
    ∑ k, Function.update (fun _ => 0) a v k = v := by
  have change := sum_update (fun _ => 0) a v
  have none : ∑ _k : Address, 0 = 0 := Finset.sum_const_zero
  omega

theorem initialSupply_mod : initialSupply % 2 ^ 96 = initialSupply := by decide

theorem ballots_constructed (account minter_ : Address) (parent timestamp : Nat) :
    Ballots (constructed account minter_ parent timestamp) where
  mined := Nat.succ_pos parent
  sum := (sum_single account (initialSupply % 2 ^ 96)).trans initialSupply_mod
  supply_lt := by
    have fits : initialSupply < 2 ^ 96 := by decide
    exact fits
  votes d nonzero := by
    have none : tally (constructed account minter_ parent timestamp).balances
        (constructed account minter_ parent timestamp).delegates d = 0 :=
      Finset.sum_eq_zero fun a _ => if_neg (Ne.symm nonzero)
    rw [none]
    rfl
  recorded a := recorded_constructed account minter_ parent timestamp a

/-- Operations whose own checks pass succeed. -/
structure Usable (env : TribeEnv) (s : TribeState) : Prop where
  transfer : ∀ {src dst : Address} {rawAmount : Nat}, src ≠ 0 → dst ≠ 0 →
    rawAmount ≤ s.balances src → ∃ s', Tribe.transfer s src dst rawAmount = .ok s'
  transferFrom : ∀ {spender src dst : Address} {rawAmount : Nat}, src ≠ 0 → dst ≠ 0 →
    rawAmount ≤ s.balances src → (spender = src ∨ s.allowances src spender = 2 ^ 96 - 1 ∨
      rawAmount ≤ s.allowances src spender) →
    ∃ s', Tribe.transferFrom s spender src dst rawAmount = .ok s'
  mint : ∀ {dst : Address} {rawAmount : Nat}, dst ≠ 0 → s.totalSupply + rawAmount < 2 ^ 96 →
    ∃ s', Tribe.mint s s.minter dst rawAmount = .ok s'
  delegate : ∀ delegator delegatee : Address, ∃ s', Tribe.delegate s delegator delegatee = .ok s'
  delegateBySig : ∀ {delegatee signatory : Address} {nonce expiry : UInt256} {v : BitVec 8}
      {r sig : Bytes32},
    Tribe.signatory env (delegationWords env delegatee nonce expiry) v r sig = signatory →
    signatory ≠ 0 → nonce.toNat = s.nonces signatory →
    nonce.toNat + 1 < 2 ^ 256 → s.timestamp ≤ expiry.toNat →
    ∃ s', Tribe.delegateBySig env s delegatee nonce expiry v r sig = .ok s'

theorem Ballots.balance_le (ballots : Ballots s) (a : Address) :
    s.balances a ≤ s.totalSupply := by
  rw [← ballots.sum]
  exact Finset.single_le_sum (fun _ _ => Nat.zero_le _) (Finset.mem_univ a)

theorem Ballots.transferTokens (ballots : Ballots s) (small : s.blockNumber < 2 ^ 32)
    (source : src ≠ 0) (target : dst ≠ 0) (enough : amount ≤ s.balances src) :
    ∃ s', _transferTokens s src dst amount = .ok s' := by
  obtain ⟨s', moves⟩ := (ballots.transferred dst enough).moves small
  refine ⟨s', transferTokens_eq_ok_iff.mpr ⟨source, target, enough, ?_, moves⟩⟩
  -- all of the balances fit together
  have sum := (ballots.transferred dst enough).sum
  have fits := ballots.supply_lt
  have single := Finset.single_le_sum (f := (Tribe.transferred s src dst amount).balances)
    (fun _ _ => Nat.zero_le _) (Finset.mem_univ dst)
  rw [sum] at single
  simp only [Tribe.transferred, Function.update_self] at single
  omega

theorem Ballots.delegate (ballots : Ballots s) (small : s.blockNumber < 2 ^ 32)
    (delegator delegatee : Address) : ∃ s', _delegate s delegator delegatee = .ok s' :=
  (ballots.redelegated delegator delegatee).moves small

theorem Ballots.usable (ballots : Ballots s) (small : s.blockNumber < 2 ^ 32) : Usable env s where
  transfer {src dst rawAmount} source target enough := by
    have le := Nat.le_trans enough (ballots.balance_le src)
    have fits := Nat.lt_of_le_of_lt le ballots.supply_lt
    obtain ⟨s', transfers⟩ := ballots.transferTokens small source target enough
    exact ⟨s', bind_eq_ok_iff.mpr ⟨rawAmount, safe96_eq_ok_iff.mpr ⟨fits, rfl⟩, transfers⟩⟩
  transferFrom {spender src dst rawAmount} source target enough allowed := by
    have le := Nat.le_trans enough (ballots.balance_le src)
    have fits := Nat.lt_of_le_of_lt le ballots.supply_lt
    simp only [Tribe.transferFrom, bind_eq_ok_iff, safe96_eq_ok_iff]
    by_cases limited : spender ≠ src ∧ s.allowances src spender ≠ 2 ^ 96 - 1
    · have covered : rawAmount ≤ s.allowances src spender := by
        rcases allowed with same | infinite | covered
        · exact absurd same limited.1
        · exact absurd infinite limited.2
        · exact covered
      have akin := akin_of_allowances (s := s)
        (update₂ s.allowances src spender (s.allowances src spender - rawAmount)) s.nonces
        (s.events ++ [.Approval src spender (s.allowances src spender - rawAmount)])
      obtain ⟨s', transfers⟩ := (akin.ballots ballots).transferTokens small source target enough
      refine ⟨s', rawAmount, ⟨fits, rfl⟩, _, ?_, transfers⟩
      rw [if_pos limited]
      simp only [bind_eq_ok_iff, sub96_eq_ok_iff]
      exact ⟨_, ⟨covered, rfl⟩, rfl⟩
    · obtain ⟨s', transfers⟩ := ballots.transferTokens small source target enough
      exact ⟨s', rawAmount, ⟨fits, rfl⟩, s, if_neg limited, transfers⟩
  mint {dst rawAmount} target fits := by
    have single := ballots.balance_le dst
    obtain ⟨s', moves⟩ := (ballots.minted dst fits).moves small
    refine ⟨s', mint_eq_ok_iff.mpr ⟨rfl, target, ?_, ballots.supply_lt, fits, ?_, moves⟩⟩
    · omega
    · omega
  delegate delegator delegatee := ballots.delegate small delegator delegatee
  delegateBySig {delegatee signatory nonce expiry v r sig} signs nonzero count room time := by
    simp only [Tribe.delegateBySig, bind_eq_ok_iff, require_eq_ok_iff, exists_const,
      checkedAdd_eq_ok_iff]
    rw [count] at room
    rw [signs]
    have akin := akin_of_allowances (s := s) s.allowances
      (Function.update s.nonces signatory (s.nonces signatory + 1)) s.events
    obtain ⟨s', delegates⟩ := (akin.ballots ballots).delegate small signatory delegatee
    exact ⟨s', nonzero, _, ⟨room, rfl⟩, count, time, delegates⟩

/-- **Votes and balances.** In every state the balances add up to a supply of less than 96 bits,
and the votes of a delegate are the balances of those who delegate to it. So no operation whose
own checks pass fails. -/
theorem votes_eq_balances {account minter_ : Address} {parent timestamp : Nat}
    {history : List Action}
    (reached : s = run (step env) (constructed account minter_ parent timestamp) history) :
    s.totalSupply = ∑ a, s.balances a ∧ s.totalSupply < 2 ^ 96 ∧
    (∀ d, d ≠ 0 → getCurrentVotes s d = ∑ a, if s.delegates a = d then s.balances a else 0) ∧
    (s.blockNumber < 2 ^ 32 → Usable env s) := by
  have ballots : Ballots s := by
    rw [reached]
    refine run_invariant (I := Ballots) (A := fun _ => True) ?_
      (ballots_constructed account minter_ parent timestamp) fun _ _ => trivial
    exact fun ballots _ succeeds => (transaction_of_step succeeds).ballots ballots
  exact ⟨ballots.sum.symm, ballots.supply_lt, ballots.votes, ballots.usable⟩

theorem votes_eq_balances_sample :
    getCurrentVotes (run (step Sample.env) Sample.start Sample.history) 5 =
      (∑ a, if (run (step Sample.env) Sample.start Sample.history).delegates a = 5 then
        (run (step Sample.env) Sample.start Sample.history).balances a else 0) ∧
    Usable Sample.env (run (step Sample.env) Sample.start Sample.history) := by
  have reached : run (step Sample.env) Sample.start Sample.history =
    run (step Sample.env) (constructed 5 1 99 1000) Sample.history := rfl
  obtain ⟨_, _, votes, usable⟩ := votes_eq_balances reached
  exact ⟨votes 5 (by decide), usable (by decide)⟩

end Tribe

end FeiProtocol
