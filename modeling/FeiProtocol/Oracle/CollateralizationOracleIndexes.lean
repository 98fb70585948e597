import FeiProtocol.Math.Fibres
import FeiProtocol.Oracle.CollateralizationOracle

/-!
# The indexes of `CollateralizationOracle`

Whatever is added, removed and swapped, `tokenToDeposits` and `tokensInPcv` are the fibres and the
image of `depositToToken`.

* `Indexed`: the invariant.
* `indexed_of_reached`: it holds in every state.
-/

namespace FeiProtocol

open Evm

namespace CollateralizationOracle

open CoreRef EnumerableSet

variable {σ : Type} [EnumerableSet σ Address]
  {balanceReportedIn : Address → Except Revert Address}
  {s s' : CollateralizationOracleState σ} {msgSender : Address}

/-- The indexes agree, each token that is held has an oracle, and each deposit is under the token
in which it reports. -/
structure Indexed (balanceReportedIn : Address → Except Revert Address)
    (s : CollateralizationOracleState σ) : Prop where
  fibred : Fibred 0 s.depositToToken s.tokenToDeposits s.tokensInPcv
  unset : s.tokenToOracle 0 = 0
  oracles : ∀ t ∈ values s.tokensInPcv, s.tokenToOracle t ≠ 0
  reported : ∀ d, s.depositToToken d ≠ 0 → balanceReportedIn d = .ok (s.depositToToken d)

/-- Only the indexes and the oracles matter. -/
theorem Indexed.congr (indexed : Indexed balanceReportedIn s)
    (tokens : s'.depositToToken = s.depositToToken)
    (deposits : s'.tokenToDeposits = s.tokenToDeposits)
    (held : s'.tokensInPcv = s.tokensInPcv) (oracles : s'.tokenToOracle = s.tokenToOracle) :
    Indexed balanceReportedIn s' := by
  refine ⟨?_, ?_, ?_, ?_⟩
  · rw [tokens, deposits, held]
    exact indexed.fibred
  · rw [oracles]
    exact indexed.unset
  · rw [held, oracles]
    exact indexed.oracles
  · rw [tokens]
    exact indexed.reported

theorem Indexed.addDeposit {_deposit : Address} (indexed : Indexed balanceReportedIn s)
    (succeeds : _addDeposit balanceReportedIn s msgSender _deposit = .ok s') :
    Indexed balanceReportedIn s' := by
  simp only [_addDeposit, bind_eq_ok_iff, require_eq_ok_iff, exists_const, pure_eq_ok_iff]
    at succeeds
  obtain ⟨free, _token, reports, oracle, same⟩ := succeeds
  subst same
  -- no oracle was ever set for the zero address
  have set : _token ≠ 0 := fun zero => oracle (zero ▸ indexed.unset)
  refine ⟨indexed.fibred.insert free set, indexed.unset, fun t mem => ?_, fun d listed => ?_⟩
  · rcases mem_values_add.mp mem with new | old
    · rw [new]
      exact oracle
    · exact indexed.oracles t old
  · dsimp only at listed ⊢
    by_cases here : d = _deposit
    · rw [here, Function.update_self]
      exact reports
    · rw [Function.update_of_ne here] at listed ⊢
      exact indexed.reported d listed

theorem Indexed.removeDeposit {_deposit : Address} (indexed : Indexed balanceReportedIn s)
    (succeeds : _removeDeposit s msgSender _deposit = .ok s') : Indexed balanceReportedIn s' := by
  simp only [_removeDeposit, bind_eq_ok_iff, require_eq_ok_iff, exists_const, pure_eq_ok_iff,
    Function.update_self] at succeeds
  obtain ⟨listed, same⟩ := succeeds
  subst same
  refine ⟨indexed.fibred.delete rfl listed, indexed.unset, fun t mem => ?_, fun d still => ?_⟩
  · have before : t ∈ values s.tokensInPcv := by
      revert mem
      dsimp only
      split
      · exact fun mem => (mem_values_remove.mp mem).2
      · exact id
    exact indexed.oracles t before
  · dsimp only at still ⊢
    by_cases here : d = _deposit
    · rw [here, Function.update_self] at still
      exact absurd rfl still
    · rw [Function.update_of_ne here] at still ⊢
      exact indexed.reported d still

theorem Indexed.setOracle {_token _newOracle : Address} (indexed : Indexed balanceReportedIn s)
    (succeeds : _setOracle s msgSender _token _newOracle = .ok s') :
    Indexed balanceReportedIn s' := by
  simp only [_setOracle, bind_eq_ok_iff, require_eq_ok_iff, exists_const, pure_eq_ok_iff]
    at succeeds
  obtain ⟨token, oracle, same⟩ := succeeds
  subst same
  refine ⟨indexed.fibred, ?_, fun t mem => ?_, indexed.reported⟩
  · exact (Function.update_of_ne (Ne.symm token) _ _).trans indexed.unset
  · dsimp only
    by_cases here : t = _token
    · rw [here, Function.update_self]
      exact oracle
    · rw [Function.update_of_ne here]
      exact indexed.oracles t mem

theorem Indexed.addDeposits {_deposits : List Address} (indexed : Indexed balanceReportedIn s)
    (succeeds : _addDeposits balanceReportedIn s msgSender _deposits = .ok s') :
    Indexed balanceReportedIn s' :=
  foldlM_invariant (fun indexed _ adds => Indexed.addDeposit indexed adds) indexed succeeds

theorem Indexed.setOracles {_tokens _oracles : List Address}
    (indexed : Indexed balanceReportedIn s)
    (succeeds : _setOracles s msgSender _tokens _oracles = .ok s') :
    Indexed balanceReportedIn s' := by
  simp only [_setOracles, bind_eq_ok_iff, require_eq_ok_iff, exists_const] at succeeds
  exact foldlM_invariant (fun indexed _ sets => Indexed.setOracle indexed sets) indexed succeeds.2

theorem Indexed.administer {administration : Administration}
    (indexed : Indexed balanceReportedIn s)
    (succeeds : administer balanceReportedIn s msgSender administration = .ok s') :
    Indexed balanceReportedIn s' := by
  cases administration with
  | addDeposit _deposit => exact indexed.addDeposit succeeds
  | addDeposits _deposits => exact indexed.addDeposits succeeds
  | removeDeposit _deposit => exact indexed.removeDeposit succeeds
  | removeDeposits _deposits =>
      exact foldlM_invariant (fun indexed _ removes => Indexed.removeDeposit indexed removes)
        indexed succeeds
  | swapDeposit _oldDeposit _newDeposit =>
      obtain ⟨m, removes, adds⟩ := bind_eq_ok_iff.mp succeeds
      exact (indexed.removeDeposit removes).addDeposit adds
  | setOracle _token _newOracle => exact indexed.setOracle succeeds
  | setOracles _tokens _oracles => exact indexed.setOracles succeeds

/-- **The step.** -/
theorem indexed_of_step {call : Call} (indexed : Indexed balanceReportedIn s)
    (succeeds : step balanceReportedIn s call = .ok s') : Indexed balanceReportedIn s' := by
  unfold step at succeeds
  split at succeeds
  · obtain ⟨_, _, administers⟩ := bind_eq_ok_iff.mp succeeds
    exact indexed.administer administers
  · rw [pause_eq succeeds]
    exact indexed.congr rfl rfl rfl rfl
  · rw [unpause_eq succeeds]
    exact indexed.congr rfl rfl rfl rfl
  · obtain ⟨_, _, same⟩ := bind_eq_ok_iff.mp succeeds
    cases same
    exact indexed.congr rfl rfl rfl rfl

theorem indexed_of_construct {GOVERN_ROLE ORACLE_ADMIN_ROLE : Bytes32}
    {_deposits _tokens _oracles : List Address}
    (constructed : construct balanceReportedIn GOVERN_ROLE ORACLE_ADMIN_ROLE msgSender _deposits
      _tokens _oracles = .ok s) : Indexed balanceReportedIn s := by
  simp only [construct, bind_eq_ok_iff, pure_eq_ok_iff] at constructed
  obtain ⟨m, oracles, n, deposits, same⟩ := constructed
  subst same
  refine (Indexed.addDeposits (Indexed.setOracles ⟨.empty, rfl, fun t mem => ?_, fun d listed => ?_⟩
    oracles) deposits).congr rfl rfl rfl rfl
  · rw [values_empty] at mem
    exact absurd mem List.not_mem_nil
  · exact absurd rfl listed

/-- A state after some run from some construction. -/
inductive Reached (balanceReportedIn : Address → Except Revert Address)
    (s : CollateralizationOracleState σ) : Prop where
  | run {GOVERN_ROLE ORACLE_ADMIN_ROLE : Bytes32} {msgSender : Address}
      {_deposits _tokens _oracles : List Address} {s₀ : CollateralizationOracleState σ}
      (constructed : construct balanceReportedIn GOVERN_ROLE ORACLE_ADMIN_ROLE msgSender _deposits
        _tokens _oracles = .ok s₀) (history : List Call)
      (ends : Evm.run (step balanceReportedIn) s₀ history = s)

/-- **The run.** -/
theorem indexed_of_reached (reached : Reached balanceReportedIn s) :
    Indexed balanceReportedIn s := by
  cases reached with
  | run constructed history ends =>
      rw [← ends]
      exact run_invariant (I := Indexed balanceReportedIn) (A := fun _ => True)
        (fun indexed _ succeeds => indexed_of_step indexed succeeds)
        (indexed_of_construct constructed) fun _ _ => trivial

end CollateralizationOracle

end FeiProtocol
