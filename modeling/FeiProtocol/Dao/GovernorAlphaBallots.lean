import FeiProtocol.Dao.GovernorAlphaSteps
import FeiProtocol.Math.Tables
import Mathlib.Data.FinEnum

/-!
# Ballots of `GovernorAlpha`

* `Proposal.Tallied.count`: the votes of a proposal are those of its receipts, and stay so.
* `Ballots.did`, `Ballots.mine`: and once the voting has closed, they stay as they are.
-/

namespace FeiProtocol

open Evm

/-- Each voter is counted once, with the votes of the first block. -/
structure Proposal.Tallied (priorVotes : Address → Nat → BitVec 96) (proposal : Proposal) :
    Prop where
  ordered : proposal.startBlock ≤ proposal.endBlock
  tally : proposal.forVotes + proposal.againstVotes = ∑ voter, (proposal.receipts voter).votes
  counted : ∀ voter, (proposal.receipts voter).votes =
    if (proposal.receipts voter).hasVoted then (priorVotes voter proposal.startBlock).toNat else 0

theorem Proposal.Tallied.count {priorVotes : Address → Nat → BitVec 96} {proposal : Proposal}
    (tallied : proposal.Tallied priorVotes) {voter : Address}
    (first : (proposal.receipts voter).hasVoted = false) (support : Bool) :
    (proposal.counted voter support (priorVotes voter proposal.startBlock).toNat).Tallied
      priorVotes := by
  obtain ⟨ordered, tally, counted⟩ := tallied
  have none : (proposal.receipts voter).votes = 0 := by rw [counted, first]; rfl
  refine ⟨ordered, ?_, fun voter' => ?_⟩
  · have change := Tables.sum_change (f := fun v => (proposal.receipts v).votes)
      (g := fun v => ((proposal.counted voter support
        (priorVotes voter proposal.startBlock).toNat).receipts v).votes)
      (Finset.mem_univ voter) fun v _ other => by
        simp only [Proposal.counted, Function.update_of_ne other]
    have own : ((proposal.counted voter support
        (priorVotes voter proposal.startBlock).toNat).receipts voter).votes =
        (priorVotes voter proposal.startBlock).toNat := by
      simp only [Proposal.counted, Function.update_self]
    rw [own, none, add_zero] at change
    rw [change, ← tally]
    cases support with
    | true => exact Nat.add_right_comm _ _ _
    | false => exact (Nat.add_assoc _ _ _).symm
  · by_cases same : voter' = voter
    · subst same
      simp only [Proposal.counted, Function.update_self, if_pos]
    · simp only [Proposal.counted, Function.update_of_ne same]
      exact counted voter'

namespace GovernorAlpha

variable {H : Type}

/-- The ballots of all proposals. `began b` is the state with which block `b` began. -/
structure Ballots (env : GovernorAlphaEnv H) (began : Nat → GovernorAlphaState H)
    (s : GovernorAlphaState H) : Prop where
  blank : ∀ {id}, s.proposalCount < id → s.proposals id = .blank
  tallied : ∀ id, (s.proposals id).Tallied env.priorVotes
  closed : ∀ {id}, Known s id → (s.proposals id).endBlock < s.blockNumber →
    ((began ((s.proposals id).endBlock + 1)).proposals id).forVotes = (s.proposals id).forVotes ∧
      ((began ((s.proposals id).endBlock + 1)).proposals id).againstVotes =
        (s.proposals id).againstVotes

variable {env : GovernorAlphaEnv H} {began began' : Nat → GovernorAlphaState H}
  {s s' : GovernorAlphaState H} {id : Nat}

theorem Ballots.congr (ballots : Ballots env began s) (proposals : s'.proposals = s.proposals)
    (proposalCount : s'.proposalCount = s.proposalCount)
    (blockNumber : s'.blockNumber = s.blockNumber) : Ballots env began s' where
  blank unknown := by
    rw [proposalCount] at unknown
    rw [proposals]
    exact ballots.blank unknown
  tallied id := by
    rw [proposals]
    exact ballots.tallied id
  closed {id} known ended := by
    rw [proposals] at ended ⊢
    rw [blockNumber] at ended
    exact ballots.closed ⟨known.pos, proposalCount ▸ known.le⟩ ended

/-- What may happen to the ballots of one proposal. -/
theorem Ballots.revise (ballots : Ballots env began s) (known : Known s id) {proposal : Proposal}
    (tallied : proposal.Tallied env.priorVotes)
    (ends : proposal.endBlock = (s.proposals id).endBlock)
    (votes : (s.proposals id).endBlock < s.blockNumber →
      proposal.forVotes = (s.proposals id).forVotes ∧
        proposal.againstVotes = (s.proposals id).againstVotes)
    (proposals : s'.proposals = Function.update s.proposals id proposal)
    (proposalCount : s'.proposalCount = s.proposalCount)
    (blockNumber : s'.blockNumber = s.blockNumber) : Ballots env began s' where
  blank {id'} unknown := by
    have le := known.le
    rw [proposalCount] at unknown
    rw [proposals, Function.update_of_ne (by omega)]
    exact ballots.blank unknown
  tallied id' := by
    rw [proposals]
    by_cases same : id' = id
    · rw [same, Function.update_self]
      exact tallied
    · rw [Function.update_of_ne same]
      exact ballots.tallied id'
  closed {id'} known' ended := by
    have kept : Known s id' := ⟨known'.pos, proposalCount ▸ known'.le⟩
    rw [proposals] at ended ⊢
    rw [blockNumber] at ended
    by_cases same : id' = id
    · subst same
      rw [Function.update_self] at ended ⊢
      rw [ends] at ended ⊢
      rw [(votes ended).1, (votes ended).2]
      exact ballots.closed kept ended
    · rw [Function.update_of_ne same] at ended ⊢
      exact ballots.closed kept ended

/-- Time passes. -/
theorem Ballots.mine (ballots : Ballots env began s) (blocks seconds : Nat)
    (past : ∀ b ≤ s.blockNumber, began' b = began b)
    (now : ∀ b, s.blockNumber < b → b ≤ s.blockNumber + blocks → began' b = s) :
    Ballots env began'
      { s with blockNumber := s.blockNumber + blocks, timestamp := s.timestamp + seconds } where
  blank := ballots.blank
  tallied := ballots.tallied
  closed {id} known ended := by
    dsimp only at ended ⊢
    rcases Nat.lt_or_ge (s.proposals id).endBlock s.blockNumber with before | during
    · rw [past _ before]
      exact ballots.closed ⟨known.pos, known.le⟩ before
    · rw [now _ (Nat.lt_succ_of_le during) ended]
      exact ⟨rfl, rfl⟩

theorem Ballots.past (ballots : Ballots env began s)
    (past : ∀ b ≤ s.blockNumber, began' b = began b) : Ballots env began' s where
  blank := ballots.blank
  tallied := ballots.tallied
  closed known ended := by
    rw [past _ ended]
    exact ballots.closed known ended

theorem ballots_constructed (timelock : TimelockState H) (guardian : Address)
    (blockNumber timestamp : Nat) :
    Ballots env began (construct timelock guardian blockNumber timestamp) where
  blank _ := rfl
  tallied _ := ⟨Nat.le_refl _, Finset.sum_const_zero.symm, fun _ => rfl⟩
  closed known _ := absurd (Nat.lt_of_lt_of_le known.pos known.le) (Nat.lt_irrefl 0)

variable [DecidableEq H]

/-- Ballots are only cast before the vote has closed. -/
theorem Ballots.did (ballots : Ballots env began s) (did : Did env s s') :
    Ballots env began s' := by
  cases did with
  | proposed proposer actions latest =>
      have empty := ballots.blank (Nat.lt_succ_self s.proposalCount)
      rw [empty]
      refine ⟨fun {id} unknown => ?_, fun id => ?_, fun {id} known ended => ?_⟩
      · dsimp only at unknown ⊢
        rw [Function.update_of_ne (by omega)]
        exact ballots.blank (by omega)
      · dsimp only
        by_cases same : id = s.proposalCount + 1
        · rw [same, Function.update_self]
          refine ⟨Nat.le_add_right _ _, ?_, fun voter => rfl⟩
          exact Finset.sum_const_zero.symm
        · rw [Function.update_of_ne same]
          exact ballots.tallied id
      · dsimp only at ended ⊢
        by_cases same : id = s.proposalCount + 1
        · rw [same, Function.update_self] at ended
          dsimp only at ended
          omega
        · rw [Function.update_of_ne same] at ended ⊢
          exact ballots.closed ⟨known.pos, by have := known.le; dsimp only at this; omega⟩ ended
  | voted voter id support known active first =>
      refine ballots.revise known ((ballots.tallied id).count first support) rfl (fun ended => ?_)
        rfl rfl rfl
      exact absurd ended (Nat.not_lt.mpr active.2.2)
  | queued id eta t known succeeded timed loop =>
      have engaged := engaged_of_foldlM engaged_of_queueOrRevert loop
      have before := ballots.tallied id
      have tallied : Proposal.Tallied env.priorVotes { s.proposals id with eta := eta } :=
        ⟨before.ordered, before.tally, before.counted⟩
      exact ballots.revise known tallied rfl (fun _ => ⟨rfl, rfl⟩) rfl engaged.proposalCount
        engaged.blockNumber
  | canceled id t known live loop =>
      have engaged := engaged_of_foldlM engaged_of_cancelAction loop
      have before := ballots.tallied id
      have tallied : Proposal.Tallied env.priorVotes { s.proposals id with canceled := true } :=
        ⟨before.ordered, before.tally, before.counted⟩
      exact ballots.revise known tallied rfl (fun _ => ⟨rfl, rfl⟩) engaged.proposals
        engaged.proposalCount engaged.blockNumber
  | quiet timelock guardian admin queue => exact ballots.congr rfl rfl rfl

end GovernorAlpha

end FeiProtocol
