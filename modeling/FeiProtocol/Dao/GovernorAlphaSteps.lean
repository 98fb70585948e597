import FeiProtocol.Dao.GovernorAlpha
import FeiProtocol.Evm.Loop

/-!
# What the functions of `GovernorAlpha` do

* `says_of_state`: what the state of a proposal says of its blocks, votes and flags.
* `did_of_call`: a call by its kind.
* `begun_of_beginExecute`, `ran_of_executeAction`: the two parts of an execution.
-/

namespace FeiProtocol

open Evm

/-- It is over, and it has carried. -/
structure Proposal.Carried (proposal : Proposal) (blockNumber : Nat) : Prop where
  ended : proposal.endBlock < blockNumber
  kept : proposal.canceled = false
  majority : proposal.againstVotes < proposal.forVotes
  quorum : GovernorAlpha.quorumVotes ≤ proposal.forVotes

/-- With a ballot more. -/
def Proposal.counted (proposal : Proposal) (voter : Address) (support : Bool) (votes : Nat) :
    Proposal :=
  { proposal with
    forVotes := if support then proposal.forVotes + votes else proposal.forVotes
    againstVotes := if support then proposal.againstVotes else proposal.againstVotes + votes
    receipts := Function.update proposal.receipts voter ⟨true, support, votes⟩ }

namespace GovernorAlpha

variable {H : Type} {env : GovernorAlphaEnv H} {s s' t : GovernorAlphaState H}
  {id eta : Nat} {a b c : Nat}

@[simp]
theorem add256_eq_ok_iff : add256 a b = .ok c ↔ a + b < 2 ^ 256 ∧ a + b = c := by
  simp only [add256, bind_eq_ok_iff, pure_eq_ok_iff, require_eq_ok_iff, exists_const,
    checkedAdd_eq_ok_iff]
  constructor
  · intro given
    rcases given with ⟨_, ⟨fits, value⟩, _, same⟩
    exact ⟨fits, value.trans same⟩
  · intro given
    rcases given with ⟨fits, same⟩
    exact ⟨c, ⟨fits, same⟩, by omega, rfl⟩

@[simp]
theorem getPriorVotes_eq_ok_iff {account : Address} :
    getPriorVotes env s account b = .ok c ↔
      b < s.blockNumber ∧ (env.priorVotes account b).toNat = c := by
  simp only [getPriorVotes, bind_eq_ok_iff, pure_eq_ok_iff, require_eq_ok_iff, exists_const]

/-! ## The state of a proposal -/

/-- There is a proposal with this id. -/
structure Known (s : GovernorAlphaState H) (id : Nat) : Prop where
  pos : 0 < id
  le : id ≤ s.proposalCount

/-- What each state says about a proposal. -/
def Says (s : GovernorAlphaState H) (proposal : Proposal) : ProposalState → Prop
  | .Canceled => proposal.canceled = true
  | .Pending => proposal.canceled = false ∧ s.blockNumber ≤ proposal.startBlock
  | .Active => proposal.canceled = false ∧ proposal.startBlock < s.blockNumber ∧
      s.blockNumber ≤ proposal.endBlock
  | .Defeated => proposal.canceled = false ∧ proposal.endBlock < s.blockNumber ∧
      (proposal.forVotes ≤ proposal.againstVotes ∨ proposal.forVotes < quorumVotes)
  | .Succeeded => proposal.Carried s.blockNumber ∧ proposal.eta = 0
  | .Executed => proposal.Carried s.blockNumber ∧ proposal.eta ≠ 0 ∧ proposal.executed = true
  | .Expired => proposal.Carried s.blockNumber ∧ proposal.eta ≠ 0 ∧ proposal.executed = false ∧
      proposal.eta + Timelock.GRACE_PERIOD ≤ s.timestamp
  | .Queued => proposal.Carried s.blockNumber ∧ proposal.eta ≠ 0 ∧ proposal.executed = false ∧
      s.timestamp < proposal.eta + Timelock.GRACE_PERIOD

/-- **Derived states.** -/
theorem says_of_state {proposalState : ProposalState} (found : state s id = .ok proposalState) :
    Known s id ∧ Says s (s.proposals id) proposalState := by
  unfold state at found
  obtain ⟨⟨le, pos⟩, found⟩ := by
    simpa only [seq_eq_ok_iff, require_eq_ok_iff] using found
  refine ⟨⟨pos, le⟩, ?_⟩
  generalize s.proposals id = proposal at found
  split at found
  · cases found
    assumption
  rename_i kept
  rw [Bool.not_eq_true] at kept
  split at found
  · rename_i before
    cases found
    exact ⟨kept, before⟩
  rename_i started
  split at found
  · rename_i during
    cases found
    exact ⟨kept, Nat.lt_of_not_le started, during⟩
  rename_i ended
  split at found
  · rename_i lost
    cases found
    exact ⟨kept, Nat.lt_of_not_le ended, lost⟩
  rename_i won
  rw [not_or] at won
  have carried : proposal.Carried s.blockNumber :=
    ⟨Nat.lt_of_not_le ended, kept, Nat.lt_of_not_le won.1, Nat.le_of_not_lt won.2⟩
  split at found
  · rename_i unset
    cases found
    exact ⟨carried, unset⟩
  rename_i set
  split at found
  · rename_i executed
    cases found
    exact ⟨carried, set, executed⟩
  rename_i waiting
  rw [Bool.not_eq_true] at waiting
  obtain ⟨expiry, value, found⟩ := bind_eq_ok_iff.mp found
  rw [add256_eq_ok_iff] at value
  rw [← value.2] at found
  split at found
  · rename_i late
    cases found
    exact ⟨carried, set, waiting, late⟩
  · rename_i early
    cases found
    exact ⟨carried, set, waiting, Nat.lt_of_not_le early⟩

/-! ## Calls -/

/-- The timelock was put to work for one proposal, and nothing else was done. -/
structure Engaged (s t : GovernorAlphaState H) (id : Nat) : Prop where
  proposals : t.proposals = s.proposals
  proposalCount : t.proposalCount = s.proposalCount
  blockNumber : t.blockNumber = s.blockNumber
  timestamp : t.timestamp = s.timestamp
  admin : t.timelock.admin = s.timelock.admin
  delay : t.timelock.delay = s.timelock.delay
  entries : ∀ {id' tx queuedAt delay}, .queued id' tx queuedAt delay ∈ t.history →
    .queued id' tx queuedAt delay ∈ s.history ∨ id' = id

theorem Engaged.refl (s : GovernorAlphaState H) (id : Nat) : Engaged s s id :=
  ⟨rfl, rfl, rfl, rfl, rfl, rfl, fun mem => .inl mem⟩

theorem Engaged.trans (first : Engaged s t id) (second : Engaged t s' id) : Engaged s s' id where
  proposals := second.proposals.trans first.proposals
  proposalCount := second.proposalCount.trans first.proposalCount
  blockNumber := second.blockNumber.trans first.blockNumber
  timestamp := second.timestamp.trans first.timestamp
  admin := second.admin.trans first.admin
  delay := second.delay.trans first.delay
  entries mem := by
    rcases second.entries mem with mem | own
    · exact first.entries mem
    · exact .inr own

theorem engaged_of_foldlM {f : GovernorAlphaState H → ProposalAction →
    Except Revert (GovernorAlphaState H)} {actions : List ProposalAction}
    (body : ∀ {s action t}, f s action = .ok t → Engaged s t id)
    (loop : actions.foldlM f s = .ok t) : Engaged s t id := by
  refine foldlM_invariant (I := fun t => Engaged s t id) ?_ (.refl s id) loop
  intro mid action next engaged _ succeeds
  exact engaged.trans (body succeeds)

variable [DecidableEq H]

theorem _queueOrRevert_eq_ok_iff {action : ProposalAction} :
    _queueOrRevert env s id eta action = .ok t ↔
      s.timelock.queuedTransactions (env.timelock.getTxHash (action.transaction eta)) = false ∧
      env.this = s.timelock.admin ∧ s.timestamp + s.timelock.delay < 2 ^ 256 ∧
      s.timestamp + s.timelock.delay ≤ eta ∧
      { s with
        timelock := { s.timelock with
          queuedTransactions := Function.update s.timelock.queuedTransactions
            (env.timelock.getTxHash (action.transaction eta)) true }
        history := .queued id (action.transaction eta) s.timestamp s.timelock.delay ::
          s.history } = t := by
  simp only [_queueOrRevert, bind_eq_ok_iff, pure_eq_ok_iff, require_eq_ok_iff, exists_const,
    Timelock.queueTransaction_eq_ok_iff]
  constructor
  · intro given
    rcases given with ⟨free, _, ⟨admin, fits, late, rfl⟩, same⟩
    exact ⟨free, admin, fits, late, same⟩
  · intro given
    rcases given with ⟨free, admin, fits, late, same⟩
    exact ⟨free, _, ⟨admin, fits, late, rfl⟩, same⟩

theorem cancelAction_eq_ok_iff {action : ProposalAction} :
    cancelAction env s id action = .ok t ↔
      env.this = s.timelock.admin ∧
      { s with
        timelock := { s.timelock with
          queuedTransactions := Function.update s.timelock.queuedTransactions
            (env.timelock.getTxHash (action.transaction (s.proposals id).eta)) false }
        history := .canceled id (action.transaction (s.proposals id).eta) :: s.history } = t := by
  simp only [cancelAction, bind_eq_ok_iff, pure_eq_ok_iff, Timelock.cancelTransaction_eq_ok_iff]
  constructor
  · intro given
    rcases given with ⟨_, ⟨admin, rfl⟩, same⟩
    exact ⟨admin, same⟩
  · intro given
    rcases given with ⟨admin, same⟩
    exact ⟨_, ⟨admin, rfl⟩, same⟩

theorem engaged_of_queueOrRevert {action : ProposalAction}
    (succeeds : _queueOrRevert env s id eta action = .ok t) : Engaged s t id := by
  obtain ⟨_, _, _, _, rfl⟩ := _queueOrRevert_eq_ok_iff.mp succeeds
  refine ⟨rfl, rfl, rfl, rfl, rfl, rfl, fun mem => ?_⟩
  rcases List.mem_cons.mp mem with same | mem
  · cases same
    exact .inr rfl
  · exact .inl mem

theorem engaged_of_cancelAction {action : ProposalAction}
    (succeeds : cancelAction env s id action = .ok t) : Engaged s t id := by
  obtain ⟨_, rfl⟩ := cancelAction_eq_ok_iff.mp succeeds
  refine ⟨rfl, rfl, rfl, rfl, rfl, rfl, fun mem => ?_⟩
  rcases List.mem_cons.mp mem with same | mem
  · cases same
  · exact .inl mem

/-- Canceling queues nothing. -/
theorem queued_of_cancelAction {actions : List ProposalAction} {id' : Nat}
    {tx : TimelockTransaction} {queuedAt delay : Nat}
    (loop : actions.foldlM (fun s action => cancelAction env s id action) s = .ok t)
    (mem : .queued id' tx queuedAt delay ∈ t.history) :
    .queued id' tx queuedAt delay ∈ s.history := by
  refine foldlM_invariant (I := fun t => .queued id' tx queuedAt delay ∈ t.history →
    .queued id' tx queuedAt delay ∈ s.history) ?_ (fun mem => mem) loop mem
  intro mid action next before _ succeeds mem
  obtain ⟨_, rfl⟩ := cancelAction_eq_ok_iff.mp succeeds
  rcases List.mem_cons.mp mem with same | mem
  · cases same
  · exact before mem

/-- A call by what it does to the two contracts. -/
inductive Did (env : GovernorAlphaEnv H) (s : GovernorAlphaState H) :
    GovernorAlphaState H → Prop
  | proposed (proposer : Address) (actions : List ProposalAction) (latest : Address → Nat) :
      Did env s { s with
        proposalCount := s.proposalCount + 1
        proposals := Function.update s.proposals (s.proposalCount + 1)
          { s.proposals (s.proposalCount + 1) with
            id := s.proposalCount + 1
            proposer := proposer
            actions := actions
            startBlock := s.blockNumber + votingDelay
            endBlock := s.blockNumber + votingDelay + votingPeriod }
        latestProposalIds := latest }
  | voted (voter : Address) (id : Nat) (support : Bool) (known : Known s id)
      (active : Says s (s.proposals id) .Active)
      (first : ((s.proposals id).receipts voter).hasVoted = false) :
      Did env s { s with
        proposals := Function.update s.proposals id ((s.proposals id).counted voter support
          (env.priorVotes voter (s.proposals id).startBlock).toNat) }
  | queued (id eta : Nat) (t : GovernorAlphaState H) (known : Known s id)
      (succeeded : Says s (s.proposals id) .Succeeded)
      (timed : eta = s.timestamp + s.timelock.delay)
      (loop : (s.proposals id).actions.foldlM
        (fun s action => _queueOrRevert env s id eta action) s = .ok t) :
      Did env s { t with
        proposals := Function.update s.proposals id { s.proposals id with eta := eta } }
  | canceled (id : Nat) (t : GovernorAlphaState H) (known : Known s id)
      (live : Says s (s.proposals id) .Active ∨ Says s (s.proposals id) .Pending)
      (loop : (s.proposals id).actions.foldlM (fun s action => cancelAction env s id action)
        { s with
          proposals := Function.update s.proposals id { s.proposals id with canceled := true } } =
          .ok t) :
      Did env s t
  | quiet (timelock : TimelockState H) (guardian : Address)
      (admin : s.timelock.admin = env.this → timelock.admin = env.this)
      (queue : timelock.queuedTransactions = s.timelock.queuedTransactions) :
      Did env s { s with timelock := timelock, guardian := guardian }

theorem did_of_castVote {voter : Address} {support : Bool}
    (succeeds : _castVote env s voter id support = .ok s') : Did env s s' := by
  simp only [_castVote, bind_eq_ok_iff, pure_eq_ok_iff, require_eq_ok_iff, exists_const,
    getPriorVotes_eq_ok_iff] at succeeds
  obtain ⟨proposalState, found, rfl, first, votes, ⟨_, rfl⟩, proposal, value, rfl⟩ := succeeds
  obtain ⟨known, active⟩ := says_of_state found
  have counted : ({ proposal with
      receipts := Function.update proposal.receipts voter
        ⟨true, support, (env.priorVotes voter (s.proposals id).startBlock).toNat⟩ } : Proposal) =
      (s.proposals id).counted voter support
        (env.priorVotes voter (s.proposals id).startBlock).toNat := by
    cases support with
    | true =>
        obtain ⟨_, sum, same⟩ := bind_eq_ok_iff.mp value
        rw [add256_eq_ok_iff] at sum
        cases same
        rw [← sum.2]
        rfl
    | false =>
        obtain ⟨_, sum, same⟩ := bind_eq_ok_iff.mp value
        rw [add256_eq_ok_iff] at sum
        cases same
        rw [← sum.2]
        rfl
  rw [counted]
  exact .voted voter id support known active first

theorem did_of_propose {sender : Address} {targets : List Address} {values : List UInt256}
    {signatures : List String} {calldatas : List Bytes}
    (succeeds : propose env s sender targets values signatures calldatas = .ok s') :
    Did env s s' := by
  simp only [propose, bind_eq_ok_iff, pure_eq_ok_iff, add256_eq_ok_iff,
    checkedAdd_eq_ok_iff] at succeeds
  obtain ⟨_, _, _, _, _, _, _, _, _, _, _, _, _, _, startBlock, ⟨_, rfl⟩, endBlock, ⟨_, rfl⟩,
    proposalCount, ⟨_, rfl⟩, rfl⟩ := succeeds
  exact .proposed sender _ _

theorem did_of_queue (succeeds : queue env s id = .ok s') : Did env s s' := by
  simp only [queue, bind_eq_ok_iff, pure_eq_ok_iff, require_eq_ok_iff, exists_const,
    add256_eq_ok_iff] at succeeds
  obtain ⟨proposalState, found, rfl, eta, ⟨_, value⟩, t, loop, rfl⟩ := succeeds
  obtain ⟨known, succeeded⟩ := says_of_state found
  have engaged := engaged_of_foldlM engaged_of_queueOrRevert loop
  have did := @Did.queued _ _ env s id eta t known succeeded value.symm loop
  rw [← engaged.proposals] at did
  exact did

theorem did_of_cancel {sender : Address} (succeeds : cancel env s sender id = .ok s') :
    Did env s s' := by
  simp only [cancel, bind_eq_ok_iff, require_eq_ok_iff, exists_const] at succeeds
  obtain ⟨proposalState, found, live, _, _, _, loop⟩ := succeeds
  obtain ⟨known, holds⟩ := says_of_state found
  refine .canceled id s' known ?_ loop
  rcases live with rfl | rfl
  · exact .inl holds
  · exact .inr holds

/-- **Kinds of calls.** -/
theorem did_of_call {a : Call} (succeeds : call env s a = .ok s') : Did env s s' := by
  cases a with
  | propose sender targets values signatures calldatas => exact did_of_propose succeeds
  | castVote sender proposalId support => exact did_of_castVote succeeds
  | castVoteBySig proposalId support v r sig =>
      obtain ⟨_, _, cast⟩ := bind_eq_ok_iff.mp succeeds
      exact did_of_castVote cast
  | queue proposalId => exact did_of_queue succeeds
  | cancel sender proposalId => exact did_of_cancel succeeds
  | __acceptAdmin =>
      obtain ⟨timelock, accepts, same⟩ := bind_eq_ok_iff.mp succeeds
      obtain ⟨admin, queue⟩ := Timelock.quiet_of_acceptAdmin accepts
      cases same
      exact .quiet timelock s.guardian (fun _ => admin) queue
  | __abdicate sender =>
      obtain ⟨_, _, same⟩ := bind_eq_ok_iff.mp succeeds
      cases same
      exact .quiet s.timelock 0 id rfl
  | __transferGuardian sender newGuardian =>
      obtain ⟨_, _, same⟩ := bind_eq_ok_iff.mp succeeds
      cases same
      exact .quiet s.timelock newGuardian id rfl
  | setDelay sender delay_ =>
      obtain ⟨timelock, sets, same⟩ := bind_eq_ok_iff.mp succeeds
      obtain ⟨admin, queue⟩ := Timelock.quiet_of_setDelay sets
      cases same
      exact .quiet timelock s.guardian (fun governs => admin.trans governs) queue
  | setPendingAdmin sender pendingAdmin_ =>
      obtain ⟨timelock, sets, same⟩ := bind_eq_ok_iff.mp succeeds
      obtain ⟨admin, queue⟩ := Timelock.quiet_of_setPendingAdmin sets
      cases same
      exact .quiet timelock s.guardian (fun governs => admin.trans governs) queue

/-! ## Executions -/

omit [DecidableEq H] in
theorem begun_of_beginExecute {calls : List ProposalAction}
    (succeeds : beginExecute s id = .ok (s', calls)) :
    Known s id ∧ Says s (s.proposals id) .Queued ∧ calls = (s.proposals id).actions ∧
      s' = { s with
        proposals := Function.update s.proposals id
          { s.proposals id with executed := true } } := by
  simp only [beginExecute, bind_eq_ok_iff, pure_eq_ok_iff, require_eq_ok_iff,
    exists_const] at succeeds
  obtain ⟨proposalState, found, rfl, same⟩ := succeeds
  obtain ⟨known, queued⟩ := says_of_state found
  cases same
  exact ⟨known, queued, rfl, rfl⟩

theorem ran_of_executeAction {action : ProposalAction}
    (succeeds : executeAction env s id action = .ok s') :
    (action.transaction (s.proposals id).eta).eta ≤ s.timestamp ∧
      s' = { s with
        timelock := { s.timelock with
          queuedTransactions := Function.update s.timelock.queuedTransactions
            (env.timelock.getTxHash (action.transaction (s.proposals id).eta)) false }
        history := .executed id (action.transaction (s.proposals id).eta) s.timestamp ::
          s.history } := by
  simp only [executeAction, bind_eq_ok_iff, pure_eq_ok_iff,
    Timelock.executeTransaction_eq_ok_iff] at succeeds
  obtain ⟨_, ⟨_, _, due, _, _, rfl⟩, same⟩ := succeeds
  exact ⟨due, same.symm⟩

end GovernorAlpha

end FeiProtocol
