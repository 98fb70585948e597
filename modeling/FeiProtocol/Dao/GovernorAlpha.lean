import FeiProtocol.Cryptography
import FeiProtocol.Dao.TimelockQueueings
import FeiProtocol.Evm.Callbacks
import FeiProtocol.Evm.Machine
import FeiProtocol.Evm.TypedData

/-!
# `GovernorAlpha`

Holders of TRIBE propose lists of actions and vote on them. A proposal that carries is queued in
the timelock, action by action, and executed from there. What the state of a proposal is follows
from blocks, votes and flags, and is nowhere stored.

The governor is modelled together with its timelock. The targets of executed actions may call
either contract again (`callbacks`): a transaction says what they call, and whether they return.
A target that is given more ETH than there is does not return.

Nobody but the timelock's admin can have it queue, cancel or execute, so no call of those by
others is listed (`Timelock.queueTransaction_eq_ok_iff`). The calls that are listed leave the
admin as it is: `acceptAdmin` by others and the two functions in which the guardian has the
timelock queue and execute a change of admin are not among them.
-/

namespace FeiProtocol

open Evm

/-- Receipts of ballots -/
structure Receipt : Type where
  hasVoted : Bool
  support : Bool
  votes : Nat
  deriving DecidableEq, Repr

/-- What a proposal has done: one entry of each of its four lists. -/
structure ProposalAction : Type where
  target : Address
  value : UInt256
  signature : String
  data : Bytes
  deriving DecidableEq, Repr

structure Proposal : Type where
  id : Nat
  proposer : Address
  eta : Nat
  /-- `targets`, `values`, `signatures` and `calldatas`, which are as long as each other -/
  actions : List ProposalAction
  startBlock : Nat
  endBlock : Nat
  forVotes : Nat
  againstVotes : Nat
  canceled : Bool
  executed : Bool
  receipts : Address → Receipt

inductive ProposalState : Type where
  | Pending
  | Active
  | Canceled
  | Defeated
  | Succeeded
  | Queued
  | Expired
  | Executed
  deriving DecidableEq, Repr

structure GovernorAlphaState (H : Type) : Type where
  timelock : TimelockState H
  guardian : Address
  proposalCount : Nat
  proposals : Nat → Proposal
  latestProposalIds : Address → Nat
  /-- `block.number` -/
  blockNumber : Nat
  /-- `block.timestamp` -/
  timestamp : Nat
  /-- what the timelock was made to do, newest first; neither contract reads it -/
  history : List TimelockEntry

structure GovernorAlphaEnv (H : Type) : Type where
  this : Address
  timelock : TimelockEnv H
  precompiles : Precompiles
  chainId : Nat
  /-- `tribe.getPriorVotes` of a block that is past -/
  priorVotes : Address → Nat → BitVec 96

def ProposalAction.transaction (action : ProposalAction) (eta : Nat) : TimelockTransaction where
  target := action.target
  value := action.value
  signature := action.signature
  data := action.data
  eta := eta

/-- What storage holds where nothing was written. -/
def Proposal.blank : Proposal where
  id := 0
  proposer := 0
  eta := 0
  actions := []
  startBlock := 0
  endBlock := 0
  forVotes := 0
  againstVotes := 0
  canceled := false
  executed := false
  receipts := fun _ => ⟨false, false, 0⟩

/-- What a proposal has the timelock do. -/
def Proposal.transactions (proposal : Proposal) : List TimelockTransaction :=
  proposal.actions.map (·.transaction proposal.eta)

namespace GovernorAlpha

def name : String := "Fei Governor Alpha"

/-- 25,000,000 = 2.5% of Tribe -/
def quorumVotes : Nat := 25000000 * 10 ^ 18

/-- 2,500,000 = .25% of Tribe -/
def proposalThreshold : Nat := 2500000 * 10 ^ 18

def proposalMaxOperations : Nat := 10

/-- ~0.5 days in blocks (assuming 13s blocks) -/
def votingDelay : Nat := 3333

/-- ~1.5 days in blocks (assuming 13s blocks) -/
def votingPeriod : Nat := 10000

def add256 (a b : Nat) : Except Revert Nat := do
  let c ← checkedAdd a b
  require (c ≥ a) "addition overflow"
  return c

def sub256 (a b : Nat) : Except Revert Nat := do
  require (b ≤ a) "subtraction underflow"
  checkedSub a b

section Contract

variable {H : Type} (env : GovernorAlphaEnv H) (s : GovernorAlphaState H)

def construct (timelock : TimelockState H) (guardian_ : Address) (blockNumber timestamp : Nat) :
    GovernorAlphaState H where
  timelock := timelock
  guardian := guardian_
  proposalCount := 0
  proposals := fun _ => .blank
  latestProposalIds := fun _ => 0
  blockNumber := blockNumber
  timestamp := timestamp
  history := []

/-! ## Proposals -/

def getPriorVotes (account : Address) (blockNumber : Nat) : Except Revert Nat := do
  require (blockNumber < s.blockNumber) "Tribe: not yet determined"
  return (env.priorVotes account blockNumber).toNat

def state (proposalId : Nat) : Except Revert ProposalState := do
  require (s.proposalCount ≥ proposalId ∧ proposalId > 0) "GovernorAlpha: invalid proposal id"
  let proposal := s.proposals proposalId
  if proposal.canceled then return .Canceled
  else if s.blockNumber ≤ proposal.startBlock then return .Pending
  else if s.blockNumber ≤ proposal.endBlock then return .Active
  else if proposal.forVotes ≤ proposal.againstVotes ∨ proposal.forVotes < quorumVotes then
    return .Defeated
  else if proposal.eta = 0 then return .Succeeded
  else if proposal.executed then return .Executed
  else do
    let expiry ← add256 proposal.eta Timelock.GRACE_PERIOD
    if s.timestamp ≥ expiry then return .Expired else return .Queued

/-- A proposer has at most one live proposal. -/
def requireNoLive (latestProposalId : Nat) : Except Revert Unit :=
  if latestProposalId ≠ 0 then do
    let proposersLatestProposalState ← state s latestProposalId
    require (proposersLatestProposalState ≠ .Active)
      "GovernorAlpha: one live proposal per proposer, found an already active proposal"
    require (proposersLatestProposalState ≠ .Pending)
      "GovernorAlpha: one live proposal per proposer, found an already pending proposal"
  else .ok ()

/-- The four lists, entry by entry. -/
def zipActions : List Address → List UInt256 → List String → List Bytes → List ProposalAction
  | target :: targets, value :: values, signature :: signatures, data :: calldatas =>
      ⟨target, value, signature, data⟩ :: zipActions targets values signatures calldatas
  | _, _, _, _ => []

def propose (msgSender : Address) (targets : List Address) (values : List UInt256)
    (signatures : List String) (calldatas : List Bytes) :
    Except Revert (GovernorAlphaState H) := do
  let past ← sub256 s.blockNumber 1
  let votes ← getPriorVotes env s msgSender past
  require (votes > proposalThreshold) "GovernorAlpha: proposer votes below proposal threshold"
  require (targets.length = values.length ∧ targets.length = signatures.length ∧
    targets.length = calldatas.length)
    "GovernorAlpha: proposal function information arity mismatch"
  require (targets.length ≠ 0) "GovernorAlpha: must provide actions"
  require (targets.length ≤ proposalMaxOperations) "GovernorAlpha: too many actions"
  requireNoLive s (s.latestProposalIds msgSender)
  let startBlock ← add256 s.blockNumber votingDelay
  let endBlock ← add256 startBlock votingPeriod
  let proposalCount ← checkedAdd s.proposalCount 1
  let newProposal := { s.proposals proposalCount with
    id := proposalCount
    proposer := msgSender
    actions := zipActions targets values signatures calldatas
    startBlock := startBlock
    endBlock := endBlock }
  return { s with
    proposalCount := proposalCount
    proposals := Function.update s.proposals proposalCount newProposal
    latestProposalIds := Function.update s.latestProposalIds msgSender proposalCount }

/-! ## Ballots -/

def _castVote (voter : Address) (proposalId : Nat) (support : Bool) :
    Except Revert (GovernorAlphaState H) := do
  let proposalState ← state s proposalId
  require (proposalState = .Active) "GovernorAlpha: voting is closed"
  let proposal := s.proposals proposalId
  require ((proposal.receipts voter).hasVoted = false) "GovernorAlpha: voter already voted"
  let votes ← getPriorVotes env s voter proposal.startBlock
  let proposal ← (if support then do
      let forVotes ← add256 proposal.forVotes votes
      return { proposal with forVotes := forVotes }
    else do
      let againstVotes ← add256 proposal.againstVotes votes
      return { proposal with againstVotes := againstVotes })
  return { s with
    proposals := Function.update s.proposals proposalId { proposal with
      receipts := Function.update proposal.receipts voter ⟨true, support, votes⟩ } }

def castVote (msgSender : Address) (proposalId : Nat) (support : Bool) :
    Except Revert (GovernorAlphaState H) :=
  _castVote env s msgSender proposalId support

def DOMAIN_TYPEHASH : Bytes32 :=
  env.precompiles.hashText "EIP712Domain(string name,uint256 chainId,address verifyingContract)"

def BALLOT_TYPEHASH : Bytes32 :=
  env.precompiles.hashText "Ballot(uint256 proposalId,bool support)"

/-- The words that the domain separator hashes. -/
def domain : List (BitVec 256) :=
  [DOMAIN_TYPEHASH env, env.precompiles.hashText name, BitVec.ofNat 256 env.chainId,
    wordOfAddress env.this]

def castVoteBySig (proposalId : Nat) (support : Bool) (v : BitVec 8) (r sig : Bytes32) :
    Except Revert (GovernorAlphaState H) := do
  let ballot : Message := ⟨domain env,
    [BALLOT_TYPEHASH env, BitVec.ofNat 256 proposalId, if support then 1 else 0]⟩
  let digest := ballot.digest env.precompiles.keccak256
  let signatory := env.precompiles.ecrecover digest v.toNat r sig
  require (signatory ≠ 0) "GovernorAlpha: invalid signature"
  _castVote env s signatory proposalId support

/-! ## Administration -/

def __acceptAdmin : Except Revert (GovernorAlphaState H) := do
  let timelock ← Timelock.acceptAdmin s.timelock env.this
  return { s with timelock := timelock }

def __abdicate (msgSender : Address) : Except Revert (GovernorAlphaState H) := do
  require (msgSender = s.guardian) "GovernorAlpha: sender must be gov guardian"
  return { s with guardian := 0 }

def __transferGuardian (msgSender newGuardian : Address) :
    Except Revert (GovernorAlphaState H) := do
  require (msgSender = s.guardian) "GovernorAlpha: sender must be gov guardian"
  return { s with guardian := newGuardian }

end Contract

/-! ## The timelock -/

section Contract

variable {H : Type} [DecidableEq H] (env : GovernorAlphaEnv H) (s : GovernorAlphaState H)

def _queueOrRevert (proposalId : Nat) (eta : Nat) (action : ProposalAction) :
    Except Revert (GovernorAlphaState H) := do
  let tx := action.transaction eta
  require (s.timelock.queuedTransactions (env.timelock.getTxHash tx) = false)
    "GovernorAlpha: proposal action already queued at eta"
  let timelock ← Timelock.queueTransaction env.timelock s.timelock s.timestamp env.this tx
  return { s with
    timelock := timelock
    history := .queued proposalId tx s.timestamp s.timelock.delay :: s.history }

def queue (proposalId : Nat) : Except Revert (GovernorAlphaState H) := do
  let proposalState ← state s proposalId
  require (proposalState = .Succeeded)
    "GovernorAlpha: proposal can only be queued if it is succeeded"
  let eta ← add256 s.timestamp s.timelock.delay
  let s ← (s.proposals proposalId).actions.foldlM
    (fun s action => _queueOrRevert env s proposalId eta action) s
  return { s with
    proposals := Function.update s.proposals proposalId
      { s.proposals proposalId with eta := eta } }

omit [DecidableEq H] in
/-- The first half of `execute`, and the actions that its loop goes through. -/
def beginExecute (proposalId : Nat) :
    Except Revert (GovernorAlphaState H × List ProposalAction) := do
  let proposalState ← state s proposalId
  require (proposalState = .Queued)
    "GovernorAlpha: proposal can only be executed if it is queued"
  let proposal := s.proposals proposalId
  let s := { s with
    proposals := Function.update s.proposals proposalId { proposal with executed := true } }
  return (s, proposal.actions)

/-- The body of the loop of `execute`, up to the call of the target. -/
def executeAction (proposalId : Nat) (action : ProposalAction) :
    Except Revert (GovernorAlphaState H) := do
  let tx := action.transaction (s.proposals proposalId).eta
  let timelock ← Timelock.executeTransaction env.timelock s.timelock s.timestamp env.this tx
  return { s with
    timelock := timelock
    history := .executed proposalId tx s.timestamp :: s.history }

def cancelAction (proposalId : Nat) (action : ProposalAction) :
    Except Revert (GovernorAlphaState H) := do
  let tx := action.transaction (s.proposals proposalId).eta
  let timelock ← Timelock.cancelTransaction env.timelock s.timelock env.this tx
  return { s with timelock := timelock, history := .canceled proposalId tx :: s.history }

omit [DecidableEq H] in
/-- `msg.sender == guardian || tribe.getPriorVotes(..) < proposalThreshold()` -/
def mayCancel (msgSender proposer : Address) : Except Revert Bool :=
  if msgSender = s.guardian then .ok true
  else do
    let past ← sub256 s.blockNumber 1
    let votes ← getPriorVotes env s proposer past
    return votes < proposalThreshold

def cancel (msgSender : Address) (proposalId : Nat) : Except Revert (GovernorAlphaState H) := do
  let proposalState ← state s proposalId
  require (proposalState = .Active ∨ proposalState = .Pending)
    "GovernorAlpha: can only cancel Active or Pending Proposal"
  let proposal := s.proposals proposalId
  let allowed ← mayCancel env s msgSender proposal.proposer
  require (allowed = true) "GovernorAlpha: proposer above threshold"
  let s := { s with
    proposals := Function.update s.proposals proposalId { proposal with canceled := true } }
  proposal.actions.foldlM (fun s action => cancelAction env s proposalId action) s

/-! ## Transactions -/

/-- Calls that call nobody else but the two contracts and TRIBE. -/
inductive Call : Type where
  | propose (sender : Address) (targets : List Address) (values : List UInt256)
      (signatures : List String) (calldatas : List Bytes)
  | castVote (sender : Address) (proposalId : UInt256) (support : Bool)
  | castVoteBySig (proposalId : UInt256) (support : Bool) (v : BitVec 8) (r sig : Bytes32)
  | queue (proposalId : UInt256)
  | cancel (sender : Address) (proposalId : UInt256)
  | __acceptAdmin
  | __abdicate (sender : Address)
  | __transferGuardian (sender newGuardian : Address)
  | setDelay (sender : Address) (delay_ : UInt256)
  | setPendingAdmin (sender pendingAdmin_ : Address)
  deriving DecidableEq, Repr

def call : Call → Except Revert (GovernorAlphaState H)
  | .propose sender targets values signatures calldatas =>
      propose env s sender targets values signatures calldatas
  | .castVote sender proposalId support => castVote env s sender proposalId.toNat support
  | .castVoteBySig proposalId support v r sig =>
      castVoteBySig env s proposalId.toNat support v r sig
  | .queue proposalId => queue env s proposalId.toNat
  | .cancel sender proposalId => cancel env s sender proposalId.toNat
  | .__acceptAdmin => __acceptAdmin env s
  | .__abdicate sender => __abdicate s sender
  | .__transferGuardian sender newGuardian => __transferGuardian s sender newGuardian
  | .setDelay sender delay_ => do
      let timelock ← Timelock.setDelay env.timelock s.timelock sender delay_.toNat
      return { s with timelock := timelock }
  | .setPendingAdmin sender pendingAdmin_ => do
      let timelock ← Timelock.setPendingAdmin env.timelock s.timelock sender pendingAdmin_
      return { s with timelock := timelock }

/-- `execute` is a job: the targets of its actions call back. -/
def callbacks : Callbacks Revert (GovernorAlphaState H) Call UInt256 ProposalAction where
  call s a := call env s a
  start s proposalId := beginExecute s proposalId.toNat
  before s proposalId action := executeAction env s proposalId.toNat action
  failed := .reason "Timelock: Transaction execution reverted."

/-- `mine` is the passing of blocks. -/
inductive Action : Type where
  | transaction (t : Evm.Transaction Call UInt256)
  | mine (blocks seconds : Nat)

def step : Action → Except Revert (GovernorAlphaState H)
  | .transaction t => (callbacks env).perform t s
  | .mine blocks seconds =>
      .ok { s with blockNumber := s.blockNumber + blocks, timestamp := s.timestamp + seconds }

end Contract

end GovernorAlpha

end FeiProtocol
