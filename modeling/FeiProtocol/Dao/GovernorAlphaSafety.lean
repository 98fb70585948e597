import FeiProtocol.Dao.GovernorAlphaBallots
import FeiProtocol.Dao.GovernorAlphaQueueing
import FeiProtocol.Evm.History

/-!
# Safety of governance

* `keeps_invariant`: ballots, claims and the standing of proposals are kept by every part of a
  transaction, whatever the targets of executed actions call.
* `governance_safe`: so what is executed was voted for, was queued for itself and waited for the
  delay, and is executed once.
-/

namespace FeiProtocol

open Evm

namespace GovernorAlpha

variable {H : Type}

/-! ## Standing -/

/-- A proposal has been queued. -/
def HasQueued (s : GovernorAlphaState H) (id : Nat) : Prop :=
  (s.proposals id).eta ≠ 0 ∨ ∃ tx queuedAt delay, .queued id tx queuedAt delay ∈ s.history

/-- Only what has carried is queued. -/
def Standing (s : GovernorAlphaState H) : Prop :=
  ∀ id, HasQueued s id → Known s id ∧ (s.proposals id).Carried s.blockNumber

variable {env : GovernorAlphaEnv H} {began began' : Nat → GovernorAlphaState H} {jobs : Jobs}
  {s s' : GovernorAlphaState H} {id : Nat}

theorem Standing.not_live (standing : Standing s)
    (live : s.blockNumber ≤ (s.proposals id).endBlock) :
    ¬ HasQueued s id :=
  fun queued => absurd (standing id queued).2.ended (Nat.not_lt.mpr live)

theorem Standing.congr (standing : Standing s) (proposals : s'.proposals = s.proposals)
    (proposalCount : s'.proposalCount = s.proposalCount) (blocks : s.blockNumber ≤ s'.blockNumber)
    (entries : ∀ {id tx queuedAt delay}, .queued id tx queuedAt delay ∈ s'.history →
      .queued id tx queuedAt delay ∈ s.history) : Standing s' := by
  intro id queued
  have before : HasQueued s id := by
    rcases queued with set | ⟨tx, queuedAt, delay, mem⟩
    · rw [proposals] at set
      exact .inl set
    · exact .inr ⟨tx, queuedAt, delay, entries mem⟩
  obtain ⟨known, carried⟩ := standing id before
  rw [proposals]
  exact ⟨⟨known.pos, proposalCount ▸ known.le⟩,
    ⟨Nat.lt_of_lt_of_le carried.ended blocks, carried.kept, carried.majority, carried.quorum⟩⟩

/-- One proposal changes. -/
theorem Standing.revise (standing : Standing s) {proposal : Proposal}
    (proposals : s'.proposals = Function.update s.proposals id proposal)
    (proposalCount : s.proposalCount ≤ s'.proposalCount)
    (blockNumber : s'.blockNumber = s.blockNumber)
    (entries : ∀ {id' tx queuedAt delay}, .queued id' tx queuedAt delay ∈ s'.history →
      .queued id' tx queuedAt delay ∈ s.history ∨ id' = id)
    (own : HasQueued s' id → Known s' id ∧ proposal.Carried s.blockNumber) : Standing s' := by
  intro id' queued
  rw [blockNumber]
  by_cases same : id' = id
  · subst same
    rw [proposals, Function.update_self]
    exact own queued
  · rw [proposals, Function.update_of_ne same]
    have before : HasQueued s id' := by
      rcases queued with set | ⟨tx, queuedAt, delay, mem⟩
      · rw [proposals, Function.update_of_ne same] at set
        exact .inl set
      · rcases entries mem with mem | own
        · exact .inr ⟨tx, queuedAt, delay, mem⟩
        · exact absurd own same
    obtain ⟨known, carried⟩ := standing id' before
    exact ⟨⟨known.pos, Nat.le_trans known.le proposalCount⟩, carried⟩

/-- What is queued after a change of a proposal that touches neither its time of execution nor the
history was queued before. -/
theorem hasQueued_of_update {proposal : Proposal} (queued : HasQueued s' id)
    (proposals : s'.proposals = Function.update s.proposals id proposal)
    (eta : proposal.eta = (s.proposals id).eta) (history : s'.history = s.history) :
    HasQueued s id := by
  unfold HasQueued at queued
  rw [proposals, Function.update_self, eta, history] at queued
  exact queued

variable [DecidableEq H]

theorem Standing.did (standing : Standing s) (ballots : Ballots env began s)
    (did : Did env s s') : Standing s' := by
  cases did with
  | proposed proposer actions latest =>
      refine standing.revise rfl (Nat.le_succ _) rfl .inl fun queued => ?_
      have known := (standing _ (hasQueued_of_update queued rfl rfl rfl)).1
      exact absurd known.le (Nat.not_succ_le_self _)
  | voted voter id support known active first =>
      refine standing.revise rfl (Nat.le_refl _) rfl .inl fun queued => ?_
      exact absurd (hasQueued_of_update queued rfl rfl rfl) (standing.not_live active.2.2)
  | queued id eta t known succeeded timed loop =>
      have engaged := engaged_of_foldlM engaged_of_queueOrRevert loop
      refine standing.revise rfl (Nat.le_of_eq engaged.proposalCount.symm) engaged.blockNumber
        engaged.entries fun _ => ⟨⟨known.pos, ?_⟩, ?_⟩
      · dsimp only
        rw [engaged.proposalCount]
        exact known.le
      · obtain ⟨ended, kept, majority, quorum⟩ := succeeded.1
        exact ⟨ended, kept, majority, quorum⟩
  | canceled id t known live loop =>
      have engaged := engaged_of_foldlM engaged_of_cancelAction loop
      have during : s.blockNumber ≤ (s.proposals id).endBlock := by
        rcases live with active | pending
        · exact active.2.2
        · exact Nat.le_trans pending.2 (ballots.tallied id).ordered
      have kept {id' tx queuedAt delay}
          (mem : .queued id' tx queuedAt delay ∈ s'.history) :
          .queued id' tx queuedAt delay ∈ s.history := by
        have before := queued_of_cancelAction loop mem
        exact before
      refine standing.revise engaged.proposals (Nat.le_of_eq engaged.proposalCount.symm)
        engaged.blockNumber (fun mem => .inl (kept mem)) fun queued => ?_
      refine absurd ?_ (standing.not_live during)
      rcases queued with set | ⟨tx, queuedAt, delay, mem⟩
      · rw [engaged.proposals] at set
        dsimp only at set
        rw [Function.update_self] at set
        exact .inl set
      · exact .inr ⟨tx, queuedAt, delay, kept mem⟩
  | quiet timelock guardian admin queue =>
      exact standing.congr rfl rfl (Nat.le_refl _) fun mem => mem

/-! ## Transactions -/

/-- What every part of a transaction keeps, with the executions in progress as `jobs`: the votes
are counted, the queue is accounted for, and only what has carried is queued. -/
structure Invariant (env : GovernorAlphaEnv H) (began : Nat → GovernorAlphaState H) (jobs : Jobs)
    (s : GovernorAlphaState H) : Prop where
  ballots : Ballots env began s
  queueing : Queueing env jobs s
  standing : Standing s

theorem Invariant.did (inv : Invariant env began jobs s)
    (injective : Function.Injective env.timelock.getTxHash) (did : Did env s s') :
    Invariant env began jobs s' where
  ballots := inv.ballots.did did
  queueing := by
    refine inv.queueing.did injective ?_ (fun id live => ?_)
      (fun id => (inv.ballots.tallied id).ordered) did
    · rw [inv.ballots.blank (Nat.lt_succ_self _)]
      rfl
    · by_contra set
      exact inv.standing.not_live live (.inl set)
  standing := inv.standing.did inv.ballots did

omit [DecidableEq H] in
theorem Invariant.begun (inv : Invariant env began jobs s) {proposalId : UInt256}
    {calls : List ProposalAction}
    (succeeds : beginExecute s proposalId.toNat = .ok (s', calls)) :
    Invariant env began ((proposalId, calls) :: jobs) s' := by
  obtain ⟨known, ⟨carried, set, idle, early⟩, rfl, rfl⟩ := begun_of_beginExecute succeeds
  refine ⟨?_, inv.queueing.begun set idle early, ?_⟩
  · have before := inv.ballots.tallied proposalId.toNat
    have tallied : Proposal.Tallied env.priorVotes
        { s.proposals proposalId.toNat with executed := true } :=
      ⟨before.ordered, before.tally, before.counted⟩
    exact inv.ballots.revise known tallied rfl (fun _ => ⟨rfl, rfl⟩) rfl rfl rfl
  · obtain ⟨ended, kept, majority, quorum⟩ := carried
    exact inv.standing.revise rfl (Nat.le_refl _) rfl .inl fun _ =>
      ⟨⟨known.pos, known.le⟩, ended, kept, majority, quorum⟩

theorem Invariant.ran {proposalId : UInt256} {action : ProposalAction}
    {actions : List ProposalAction}
    (inv : Invariant env began ((proposalId, action :: actions) :: jobs) s)
    (injective : Function.Injective env.timelock.getTxHash)
    (succeeds : executeAction env s proposalId.toNat action = .ok s') :
    Invariant env began ((proposalId, actions) :: jobs) s' := by
  have queueing := inv.queueing.ran injective succeeds
  obtain ⟨_, rfl⟩ := ran_of_executeAction succeeds
  refine ⟨inv.ballots.congr rfl rfl rfl, queueing, ?_⟩
  refine inv.standing.congr rfl rfl (Nat.le_refl _) fun mem => ?_
  rcases List.mem_cons.mp mem with same | mem
  · cases same
  · exact mem

/-- **Reentrancy.** Every part of a transaction keeps the invariant. -/
theorem keeps_invariant (injective : Function.Injective env.timelock.getTxHash)
    (began : Nat → GovernorAlphaState H) : (callbacks env).Keeps (Invariant env began) where
  call inv succeeds := inv.did injective (did_of_call succeeds)
  start inv succeeds := inv.begun succeeds
  before inv succeeds := inv.ran injective succeeds
  finish inv := ⟨inv.ballots, inv.queueing.finished, inv.standing⟩

omit [DecidableEq H] in
theorem invariant_constructed {timelock : TimelockState H} (admin : timelock.admin = env.this)
    (guardian : Address) (blockNumber timestamp : Nat) :
    Invariant env began [] (construct timelock guardian blockNumber timestamp) where
  ballots := ballots_constructed timelock guardian blockNumber timestamp
  queueing := queueing_constructed admin guardian blockNumber timestamp
  standing id queued := by
    rcases queued with set | ⟨_, _, _, mem⟩
    · exact absurd rfl set
    · cases mem

/-! ## Runs -/

/-- No transaction changes the block that it is in. -/
theorem keeps_blockNumber (n : Nat) :
    (callbacks env).Keeps fun _ (s : GovernorAlphaState H) => s.blockNumber = n where
  call here succeeds := by
    cases did_of_call succeeds with
    | proposed proposer actions latest => exact here
    | voted voter id support known active first => exact here
    | queued id eta t known succeeded timed loop =>
        exact (engaged_of_foldlM engaged_of_queueOrRevert loop).blockNumber.trans here
    | canceled id t known live loop =>
        exact (engaged_of_foldlM engaged_of_cancelAction loop).blockNumber.trans here
    | quiet timelock guardian admin queue => exact here
  start here succeeds := by
    obtain ⟨_, _, _, rfl⟩ := begun_of_beginExecute succeeds
    exact here
  before here succeeds := by
    obtain ⟨_, rfl⟩ := ran_of_executeAction succeeds
    exact here
  finish here := here

omit [DecidableEq H] in
theorem canceled_update {proposals : Nat → Proposal} {id' : Nat} {proposal : Proposal}
    (here : (proposals id).canceled = true)
    (own : (proposals id').canceled = true → proposal.canceled = true) :
    (Function.update proposals id' proposal id).canceled = true := by
  by_cases same : id = id'
  · subst same
    rw [Function.update_self]
    exact own here
  · rw [Function.update_of_ne same]
    exact here

/-- What is canceled stays canceled. -/
theorem keeps_canceled (id : Nat) :
    (callbacks env).Keeps fun _ (s : GovernorAlphaState H) =>
      (s.proposals id).canceled = true where
  call here succeeds := by
    cases did_of_call succeeds with
    | proposed proposer actions latest => exact canceled_update here fun kept => kept
    | voted voter id' support known active first => exact canceled_update here fun kept => kept
    | queued id' eta t known succeeded timed loop => exact canceled_update here fun kept => kept
    | canceled id' t known live loop =>
        rw [(engaged_of_foldlM engaged_of_cancelAction loop).proposals]
        exact canceled_update here fun _ => rfl
    | quiet timelock guardian admin queue => exact here
  start here succeeds := by
    obtain ⟨_, _, _, rfl⟩ := begun_of_beginExecute succeeds
    exact canceled_update here fun kept => kept
  before here succeeds := by
    obtain ⟨_, rfl⟩ := ran_of_executeAction succeeds
    exact here
  finish here := here

theorem clock : Clock (step env) GovernorAlphaState.blockNumber := by
  intro s a s' succeeds
  cases a with
  | transaction t =>
      have same := (keeps_blockNumber s.blockNumber).perform t [] s s' rfl succeeds
      exact Nat.le_of_eq same.symm
  | mine blocks seconds =>
      cases succeeds
      exact Nat.le_add_right _ _

theorem invariant_run (injective : Function.Injective env.timelock.getTxHash)
    {start : GovernorAlphaState H} (init : ∀ began, Invariant env began [] start)
    (as : List Action) :
    Invariant env (stateBefore (step env) GovernorAlphaState.blockNumber start as) []
      (run (step env) start as) := by
  refine run_history (I := fun began s => Invariant env began [] s) (P := fun _ => True) clock ?_ ?_
    (init _) fun _ _ => trivial
  · intro began began' s inv past
    exact ⟨inv.ballots.past past, inv.queueing, inv.standing⟩
  · intro began began' s a s' inv _ succeeds past now
    cases a with
    | transaction t =>
        exact (keeps_invariant injective began').perform t [] s s'
          ⟨inv.ballots.past past, inv.queueing, inv.standing⟩ succeeds
    | mine blocks seconds =>
        cases succeeds
        refine ⟨inv.ballots.mine blocks seconds past now, ?_, ?_⟩
        · exact inv.queueing.congr inv.queueing.admin rfl rfl (.inl rfl) (fun _ => rfl)
            (fun _ => rfl) fun _ _ => rfl
        · exact inv.standing.congr rfl rfl (Nat.le_add_right _ _) fun mem => mem

theorem canceled_run (s : GovernorAlphaState H) (as : List Action)
    (canceled : (s.proposals id).canceled = true) :
    ((run (step env) s as).proposals id).canceled = true := by
  refine run_invariant (I := fun s : GovernorAlphaState H => (s.proposals id).canceled = true)
    (A := fun _ => True) ?_ canceled fun _ _ => trivial
  intro s a s' here _ succeeds
  cases a with
  | transaction t => exact (keeps_canceled id).perform t [] s s' here succeeds
  | mine blocks seconds =>
      cases succeeds
      exact here

/-! ## Safety -/

/-- What governance has done is what it was allowed to do. `began b` is the state with which block
`b` began. -/
structure Safe (env : GovernorAlphaEnv H) (began : Nat → GovernorAlphaState H)
    (s : GovernorAlphaState H) : Prop where
  /-- A proposal has had each of its actions executed once, in turn, or none. -/
  once : ∀ id, Timelock.executions id s.history = [] ∨
    Timelock.executions id s.history = (s.proposals id).transactions
  /-- It had carried when its voting closed. -/
  carried : ∀ {id tx timestamp}, .executed id tx timestamp ∈ s.history →
    ((began ((s.proposals id).endBlock + 1)).proposals id).againstVotes <
        ((began ((s.proposals id).endBlock + 1)).proposals id).forVotes ∧
      quorumVotes ≤ ((began ((s.proposals id).endBlock + 1)).proposals id).forVotes
  /-- It was queued before, for at least the delay of that time, and was not too late. -/
  timely : ∀ {id tx timestamp older}, .executed id tx timestamp :: older <:+ s.history →
    timestamp < tx.eta + Timelock.GRACE_PERIOD ∧
      ∃ queuedAt delay, .queued id tx queuedAt delay ∈ older ∧ tx.eta = queuedAt + delay ∧
        queuedAt + delay ≤ timestamp
  /-- The last that had happened to the transaction is that this proposal had queued it. -/
  own : ∀ {id tx timestamp older}, .executed id tx timestamp :: older <:+ s.history →
    Timelock.holder tx older = some id
  /-- Nothing was queued or executed for a proposal that is canceled. -/
  canceled : ∀ {id}, (s.proposals id).canceled = true → ∀ tx,
    (∀ queuedAt delay, .queued id tx queuedAt delay ∉ s.history) ∧
      ∀ timestamp, .executed id tx timestamp ∉ s.history
  /-- Votes are those of the receipts, and those are of the first block of the voting. -/
  tallied : ∀ id, (s.proposals id).forVotes + (s.proposals id).againstVotes =
      ∑ voter, ((s.proposals id).receipts voter).votes ∧
    ∀ voter, ((s.proposals id).receipts voter).votes =
      if ((s.proposals id).receipts voter).hasVoted then
        (env.priorVotes voter (s.proposals id).startBlock).toNat
      else 0

omit [DecidableEq H] in
theorem Invariant.hasQueued_of_executed (inv : Invariant env began jobs s)
    {tx : TimelockTransaction} {timestamp : Nat} (mem : .executed id tx timestamp ∈ s.history) :
    HasQueued s id := by
  obtain ⟨newer, older, split⟩ := List.append_of_mem mem
  have part : .executed id tx timestamp :: older <:+ s.history := ⟨newer, split.symm⟩
  obtain ⟨_, _, queuedAt, delay, mem, _⟩ := inv.queueing.held.sound.timely part
  refine .inr ⟨tx, queuedAt, delay, ?_⟩
  rw [split]
  exact List.mem_append_right _ (List.mem_cons_of_mem _ mem)

omit [DecidableEq H] in
theorem Invariant.safe (inv : Invariant env began [] s) : Safe env began s where
  once id := by
    obtain ⟨waiting, done⟩ := inv.queueing.progress id
    cases executed : (s.proposals id).executed with
    | false => exact .inl (waiting executed)
    | true =>
        obtain ⟨_, all⟩ := done executed
        rw [left, List.map_nil, List.append_nil] at all
        exact .inr all
  carried mem := by
    obtain ⟨known, carried⟩ := inv.standing _ (inv.hasQueued_of_executed mem)
    obtain ⟨inFavor, against⟩ := inv.ballots.closed known carried.ended
    rw [inFavor, against]
    exact ⟨carried.majority, carried.quorum⟩
  timely part := (inv.queueing.held.sound.timely part).2
  own part := (inv.queueing.held.sound.timely part).1
  canceled {id} canceled tx := by
    have never : ¬ HasQueued s id := by
      intro queued
      have kept := (inv.standing id queued).2.kept
      rw [canceled] at kept
      cases kept
    exact ⟨fun queuedAt delay mem => never (.inr ⟨tx, queuedAt, delay, mem⟩),
      fun timestamp mem => never (inv.hasQueued_of_executed mem)⟩
  tallied id := ⟨(inv.ballots.tallied id).tally, (inv.ballots.tallied id).counted⟩

/-- **Governance safety.** In every run from the deployment of a governor that its timelock
obeys, whatever the timelock held before, and whatever the targets of executed actions call. -/
theorem governance_safe (env : GovernorAlphaEnv H)
    (injective : Function.Injective env.timelock.getTxHash) (timelock : TimelockState H)
    (admin : timelock.admin = env.this) (guardian : Address) (blockNumber timestamp : Nat)
    (as bs : List Action) :
    let start := construct timelock guardian blockNumber timestamp
    let s := run (step env) start as
    let s' := run (step env) start (as ++ bs)
    Safe env (stateBefore (step env) GovernorAlphaState.blockNumber start as) s ∧
      ∀ id, (s.proposals id).canceled = true → (s'.proposals id).canceled = true := by
  intro start s s'
  refine ⟨?_, fun id canceled => ?_⟩
  · exact (invariant_run injective
      (fun _ => invariant_constructed admin guardian blockNumber timestamp) as).safe
  · have later : s' = run (step env) s bs := run_append start as bs
    rw [later]
    exact canceled_run s bs canceled

namespace Sample

/-- One holder of 30,000,000 TRIBE, and a timelock at 2. -/
def governed : GovernorAlphaEnv TimelockTransaction where
  this := 1
  timelock := ⟨2, 3600, fun tx => tx⟩
  precompiles := ⟨fun _ => 0, fun _ _ _ _ => 0⟩
  chainId := 1
  priorVotes account _ := if account = 7 then BitVec.ofNat 96 (30000000 * 10 ^ 18) else 0

def timelock : TimelockState TimelockTransaction where
  admin := 1
  pendingAdmin := 0
  delay := 3600
  queuedTransactions := fun _ => false

/-- A proposal to change the delay and to call a stranger is carried out. The stranger has it
executed again, in vain. -/
def reign : List Action := [
  .transaction (.call
    (.propose 7 [2, 9] [0, 0] ["setDelay(uint256)", ""] [packWord (7200 : UInt256), []])),
  .mine 3334 40000,
  .transaction (.call (.castVote 7 1 true)),
  .mine 10000 130000,
  .transaction (.call (.queue 1)),
  .mine 300 3600,
  .transaction (.work 1
    (.next (.next (.call (.setDelay 2 7200)) .none) true
      (.next (.next (.work 1 .none) .none) true .none)))]

theorem governance_safe_sample :
    let start := construct timelock 0 100 1000
    let s := run (step governed) start reign
    ((Timelock.executions 1 s.history).map (·.target) = [2, 9] ∧ s.timelock.delay = 7200) ∧
      Safe governed (stateBefore (step governed) GovernorAlphaState.blockNumber start reign) s := by
  refine ⟨?_, ?_⟩
  · decide +kernel
  · exact (governance_safe governed (fun _ _ same => same) timelock rfl 0 100 1000 reign []).1

end Sample

end GovernorAlpha

end FeiProtocol
