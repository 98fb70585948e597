import FeiProtocol.Dao.GovernorAlphaSteps

/-!
# What the timelock holds for the proposals of `GovernorAlpha`

A proposal that is queued has a claim to the transactions of its actions; while it is being
executed, to those that are left.

* `Queueing.did`, `Queueing.begun`, `Queueing.ran`, `Queueing.finished`: every claim is kept until
  it is used, and what was executed is what is no longer claimed.
-/

namespace FeiProtocol

open Evm

namespace GovernorAlpha

/-- The jobs in progress, innermost first, with the actions that are left of each. -/
abbrev Jobs : Type := List (UInt256 × List ProposalAction)

/-- The actions that are left of the execution of a proposal. -/
def left : Jobs → Nat → List ProposalAction
  | [], _ => []
  | (proposalId, actions) :: jobs, id => if proposalId.toNat = id then actions else left jobs id

/-- The actions that a proposal is still to have executed, as transactions. -/
def outstanding (proposal : Proposal) (remaining : List ProposalAction) :
    List TimelockTransaction :=
  if proposal.eta = 0 then []
  else (if proposal.executed then remaining else proposal.actions).map (·.transaction proposal.eta)

/-- How far a proposal is. -/
structure Progress (proposal : Proposal) (done : List TimelockTransaction)
    (remaining : List ProposalAction) : Prop where
  waiting : proposal.executed = false → done = []
  executed : proposal.executed = true → proposal.eta ≠ 0 ∧
    done ++ remaining.map (·.transaction proposal.eta) = proposal.transactions

variable {H : Type}

def claims (s : GovernorAlphaState H) (jobs : Jobs) (id : Nat) : List TimelockTransaction :=
  outstanding (s.proposals id) (left jobs id)

/-- The governor is the admin of the timelock, each proposal holds what it is still to have
executed, and what is being executed is of proposals that are executed and not stale. -/
structure Queueing (env : GovernorAlphaEnv H) (jobs : Jobs) (s : GovernorAlphaState H) :
    Prop where
  admin : s.timelock.admin = env.this
  held : Timelock.Held env.timelock (claims s jobs) s.timelock s.history
  progress : ∀ id, Progress (s.proposals id) (Timelock.executions id s.history) (left jobs id)
  distinct : (jobs.map Prod.fst).Nodup
  working : ∀ job ∈ jobs, (s.proposals job.1.toNat).executed = true ∧
    s.timestamp < (s.proposals job.1.toNat).eta + Timelock.GRACE_PERIOD

variable {env : GovernorAlphaEnv H} {jobs : Jobs} {s s' t : GovernorAlphaState H} {id eta : Nat}
  {actions : List ProposalAction}

/-! ## Jobs -/

theorem left_of_not_mem (absent : ∀ job ∈ jobs, job.1.toNat ≠ id) : left jobs id = [] := by
  induction jobs with
  | nil => rfl
  | cons job jobs ih =>
      rw [left, if_neg (absent job List.mem_cons_self)]
      exact ih fun job mem => absent job (List.mem_cons_of_mem _ mem)

/-- A job without actions is as none. -/
theorem left_finished {proposalId : UInt256}
    (distinct : (((proposalId, []) :: jobs : Jobs).map Prod.fst).Nodup) (id : Nat) :
    left ((proposalId, []) :: jobs) id = left jobs id := by
  rw [left]
  split
  · rename_i same
    subst same
    refine (left_of_not_mem fun job mem same => ?_).symm
    rw [List.map_cons, List.nodup_cons] at distinct
    exact distinct.1 (List.mem_map.mpr ⟨job, mem, BitVec.eq_of_toNat_eq same⟩)
  · rfl

theorem eta_of_mem_outstanding {proposal : Proposal} {remaining : List ProposalAction}
    {tx : TimelockTransaction} (mem : tx ∈ outstanding proposal remaining) : tx.eta ≠ 0 := by
  unfold outstanding at mem
  split at mem
  · cases mem
  · rename_i set
    obtain ⟨action, _, rfl⟩ := List.mem_map.mp mem
    exact set

/-! ## Steps that leave the queue alone -/

/-- What a claim rests on stays as it is. -/
theorem Queueing.congr (queueing : Queueing env jobs s) (admin : s'.timelock.admin = env.this)
    (queue : s'.timelock.queuedTransactions = s.timelock.queuedTransactions)
    (history : s'.history = s.history) (timestamp : jobs = [] ∨ s'.timestamp = s.timestamp)
    (etas : ∀ id, (s'.proposals id).eta = (s.proposals id).eta)
    (executed : ∀ id, (s'.proposals id).executed = (s.proposals id).executed)
    (actions : ∀ id, (s.proposals id).eta ≠ 0 →
      (s'.proposals id).actions = (s.proposals id).actions) : Queueing env jobs s' where
  admin := admin
  held := by
    rw [history]
    refine queueing.held.weaken (fun id => ?_) queue
    rw [claims, claims, outstanding, outstanding, etas, executed]
    split
    · exact .refl _
    · rename_i set
      rw [actions id set]
  progress id := by
    obtain ⟨waiting, done⟩ := queueing.progress id
    refine ⟨fun idle => ?_, fun ran => ?_⟩
    · rw [executed] at idle
      rw [history]
      exact waiting idle
    · rw [executed] at ran
      obtain ⟨set, all⟩ := done ran
      rw [history, Proposal.transactions, etas, actions id set]
      exact ⟨set, all⟩
  distinct := queueing.distinct
  working job mem := by
    rw [executed, etas]
    rcases timestamp with empty | same
    · rw [empty] at mem
      cases mem
    · rw [same]
      exact queueing.working job mem

/-- One proposal changes, but not what a claim rests on. -/
theorem Queueing.revise (queueing : Queueing env jobs s) {proposal : Proposal}
    (proposals : s'.proposals = Function.update s.proposals id proposal)
    (eta : proposal.eta = (s.proposals id).eta)
    (executed : proposal.executed = (s.proposals id).executed)
    (actions : (s.proposals id).eta ≠ 0 → proposal.actions = (s.proposals id).actions)
    (timelock : s'.timelock = s.timelock) (history : s'.history = s.history)
    (timestamp : s'.timestamp = s.timestamp) : Queueing env jobs s' := by
  have revised (P : Nat → Proposal → Prop) (own : P id proposal)
      (others : ∀ id', P id' (s.proposals id')) (id' : Nat) : P id' (s'.proposals id') := by
    rw [proposals]
    by_cases same : id' = id
    · rw [same, Function.update_self]
      exact own
    · rw [Function.update_of_ne same]
      exact others id'
  refine queueing.congr ?_ ?_ history (.inr timestamp) ?_ ?_ ?_
  · rw [timelock]
    exact queueing.admin
  · rw [timelock]
  · exact revised (fun id' p => p.eta = (s.proposals id').eta) eta fun _ => rfl
  · exact revised (fun id' p => p.executed = (s.proposals id').executed) executed fun _ => rfl
  · exact revised (fun id' p => (s.proposals id').eta ≠ 0 →
      p.actions = (s.proposals id').actions) actions fun _ _ => rfl

/-! ## Queueing and canceling -/

variable [DecidableEq H]

/-- The loop of `queue` makes its proposal the holder of one transaction after another. -/
theorem held_of_queueOrRevert {claims : Nat → List TimelockTransaction}
    (loop : actions.foldlM (fun s action => _queueOrRevert env s id eta action) s = .ok t)
    (held : Timelock.Held env.timelock claims s.timelock s.history)
    (timed : eta = s.timestamp + s.timelock.delay) :
    Timelock.Held env.timelock
      (Function.update claims id (claims id ++ actions.map (·.transaction eta)))
      t.timelock t.history ∧
    ∀ id', Timelock.executions id' t.history = Timelock.executions id' s.history := by
  induction actions generalizing s claims with
  | nil =>
      rw [foldlM_nil_eq_ok_iff] at loop
      subst loop
      rw [List.map_nil, List.append_nil, Function.update_eq_self]
      exact ⟨held, fun _ => rfl⟩
  | cons action actions ih =>
      obtain ⟨mid, first, rest⟩ := foldlM_cons_eq_ok_iff.mp loop
      obtain ⟨free, _, _, _, rfl⟩ := _queueOrRevert_eq_ok_iff.mp first
      have one := @Timelock.Held.queue _ _ _ _ _ _ _ held free s.timestamp timed id
      obtain ⟨all, same⟩ := ih rest one timed
      rw [Function.update_idem, Function.update_self, List.append_assoc,
        List.singleton_append] at all
      exact ⟨all, same⟩

theorem Queueing.queued (queueing : Queueing env jobs s) (unset : (s.proposals id).eta = 0)
    (timed : eta = s.timestamp + s.timelock.delay)
    (loop : (s.proposals id).actions.foldlM
      (fun s action => _queueOrRevert env s id eta action) s = .ok t) :
    Queueing env jobs { t with
      proposals := Function.update s.proposals id { s.proposals id with eta := eta } } := by
  have engaged := engaged_of_foldlM engaged_of_queueOrRevert loop
  obtain ⟨held, same⟩ := held_of_queueOrRevert loop queueing.held timed
  have idle : (s.proposals id).executed = false := by
    cases executed : (s.proposals id).executed with
    | false => rfl
    | true => exact absurd unset ((queueing.progress id).executed executed).1
  refine ⟨engaged.admin.trans queueing.admin, held.weaken (fun id' => ?_) rfl, fun id' => ?_,
    queueing.distinct, fun job mem => ?_⟩
  · by_cases own : id' = id
    · subst own
      simp only [claims, outstanding, Function.update_self, idle, unset, if_pos]
      split
      · exact List.nil_sublist _
      · exact .refl _
    · rw [Function.update_of_ne own]
      simp only [claims, Function.update_of_ne own]
      exact .refl _
  · dsimp only
    rw [same]
    by_cases own : id' = id
    · subst own
      rw [Function.update_self]
      refine ⟨(queueing.progress id').waiting, fun executed => ?_⟩
      rw [idle] at executed
      cases executed
    · rw [Function.update_of_ne own]
      exact queueing.progress id'
  · have working := queueing.working job mem
    have other : job.1.toNat ≠ id := by
      intro own
      rw [own, idle] at working
      cases working.1
    dsimp only
    rw [Function.update_of_ne other, engaged.timestamp]
    exact working

/-- What is canceled is a transaction that nobody queues, since a proposal that can be canceled
has no time of execution. -/
theorem Queueing.canceled (queueing : Queueing env jobs s)
    (injective : Function.Injective env.timelock.getTxHash) (unset : (s.proposals id).eta = 0)
    (loop : actions.foldlM (fun s action => cancelAction env s id action) s = .ok t) :
    Queueing env jobs t := by
  have kept := foldlM_invariant (I := fun t => Queueing env jobs t ∧ (t.proposals id).eta = 0)
    (fun {mid action next} before _ succeeds => ?_) ⟨queueing, unset⟩ loop
  · exact kept.1
  · obtain ⟨queueing, unset⟩ := before
    obtain ⟨_, rfl⟩ := cancelAction_eq_ok_iff.mp succeeds
    refine ⟨⟨queueing.admin, ?_, queueing.progress, queueing.distinct, queueing.working⟩, unset⟩
    exact queueing.held.cancel injective id fun id' mem => eta_of_mem_outstanding mem unset

/-! ## Executing -/

omit [DecidableEq H] in
theorem Queueing.begun (queueing : Queueing env jobs s) {proposalId : UInt256}
    (set : (s.proposals proposalId.toNat).eta ≠ 0)
    (idle : (s.proposals proposalId.toNat).executed = false)
    (early : s.timestamp < (s.proposals proposalId.toNat).eta + Timelock.GRACE_PERIOD) :
    Queueing env ((proposalId, (s.proposals proposalId.toNat).actions) :: jobs) { s with
      proposals := Function.update s.proposals proposalId.toNat
        { s.proposals proposalId.toNat with executed := true } } where
  admin := queueing.admin
  held := by
    refine queueing.held.weaken (fun id => ?_) rfl
    by_cases own : id = proposalId.toNat
    · subst own
      simp only [claims, outstanding, Function.update_self, left, if_pos, if_neg set, idle]
      exact .refl _
    · simp only [claims, Function.update_of_ne own, left, if_neg (Ne.symm own)]
      exact .refl _
  progress id := by
    dsimp only
    by_cases own : id = proposalId.toNat
    · subst own
      rw [Function.update_self, left, if_pos rfl]
      refine ⟨fun waiting => Bool.noConfusion waiting, fun _ => ⟨set, ?_⟩⟩
      rw [(queueing.progress _).waiting idle]
      rfl
    · rw [Function.update_of_ne own, left, if_neg (Ne.symm own)]
      exact queueing.progress id
  distinct := by
    rw [List.map_cons, List.nodup_cons]
    refine ⟨fun mem => ?_, queueing.distinct⟩
    obtain ⟨job, mem, same⟩ := List.mem_map.mp mem
    have working := (queueing.working job mem).1
    rw [same, idle] at working
    cases working
  working job mem := by
    dsimp only
    rcases List.mem_cons.mp mem with same | mem
    · rw [same, Function.update_self]
      exact ⟨rfl, early⟩
    · have working := queueing.working job mem
      rw [Function.update_of_ne]
      · exact working
      · intro own
        rw [own, idle] at working
        cases working.1

theorem Queueing.ran {proposalId : UInt256} {action : ProposalAction}
    (queueing : Queueing env ((proposalId, action :: actions) :: jobs) s)
    (injective : Function.Injective env.timelock.getTxHash)
    (succeeds : executeAction env s proposalId.toNat action = .ok s') :
    Queueing env ((proposalId, actions) :: jobs) s' := by
  obtain ⟨due, rfl⟩ := ran_of_executeAction succeeds
  obtain ⟨executed, early⟩ := queueing.working _ List.mem_cons_self
  obtain ⟨set, all⟩ := (queueing.progress proposalId.toNat).executed executed
  rw [left, if_pos rfl] at all
  dsimp only at executed early
  have first : claims s ((proposalId, action :: actions) :: jobs) proposalId.toNat =
      action.transaction (s.proposals proposalId.toNat).eta ::
        actions.map (·.transaction (s.proposals proposalId.toNat).eta) := by
    rw [claims, outstanding, if_neg set, if_pos executed, left, if_pos rfl, List.map_cons]
  refine ⟨queueing.admin, ?_, fun id => ?_, queueing.distinct, ?_⟩
  · refine (queueing.held.execute injective first due early).weaken (fun id => ?_) rfl
    by_cases own : id = proposalId.toNat
    · subst own
      rw [Function.update_self, claims, outstanding, if_neg set, if_pos executed, left, if_pos rfl]
    · rw [Function.update_of_ne own, claims, claims, left, left, if_neg (Ne.symm own),
        if_neg (Ne.symm own)]
  · dsimp only
    rw [Timelock.executions, left]
    by_cases own : id = proposalId.toNat
    · subst own
      rw [if_pos rfl, if_pos rfl]
      refine ⟨fun waiting => ?_, fun _ => ⟨set, ?_⟩⟩
      · rw [executed] at waiting
        cases waiting
      · rw [List.append_assoc, List.singleton_append]
        exact all
    · rw [if_neg (Ne.symm own), if_neg (Ne.symm own)]
      have before := queueing.progress id
      rw [left, if_neg (Ne.symm own)] at before
      exact before
  · intro job mem
    rcases List.mem_cons.mp mem with same | mem
    · rw [same]
      exact ⟨executed, early⟩
    · exact queueing.working job (List.mem_cons_of_mem _ mem)

omit [DecidableEq H] in
theorem Queueing.finished {proposalId : UInt256}
    (queueing : Queueing env ((proposalId, []) :: jobs) s) : Queueing env jobs s := by
  have same := left_finished queueing.distinct
  refine ⟨queueing.admin, queueing.held.weaken (fun id => ?_) rfl, fun id => ?_,
    (List.nodup_cons.mp queueing.distinct).2, fun job mem =>
      queueing.working job (List.mem_cons_of_mem _ mem)⟩
  · rw [claims, claims, same]
  · rw [← same]
    exact queueing.progress id

/-! ## Calls -/

/-- A call keeps every claim. -/
theorem Queueing.did (queueing : Queueing env jobs s)
    (injective : Function.Injective env.timelock.getTxHash)
    (blank : (s.proposals (s.proposalCount + 1)).eta = 0)
    (live : ∀ id, s.blockNumber ≤ (s.proposals id).endBlock → (s.proposals id).eta = 0)
    (ordered : ∀ id, (s.proposals id).startBlock ≤ (s.proposals id).endBlock)
    (did : Did env s s') : Queueing env jobs s' := by
  cases did with
  | proposed proposer actions latest =>
      exact queueing.revise rfl rfl rfl (fun set => absurd blank set) rfl rfl rfl
  | voted voter id support known active first =>
      exact queueing.revise rfl rfl rfl (fun _ => rfl) rfl rfl rfl
  | queued id eta t known succeeded timed loop => exact queueing.queued succeeded.2 timed loop
  | canceled id t known state loop =>
      have during : s.blockNumber ≤ (s.proposals id).endBlock := by
        rcases state with active | pending
        · exact active.2.2
        · exact Nat.le_trans pending.2 (ordered id)
      have unset := live id during
      refine Queueing.canceled ?_ injective ?_ loop
      · exact queueing.revise rfl rfl rfl (fun _ => rfl) rfl rfl rfl
      · dsimp only
        rw [Function.update_self]
        exact unset
  | quiet timelock guardian admin queue =>
      exact queueing.congr (admin queueing.admin) queue rfl (.inr rfl) (fun _ => rfl)
        (fun _ => rfl) fun _ _ => rfl

omit [DecidableEq H] in
theorem queueing_constructed {timelock : TimelockState H} (admin : timelock.admin = env.this)
    (guardian : Address) (blockNumber timestamp : Nat) :
    Queueing env [] (construct timelock guardian blockNumber timestamp) where
  admin := admin
  held := by
    refine ⟨fun mem => ?_, fun id => List.nodup_nil, fun found => ?_, trivial⟩
    · cases mem
    · cases found
  progress id := ⟨fun _ => rfl, fun executed => by cases executed⟩
  distinct := List.nodup_nil
  working _ mem := by cases mem

end GovernorAlpha

end FeiProtocol
