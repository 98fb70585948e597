import FeiProtocol.Pcv.PCVGuardian

/-!
# Where the guardian lets PCV go

What the accounts of a coalition can have a deposit send, by any calls of Core, the tokens, the
guardian and the deposits, also from inside a withdrawal.

* `sends_iff`: when they can have it send tokens to a given address.
-/

namespace FeiProtocol

open Evm

namespace PCVGuardian

open EnumerableSet Permissions Authority

variable {σ : Type} [EnumerableSet σ Address]

/-- A call of an account of the coalition. -/
def Call.By (C : Address → Prop) : Call → Prop
  | .core sender _ | .deposit sender _ _ | .setSafeAddress sender _ | .setSafeAddresses sender _
  | .unsetSafeAddress sender _ | .unsetSafeAddresses sender _ => C sender

/-- All calls are of accounts of the coalition, also those from inside withdrawals. -/
def By (C : Address → Prop) (a : Action) : Prop :=
  a.All (Call.By C) (fun job => C job.sender) fun _ => True

section Conditions

variable (env : PCVGuardianEnv) (C : Address → Prop) (s : PCVGuardianState σ)
  (deposit receiver : Address)

/-- The coalition can come to hold the role, from the roles as they are. -/
abbrev Acquirable (role : Bytes32) : Prop := Core.Acquirable env.core s.core C role

/-- The guardian may withdraw from deposits. -/
def Controls : Prop :=
  hasRole s.core.permissions (PCV_CONTROLLER_ROLE env.core.precompiles) env.this

/-- The guardian may pause and unpause deposits. -/
def Guards : Prop :=
  hasRole s.core.permissions (GOVERN_ROLE env.core.precompiles) env.this ∨
    hasRole s.core.permissions (GUARDIAN_ROLE env.core.precompiles) env.this

/-- The coalition can have the guardian withdraw. -/
def CanMove : Prop :=
  Acquirable env C s (PCV_SAFE_MOVER_ROLE env.core.precompiles) ∨
    Acquirable env C s (GUARDIAN_ROLE env.core.precompiles)

/-- An address is safe, or the coalition can make it so. -/
def CanReceive : Prop :=
  receiver ∈ values s.safeAddresses ∨
    Acquirable env C s (PCV_GUARDIAN_ADMIN env.core.precompiles)

/-- A deposit is not paused, or the guardian or the coalition can unpause it. -/
def CanRun : Prop :=
  (s.deposits deposit)._paused = false ∨ Guards env s ∨
    Acquirable env C s (GUARDIAN_ROLE env.core.precompiles)

/-- The coalition can withdraw itself, or through the guardian. -/
def CanSend : Prop :=
  Acquirable env C s (PCV_CONTROLLER_ROLE env.core.precompiles) ∨
    CanMove env C s ∧ CanReceive env C s receiver ∧ Controls env s ∧ CanRun env C s deposit

/-- What a deposit has sent of a token to an address. -/
def sentTo (token : Address) : Nat :=
  s.core.ledger.total fun e => e.operator = deposit && (e.token = token && e.dst = receiver)

end Conditions

variable {env : PCVGuardianEnv} {C : Address → Prop} {s s' : PCVGuardianState σ}
  {deposit receiver token sender target : Address} {role : Bytes32}

/-! ## What a call does -/

/-- A call of a deposit pays tokens, or sets the pause flag, or does nothing. -/
inductive Deposited (env : PCVGuardianEnv) (sender target : Address)
    (c : ERC20HoldingPCVDeposit.Call) (s : PCVGuardianState σ) : PCVGuardianState σ → Prop where
  | paid {token receiver : Address} {amount : Nat} {ledger : Ledger}
    (controller : hasRole s.core.permissions (PCV_CONTROLLER_ROLE env.core.precompiles) sender)
    (asked : c.receiver = some receiver)
    (moved : s.core.ledger.safeTransfer target token receiver amount = .ok ledger) :
    Deposited env sender target c s { s with core := { s.core with ledger } }
  | flagged (b : Bool)
    (guards : hasRole s.core.permissions (GOVERN_ROLE env.core.precompiles) sender ∨
      hasRole s.core.permissions (GUARDIAN_ROLE env.core.precompiles) sender) :
    Deposited env sender target c s
      { s with deposits := (Function.update s.deposits target
        { s.deposits target with _paused := b }) }
  | nothing : Deposited env sender target c s s

omit [EnumerableSet σ Address] in
theorem deposited_of_callDeposit {c : ERC20HoldingPCVDeposit.Call}
    (succeeds : callDeposit env s sender target c = .ok s') :
    Deposited env sender target c s s' := by
  unfold callDeposit at succeeds
  split at succeeds
  · obtain ⟨⟨d, ledger⟩, called, same⟩ := bind_eq_ok_iff.mp succeeds
    cases same
    cases ERC20HoldingPCVDeposit.did_of_call called with
    | paid controller asked moved =>
        rw [Function.update_eq_self]
        exact .paid controller asked moved
    | flagged b guards => exact .flagged b ((Bool.or_eq_true _ _).mp guards)
    | nothing =>
        rw [Function.update_eq_self]
        exact .nothing
  · cases succeeds
    exact .nothing

omit [EnumerableSet σ Address] in
/-- A deposit is unpaused by those who may. -/
theorem guards_of_unpause (known : env.isDeposit target = true)
    (succeeds : callDeposit env s sender target .unpause = .ok s') :
    hasRole s.core.permissions (GOVERN_ROLE env.core.precompiles) sender ∨
      hasRole s.core.permissions (GUARDIAN_ROLE env.core.precompiles) sender := by
  rw [callDeposit, if_pos known] at succeeds
  obtain ⟨_, called, _⟩ := bind_eq_ok_iff.mp succeeds
  obtain ⟨_, unpauses, _⟩ := bind_eq_ok_iff.mp called
  obtain ⟨_, guards, _⟩ := bind_eq_ok_iff.mp unpauses
  exact (Bool.or_eq_true _ _).mp (require_eq_ok_iff.mp guards)

/-- What calls of the guardian do to its list. -/
structure Listed (env : PCVGuardianEnv) (sender : Address) (s s' : PCVGuardianState σ) : Prop where
  core : s'.core = s.core
  deposits : s'.deposits = s.deposits
  more : (∀ a ∈ values s'.safeAddresses, a ∈ values s.safeAddresses) ∨
    hasRole s.core.permissions (GOVERN_ROLE env.core.precompiles) sender ∨
    hasRole s.core.permissions (PCV_GUARDIAN_ADMIN env.core.precompiles) sender

theorem core_of_sets {as : List Address} (succeeds : as.foldlM _setSafeAddress s = .ok s') :
    s'.core = s.core ∧ s'.deposits = s.deposits := by
  induction as generalizing s with
  | nil =>
      cases succeeds
      exact ⟨rfl, rfl⟩
  | cons a as ih =>
      obtain ⟨t, sets, rest⟩ := foldlM_cons_eq_ok_iff.mp succeeds
      obtain ⟨_, _, same⟩ := bind_eq_ok_iff.mp sets
      cases same
      obtain ⟨core, deposits⟩ := ih rest
      exact ⟨core, deposits⟩

theorem fewer_of_unsets {as : List Address} (succeeds : as.foldlM _unsetSafeAddress s = .ok s') :
    s'.core = s.core ∧ s'.deposits = s.deposits ∧
      ∀ a ∈ values s'.safeAddresses, a ∈ values s.safeAddresses := by
  induction as generalizing s with
  | nil =>
      cases succeeds
      exact ⟨rfl, rfl, fun _ mem => mem⟩
  | cons a as ih =>
      obtain ⟨t, unsets, rest⟩ := foldlM_cons_eq_ok_iff.mp succeeds
      obtain ⟨_, _, same⟩ := bind_eq_ok_iff.mp unsets
      cases same
      obtain ⟨core, deposits, fewer⟩ := ih rest
      exact ⟨core, deposits, fun b mem => (mem_values_remove.mp (fewer b mem)).2⟩

omit [EnumerableSet σ Address] in
theorem admins_eq_ok_iff {u : Unit} : admins env s sender = .ok u ↔
    hasRole s.core.permissions (GOVERN_ROLE env.core.precompiles) sender ∨
      hasRole s.core.permissions (PCV_GUARDIAN_ADMIN env.core.precompiles) sender :=
  require_eq_ok_iff.trans (Iff.of_eq (Bool.or_eq_true _ _))

/-- Calls of the guardian that do not withdraw concern its list only. -/
theorem listed_of_call {a : Call} (succeeds : call env s a = .ok s') :
    (∃ sender c core, a = .core sender c ∧ Core.step env.core s.core (sender, c) = .ok core ∧
      s' = { s with core }) ∨
    (∃ sender target c, a = .deposit sender target c ∧ callDeposit env s sender target c = .ok s') ∨
    ∃ sender, (∀ C, a.By C → C sender) ∧ Listed env sender s s' := by
  cases a with
  | core sender c =>
      obtain ⟨core, stepped, same⟩ := bind_eq_ok_iff.mp succeeds
      cases same
      exact .inl ⟨sender, c, core, rfl, stepped, rfl⟩
  | deposit sender target c => exact .inr (.inl ⟨sender, target, c, rfl, succeeds⟩)
  | setSafeAddress sender pcvDeposit =>
      obtain ⟨_, allowed, rest⟩ := bind_eq_ok_iff.mp succeeds
      obtain ⟨_, _, same⟩ := bind_eq_ok_iff.mp rest
      cases same
      exact .inr (.inr ⟨sender, fun _ acts => acts, rfl, rfl, .inr (admins_eq_ok_iff.mp allowed)⟩)
  | setSafeAddresses sender _safeAddresses =>
      obtain ⟨_, allowed, rest⟩ := bind_eq_ok_iff.mp succeeds
      obtain ⟨_, _, sets⟩ := bind_eq_ok_iff.mp rest
      obtain ⟨core, deposits⟩ := core_of_sets sets
      exact .inr (.inr ⟨sender, fun _ acts => acts, core, deposits,
        .inr (admins_eq_ok_iff.mp allowed)⟩)
  | unsetSafeAddress sender pcvDeposit =>
      obtain ⟨_, _, rest⟩ := bind_eq_ok_iff.mp succeeds
      obtain ⟨_, _, same⟩ := bind_eq_ok_iff.mp rest
      cases same
      exact .inr (.inr ⟨sender, fun _ acts => acts, rfl, rfl,
        .inl fun a mem => (mem_values_remove.mp mem).2⟩)
  | unsetSafeAddresses sender _safeAddresses =>
      obtain ⟨_, _, rest⟩ := bind_eq_ok_iff.mp succeeds
      obtain ⟨_, _, unsets⟩ := bind_eq_ok_iff.mp rest
      obtain ⟨core, deposits, fewer⟩ := fewer_of_unsets unsets
      exact .inr (.inr ⟨sender, fun _ acts => acts, core, deposits, .inl fewer⟩)

/-- What is asked when a withdrawal begins. -/
structure Begun (env : PCVGuardianEnv) (s : PCVGuardianState σ) (job : Job)
    (requests : List (Address × PCVRequest)) : Prop where
  mover : hasRole s.core.permissions (GOVERN_ROLE env.core.precompiles) job.sender ∨
    hasRole s.core.permissions (PCV_SAFE_MOVER_ROLE env.core.precompiles) job.sender ∨
    hasRole s.core.permissions (GUARDIAN_ROLE env.core.precompiles) job.sender
  safe : job.safeAddress ∈ values s.safeAddresses
  asks : ∀ t c r, (t, .call c) ∈ requests → c.receiver = some r →
    t = job.pcvDeposit ∧ r = job.safeAddress
  first : ∃ rest, requests = (job.pcvDeposit, ._ensureUnpaused) :: rest

theorem begun_of_toSafeAddress {job : Job} {withdrawal : ERC20HoldingPCVDeposit.Call}
    {requests : List (Address × PCVRequest)}
    (receiver : ∀ r, withdrawal.receiver = some r → r = job.safeAddress)
    (succeeds : toSafeAddress env s job.sender job.pcvDeposit job.safeAddress withdrawal
      job.pauseAfter job.depositAfter = .ok requests) : Begun env s job requests := by
  obtain ⟨_, allowed, rest⟩ := bind_eq_ok_iff.mp succeeds
  obtain ⟨_, safe, same⟩ := bind_eq_ok_iff.mp rest
  cases same
  refine ⟨?_, of_decide_eq_true (require_eq_ok_iff.mp safe), ?_, ⟨_, rfl⟩⟩
  · have either := require_eq_ok_iff.mp allowed
    simp only [Bool.or_eq_true] at either
    exact or_assoc.mp either
  · intro t c r mem pays
    simp only [List.mem_cons, List.mem_append, Prod.mk.injEq, PCVRequest.call.injEq, reduceCtorEq,
      and_false, false_or] at mem
    rcases mem with here | paused | deposited
    · rw [here.2] at pays
      exact ⟨here.1, receiver r pays⟩
    · split at paused
      · cases List.mem_singleton.mp paused
        cases pays
      · cases paused
    · split at deposited
      · cases List.mem_singleton.mp deposited
        cases pays
      · cases deposited

theorem begun_of_begin {job : Job} {requests : List (Address × PCVRequest)}
    (succeeds : begin env s job = .ok requests) : Begun env s job requests := by
  unfold begin at succeeds
  split at succeeds
  · refine begun_of_toSafeAddress ?_ succeeds
    intro r same
    exact (Option.some.inj same).symm
  · refine begun_of_toSafeAddress ?_ succeeds
    intro r none
    cases none
  · refine begun_of_toSafeAddress ?_ succeeds
    intro r same
    exact (Option.some.inj same).symm

/-! ## What a coalition cannot do -/

/-- What a coalition has not changed, after some transactions of its own. -/
structure Kept (env : PCVGuardianEnv) (C : Address → Prop) (deposit receiver token : Address)
    (s₀ s : PCVGuardianState σ) : Prop where
  initialized : s.core._initialized = true
  reach : Reach (GOVERN_ROLE env.core.precompiles) C (grants s₀.core.permissions)
    (grants s.core.permissions)
  sent : sentTo s deposit receiver token = sentTo s₀ deposit receiver token
  safe : receiver ∈ values s.safeAddresses → CanReceive env C s₀ receiver
  running : (s.deposits deposit)._paused = false → CanRun env C s₀ deposit

/-- A withdrawal in progress, with what is still to be asked. -/
structure Working (env : PCVGuardianEnv) (C : Address → Prop) (deposit receiver : Address)
    (s₀ : PCVGuardianState σ) (job : Job) (requests : List (Address × PCVRequest)) : Prop where
  move : CanMove env C s₀
  safe : job.safeAddress = receiver → CanReceive env C s₀ receiver
  asks : ∀ t c r, (t, .call c) ∈ requests → c.receiver = some r →
    t = job.pcvDeposit ∧ r = job.safeAddress
  first : (∃ rest, requests = (job.pcvDeposit, ._ensureUnpaused) :: rest) ∨
    (job.pcvDeposit = deposit → CanRun env C s₀ deposit)

section Kept

variable {s₀ : PCVGuardianState σ} (kept : Kept env C deposit receiver token s₀ s)

include kept

/-- Who has a role along the run could acquire it at the start. -/
theorem Kept.acquirable (acts : C sender) (holds : hasRole s.core.permissions role sender) :
    Acquirable env C s₀ role := by
  have here : Authority.Acquirable (GOVERN_ROLE env.core.precompiles) C
      (grants s.core.permissions) role := .inl (.of_holds acts holds)
  exact here.of_reach kept.reach

/-- What the guardian may do along the run it could do at the start, or the coalition can. -/
theorem Kept.gained (holds : hasRole s.core.permissions role env.this) :
    hasRole s₀.core.permissions role env.this ∨ Acquirable env C s₀ role :=
  gained_of_reach kept.reach holds

theorem Kept.core {core : CoreState} {a : Core.Action} (acts : C sender) (outside : ¬ C deposit)
    (other : env.core.this ≠ deposit)
    (stepped : Core.step env.core s.core (sender, a) = .ok core) :
    Kept env C deposit receiver token s₀ { s with core } := by
  have change := Core.change_of_step kept.initialized stepped
  refine ⟨change.initialized.trans kept.initialized, kept.reach.tail (change.move.mono ?_),
    Eq.trans ?_ kept.sent, kept.safe, kept.running⟩
  · intro b same
    exact same ▸ acts
  · unfold sentTo
    cases change with
    | roles effect => rfl
    | address governor permissions ledger flag => rw [ledger]
    | allocation governor moved =>
        simpa [other] using (Ledger.safeTransfer_moved moved).total_eq
          fun e => e.operator = deposit && (e.token = token && e.dst = receiver)
    | token performed =>
        have notMine : sender ≠ deposit := fun same => outside (same ▸ acts)
        exact Ledger.total_calledBy_congr (Ledger.perform_calledBy notMine performed) _

/-- The flag of a deposit, set by an account that may. -/
theorem Kept.flagged {b : Bool} (can : CanRun env C s₀ deposit) :
    Kept env C deposit receiver token s₀ { s with
      deposits := (Function.update s.deposits target { s.deposits target with _paused := b }) } :=
  ⟨kept.initialized, kept.reach, kept.sent, kept.safe, fun _ => can⟩

/-- A payment that is not to the receiver, or not of the deposit. -/
theorem Kept.paid {t paidTo : Address} {amount : Nat} {ledger : Ledger}
    (moved : s.core.ledger.safeTransfer target t paidTo amount = .ok ledger)
    (elsewhere : ¬ (target = deposit ∧ paidTo = receiver)) :
    Kept env C deposit receiver token s₀ { s with core := { s.core with ledger } } := by
  refine ⟨kept.initialized, kept.reach, Eq.trans ?_ kept.sent, kept.safe, kept.running⟩
  have total := (Ledger.safeTransfer_moved moved).total_eq
    fun e => e.operator = deposit && (e.token = token && e.dst = receiver)
  refine total.trans ?_
  rw [if_neg, Nat.add_zero]
  · rfl
  · intro both
    simp only [Bool.and_eq_true, decide_eq_true_eq] at both
    exact elsewhere ⟨both.1, both.2.2⟩

theorem Kept.listed (acts : C sender) (listed : Listed env sender s s') :
    Kept env C deposit receiver token s₀ s' := by
  refine ⟨?_, ?_, ?_, ?_, ?_⟩
  · rw [listed.core]
    exact kept.initialized
  · rw [listed.core]
    exact kept.reach
  · rw [sentTo, listed.core]
    exact kept.sent
  · intro safe
    rcases listed.more with fewer | governs | administers
    · exact kept.safe (fewer receiver safe)
    · exact .inr (kept.acquirable acts governs).of_root
    · exact .inr (kept.acquirable acts administers)
  · rw [listed.deposits]
    exact kept.running

/-- The guardian may unpause only if it could, or the coalition can. -/
theorem Kept.canRun (guards : hasRole s.core.permissions (GOVERN_ROLE env.core.precompiles)
      env.this ∨ hasRole s.core.permissions (GUARDIAN_ROLE env.core.precompiles) env.this) :
    CanRun env C s₀ deposit := by
  refine .inr ?_
  rcases guards with governs | guards
  · exact (kept.gained governs).imp .inl fun root => root.of_root
  · exact (kept.gained guards).imp_left .inr

/-- A withdrawal that begins. -/
theorem Kept.working {job : Job} {requests : List (Address × PCVRequest)} (acts : C job.sender)
    (begun : Begun env s job requests) : Working env C deposit receiver s₀ job requests := by
  refine ⟨?_, fun same => kept.safe (same ▸ begun.safe), begun.asks, .inl begun.first⟩
  rcases begun.mover with governs | moves | guards
  · exact .inr (kept.acquirable acts governs).of_root
  · exact .inl (kept.acquirable acts moves)
  · exact .inr (kept.acquirable acts guards)

variable (never : ¬ CanSend env C s₀ deposit receiver)

include never

/-- A deposit called by the coalition. -/
theorem Kept.deposited {c : ERC20HoldingPCVDeposit.Call} (acts : C sender)
    (did : Deposited env sender target c s s') : Kept env C deposit receiver token s₀ s' := by
  cases did with
  | paid controller asked moved => exact absurd (.inl (kept.acquirable acts controller)) never
  | flagged b guards =>
      refine kept.flagged (.inr (.inr ?_))
      rcases guards with governs | guards
      · exact (kept.acquirable acts governs).of_root
      · exact kept.acquirable acts guards
  | nothing => exact kept

/-- A deposit called by the guardian, in a withdrawal. -/
theorem Kept.asked {c : ERC20HoldingPCVDeposit.Call}
    (allowed : target = deposit → c.receiver = some receiver →
      CanMove env C s₀ ∧ CanReceive env C s₀ receiver ∧ CanRun env C s₀ deposit)
    (did : Deposited env env.this target c s s') : Kept env C deposit receiver token s₀ s' := by
  cases did with
  | paid controller asked moved =>
      refine kept.paid moved ?_
      intro both
      obtain ⟨same, same'⟩ := both
      obtain ⟨move, receive, running⟩ := allowed same (same' ▸ asked)
      rcases kept.gained controller with controls | acquirable
      · exact never (.inr ⟨move, receive, controls, running⟩)
      · exact never (.inl acquirable)
  | flagged b guards => exact kept.flagged (kept.canRun guards)
  | nothing => exact kept

/-- One request of a withdrawal in progress. -/
theorem Kept.request {job : Job} {request : Address × PCVRequest}
    {requests : List (Address × PCVRequest)} (known : env.isDeposit deposit = true)
    (working : Working env C deposit receiver s₀ job (request :: requests))
    (succeeds : respond env s request.1 request.2 = .ok s') :
    Kept env C deposit receiver token s₀ s' ∧
      Working env C deposit receiver s₀ job requests := by
  obtain ⟨t, request⟩ := request
  have asks : ∀ u c r, (u, .call c) ∈ requests → c.receiver = some r →
      u = job.pcvDeposit ∧ r = job.safeAddress :=
    fun u c r mem => working.asks u c r (List.mem_cons_of_mem _ mem)
  cases request with
  | _ensureUnpaused =>
      dsimp only [respond] at succeeds
      split at succeeds
      · rename_i paused
        have kept' := kept.asked never (fun _ none => by cases none)
          (deposited_of_callDeposit succeeds)
        refine ⟨kept', working.move, working.safe, asks, .inr ?_⟩
        intro same
        rcases working.first with ⟨rest, here⟩ | running
        · have place : t = job.pcvDeposit := congrArg Prod.fst (List.cons.inj here).1
          exact kept.canRun (guards_of_unpause ((place.trans same) ▸ known) succeeds)
        · exact running same
      · rename_i unpaused
        cases succeeds
        refine ⟨kept, working.move, working.safe, asks, .inr ?_⟩
        intro same
        rcases working.first with ⟨rest, here⟩ | running
        · have place : t = job.pcvDeposit := congrArg Prod.fst (List.cons.inj here).1
          rw [place, same] at unpaused
          exact kept.running (Bool.eq_false_of_not_eq_true unpaused)
        · exact running same
  | call c =>
      have running : job.pcvDeposit = deposit → CanRun env C s₀ deposit := by
        rcases working.first with ⟨rest, here⟩ | running
        · cases congrArg Prod.snd (List.cons.inj here).1
        · exact running
      refine ⟨kept.asked never ?_ (deposited_of_callDeposit succeeds), working.move, working.safe,
        asks, .inr running⟩
      intro same pays
      obtain ⟨place, safe⟩ := working.asks t c receiver List.mem_cons_self pays
      exact ⟨working.move, working.safe safe.symm, running (place.symm.trans same)⟩

end Kept

variable {s₀ : PCVGuardianState σ}

theorem keeps_kept (known : env.isDeposit deposit = true) (outside : ¬ C deposit)
    (other : env.core.this ≠ deposit) (never : ¬ CanSend env C s₀ deposit receiver) :
    (callbacks env).KeepsAmong (Call.By C) (fun job => C job.sender) (fun _ => True)
      fun jobs s => Kept env C deposit receiver token s₀ s ∧
        ∀ job ∈ jobs, Working env C deposit receiver s₀ job.1 job.2 where
  call inv byC succeeds := by
    obtain ⟨kept, working⟩ := inv
    refine ⟨?_, working⟩
    rcases listed_of_call succeeds with ⟨sender, c, core, same, stepped, same'⟩ |
      ⟨sender, target, c, same, called⟩ | ⟨sender, caller, listed⟩
    · subst same
      subst same'
      exact kept.core byC outside other stepped
    · subst same
      exact kept.deposited never byC (deposited_of_callDeposit called)
    · exact kept.listed (caller C byC) listed
  start inv acts succeeds := by
    obtain ⟨kept, working⟩ := inv
    obtain ⟨requests, begins, same⟩ := bind_eq_ok_iff.mp succeeds
    cases same
    refine ⟨trivial, kept, ?_⟩
    intro job mem
    rcases List.mem_cons.mp mem with here | before
    · subst here
      exact kept.working acts (begun_of_begin begins)
    · exact working job before
  before inv succeeds := by
    obtain ⟨kept, working⟩ := inv
    obtain ⟨kept', working'⟩ :=
      kept.request never known (working _ List.mem_cons_self) succeeds
    refine ⟨kept', ?_⟩
    intro job mem
    rcases List.mem_cons.mp mem with here | before
    · subst here
      exact working'
    · exact working job (List.mem_cons_of_mem _ before)
  finish inv := ⟨inv.1, fun job mem => inv.2 job (List.mem_cons_of_mem _ mem)⟩

/-- **No further.** A coalition that cannot withdraw in any of the ways below never has the deposit
send anything to the receiver. -/
theorem sentTo_run (initialized : s.core._initialized = true) (known : env.isDeposit deposit = true)
    (outside : ¬ C deposit) (other : env.core.this ≠ deposit)
    (never : ¬ CanSend env C s deposit receiver) {as : List Action} (byC : ∀ a ∈ as, By C a) :
    sentTo (run (step env) s as) deposit receiver token = sentTo s deposit receiver token := by
  have start : Kept env C deposit receiver token s s := ⟨initialized, .refl, rfl, .inl, .inl⟩
  have kept := @run_invariant _ _ _ (step env) (Kept env C deposit receiver token s) (By C) ?_ s
    start as byC
  · exact kept.sent
  · intro t a t' kept byC succeeds
    exact ((keeps_kept known outside other never).perform a byC [] t t'
      ⟨kept, by simp⟩ succeeds).1

/-! ## What it can do -/

/-- What the coalition brings about without losing anything. -/
structure Advance (env : PCVGuardianEnv) (C : Address → Prop) (deposit : Address)
    (s s' : PCVGuardianState σ) : Prop where
  run : ∃ as, (∀ a ∈ as, By C a) ∧ run (step env) s as = s'
  ledger : s'.core.ledger = s.core.ledger
  holds : ∀ {q c}, hasRole s.core.permissions q c → hasRole s'.core.permissions q c
  within : ∀ {q}, Acquirable env C s q → Acquirable env C s' q
  safe : ∀ a ∈ values s.safeAddresses, a ∈ values s'.safeAddresses
  running : (s.deposits deposit)._paused = false → (s'.deposits deposit)._paused = false

theorem Advance.refl (s : PCVGuardianState σ) : Advance env C deposit s s :=
  ⟨⟨[], by simp, rfl⟩, rfl, id, id, fun _ => id, id⟩

theorem Advance.trans {s'' : PCVGuardianState σ} (first : Advance env C deposit s s')
    (second : Advance env C deposit s' s'') : Advance env C deposit s s'' := by
  obtain ⟨as, byC, reached⟩ := first.run
  obtain ⟨bs, byC', reached'⟩ := second.run
  refine ⟨⟨as ++ bs, ?_, ?_⟩, second.ledger.trans first.ledger, second.holds ∘ first.holds,
    second.within ∘ first.within, fun a mem => second.safe a (first.safe a mem),
    second.running ∘ first.running⟩
  · intro a mem
    exact (List.mem_append.mp mem).elim (byC a) (byC' a)
  · rw [run_append, reached, reached']

/-- A run of Core is a run here. -/
theorem run_core (s : PCVGuardianState σ) (as : List (Address × Core.Action)) :
    run (step env) s (as.map fun a => .call (.core a.1 a.2)) =
      { s with core := run (Core.step env.core) s.core as } := by
  induction as generalizing s with
  | nil => rfl
  | cons a as ih =>
      have here : commit (step env) s (.call (.core a.1 a.2)) =
          { s with core := commit (Core.step env.core) s.core a } := by
        have same : step env s (.call (.core a.1 a.2)) =
            (do let core ← Core.step env.core s.core a; return { s with core }) := rfl
        unfold commit
        rw [same]
        cases Core.step env.core s.core a with
        | error e => rfl
        | ok core => rfl
      rw [List.map_cons, run_cons, here, ih, run_cons]

/-- An acquirable role is acquired. -/
theorem exists_acquired (acquirable : Acquirable env C s role) :
    ∃ s' a, Advance env C deposit s s' ∧ s'.safeAddresses = s.safeAddresses ∧ C a ∧
      hasRole s'.core.permissions role a := by
  obtain ⟨g, promotions, a, acts, holds⟩ := exists_reach acquirable
  obtain ⟨as, byC, ledger, reached⟩ := Core.exists_run promotions
  subst reached
  refine ⟨{ s with core := run (Core.step env.core) s.core as }, a,
    ⟨⟨_, ?_, run_core s as⟩, ledger, holds_of_promotions promotions,
      Authority.Acquirable.of_promotions promotions, fun _ => id, id⟩, rfl, acts, holds⟩
  intro b mem
  obtain ⟨c, inside, same⟩ := List.mem_map.mp mem
  subst same
  exact byC c inside

/-- One call of the coalition. -/
theorem run_call {a : Call} (byC : a.By C) (succeeds : call env s a = .ok s') :
    ∃ as, (∀ a ∈ as, By C a) ∧ run (step env) s as = s' := by
  have stepped : step env s (.call a) = .ok s' := succeeds
  refine ⟨[.call a], ?_, ?_⟩
  · intro b mem
    rw [List.mem_singleton.mp mem]
    exact byC
  · rw [run_cons, run_nil, commit_of_ok stepped]

/-- The receiver becomes a safe address. -/
theorem exists_safe (can : CanReceive env C s receiver) :
    ∃ s', Advance env C deposit s s' ∧ receiver ∈ values s'.safeAddresses := by
  by_cases already : receiver ∈ values s.safeAddresses
  · exact ⟨s, .refl s, already⟩
  · obtain ⟨t, a, advance, same, acts, administers⟩ :=
      @exists_acquired _ _ env C s deposit _ (can.resolve_left already)
    have absent : isSafeAddress t receiver = false := by
      rw [isSafeAddress, same]
      exact decide_eq_false already
    have sets : call env t (.setSafeAddress a receiver) =
        .ok { t with safeAddresses := add t.safeAddresses receiver } := by
      refine bind_eq_ok_iff.mpr ⟨(), admins_eq_ok_iff.mpr (.inr administers), ?_⟩
      exact bind_eq_ok_iff.mpr ⟨(), require_eq_ok_iff.mpr absent, rfl⟩
    have more : Advance env C deposit t
        { t with safeAddresses := add t.safeAddresses receiver } :=
      ⟨run_call (a := .setSafeAddress a receiver) acts sets, rfl, id, id,
        fun b mem => mem_values_add.mpr (.inr mem), id⟩
    exact ⟨_, advance.trans more, mem_values_add.mpr (.inl rfl)⟩

omit [EnumerableSet σ Address] in
/-- Those who may unpause a paused deposit. -/
theorem unpause_succeeds (known : env.isDeposit target = true)
    (paused : (s.deposits target)._paused = true)
    (guards : hasRole s.core.permissions (GOVERN_ROLE env.core.precompiles) sender ∨
      hasRole s.core.permissions (GUARDIAN_ROLE env.core.precompiles) sender) :
    callDeposit env s sender target .unpause = .ok { s with
      deposits := (Function.update s.deposits target
        { s.deposits target with _paused := false }) } := by
  have allowed : CoreRef.onlyGuardianOrGovernor
      (Permissions.core env.core.precompiles s.core.permissions) sender = .ok () :=
    require_eq_ok_iff.mpr ((Bool.or_eq_true _ _).mpr guards)
  have on : Pausable.paused (s.deposits target) = true := paused
  rw [callDeposit, if_pos known]
  refine bind_eq_ok_iff.mpr ⟨({ s.deposits target with _paused := false }, s.core.ledger), ?_, rfl⟩
  refine bind_eq_ok_iff.mpr ⟨{ s.deposits target with _paused := false }, ?_, rfl⟩
  refine bind_eq_ok_iff.mpr ⟨(), allowed, ?_⟩
  exact bind_eq_ok_iff.mpr ⟨(), require_eq_ok_iff.mpr on, rfl⟩

/-- The deposit runs, or the guardian can have it run. -/
theorem exists_running (known : env.isDeposit deposit = true)
    (can : CanRun env C s deposit) :
    ∃ s', Advance env C deposit s s' ∧ ((s'.deposits deposit)._paused = false ∨ Guards env s') := by
  rcases can with running | guards | acquirable
  · exact ⟨s, .refl s, .inl running⟩
  · exact ⟨s, .refl s, .inr guards⟩
  · obtain ⟨t, a, advance, _, acts, guards⟩ := @exists_acquired _ _ env C s deposit _ acquirable
    by_cases paused : (t.deposits deposit)._paused = true
    · have unpaused : call env t (.deposit a deposit .unpause) = .ok _ :=
        unpause_succeeds known paused (.inr guards)
      have more : Advance env C deposit t { t with
          deposits := (Function.update t.deposits deposit
            { t.deposits deposit with _paused := false }) } :=
        ⟨run_call (a := .deposit a deposit .unpause) acts unpaused, rfl, id, id, fun _ => id,
        fun _ => by simp only [Function.update_self]⟩
      exact ⟨_, advance.trans more, .inl (by simp only [Function.update_self])⟩
    · exact ⟨t, advance, .inl (Bool.eq_false_of_not_eq_true paused)⟩

omit [EnumerableSet σ Address] in
/-- A controller withdraws one unit. -/
theorem withdraw_succeeds (known : env.isDeposit deposit = true)
    (controller : hasRole s.core.permissions (PCV_CONTROLLER_ROLE env.core.precompiles) sender)
    (some : 0 < s.core.ledger.balanceOf token deposit) (receiver : Address) :
    ∃ s', callDeposit env s sender deposit (.withdrawERC20 token receiver 1) = .ok s' ∧
      sentTo s' deposit receiver token = sentTo s deposit receiver token + 1 := by
  have covered : (1 : UInt256).toNat ≤ s.core.ledger.balanceOf token deposit := some
  obtain ⟨ledger, moved⟩ := Ledger.safeTransfer_succeeds covered receiver
  refine ⟨{ s with core := { s.core with ledger } }, ?_, ?_⟩
  · rw [callDeposit, if_pos known]
    refine bind_eq_ok_iff.mpr ⟨(s.deposits deposit, ledger), ?_, ?_⟩
    · refine bind_eq_ok_iff.mpr ⟨ledger, ?_, rfl⟩
      exact bind_eq_ok_iff.mpr ⟨(), require_eq_ok_iff.mpr controller, moved⟩
    · dsimp only
      rw [Function.update_eq_self]
      rfl
  · simpa [sentTo] using (Ledger.safeTransfer_moved moved).total_eq
      fun e => e.operator = deposit && (e.token = token && e.dst = receiver)

/-- The withdrawal of one unit, of which nobody takes advantage. -/
theorem job_succeeds {a : Address} (known : env.isDeposit deposit = true)
    (controls : Controls env s) (safe : receiver ∈ values s.safeAddresses)
    (running : (s.deposits deposit)._paused = false ∨ Guards env s)
    (mover : hasRole s.core.permissions (PCV_SAFE_MOVER_ROLE env.core.precompiles) a ∨
      hasRole s.core.permissions (GUARDIAN_ROLE env.core.precompiles) a)
    (some : 0 < s.core.ledger.balanceOf token deposit) :
    ∃ s', step env s (.work ⟨a, .ERC20ToSafeAddress token, deposit, receiver, 1, false, false⟩
        (.next .none true (.next .none true .none))) = .ok s' ∧
      sentTo s' deposit receiver token = sentTo s deposit receiver token + 1 := by
  have begins : begin env s ⟨a, .ERC20ToSafeAddress token, deposit, receiver, 1, false, false⟩ =
      .ok [(deposit, ._ensureUnpaused), (deposit, .call (.withdrawERC20 token receiver 1))] := by
    refine bind_eq_ok_iff.mpr ⟨(), require_eq_ok_iff.mpr ?_, ?_⟩
    · simp only [Bool.or_eq_true]
      rcases mover with moves | guards
      · exact .inl (.inr moves)
      · exact .inr guards
    · exact bind_eq_ok_iff.mpr ⟨(), require_eq_ok_iff.mpr (decide_eq_true safe), rfl⟩
  obtain ⟨t, responds, core⟩ : ∃ t, respond env s deposit ._ensureUnpaused = .ok t ∧
      t.core = s.core := by
    by_cases paused : (s.deposits deposit)._paused = true
    · have guards := running.resolve_left (by rw [paused]; exact Bool.noConfusion)
      exact ⟨_, (if_pos paused).trans (unpause_succeeds known paused guards), rfl⟩
    · exact ⟨s, if_neg paused, rfl⟩
  have controller : hasRole t.core.permissions (PCV_CONTROLLER_ROLE env.core.precompiles)
      env.this := core ▸ controls
  obtain ⟨s', withdraws, sent⟩ := withdraw_succeeds known controller (core ▸ some) receiver
  refine ⟨s', ?_, ?_⟩
  · rw [step, Callbacks.perform]
    refine bind_eq_ok_iff.mpr ⟨(s, _), bind_eq_ok_iff.mpr ⟨_, begins, rfl⟩, ?_⟩
    dsimp only
    rw [Callbacks.answer]
    refine bind_eq_ok_iff.mpr ⟨t, responds, ?_⟩
    rw [Callbacks.performAll, if_pos rfl, Callbacks.answer]
    refine bind_eq_ok_iff.mpr ⟨s', withdraws, ?_⟩
    rw [Callbacks.performAll, if_pos rfl]
    rfl
  · rw [sent, sentTo, sentTo, core]

/-- **What a deposit sends.** A coalition has a deposit send tokens that it has to a given address,
in some run, exactly if it can acquire the role of PCV controllers; or if it can acquire a role that
may withdraw to safe addresses, the address is safe or the coalition can acquire the role that adds
safe addresses, the guardian is a PCV controller, and the deposit is not paused or can be
unpaused. -/
theorem sends_iff (initialized : s.core._initialized = true) (known : env.isDeposit deposit = true)
    (outside : ¬ C deposit) (other : env.core.this ≠ deposit)
    (some : 0 < s.core.ledger.balanceOf token deposit) :
    (∃ as, (∀ a ∈ as, By C a) ∧ sentTo s deposit receiver token <
      sentTo (run (step env) s as) deposit receiver token) ↔
    CanSend env C s deposit receiver := by
  constructor
  · intro given
    by_contra never
    rcases given with ⟨as, byC, more⟩
    rw [sentTo_run initialized known outside other never byC] at more
    exact Nat.lt_irrefl _ more
  · intro can
    rcases can with controller | ⟨move, receive, controls, running⟩
    · obtain ⟨t, a, advance, _, acts, holds⟩ := @exists_acquired _ _ env C s deposit _ controller
      obtain ⟨as, byC, reached⟩ := advance.run
      obtain ⟨s', withdraws, sent⟩ :=
        withdraw_succeeds known holds (advance.ledger ▸ some) receiver
      obtain ⟨bs, byC', reached'⟩ :=
        run_call (a := .deposit a deposit (.withdrawERC20 token receiver 1)) acts withdraws
      refine ⟨as ++ bs, fun b mem => (List.mem_append.mp mem).elim (byC b) (byC' b), ?_⟩
      rw [run_append, reached, reached', sent, sentTo, sentTo, advance.ledger]
      exact Nat.lt_succ_self _
    · obtain ⟨t, first, running⟩ := exists_running known running
      have receive : CanReceive env C t receiver := receive.imp (first.safe receiver) first.within
      obtain ⟨u, second, safe⟩ := @exists_safe _ _ env C t deposit receiver receive
      have move : ∃ v a, Advance env C deposit u v ∧ C a ∧
          (hasRole v.core.permissions (PCV_SAFE_MOVER_ROLE env.core.precompiles) a ∨
            hasRole v.core.permissions (GUARDIAN_ROLE env.core.precompiles) a) := by
        rcases move with moves | guards
        · obtain ⟨v, a, third, _, acts, holds⟩ :=
            @exists_acquired _ _ env C u deposit _ (second.within (first.within moves))
          exact ⟨v, a, third, acts, .inl holds⟩
        · obtain ⟨v, a, third, _, acts, holds⟩ :=
            @exists_acquired _ _ env C u deposit _ (second.within (first.within guards))
          exact ⟨v, a, third, acts, .inr holds⟩
      obtain ⟨v, a, third, acts, mover⟩ := move
      have later := second.trans third
      have advance := first.trans later
      have running' : (v.deposits deposit)._paused = false ∨ Guards env v :=
        running.imp later.running fun guards => guards.imp later.holds later.holds
      obtain ⟨s', works, sent⟩ := job_succeeds known (advance.holds controls)
        (third.safe receiver safe) running' mover (advance.ledger ▸ some)
      obtain ⟨as, byC, reached⟩ := advance.run
      refine ⟨as ++ [.work ⟨a, .ERC20ToSafeAddress token, deposit, receiver, 1, false, false⟩
        (.next .none true (.next .none true .none))], ?_, ?_⟩
      · intro b mem
        rcases List.mem_append.mp mem with before | last
        · exact byC b before
        · rw [List.mem_singleton.mp last]
          exact ⟨acts, fun _ => ⟨trivial, trivial, trivial⟩⟩
      · rw [run_append, reached, run_cons, run_nil, commit_of_ok works, sent, sentTo, sentTo,
          advance.ledger]
        exact Nat.lt_succ_self _

end PCVGuardian

namespace PCVGuardian.Sample

open Permissions

/-- A stand-in for the hash. -/
def keccak256 (b : Bytes) : Bytes32 := BitVec.ofNat 256 (b.foldl (fun n x => 31 * n + x.toNat) 0)

def P : Precompiles := ⟨keccak256, fun _ _ _ _ => 0⟩

/-- The guardian is at `0x6A`, and a deposit at `0xD1`. -/
def env : PCVGuardianEnv where
  core := ⟨P, 0xC0⟩
  this := 0x6A
  isDeposit a := a = 0xD1

/-- The deposit has 100 tokens. -/
def ledger : Ledger where
  erc20 _ := ⟨fun a => if a = 0xD1 then 100 else 0, fun _ _ => 0, 100, false⟩
  transfers := []

/-- The deployer of Core is account 2. It appoints the guardian, and makes 5 a mover. -/
def appointments : List (Address × Core.Action) :=
  [(2, .core (.permissions (.grantPCVController 0x6A))),
    (2, .core (.permissions (.grantGuardian 0x6A))),
    (2, .core (.permissions (.createRole (PCV_SAFE_MOVER_ROLE P) (GOVERN_ROLE P)))),
    (2, .core (.permissions (.grantRole (PCV_SAFE_MOVER_ROLE P) 5)))]

/-- The deposit is paused, and `0x5A` is safe. -/
def start : PCVGuardianState (SwapAndPop Address) where
  core := run (Core.step env.core) (Core.deployed env.core ledger 2 0xFE 0x7B) appointments
  safeAddresses := ⟨[0x5A], by decide⟩
  deposits _ := ⟨0x70, true⟩

/-- Two roles that are each under the other or themselves, of which 5 has none. -/
theorem not_commands {role admin : Bytes32}
    (under : getRoleAdmin start.core.permissions role = admin)
    (top : getRoleAdmin start.core.permissions admin = admin)
    (none : hasRole start.core.permissions role 5 = false)
    (none' : hasRole start.core.permissions admin 5 = false) :
    ¬ Authority.Commands (· = 5) (grants start.core.permissions) role := by
  have under : (grants start.core.permissions).admin role = admin := under
  have top : (grants start.core.permissions).admin admin = admin := top
  intro given
  rcases given with ⟨n, a, same, holds⟩
  subst same
  cases n with
  | zero => exact Bool.false_ne_true (none.symm.trans holds)
  | succ n =>
      rw [Function.iterate_succ_apply, under, Function.iterate_fixed top n] at holds
      exact Bool.false_ne_true (none'.symm.trans holds)

theorem not_governor : ¬ Authority.Commands (· = 5) (grants start.core.permissions)
    (GOVERN_ROLE P) := by
  have top : getRoleAdmin start.core.permissions (GOVERN_ROLE P) = GOVERN_ROLE P := by
    decide +kernel
  have none : hasRole start.core.permissions (GOVERN_ROLE P) 5 = false := by decide +kernel
  exact not_commands top top none none

theorem not_controller : ¬ Acquirable env (· = 5) start (PCV_CONTROLLER_ROLE P) := by
  have under : getRoleAdmin start.core.permissions (PCV_CONTROLLER_ROLE P) = GOVERN_ROLE P := by
    decide +kernel
  have top : getRoleAdmin start.core.permissions (GOVERN_ROLE P) = GOVERN_ROLE P := by
    decide +kernel
  have none : hasRole start.core.permissions (PCV_CONTROLLER_ROLE P) 5 = false := by
    decide +kernel
  have none' : hasRole start.core.permissions (GOVERN_ROLE P) 5 = false := by decide +kernel
  exact not_or.mpr ⟨not_commands under top none none', not_governor⟩

theorem not_admin : ¬ Acquirable env (· = 5) start (PCV_GUARDIAN_ADMIN P) := by
  have under : getRoleAdmin start.core.permissions (PCV_GUARDIAN_ADMIN P) = DEFAULT_ADMIN_ROLE := by
    decide +kernel
  have top : getRoleAdmin start.core.permissions DEFAULT_ADMIN_ROLE = DEFAULT_ADMIN_ROLE := by
    decide +kernel
  have none : hasRole start.core.permissions (PCV_GUARDIAN_ADMIN P) 5 = false := by
    decide +kernel
  have none' : hasRole start.core.permissions DEFAULT_ADMIN_ROLE 5 = false := by decide +kernel
  exact not_or.mpr ⟨not_commands under top none none', not_governor⟩

end PCVGuardian.Sample

namespace PCVGuardian

open Sample Permissions

/-- The mover has tokens sent to the safe address, and nowhere else. -/
theorem sends_iff_sample :
    (∃ as, (∀ a ∈ as, By (· = 5) a) ∧ sentTo start 0xD1 0x5A 0x70 <
      sentTo (run (step env) start as) 0xD1 0x5A 0x70) ∧
    ¬ ∃ as, (∀ a ∈ as, By (· = 5) a) ∧ sentTo start 0xD1 0x66 0x70 <
      sentTo (run (step env) start as) 0xD1 0x66 0x70 := by
  have initialized : start.core._initialized = true := by decide +kernel
  have some : 0 < start.core.ledger.balanceOf 0x70 0xD1 := by decide +kernel
  have toSafe := @sends_iff _ _ env (· = 5) start 0xD1 0x5A 0x70 initialized rfl (by decide)
    (by decide) some
  have elsewhere := @sends_iff _ _ env (· = 5) start 0xD1 0x66 0x70 initialized rfl (by decide)
    (by decide) some
  constructor
  · have moves : hasRole start.core.permissions (PCV_SAFE_MOVER_ROLE P) 5 := by decide +kernel
    have controls : hasRole start.core.permissions (PCV_CONTROLLER_ROLE P) 0x6A := by decide +kernel
    have guards : hasRole start.core.permissions (GUARDIAN_ROLE P) 0x6A := by decide +kernel
    exact toSafe.mpr (.inr ⟨.inl (.inl (.of_holds rfl moves)), .inl (by decide), controls,
      .inr (.inl (.inr guards))⟩)
  · rw [elsewhere]
    intro given
    rcases given with controller | ⟨_, receive, _⟩
    · exact not_controller controller
    · rcases receive with safe | administers
      · exact absurd safe (by decide)
      · exact not_admin administers

end PCVGuardian

end FeiProtocol
