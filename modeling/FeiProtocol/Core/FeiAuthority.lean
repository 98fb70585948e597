import FeiProtocol.Core.Core
import FeiProtocol.Fei.FeiSpending

/-!
# The roles and FEI together

`Core` and the token in one state: the token asks `Core` for the roles of its callers at each
call, so what accounts can do to it changes along a run as the roles do.

* `raises_iff`: when a coalition of accounts can make new FEI.
* `destroys_iff`: when it can take FEI from a holder that approves and signs nothing.
-/

namespace FeiProtocol

open Evm

structure FeiSystemState : Type where
  core : CoreState
  token : FeiTokenState

/-- `fei.fei.core` is not used: the roles are those of the state. -/
structure FeiSystemEnv : Type where
  core : CoreEnv
  fei : FeiTokenEnv

namespace FeiSystem

open Authority Permissions

variable (env : FeiSystemEnv) (s : FeiSystemState)

/-- What the token sees of the roles. -/
def tokenEnv : FeiTokenEnv :=
  { env.fei with fei :=
    { env.fei.fei with core := Permissions.core env.core.precompiles s.core.permissions } }

inductive Action : Type where
  | core (a : Address × Core.Action)
  | fei (a : FeiToken.Action)
  deriving DecidableEq, Repr

def step : Action → Except Revert FeiSystemState
  | .core a => do
      let core ← Core.step env.core s.core a
      return { s with core }
  | .fei a => do
      let token ← FeiToken.step (tokenEnv env s) s.token a
      return { s with token }

end FeiSystem

namespace FeiToken

open CoreRef Fei

variable {env : FeiTokenEnv} {s s' : FeiTokenState} {holder : Address} {C : Address → Prop}

/-- Sent by an account of the coalition, or a permit, which anybody may bring. -/
def Action.By (C : Address → Prop) : Action → Prop
  | .call sender _ => C sender
  | .setIncentiveContract sender _ _ => C sender
  | .permit _ _ _ _ _ _ _ => True
  | .wait _ => True

/-- What a transaction of accounts that are no governors does to the supply and the pause. -/
structure Governed (env : FeiTokenEnv) (C : Address → Prop) (s s' : FeiTokenState) : Prop where
  plain : Plain s'.toFeiState
  supply : totalSupply s'.toFeiState ≤ totalSupply s.toFeiState ∨
    s._paused = false ∧ ∃ a, C a ∧ env.fei.core.isMinter a
  paused : s'._paused = s._paused ∨ ∃ a, C a ∧ env.fei.core.isGuardian a

/-- Pausing is for guardians. -/
theorem guardian_of_guarded {sender : Address} {u : Unit}
    (ordinary : ∀ a, C a → ¬ env.fei.core.isGovernor a) (acts : C sender)
    (allowed : onlyGuardianOrGovernor env.fei.core sender = .ok u) :
    ∃ a, C a ∧ env.fei.core.isGuardian a := by
  simp only [onlyGuardianOrGovernor, require_eq_ok_iff, Bool.or_eq_true] at allowed
  exact ⟨sender, acts, allowed.resolve_left (ordinary sender acts)⟩

theorem call_governed {sender : Address} {c : Fei.Call} {fei : FeiState}
    (plain : Plain s.toFeiState) (ordinary : ∀ a, C a → ¬ env.fei.core.isGovernor a)
    (acts : C sender) (succeeds : Fei.call env.fei s.toFeiState sender c = .ok fei) :
    Governed env C s { s with toFeiState := fei } := by
  cases c with
  | mint account amount =>
      obtain ⟨minter, running, _, fits, same⟩ := (mint_eq_ok_iff plain).mp succeeds
      subst same
      exact ⟨⟨plain.noIncentives, plain.consistent.mint fits⟩, .inr ⟨running, sender, acts, minter⟩,
        .inl rfl⟩
  | burn amount =>
      obtain ⟨_, erc20, burns, same⟩ := (burn_eq_ok_iff plain).mp succeeds
      subst same
      have burned := Erc20.burned_of_burn burns
      refine ⟨⟨plain.noIncentives, burned.consistent plain.consistent⟩, .inl ?_, .inl rfl⟩
      exact Nat.le_trans (Nat.le_of_eq burned.supply) (Nat.sub_le _ _)
  | burnFrom account amount =>
      obtain ⟨_, _, _, erc20, burns, same⟩ := (burnFrom_eq_ok_iff plain).mp succeeds
      subst same
      have burned := Erc20.burned_of_burn burns
      refine ⟨⟨plain.noIncentives, burned.consistent plain.consistent⟩, .inl ?_, .inl rfl⟩
      exact Nat.le_trans (Nat.le_of_eq burned.supply) (Nat.sub_le _ _)
  | transfer receiver amount =>
      obtain ⟨_, _, covered, same⟩ := (_transfer_eq_ok_iff plain).mp succeeds
      subst same
      exact ⟨⟨plain.noIncentives, plain.consistent.move covered⟩, .inl (Nat.le_refl _), .inl rfl⟩
  | transferFrom src dst amount =>
      have word : amount.toNat ≤ maxUint256 := Nat.le_pred_of_lt amount.isLt
      obtain ⟨_, _, _, _, covered, same⟩ := (transferFrom_eq_ok_iff plain word).mp succeeds
      subst same
      rw [← Erc20.spend_balanceOf s.toFeiState.erc20 src sender amount.toNat] at covered
      refine ⟨⟨plain.noIncentives, plain.consistent.spend.move covered⟩, .inl ?_, .inl rfl⟩
      simp only [totalSupply, Erc20.move_totalSupply, Erc20.spend_totalSupply]
      exact Nat.le_refl _
  | approve spender amount =>
      obtain ⟨_, _, same⟩ := approve_eq_ok_iff.mp succeeds
      subst same
      exact ⟨⟨plain.noIncentives, plain.consistent.approve⟩, .inl (Nat.le_refl _), .inl rfl⟩
  | pause =>
      have same := pause_eq succeeds
      obtain ⟨_, allowed, _⟩ := bind_eq_ok_iff.mp succeeds
      subst same
      exact ⟨⟨plain.noIncentives, plain.consistent⟩, .inl (Nat.le_refl _),
        .inr (guardian_of_guarded ordinary acts allowed)⟩
  | unpause =>
      have same := unpause_eq succeeds
      obtain ⟨_, allowed, _⟩ := bind_eq_ok_iff.mp succeeds
      subst same
      exact ⟨⟨plain.noIncentives, plain.consistent⟩, .inl (Nat.le_refl _),
        .inr (guardian_of_guarded ordinary acts allowed)⟩

theorem step_governed {a : Action} (plain : Plain s.toFeiState)
    (ordinary : ∀ a, C a → ¬ env.fei.core.isGovernor a) (byC : a.By C)
    (succeeds : step env s a = .ok s') : Governed env C s s' := by
  cases a with
  | call sender c =>
      simp only [step, bind_eq_ok_iff, pure_eq_ok_iff] at succeeds
      obtain ⟨fei, called, same⟩ := succeeds
      exact same ▸ call_governed plain ordinary byC called
  | setIncentiveContract sender account incentive =>
      simp only [step, setIncentiveContract, onlyGovernor, bind_eq_ok_iff,
        require_eq_ok_iff] at succeeds
      exact absurd succeeds.choose_spec.1 (ordinary sender byC)
  | permit owner spender value deadline v r sig =>
      rw [(permitted_of_permit succeeds).result]
      exact ⟨⟨plain.noIncentives, plain.consistent.approve⟩, .inl (Nat.le_refl _), .inl rfl⟩
  | wait seconds =>
      cases succeeds
      exact ⟨plain, .inl (Nat.le_refl _), .inl rfl⟩

end FeiToken

namespace FeiSystem

open Authority Permissions

variable {env : FeiSystemEnv} {s s' : FeiSystemState} {C : Address → Prop} {holder : Address}

/-- All transactions are of accounts of the coalition, or bring permits. -/
def Action.By (C : Address → Prop) : Action → Prop
  | .core a => C a.1
  | .fei a => a.By C

/-- It is not a permit of the holder's. -/
def Action.Unsigned (holder : Address) : Action → Prop
  | .fei (.permit owner _ _ _ _ _ _) => owner ≠ holder
  | _ => True

/-- All transactions are of accounts of the coalition, and none is a permit. -/
def Own (C : Address → Prop) (as : List Action) : Prop :=
  ∀ a ∈ as, a.By C ∧ ∀ holder, a.Unsigned holder

theorem Own.append {as bs : List Action} (own : Own C as) (own' : Own C bs) :
    Own C (as ++ bs) := by
  intro a mem
  exact (List.mem_append.mp mem).elim (own a) (own' a)

theorem own_call {a : Address} {c : Fei.Call} (acts : C a) : Own C [.fei (.call a c)] := by
  intro b mem
  rw [List.mem_singleton.mp mem]
  exact ⟨acts, fun _ => trivial⟩

/-- What a coalition that cannot govern has not changed, after some transactions of its own. -/
structure Ruled (env : FeiSystemEnv) (C : Address → Prop) (s₀ s : FeiSystemState) : Prop where
  initialized : s.core._initialized = true
  reach : Reach (GOVERN_ROLE env.core.precompiles) C (grants s₀.core.permissions)
    (grants s.core.permissions)
  plain : Fei.Plain s.token.toFeiState

/-- Who has a role along the run could acquire it at the start. -/
theorem Ruled.acquirable {s₀ : FeiSystemState} {role : Bytes32} {a : Address}
    (ruled : Ruled env C s₀ s) (acts : C a) (holds : hasRole s.core.permissions role a) :
    Core.Acquirable env.core s₀.core C role := by
  have here : Acquirable (GOVERN_ROLE env.core.precompiles) C (grants s.core.permissions) role :=
    .inl (.of_holds acts holds)
  exact here.of_reach ruled.reach

theorem Ruled.core {s₀ : FeiSystemState} {core : CoreState} {a : Address × Core.Action}
    (ruled : Ruled env C s₀ s) (acts : C a.1) (succeeds : Core.step env.core s.core a = .ok core) :
    Ruled env C s₀ { s with core } := by
  have change := Core.change_of_step ruled.initialized succeeds
  refine ⟨change.initialized.trans ruled.initialized, ruled.reach.tail (change.move.mono ?_),
    ruled.plain⟩
  intro b same
  exact same ▸ acts

theorem Ruled.ordinary {s₀ : FeiSystemState} (ruled : Ruled env C s₀ s)
    (never : ¬ Core.Acquirable env.core s₀.core C (GOVERN_ROLE env.core.precompiles)) :
    ∀ a, C a → ¬ (tokenEnv env s).fei.core.isGovernor a :=
  fun _ acts governs => never (ruled.acquirable acts governs)

/-- A run of `Core` is a run of both. -/
theorem run_core (s : FeiSystemState) (as : List (Address × Core.Action)) :
    run (step env) s (as.map .core) = { s with core := run (Core.step env.core) s.core as } := by
  induction as generalizing s with
  | nil => rfl
  | cons a as ih =>
      have here : commit (step env) s (.core a) =
          { s with core := commit (Core.step env.core) s.core a } := by
        unfold commit
        cases called : Core.step env.core s.core a with
        | error e => simp [step, called, bind, Except.bind]
        | ok core => simp [step, called, bind, Except.bind, pure, Except.pure]
      rw [List.map_cons, run_cons, here, ih, run_cons]

/-- An acquirable role is acquired, and nothing else lost. -/
theorem exists_acquired {role : Bytes32}
    (acquirable : Core.Acquirable env.core s.core C role) :
    ∃ as core, Own C as ∧ run (step env) s as = { s with core } ∧
      (∃ a, C a ∧ hasRole core.permissions role a) ∧
      ∀ q, Core.Acquirable env.core s.core C q → Core.Acquirable env.core core C q := by
  obtain ⟨g, promotions, a, acts, holds⟩ := exists_reach acquirable
  obtain ⟨as, byC, _, reached⟩ := Core.exists_run promotions
  subst reached
  refine ⟨as.map .core, _, ?_, run_core s as, ⟨a, acts, holds⟩,
    fun q within => within.of_promotions promotions⟩
  intro b mem
  obtain ⟨c, inside, same⟩ := List.mem_map.mp mem
  subst same
  exact ⟨byC c inside, fun _ => trivial⟩

/-- A guardian lets a paused token run again. -/
theorem exists_running (running : s.token._paused = false ∨
      Core.Acquirable env.core s.core C (GUARDIAN_ROLE env.core.precompiles)) :
    ∃ as core, Own C as ∧
      run (step env) s as = ⟨core, { s.token with _paused := false }⟩ ∧
      ∀ q, Core.Acquirable env.core s.core C q → Core.Acquirable env.core core C q := by
  by_cases paused : s.token._paused = true
  · have guardian := running.resolve_left (by rw [paused]; exact Bool.noConfusion)
    obtain ⟨as, core, byC, reached, ⟨a, acts, guards⟩, within⟩ := exists_acquired guardian
    have allowed : CoreRef.onlyGuardianOrGovernor (tokenEnv env { s with core }).fei.core a =
        .ok () := by
      refine require_eq_ok_iff.mpr ?_
      rw [Bool.or_eq_true]
      exact .inr guards
    have unpaused : step env { s with core } (.fei (.call a .unpause)) =
        .ok ⟨core, { s.token with _paused := false }⟩ := by
      have off : Pausable.paused s.token.toFeiState = true := paused
      simp only [step, FeiToken.step, Fei.call, CoreRef.unpause, allowed, off]
      rfl
    refine ⟨as ++ [.fei (.call a .unpause)], core, byC.append (own_call acts), ?_, within⟩
    rw [run_append, reached, run_cons, run_nil, commit_of_ok unpaused]
  · have off := Bool.eq_false_of_not_eq_true paused
    refine ⟨[], s.core, fun _ none => absurd none List.not_mem_nil, ?_, fun _ within => within⟩
    rw [run_nil, ← off]

/-- With a role acquired too. -/
theorem exists_ready {role : Bytes32}
    (acquirable : Core.Acquirable env.core s.core C role)
    (running : s.token._paused = false ∨
      Core.Acquirable env.core s.core C (GUARDIAN_ROLE env.core.precompiles)) :
    ∃ as core a, Own C as ∧
      run (step env) s as = ⟨core, { s.token with _paused := false }⟩ ∧
      C a ∧ hasRole core.permissions role a := by
  obtain ⟨as, core, byC, reached, within⟩ := exists_running running
  obtain ⟨bs, core', byC', reached', ⟨a, acts, holds⟩, _⟩ :=
    exists_acquired (s := ⟨core, { s.token with _paused := false }⟩) (within _ acquirable)
  refine ⟨as ++ bs, core', a, byC.append byC', ?_, acts, holds⟩
  rw [run_append, reached, reached']

/-- The transactions of a coalition that cannot govern keep it from governing. -/
theorem Ruled.fei {s₀ : FeiSystemState} {a : FeiToken.Action} {token : FeiTokenState}
    (ruled : Ruled env C s₀ s)
    (never : ¬ Core.Acquirable env.core s₀.core C (GOVERN_ROLE env.core.precompiles))
    (byC : a.By C) (succeeds : FeiToken.step (tokenEnv env s) s.token a = .ok token) :
    Ruled env C s₀ { s with token } ∧
      FeiToken.Governed (tokenEnv env s) C s.token token := by
  have governed := FeiToken.step_governed ruled.plain (ruled.ordinary never) byC succeeds
  exact ⟨⟨ruled.initialized, ruled.reach, governed.plain⟩, governed⟩

/-- **New FEI.** A coalition makes FEI in some run exactly if it can acquire the minters' role,
and the token is not paused or the guardians' role can be acquired too. -/
theorem raises_iff (initialized : s.core._initialized = true)
    (plain : Fei.Plain s.token.toFeiState)
    (fits : Fei.totalSupply s.token.toFeiState + 1 < 2 ^ 256) :
    (∃ as, (∀ a ∈ as, a.By C) ∧ Fei.totalSupply s.token.toFeiState <
      Fei.totalSupply (run (step env) s as).token.toFeiState) ↔
    Core.Acquirable env.core s.core C (MINTER_ROLE env.core.precompiles) ∧
      (s.token._paused = false ∨
        Core.Acquirable env.core s.core C (GUARDIAN_ROLE env.core.precompiles)) := by
  constructor
  · intro given
    by_contra never
    rcases given with ⟨as, byC, more⟩
    have govern : ¬ Core.Acquirable env.core s.core C (GOVERN_ROLE env.core.precompiles) :=
      fun governs => never ⟨governs.of_root, .inr governs.of_root⟩
    have kept := @run_invariant _ _ _ (step env) (fun t : FeiSystemState => Ruled env C s t ∧
      Fei.totalSupply t.token.toFeiState ≤ Fei.totalSupply s.token.toFeiState ∧
      (t.token._paused = s.token._paused ∨
        Core.Acquirable env.core s.core C (GUARDIAN_ROLE env.core.precompiles)))
      (Action.By C) ?_ s ⟨⟨initialized, .refl, plain⟩, Nat.le_refl _, .inl rfl⟩ as byC
    · exact absurd more (Nat.not_lt.mpr kept.2.1)
    · intro t a t' inv acts succeeds
      obtain ⟨ruled, supply, paused⟩ := inv
      cases a with
      | core a =>
          simp only [step, bind_eq_ok_iff, pure_eq_ok_iff] at succeeds
          obtain ⟨core, stepped, same⟩ := succeeds
          subst same
          exact ⟨ruled.core acts stepped, supply, paused⟩
      | fei a =>
          simp only [step, bind_eq_ok_iff, pure_eq_ok_iff] at succeeds
          obtain ⟨token, stepped, same⟩ := succeeds
          subst same
          obtain ⟨ruled', governed⟩ := ruled.fei govern acts stepped
          refine ⟨ruled', ?_, ?_⟩
          · rcases governed.supply with less | ⟨running, b, member, mints⟩
            · exact Nat.le_trans less supply
            · refine absurd ⟨ruled.acquirable member mints, ?_⟩ never
              exact paused.imp_left fun same => same.symm.trans running
          · rcases governed.paused with same | ⟨b, member, guards⟩
            · exact paused.imp_left same.trans
            · exact .inr (ruled.acquirable member guards)
  · intro given
    obtain ⟨as, core, a, byC, reached, acts, mints⟩ := exists_ready given.1 given.2
    have minted : step env ⟨core, { s.token with _paused := false }⟩ (.fei (.call a (.mint 1 1))) =
        .ok _ := bind_eq_ok_iff.mpr ⟨_, bind_eq_ok_iff.mpr ⟨_, (Fei.mint_eq_ok_iff
          (s := { s.token.toFeiState with _paused := false })
          ⟨plain.noIncentives, plain.consistent⟩).mpr
          ⟨mints, rfl, by decide, fits, rfl⟩, rfl⟩, rfl⟩
    refine ⟨as ++ [.fei (.call a (.mint 1 1))], fun b mem => ?_, ?_⟩
    · exact (byC.append (own_call acts) b mem).1
    · rw [run_append, reached, run_cons, run_nil, commit_of_ok minted]
      exact Nat.lt_succ_self _

/-- What a coalition that cannot burn has not taken from the holder. -/
structure Untouched (holder : Address) (s₀ s : FeiSystemState) : Prop where
  limited : s.token.erc20.Limited holder
  none : s.token.erc20.allowed holder = 0
  balance : Fei.balanceOf s₀.token.toFeiState holder ≤ Fei.balanceOf s.token.toFeiState holder

theorem Untouched.fei {s₀ : FeiSystemState} {a : FeiToken.Action} {token : FeiTokenState}
    (untouched : Untouched holder s₀ s) (ruled : Ruled env C s₀ s) (outside : ¬ C holder)
    (never : ¬ Core.Acquirable env.core s₀.core C (GOVERN_ROLE env.core.precompiles))
    (safe : ∀ b, C b → (tokenEnv env s).fei.core.isBurner b → s.token._paused = true)
    (byC : a.By C) (unsigned : (Action.fei a).Unsigned holder)
    (succeeds : FeiToken.step (tokenEnv env s) s.token a = .ok token) :
    Untouched holder s₀ { s with token } := by
  have none := untouched.none
  have balance := untouched.balance
  cases a with
  | call sender c =>
      simp only [FeiToken.step, bind_eq_ok_iff, pure_eq_ok_iff] at succeeds
      obtain ⟨fei, called, same⟩ := succeeds
      subst same
      have other : holder ≠ sender := fun same => outside (same ▸ byC)
      have spends := Fei.call_spends ruled.plain untouched.limited other (safe sender byC) called
      have bound := spends.bound
      have le := spends.allowed_le
      refine ⟨spends.limited, Nat.le_zero.mp (none ▸ le), ?_⟩
      dsimp only
      omega
  | setIncentiveContract sender account incentive =>
      simp only [FeiToken.step, FeiToken.setIncentiveContract, CoreRef.onlyGovernor,
        bind_eq_ok_iff, require_eq_ok_iff] at succeeds
      exact absurd succeeds.choose_spec.1 (ruled.ordinary never sender byC)
  | permit owner spender value deadline v r sig =>
      have other : holder ≠ owner := Ne.symm unsigned
      rw [(FeiToken.permitted_of_permit succeeds).result]
      refine ⟨untouched.limited.approve fun _ same => absurd same other, ?_, balance⟩
      exact (Erc20.allowed_approve_of_ne other).trans none
  | wait seconds =>
      cases succeeds
      exact ⟨untouched.limited, none, balance⟩

/-- **A holder's FEI.** A coalition lowers the balance of a holder outside it that approves nobody
and signs nothing, in some run, exactly if it can acquire the burners' role, the token is not
paused or the guardians' role can be acquired too, and there is something to take. -/
theorem destroys_iff (initialized : s.core._initialized = true)
    (plain : Fei.Plain s.token.toFeiState) (outside : ¬ C holder) (nonzero : holder ≠ 0)
    (none : ∀ spender, s.token.erc20.allowance holder spender = 0) :
    (∃ as, (∀ a ∈ as, a.By C ∧ a.Unsigned holder) ∧
      Fei.balanceOf (run (step env) s as).token.toFeiState holder <
        Fei.balanceOf s.token.toFeiState holder) ↔
    Core.Acquirable env.core s.core C (BURNER_ROLE env.core.precompiles) ∧
      (s.token._paused = false ∨
        Core.Acquirable env.core s.core C (GUARDIAN_ROLE env.core.precompiles)) ∧
      0 < Fei.balanceOf s.token.toFeiState holder := by
  have start : Untouched holder s s := by
    refine ⟨fun _ spender => ?_, Finset.sum_eq_zero fun b _ => none b, Nat.le_refl _⟩
    rw [none spender]
    decide
  constructor
  · intro given
    by_contra never
    rcases given with ⟨as, each, fewer⟩
    have holds : 0 < Fei.balanceOf s.token.toFeiState holder := Nat.zero_lt_of_lt fewer
    have govern : ¬ Core.Acquirable env.core s.core C (GOVERN_ROLE env.core.precompiles) :=
      fun governs => never ⟨governs.of_root, .inr governs.of_root, holds⟩
    have kept := @run_invariant _ _ _ (step env) (fun t : FeiSystemState => Ruled env C s t ∧
      Untouched holder s t ∧ (t.token._paused = s.token._paused ∨
        Core.Acquirable env.core s.core C (GUARDIAN_ROLE env.core.precompiles)))
      (fun a => a.By C ∧ a.Unsigned holder) ?_ s
      ⟨⟨initialized, .refl, plain⟩, start, .inl rfl⟩ as each
    · exact absurd fewer (Nat.not_lt.mpr kept.2.1.balance)
    · intro t a t' inv acts succeeds
      obtain ⟨ruled, untouched, paused⟩ := inv
      cases a with
      | core a =>
          simp only [step, bind_eq_ok_iff, pure_eq_ok_iff] at succeeds
          obtain ⟨core, stepped, same⟩ := succeeds
          subst same
          exact ⟨ruled.core acts.1 stepped,
            ⟨untouched.limited, untouched.none, untouched.balance⟩, paused⟩
      | fei a =>
          simp only [step, bind_eq_ok_iff, pure_eq_ok_iff] at succeeds
          obtain ⟨token, stepped, same⟩ := succeeds
          subst same
          obtain ⟨ruled', governed⟩ := ruled.fei govern acts.1 stepped
          have safe : ∀ b, C b → (tokenEnv env t).fei.core.isBurner b →
              t.token._paused = true := by
            intro b member burns
            refine Bool.eq_true_of_not_eq_false fun running => never ?_
            exact ⟨ruled.acquirable member burns,
              paused.imp_left fun same => same.symm.trans running, holds⟩
          refine ⟨ruled', untouched.fei ruled outside govern safe acts.1 acts.2 stepped, ?_⟩
          rcases governed.paused with same | ⟨b, member, guards⟩
          · exact paused.imp_left same.trans
          · exact .inr (ruled.acquirable member guards)
  · intro given
    obtain ⟨burnable, running, some⟩ := given
    obtain ⟨as, core, a, byC, reached, acts, burns⟩ := exists_ready burnable running
    have covered : (1 : UInt256).toNat ≤ s.token.erc20.balanceOf holder := some
    have burned : step env ⟨core, { s.token with _paused := false }⟩
        (.fei (.call a (.burnFrom holder 1))) = .ok _ :=
      bind_eq_ok_iff.mpr ⟨_, bind_eq_ok_iff.mpr ⟨_, (Fei.burnFrom_eq_ok_iff
        (s := { s.token.toFeiState with _paused := false })
        ⟨plain.noIncentives, plain.consistent⟩).mpr
        ⟨burns, rfl, nonzero, _, Erc20.burn_eq_ok_iff.mpr ⟨covered, rfl⟩, rfl⟩, rfl⟩, rfl⟩
    refine ⟨as ++ [.fei (.call a (.burnFrom holder 1))], fun b mem => ?_, ?_⟩
    · have own := byC.append (own_call acts) b mem
      exact ⟨own.1, own.2 holder⟩
    · rw [run_append, reached, run_cons, run_nil, commit_of_ok burned]
      simp only [Fei.balanceOf, Function.update_self]
      exact Nat.sub_lt some Nat.one_pos

end FeiSystem

namespace FeiSystem.Sample

open Permissions

def env : FeiSystemEnv where
  core := Core.Sample.env
  fei := FeiToken.Sample.env

/-- The deployer of `Core` is account 2; account 7 has 100 FEI. -/
def start : FeiSystemState := ⟨Core.Sample.deployed, FeiToken.Sample.funded⟩

theorem raises_iff_sample :
    (∃ as, (∀ a ∈ as, a.By (· = 2)) ∧
      100 < Fei.totalSupply (run (step env) start as).token.toFeiState) ∧
    ¬ ∃ as, (∀ a ∈ as, a.By (· = 7)) ∧
      100 < Fei.totalSupply (run (step env) start as).token.toFeiState := by
  have deployer := @raises_iff env start (· = 2) rfl FeiToken.Sample.plain_funded (by decide)
  have other := @raises_iff env start (· = 7) rfl FeiToken.Sample.plain_funded (by decide)
  constructor
  · exact deployer.mpr ⟨Core.deployed_acquirable_iff.mpr (by decide), .inl rfl⟩
  · intro raises
    exact absurd (Core.deployed_acquirable_iff.mp (other.mp raises).1) (by decide)

theorem destroys_iff_sample :
    (∃ as, (∀ a ∈ as, a.By (· = 2) ∧ a.Unsigned 7) ∧
      Fei.balanceOf (run (step env) start as).token.toFeiState 7 < 100) ∧
    ¬ ∃ as, (∀ a ∈ as, a.By (· = 5) ∧ a.Unsigned 7) ∧
      Fei.balanceOf (run (step env) start as).token.toFeiState 7 < 100 := by
  have deployer := @destroys_iff env start (· = 2) 7 rfl FeiToken.Sample.plain_funded (by decide)
    (by decide) fun _ => rfl
  have other := @destroys_iff env start (· = 5) 7 rfl FeiToken.Sample.plain_funded (by decide)
    (by decide) fun _ => rfl
  constructor
  · exact deployer.mpr ⟨Core.deployed_acquirable_iff.mpr (by decide), .inl rfl, by decide⟩
  · intro destroys
    exact absurd (Core.deployed_acquirable_iff.mp (other.mp destroys).1) (by decide)

end FeiSystem.Sample

end FeiProtocol
