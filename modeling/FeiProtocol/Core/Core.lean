import FeiProtocol.Core.Permissions
import FeiProtocol.Evm.Ledger
import FeiProtocol.Tribe.Tribe

/-!
# `Core`

The roles, the addresses of the two tokens, and the TRIBE treasury. Other accounts call the
tokens too, so that a run interleaves their calls with those of `Core`.

* `acquires_iff`: which roles a coalition of accounts can come to hold.
* `revokes_iff`: which roles it can take from another account.
* `takes_iff`: when it can take tokens out of the treasury.

The library's `Initializable` is not among the sources: as it documents, `init` succeeds once.
-/

namespace FeiProtocol

open Evm

inductive CoreEvent : Type where
  | FeiUpdate (_fei : Address)
  | TribeUpdate (_tribe : Address)
  | TribeAllocation (_to : Address) (_amount : Nat)
  deriving DecidableEq, Repr

structure CoreState : Type where
  permissions : PermissionsState
  /-- the flag of `Initializable` -/
  _initialized : Bool
  fei : Address
  tribe : Address
  ledger : Ledger
  /-- oldest first -/
  events : List CoreEvent

structure CoreEnv : Type where
  precompiles : Precompiles
  this : Address

namespace Core

open Permissions

variable (env : CoreEnv) (s : CoreState)

def construct (ledger : Ledger) (msgSender : Address) : CoreState where
  permissions := Permissions.construct env.precompiles env.this msgSender
  _initialized := false
  fei := 0
  tribe := 0
  ledger
  events := []

def onlyGovernor (msgSender : Address) : Except Revert Unit :=
  Permissions.onlyGovernor env.precompiles s.permissions msgSender

def _setFei (token : Address) : CoreState :=
  { s with fei := token, events := s.events ++ [.FeiUpdate token] }

def _setTribe (token : Address) : CoreState :=
  { s with tribe := token, events := s.events ++ [.TribeUpdate token] }

/-- `_fei` and `_tribe` are the addresses of the two contracts that it creates; the second mints
its supply to this one. -/
def init (msgSender _fei _tribe : Address) : Except Revert CoreState := do
  require (s._initialized = false) "Initializable: contract is already initialized"
  let permissions := _setupGovernor env.precompiles s.permissions msgSender msgSender
  let s := _setFei { s with permissions, _initialized := true } _fei
  let minted := Function.update (fun _ => 0) env.this Tribe.initialSupply
  let ledger := s.ledger.record ⟨env.this, _tribe, 0, env.this, Tribe.initialSupply⟩
    ⟨minted, fun _ _ => 0, Tribe.initialSupply, true⟩
  return _setTribe { s with ledger } _tribe

def setFei (msgSender token : Address) : Except Revert CoreState := do
  onlyGovernor env s msgSender
  return _setFei s token

def setTribe (msgSender token : Address) : Except Revert CoreState := do
  onlyGovernor env s msgSender
  return _setTribe s token

def allocateTribe (msgSender dst : Address) (amount : Nat) : Except Revert CoreState := do
  onlyGovernor env s msgSender
  let _tribe := s.tribe
  require (amount ≤ s.ledger.balanceOf _tribe env.this) "Core: Not enough Tribe"
  let ledger ← s.ledger.safeTransfer env.this _tribe dst amount
  return { s with ledger, events := s.events ++ [.TribeAllocation dst amount] }

/-! ## Transactions -/

inductive Call : Type where
  | permissions (c : Permissions.Call)
  | init (_fei _tribe : Address)
  | setFei (token : Address)
  | setTribe (token : Address)
  | allocateTribe (dst : Address) (amount : UInt256)
  deriving DecidableEq, Repr

def call (msgSender : Address) : Call → Except Revert CoreState
  | .permissions c => do
      let permissions ← Permissions.call env.precompiles s.permissions env.this msgSender c
      return { s with permissions }
  | .init _fei _tribe => init env s msgSender _fei _tribe
  | .setFei token => setFei env s msgSender token
  | .setTribe token => setTribe env s msgSender token
  | .allocateTribe dst amount => allocateTribe env s msgSender dst amount.toNat

/-- A transaction of an account: a call of this contract or of a token. -/
inductive Action : Type where
  | core (c : Call)
  | token (c : Ledger.TokenCall)
  deriving DecidableEq, Repr

def step (a : Address × Action) : Except Revert CoreState :=
  match a.2 with
  | .core c => call env s a.1 c
  | .token c => do
      let ledger ← s.ledger.perform a.1 c
      return { s with ledger }

/-! ## What the transactions do -/

/-- The holders of the role `GOVERN_ROLE` can make themselves holders of any. -/
abbrev Acquirable (C : Address → Prop) (role : Bytes32) : Prop :=
  Authority.Acquirable (GOVERN_ROLE env.precompiles) C (grants s.permissions) role

variable {env s} {s' : CoreState} {sender token dst account : Address} {amount : Nat}
  {role : Bytes32} {C : Address → Prop}

theorem onlyGovernor_eq_ok_iff {u : Unit} : onlyGovernor env s sender = .ok u ↔
    Permissions.isGovernor env.precompiles s.permissions sender :=
  require_eq_ok_iff

theorem setTribe_eq_ok_iff : setTribe env s sender token = .ok s' ↔
    Permissions.isGovernor env.precompiles s.permissions sender ∧ _setTribe s token = s' := by
  simp only [setTribe, seq_eq_ok_iff, onlyGovernor_eq_ok_iff, pure_eq_ok_iff]

theorem allocateTribe_eq_ok_iff : allocateTribe env s sender dst amount = .ok s' ↔
    Permissions.isGovernor env.precompiles s.permissions sender ∧
      ∃ ledger, s.ledger.safeTransfer env.this s.tribe dst amount = .ok ledger ∧
        { s with ledger, events := s.events ++ [.TribeAllocation dst amount] } = s' := by
  simp only [allocateTribe, onlyGovernor_eq_ok_iff, require_eq_ok_iff,
    bind_eq_ok_iff, pure_eq_ok_iff, exists_const]
  refine and_congr_right fun _ => ⟨And.right, fun rest => ⟨?_, rest⟩⟩
  obtain ⟨ledger, moved, _⟩ := rest
  exact (Ledger.safeTransfer_moved moved).covered

/-- A call after the initialization: of the roles, or of the rest. -/
inductive Change (env : CoreEnv) (sender : Address) (s : CoreState) : CoreState → Prop where
  | roles {permissions : PermissionsState}
    (effect : Permissions.Effect env.precompiles env.this sender s.permissions permissions) :
    Change env sender s { s with permissions }
  | address {s' : CoreState}
    (governor : Permissions.isGovernor env.precompiles s.permissions sender)
    (permissions : s'.permissions = s.permissions) (ledger : s'.ledger = s.ledger)
    (flag : s'._initialized = s._initialized) : Change env sender s s'
  | allocation {dst : Address} {amount : Nat} {ledger : Ledger} {events : List CoreEvent}
    (governor : Permissions.isGovernor env.precompiles s.permissions sender)
    (moved : s.ledger.safeTransfer env.this s.tribe dst amount = .ok ledger) :
    Change env sender s { s with ledger, events }
  | token {c : Ledger.TokenCall} {ledger : Ledger}
    (performed : s.ledger.perform sender c = .ok ledger) : Change env sender s { s with ledger }

theorem change_of_step {a : Address × Action} (initialized : s._initialized = true)
    (succeeds : step env s a = .ok s') : Change env a.1 s s' := by
  rcases a with ⟨sender, action⟩
  cases action with
  | token c =>
      simp only [step, bind_eq_ok_iff, pure_eq_ok_iff] at succeeds
      obtain ⟨ledger, performed, same⟩ := succeeds
      exact same ▸ .token performed
  | core c =>
      cases c with
      | permissions c =>
          simp only [step, call, bind_eq_ok_iff, pure_eq_ok_iff] at succeeds
          obtain ⟨permissions, called, same⟩ := succeeds
          exact same ▸ .roles (effect_of_call called)
      | init _fei _tribe =>
          simp only [step, call, init, seq_eq_ok_iff, require_eq_ok_iff] at succeeds
          rw [initialized] at succeeds
          exact absurd succeeds.1 Bool.noConfusion
      | setFei token =>
          simp only [step, call, setFei, seq_eq_ok_iff, onlyGovernor_eq_ok_iff,
            pure_eq_ok_iff] at succeeds
          obtain ⟨governor, same⟩ := succeeds
          exact same ▸ .address governor rfl rfl rfl
      | setTribe token =>
          obtain ⟨governor, same⟩ := setTribe_eq_ok_iff.mp succeeds
          exact same ▸ .address governor rfl rfl rfl
      | allocateTribe dst amount =>
          obtain ⟨governor, ledger, moved, same⟩ := allocateTribe_eq_ok_iff.mp succeeds
          exact same ▸ .allocation governor moved

theorem Change.initialized (effect : Change env sender s s') :
    s'._initialized = s._initialized := by
  cases effect with
  | roles effect => rfl
  | address governor permissions ledger flag => exact flag
  | allocation governor moved => rfl
  | token performed => rfl

/-! ## What a coalition can do to the roles -/

open Authority

theorem Change.move (effect : Change env sender s s') :
    Move (GOVERN_ROLE env.precompiles) (· = sender)
      (grants s.permissions) (grants s'.permissions) := by
  cases effect with
  | roles effect => exact effect.move
  | address governor permissions ledger flag =>
      rw [permissions]
      exact .shed rfl fun _ _ holds => holds
  | allocation governor moved => exact .shed rfl fun _ _ holds => holds
  | token performed => exact .shed rfl fun _ _ holds => holds

/-- All transactions are of accounts of the coalition. -/
abbrev By (C : Address → Prop) (as : List (Address × Action)) : Prop :=
  ∀ a ∈ as, C a.1

/-- **The roles along a run** move as authority does. -/
theorem run_reach {as : List (Address × Action)} (initialized : s._initialized = true)
    (byC : By C as) :
    (run (step env) s as)._initialized = true ∧
      Reach (GOVERN_ROLE env.precompiles) C (grants s.permissions)
        (grants (run (step env) s as).permissions) := by
  refine run_relation (P := fun _ a => C a.1)
    (R := fun s s' : CoreState => Reach (GOVERN_ROLE env.precompiles) C (grants s.permissions)
      (grants s'.permissions)) (I := fun s : CoreState => s._initialized = true)
    (fun _ => .refl) (fun first second => first.trans second) ?_ initialized
    (along_of_forall byC)
  intro s a s' initialized acts succeeds
  have change := change_of_step initialized succeeds
  refine ⟨change.initialized.trans initialized, .single (change.move.mono ?_)⟩
  intro b same
  exact same ▸ acts

/-- Promotions are runs. -/
theorem exists_run {g : Grants Bytes32 Address}
    (promotions : Relation.ReflTransGen (Promotion (GOVERN_ROLE env.precompiles) C)
      (grants s.permissions) g) :
    ∃ as, By C as ∧ (run (step env) s as).ledger = s.ledger ∧
      grants (run (step env) s as).permissions = g := by
  induction promotions with
  | refl => exact ⟨[], fun _ none => absurd none List.not_mem_nil, rfl, rfl⟩
  | tail _ promoted ih =>
      obtain ⟨as, byC, ledger, reached⟩ := ih
      subst reached
      obtain ⟨sender, acts, c, permissions, called, same⟩ :=
        exists_call_of_promotion env.this promoted
      have stepped : step env (run (step env) s as) (sender, .core (.permissions c)) =
          .ok { run (step env) s as with permissions } :=
        bind_eq_ok_iff.mpr ⟨permissions, called, rfl⟩
      refine ⟨as ++ [(sender, .core (.permissions c))], ?_, ?_, ?_⟩
      · intro a mem
        rcases List.mem_append.mp mem with before | last
        · exact byC a before
        · rw [List.mem_singleton.mp last]
          exact acts
      · rw [run_append, run_cons, run_nil, commit_of_ok stepped]
        exact ledger
      · rw [run_append, run_cons, run_nil, commit_of_ok stepped]
        exact same

/-- **Acquisition.** After the initialization, accounts of a coalition come to hold a role in
some run of its transactions exactly if they hold one above it, or above the governors' role; and
in no run of theirs does anybody else get a role that they cannot. -/
theorem acquires_iff (initialized : s._initialized = true) :
    ((∃ as, By C as ∧ ∃ a, C a ∧ hasRole (run (step env) s as).permissions role a) ↔
      Acquirable env s C role) ∧
    (¬ Acquirable env s C role → ∀ as, By C as → ∀ account,
      hasRole (run (step env) s as).permissions role account →
        hasRole s.permissions role account) := by
  refine ⟨⟨?_, ?_⟩, ?_⟩
  · intro given
    rcases given with ⟨as, byC, a, acts, holds⟩
    have reach := (@run_reach env s C as initialized byC).2
    exact exists_holds_iff.mp ⟨_, reach, a, acts, holds⟩
  · intro acquirable
    obtain ⟨g, promotions, a, acts, holds⟩ := exists_reach acquirable
    obtain ⟨as, byC, _, reached⟩ := exists_run promotions
    rw [← reached] at holds
    exact ⟨as, byC, a, acts, holds⟩
  · intro outside as byC account holds
    have reach := (@run_reach env s C as initialized byC).2
    exact (gained_of_reach reach holds).resolve_right outside

/-- What takes a role from an account that is not the sender. -/
theorem Change.revokes (change : Change env sender s s') (other : account ≠ sender)
    (held : hasRole s.permissions role account)
    (lost : ¬ hasRole s'.permissions role account) :
    hasRole s.permissions (getRoleAdmin s.permissions role) sender ∨
      Permissions.isGuardian env.precompiles s.permissions sender ∧
        role ≠ GOVERN_ROLE env.precompiles ∧
        hasRole s.permissions (getRoleAdmin s.permissions role) env.this := by
  cases change with
  | address governor permissions ledger flag => exact absurd (permissions ▸ held) lost
  | allocation governor moved => exact absurd held lost
  | token performed => exact absurd held lost
  | roles effect =>
      cases effect with
      | admin q adminRole governor =>
          refine absurd ?_ lost
          have same := congrArg Grants.holds (@grants_setRoleAdmin s.permissions q adminRole)
          exact (congrFun₂ same role account).mpr held
      | grant q b administers =>
          refine absurd ?_ lost
          have same := congrArg Grants.holds (@grants_grantRole s.permissions sender b q)
          exact (congrFun₂ same role account).mpr (.inl held)
      | revoke q b administers =>
          simp only [hasRole_revokeRole] at lost
          split at lost
          · rename_i entry
            exact .inl (entry.1 ▸ administers)
          · exact absurd held lost
      | renounce q =>
          simp only [hasRole_revokeRole, other, and_false, if_false] at lost
          exact absurd held lost
      | override q b guardian governs administers =>
          simp only [hasRole_revokeRole] at lost
          split at lost
          · rename_i entry
            exact .inr ⟨guardian, entry.1 ▸ governs, entry.1 ▸ administers⟩
          · exact absurd held lost

/-- A call of this contract at the end of a run. -/
theorem run_concat {as : List (Address × Action)} {c : Permissions.Call}
    {permissions : PermissionsState} (called : Permissions.call env.precompiles
      (run (step env) s as).permissions env.this sender c = .ok permissions) :
    (run (step env) s (as ++ [(sender, .core (.permissions c))])).permissions = permissions := by
  have stepped : step env (run (step env) s as) (sender, .core (.permissions c)) =
      .ok { run (step env) s as with permissions } :=
    bind_eq_ok_iff.mpr ⟨permissions, called, rfl⟩
  rw [run_append, run_cons, run_nil, commit_of_ok stepped]

theorem By.concat {as : List (Address × Action)} {a : Action} (byC : By C as) (acts : C sender) :
    By C (as ++ [(sender, a)]) := by
  intro b mem
  rcases List.mem_append.mp mem with before | last
  · exact byC b before
  · rw [List.mem_singleton.mp last]
    exact acts

theorem exists_run_revokes (acquirable : Acquirable env s C (getRoleAdmin s.permissions role)) :
    ∃ as, By C as ∧ ¬ hasRole (run (step env) s as).permissions role account := by
  obtain ⟨g, promotions, a, acts, administers⟩ := exists_administers acquirable
  obtain ⟨as, byC, _, reached⟩ := exists_run promotions
  subst reached
  have called : Permissions.call env.precompiles (run (step env) s as).permissions env.this a
      (.revokeRole role account) = .ok _ := revokeRole_eq_ok_iff.mpr ⟨administers, rfl⟩
  refine ⟨as ++ [(a, .core (.permissions (.revokeRole role account)))], byC.concat acts, ?_⟩
  rw [run_concat called, hasRole_revokeRole, if_pos ⟨rfl, rfl⟩]
  exact Bool.false_ne_true

/-- **Revocation.** After the initialization, a coalition takes a role from an account outside it
in some run exactly if it can acquire the administrating role, or the guardians' role where this
contract holds the administrating role itself. A guardian never takes the governors' role. -/
theorem revokes_iff (initialized : s._initialized = true) (outside : ¬ C account)
    (held : hasRole s.permissions role account) :
    (∃ as, By C as ∧ ¬ hasRole (run (step env) s as).permissions role account) ↔
      Acquirable env s C (getRoleAdmin s.permissions role) ∨
        Acquirable env s C (GUARDIAN_ROLE env.precompiles) ∧
          role ≠ GOVERN_ROLE env.precompiles ∧
          hasRole s.permissions (getRoleAdmin s.permissions role) env.this := by
  constructor
  · intro given
    by_contra! never
    rcases given with ⟨as, byC, lost⟩
    have kept := @run_invariant _ _ _ (step env) (fun t : CoreState => t._initialized = true ∧
      Reach (GOVERN_ROLE env.precompiles) C (grants s.permissions) (grants t.permissions) ∧
      hasRole t.permissions role account) (fun a => C a.1) ?_ s ⟨initialized, .refl, held⟩ as byC
    · exact lost kept.2.2
    · intro t a t' inv acts succeeds
      obtain ⟨initialized', reach, held'⟩ := inv
      have change := change_of_step initialized' succeeds
      have other : account ≠ a.1 := fun same => outside (same ▸ acts)
      refine ⟨change.initialized.trans initialized', reach.tail (change.move.mono ?_), ?_⟩
      · intro b same
        exact same ▸ acts
      · by_contra lost'
        have admin : getRoleAdmin t.permissions role = getRoleAdmin s.permissions role := by
          have same := (admin_of_reach reach).resolve_right fun root => never.1 root.of_root
          exact congrFun same role
        rcases change.revokes other held' lost' with administers | ⟨guardian, governs, this⟩
        · rw [admin] at administers
          refine never.1 ((gained_of_reach reach administers).elim (fun before => ?_) id)
          exact .inl (.of_holds acts before)
        · rw [admin] at this
          have mine := (gained_of_reach reach this).resolve_right never.1
          refine never.2 ?_ governs mine
          refine (gained_of_reach reach guardian).elim (fun before => ?_) id
          exact .inl (.of_holds acts before)
  · intro given
    rcases given with acquirable | ⟨guardian, governs, this⟩
    · exact exists_run_revokes acquirable
    · rcases guardian with direct | ruling
      · obtain ⟨g, promotions, admin, more, a, acts, guards⟩ :=
          exists_promotions (GOVERN_ROLE env.precompiles) direct
        obtain ⟨as, byC, _, reached⟩ := exists_run promotions
        subst reached
        have administers : hasRole (run (step env) s as).permissions
            (getRoleAdmin (run (step env) s as).permissions role) env.this := by
          have same : getRoleAdmin (run (step env) s as).permissions role =
              getRoleAdmin s.permissions role := congrFun admin role
          rw [same]
          exact more _ _ this
        have called : Permissions.call env.precompiles (run (step env) s as).permissions env.this a
            (.revokeOverride role account) = .ok _ :=
          revokeOverride_eq_ok_iff.mpr ⟨guards, governs, administers, rfl⟩
        refine ⟨as ++ [(a, .core (.permissions (.revokeOverride role account)))],
          byC.concat acts, ?_⟩
        rw [run_concat called, hasRole_revokeRole, if_pos ⟨rfl, rfl⟩]
        exact Bool.false_ne_true
      · exact exists_run_revokes (.inr ruling)

/-! ## What a coalition can do to the treasury -/

theorem Change.treasury (change : Change env sender s s')
    (notGovernor : ¬ Permissions.isGovernor env.precompiles s.permissions sender)
    (other : sender ≠ env.this) (none : s.ledger.Unapproved env.this) :
    s'.ledger.Unapproved env.this ∧
      s.ledger.balanceOf token env.this ≤ s'.ledger.balanceOf token env.this := by
  cases change with
  | roles effect => exact ⟨none, Nat.le_refl _⟩
  | address governor permissions ledger flag => exact absurd governor notGovernor
  | allocation governor moved => exact absurd governor notGovernor
  | token performed =>
      have custody := Ledger.perform_custody none other performed
      have balance := custody.balance token
      have grows := custody.received_le token
      refine ⟨custody.unapproved, ?_⟩
      dsimp only
      omega

/-- **The treasury.** After the initialization, a coalition takes tokens of any kind out of the
treasury in some run exactly if it can acquire the governors' role and there are some. -/
theorem takes_iff (initialized : s._initialized = true) (outside : ¬ C env.this)
    (none : s.ledger.Unapproved env.this) :
    (∃ as, By C as ∧ (run (step env) s as).ledger.balanceOf token env.this <
      s.ledger.balanceOf token env.this) ↔
      Acquirable env s C (GOVERN_ROLE env.precompiles) ∧
        0 < s.ledger.balanceOf token env.this := by
  constructor
  · intro given
    rcases given with ⟨as, byC, fewer⟩
    refine ⟨?_, Nat.zero_lt_of_lt fewer⟩
    by_contra never
    have kept := @run_invariant _ _ _ (step env) (fun t : CoreState => t._initialized = true ∧
      Reach (GOVERN_ROLE env.precompiles) C (grants s.permissions) (grants t.permissions) ∧
      t.ledger.Unapproved env.this ∧
      s.ledger.balanceOf token env.this ≤ t.ledger.balanceOf token env.this)
      (fun a => C a.1) ?_ s ⟨initialized, .refl, none, Nat.le_refl _⟩ as byC
    · exact absurd fewer (Nat.not_lt.mpr kept.2.2.2)
    · intro t a t' inv acts succeeds
      obtain ⟨initialized', reach, none', kept⟩ := inv
      have change := change_of_step initialized' succeeds
      have notGovernor : ¬ Permissions.isGovernor env.precompiles t.permissions a.1 := by
        intro governs
        have acquired : Acquirable env t C (GOVERN_ROLE env.precompiles) :=
          .inr (.of_holds acts governs)
        exact never (acquired.of_reach reach)
      have other : a.1 ≠ env.this := fun same => outside (same ▸ acts)
      obtain ⟨unapproved, more⟩ := change.treasury notGovernor other none'
      refine ⟨change.initialized.trans initialized', reach.tail (change.move.mono ?_),
        unapproved, Nat.le_trans kept more⟩
      intro b same
      exact same ▸ acts
  · intro given
    rcases given with ⟨acquirable, some⟩
    obtain ⟨g, promotions, a, acts, rules⟩ := exists_reach acquirable
    obtain ⟨as, byC, ledger, reached⟩ := exists_run promotions
    subst reached
    -- tokens refuse to send to address 0
    obtain ⟨dst, _, other⟩ : ∃ dst : Address, dst ≠ 0 ∧ dst ≠ env.this := by
      by_cases one : env.this = 1
      · exact ⟨2, by decide, one ▸ by decide⟩
      · exact ⟨1, by decide, Ne.symm one⟩
    -- the governor names the token as TRIBE and allocates one unit of it
    have named : step env (run (step env) s as) (a, .core (.setTribe token)) =
        .ok (_setTribe (run (step env) s as) token) := setTribe_eq_ok_iff.mpr ⟨rules, rfl⟩
    have covered : (1 : UInt256).toNat ≤
        (_setTribe (run (step env) s as) token).ledger.balanceOf token env.this := by
      simp only [_setTribe, ledger]
      exact some
    obtain ⟨ledger', moved⟩ := Ledger.safeTransfer_succeeds covered dst
    have allocated : step env (_setTribe (run (step env) s as) token)
        (a, .core (.allocateTribe dst 1)) = .ok _ :=
      allocateTribe_eq_ok_iff.mpr ⟨rules, ledger', moved, rfl⟩
    refine ⟨as ++ [(a, .core (.setTribe token))] ++ [(a, .core (.allocateTribe dst 1))],
      (byC.concat acts).concat acts, ?_⟩
    simp only [run_append, run_cons, run_nil, commit_of_ok named, commit_of_ok allocated]
    have balance := (Ledger.safeTransfer_moved moved).balance token env.this
    simp only [_setTribe, ledger, and_self, if_true, other.symm, and_false, if_false,
      Nat.add_zero] at balance
    have one : (1 : UInt256).toNat = 1 := rfl
    omega

/-! ## After the deployment -/

/-- Constructed and initialized by one account. -/
def deployed (env : CoreEnv) (ledger : Ledger) (deployer _fei _tribe : Address) : CoreState :=
  run (step env) (construct env ledger deployer) [(deployer, .core (.init _fei _tribe))]

variable {ledger : Ledger} {deployer _fei _tribe : Address}

theorem deployed_hasRole_iff :
    hasRole (deployed env ledger deployer _fei _tribe).permissions role account ↔
      role = GOVERN_ROLE env.precompiles ∧ (account = deployer ∨ account = env.this) := by
  have constructed : ∀ q c,
      hasRole (Permissions.construct env.precompiles env.this deployer) q c ↔
        q = GOVERN_ROLE env.precompiles ∧ c = env.this := by
    intro q c
    have same : (grants (Permissions.construct env.precompiles env.this deployer)).holds =
        (grants (_setupGovernor env.precompiles ⟨fun _ => ⟨fun _ => false, 0⟩, []⟩ deployer
          env.this)).holds := by
      simp only [Permissions.construct, grants_setRoleAdmin]
      rfl
    have held := congrFun₂ same q c
    rw [_setupGovernor, grants_grantRole] at held
    refine (Iff.of_eq held).trans ⟨fun either => either.resolve_left Bool.false_ne_true, .inr⟩
  have held := congrFun₂ (congrArg Grants.holds (@grants_grantRole
    (Permissions.construct env.precompiles env.this deployer) deployer deployer
    (GOVERN_ROLE env.precompiles))) role account
  refine (Iff.of_eq held).trans ((or_congr_left (constructed role account)).trans ?_)
  rw [← and_or_left, or_comm]

/-- Its deployer can acquire every role, and others none. -/
theorem deployed_acquirable_iff :
    Acquirable env (deployed env ledger deployer _fei _tribe) C role ↔ C deployer ∨ C env.this := by
  have holder : ∀ q a, (grants (deployed env ledger deployer _fei _tribe).permissions).holds q a →
      C a → C deployer ∨ C env.this := by
    intro q a holds acts
    rcases (deployed_hasRole_iff.mp holds).2 with same | same
    · exact .inl (same ▸ acts)
    · exact .inr (same ▸ acts)
  constructor
  · intro given
    rcases given with ⟨n, a, acts, holds⟩ | ⟨n, a, acts, holds⟩
    · exact holder _ a holds acts
    · exact holder _ a holds acts
  · intro given
    refine .inr ?_
    rcases given with acts | acts
    · exact .of_holds acts (deployed_hasRole_iff.mpr ⟨rfl, .inl rfl⟩)
    · exact .of_holds acts (deployed_hasRole_iff.mpr ⟨rfl, .inr rfl⟩)

end Core

namespace Core.Sample

open Permissions

/-- `Core` at `0xC0`. -/
def env : CoreEnv where
  precompiles := ⟨fun b => BitVec.ofNat 256 b.length, fun _ _ _ _ => 0⟩
  this := 0xC0

/-- Deployed by 2, with FEI at `0xFE` and TRIBE at `0x7B`. -/
def deployed : CoreState :=
  Core.deployed env ⟨fun _ => ⟨fun _ => 0, fun _ _ => 0, 0, false⟩, []⟩ 2 0xFE 0x7B

theorem acquires_iff_sample :
    (∃ as, By (· = 2) as ∧ ∃ a, a = 2 ∧ hasRole (run (step env) deployed as).permissions 5 a) ∧
    ¬ ∃ as, By (· = 7) as ∧ ∃ a, a = 7 ∧ hasRole (run (step env) deployed as).permissions 5 a := by
  have deployer := (@acquires_iff env deployed 5 (· = 2) rfl).1
  have other := (@acquires_iff env deployed 5 (· = 7) rfl).1
  refine ⟨deployer.mpr (deployed_acquirable_iff.mpr (by decide)), fun acquires => ?_⟩
  exact absurd (deployed_acquirable_iff.mp (other.mp acquires)) (by decide)

theorem revokes_iff_sample :
    ¬ ∃ as, By (· = 7) as ∧
      ¬ hasRole (run (step env) deployed as).permissions (GOVERN_ROLE env.precompiles) 2 := by
  have held : hasRole deployed.permissions (GOVERN_ROLE env.precompiles) 2 :=
    deployed_hasRole_iff.mpr ⟨rfl, .inl rfl⟩
  rw [@revokes_iff env deployed 2 _ (· = 7) rfl (by decide) held]
  rintro (acquirable | ⟨acquirable, _⟩)
  · exact absurd (deployed_acquirable_iff.mp acquirable) (by decide)
  · exact absurd (deployed_acquirable_iff.mp acquirable) (by decide)

theorem takes_iff_sample :
    ∃ as, By (· = 2) as ∧ (run (step env) deployed as).ledger.balanceOf 0x7B 0xC0 <
      deployed.ledger.balanceOf 0x7B 0xC0 := by
  have none : deployed.ledger.Unapproved env.this := by
    intro token spender
    simp only [Ledger.allowance, deployed, Core.deployed, run_cons, run_nil, commit, step, call,
      init, construct, _setFei, _setTribe, require, Ledger.record, bind, Except.bind, pure,
      Except.pure, Function.update_apply, if_true]
    split <;> rfl
  refine (@takes_iff env deployed 0x7B (· = 2) rfl (by decide) none).mpr ⟨?_, ?_⟩
  · exact deployed_acquirable_iff.mpr (by decide)
  · exact Nat.pos_of_ne_zero (by decide)

end Core.Sample

end FeiProtocol
