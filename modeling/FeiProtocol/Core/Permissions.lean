import FeiProtocol.Cryptography
import FeiProtocol.Evm.Machine
import FeiProtocol.Math.Authority
import FeiProtocol.Refs.CoreRef

/-!
# `Permissions`

The roles that `Core` keeps, over the `AccessControl` that it extends: each role has members and
an administrating role, and the contract itself is a governor, so that a guardian can revoke
through it.

The functions are in the order of the sources. `move_of_call` says what a call does to the roles:
one move of its sender in the sense of `Authority`.

`Permissions` extends `AccessControlEnumerable`, which is not among the sources. As it documents, it
changes roles as `AccessControl` does, and lists their members besides, which nothing here reads.
-/

namespace FeiProtocol

open Evm

structure RoleData : Type where
  members : Address → Bool
  adminRole : Bytes32

inductive RoleEvent : Type where
  | RoleGranted (role : Bytes32) (account sender : Address)
  | RoleRevoked (role : Bytes32) (account sender : Address)
  | RoleAdminChanged (role previousAdminRole newAdminRole : Bytes32)
  deriving DecidableEq, Repr

structure PermissionsState : Type where
  _roles : Bytes32 → RoleData
  /-- oldest first -/
  roleEvents : List RoleEvent

/-! ## Hexadecimal texts -/

namespace Strings

def _HEX_SYMBOLS : List Char := "0123456789abcdef".toList

/-- The lowest `digits` digits, with what is left of the value above them. -/
def hexDigits : Nat → Nat → List Char → List Char × Nat
  | 0, value, buffer => (buffer, value)
  | i + 1, value, buffer => hexDigits i (value / 16) (_HEX_SYMBOLS.getD (value % 16) '0' :: buffer)

/-- `toHexString(value, length)` -/
def toHexString (value length : Nat) : Except Revert String := do
  let (buffer, value) := hexDigits (2 * length) value []
  require (value = 0) "Strings: hex length insufficient"
  return "0x" ++ String.ofList buffer

end Strings

namespace Permissions

variable (P : Precompiles) (s : PermissionsState)

/-! ## The `AccessControl` that it extends -/

def DEFAULT_ADMIN_ROLE : Bytes32 := 0

def hasRole (role : Bytes32) (account : Address) : Bool := (s._roles role).members account

def getRoleAdmin (role : Bytes32) : Bytes32 := (s._roles role).adminRole

def _checkRole (role : Bytes32) (account : Address) : Except Revert Unit :=
  if hasRole s role account then return ()
  else do
    let account ← Strings.toHexString account.toNat 20
    let role ← Strings.toHexString role.toNat 32
    .error (.reason ("AccessControl: account " ++ account ++ " is missing role " ++ role))

def _setRoleAdmin (role adminRole : Bytes32) : PermissionsState where
  _roles := Function.update s._roles role { s._roles role with adminRole }
  roleEvents := s.roleEvents ++ [.RoleAdminChanged role (getRoleAdmin s role) adminRole]

/-- `account` is, or is not, a member of `role`. -/
def assign (role : Bytes32) (account : Address) (isMember : Bool) (e : RoleEvent) :
    PermissionsState where
  _roles := Function.update s._roles role { s._roles role with
    members := Function.update (s._roles role).members account isMember }
  roleEvents := s.roleEvents ++ [e]

def _grantRole (msgSender : Address) (role : Bytes32) (account : Address) : PermissionsState :=
  if hasRole s role account then s
  else assign s role account true (.RoleGranted role account msgSender)

def _revokeRole (msgSender : Address) (role : Bytes32) (account : Address) : PermissionsState :=
  if hasRole s role account then assign s role account false (.RoleRevoked role account msgSender)
  else s

def grantRole (msgSender : Address) (role : Bytes32) (account : Address) :
    Except Revert PermissionsState := do
  _checkRole s (getRoleAdmin s role) msgSender
  return _grantRole s msgSender role account

def revokeRole (msgSender : Address) (role : Bytes32) (account : Address) :
    Except Revert PermissionsState := do
  _checkRole s (getRoleAdmin s role) msgSender
  return _revokeRole s msgSender role account

def renounceRole (msgSender : Address) (role : Bytes32) (account : Address) :
    Except Revert PermissionsState := do
  require (account = msgSender) "AccessControl: can only renounce roles for self"
  return _revokeRole s msgSender role account

/-! ## The contract -/

def BURNER_ROLE : Bytes32 := P.hashText "BURNER_ROLE"

def MINTER_ROLE : Bytes32 := P.hashText "MINTER_ROLE"

def PCV_CONTROLLER_ROLE : Bytes32 := P.hashText "PCV_CONTROLLER_ROLE"

def GOVERN_ROLE : Bytes32 := P.hashText "GOVERN_ROLE"

def GUARDIAN_ROLE : Bytes32 := P.hashText "GUARDIAN_ROLE"

def isMinter (_address : Address) : Bool := hasRole s (MINTER_ROLE P) _address

def isBurner (_address : Address) : Bool := hasRole s (BURNER_ROLE P) _address

def isPCVController (_address : Address) : Bool := hasRole s (PCV_CONTROLLER_ROLE P) _address

def isGovernor (_address : Address) : Bool := hasRole s (GOVERN_ROLE P) _address

def isGuardian (_address : Address) : Bool := hasRole s (GUARDIAN_ROLE P) _address

/-- What the contracts that reference `Core` read of it. -/
def core : Core where
  isMinter := isMinter P s
  isBurner := isBurner P s
  isPCVController := isPCVController P s
  isGovernor := isGovernor P s
  isGuardian := isGuardian P s

def _setupGovernor (msgSender governor : Address) : PermissionsState :=
  _grantRole s msgSender (GOVERN_ROLE P) governor

/-- The constructor, called by `msgSender`. -/
def construct (this msgSender : Address) : PermissionsState :=
  let s : PermissionsState := ⟨fun _ => ⟨fun _ => false, DEFAULT_ADMIN_ROLE⟩, []⟩
  -- Appointed as a governor so guardian can have indirect access to revoke ability
  let s := _setupGovernor P s msgSender this
  let s := _setRoleAdmin s (MINTER_ROLE P) (GOVERN_ROLE P)
  let s := _setRoleAdmin s (BURNER_ROLE P) (GOVERN_ROLE P)
  let s := _setRoleAdmin s (PCV_CONTROLLER_ROLE P) (GOVERN_ROLE P)
  let s := _setRoleAdmin s (GOVERN_ROLE P) (GOVERN_ROLE P)
  _setRoleAdmin s (GUARDIAN_ROLE P) (GOVERN_ROLE P)

def onlyGovernor (msgSender : Address) : Except Revert Unit :=
  require (isGovernor P s msgSender) "Permissions: Caller is not a governor"

def onlyGuardian (msgSender : Address) : Except Revert Unit :=
  require (isGuardian P s msgSender) "Permissions: Caller is not a guardian"

def createRole (msgSender : Address) (role adminRole : Bytes32) :
    Except Revert PermissionsState := do
  onlyGovernor P s msgSender
  return _setRoleAdmin s role adminRole

/-- The functions that grant one role differ in the role. -/
def governorGrants (role : Bytes32) (msgSender account : Address) :
    Except Revert PermissionsState := do
  onlyGovernor P s msgSender
  grantRole s msgSender role account

def governorRevokes (role : Bytes32) (msgSender account : Address) :
    Except Revert PermissionsState := do
  onlyGovernor P s msgSender
  revokeRole s msgSender role account

def grantMinter := governorGrants P s (MINTER_ROLE P)

def grantBurner := governorGrants P s (BURNER_ROLE P)

def grantPCVController := governorGrants P s (PCV_CONTROLLER_ROLE P)

def grantGovernor := governorGrants P s (GOVERN_ROLE P)

def grantGuardian := governorGrants P s (GUARDIAN_ROLE P)

def revokeMinter := governorRevokes P s (MINTER_ROLE P)

def revokeBurner := governorRevokes P s (BURNER_ROLE P)

def revokePCVController := governorRevokes P s (PCV_CONTROLLER_ROLE P)

def revokeGovernor := governorRevokes P s (GOVERN_ROLE P)

def revokeGuardian := governorRevokes P s (GUARDIAN_ROLE P)

def revokeOverride (this msgSender : Address) (role : Bytes32) (account : Address) :
    Except Revert PermissionsState := do
  onlyGuardian P s msgSender
  require (role ≠ GOVERN_ROLE P) "Permissions: Guardian cannot revoke governor"
  -- External call because this contract is appointed as a governor and has access to revoke
  revokeRole s this role account

/-! ## Transactions -/

inductive Call : Type where
  | createRole (role adminRole : Bytes32)
  | grantRole (role : Bytes32) (account : Address)
  | revokeRole (role : Bytes32) (account : Address)
  | renounceRole (role : Bytes32) (account : Address)
  | grantMinter (minter : Address)
  | grantBurner (burner : Address)
  | grantPCVController (pcvController : Address)
  | grantGovernor (governor : Address)
  | grantGuardian (guardian : Address)
  | revokeMinter (minter : Address)
  | revokeBurner (burner : Address)
  | revokePCVController (pcvController : Address)
  | revokeGovernor (governor : Address)
  | revokeGuardian (guardian : Address)
  | revokeOverride (role : Bytes32) (account : Address)
  deriving DecidableEq, Repr

def call (this msgSender : Address) : Call → Except Revert PermissionsState
  | .createRole role adminRole => createRole P s msgSender role adminRole
  | .grantRole role account => grantRole s msgSender role account
  | .revokeRole role account => revokeRole s msgSender role account
  | .renounceRole role account => renounceRole s msgSender role account
  | .grantMinter minter => grantMinter P s msgSender minter
  | .grantBurner burner => grantBurner P s msgSender burner
  | .grantPCVController pcvController => grantPCVController P s msgSender pcvController
  | .grantGovernor governor => grantGovernor P s msgSender governor
  | .grantGuardian guardian => grantGuardian P s msgSender guardian
  | .revokeMinter minter => revokeMinter P s msgSender minter
  | .revokeBurner burner => revokeBurner P s msgSender burner
  | .revokePCVController pcvController => revokePCVController P s msgSender pcvController
  | .revokeGovernor governor => revokeGovernor P s msgSender governor
  | .revokeGuardian guardian => revokeGuardian P s msgSender guardian
  | .revokeOverride role account => revokeOverride P s this msgSender role account

/-! ## What the calls do -/

/-- The roles as delegated authority. -/
def grants (s : PermissionsState) : Authority.Grants Bytes32 Address where
  holds role account := hasRole s role account
  admin role := getRoleAdmin s role

variable {P s} {s' : PermissionsState} {this sender account : Address} {role adminRole : Bytes32}

theorem _checkRole_eq_ok_iff {u : Unit} :
    _checkRole s role account = .ok u ↔ hasRole s role account := by
  unfold _checkRole
  split
  · rename_i member
    simp [member, pure_eq_ok_iff]
  · rename_i missing
    simp [missing, bind_eq_ok_iff]

theorem grants_setRoleAdmin : grants (_setRoleAdmin s role adminRole) =
    { grants s with admin := Function.update (grants s).admin role adminRole } := by
  refine Authority.Grants.ext (funext₂ fun q c => ?_) (funext fun q => ?_)
  · simp only [grants, hasRole, _setRoleAdmin, Function.update_apply]
    split
    · rename_i same
      rw [same]
    · rfl
  · simp only [grants, getRoleAdmin, _setRoleAdmin, Function.update_apply]
    split <;> rfl

theorem hasRole_assign {isMember : Bool} {e : RoleEvent} (q : Bytes32) (c : Address) :
    hasRole (assign s role account isMember e) q c =
      if q = role ∧ c = account then isMember else hasRole s q c := by
  simp only [hasRole, assign, Function.update_apply]
  by_cases sameRole : q = role
  · subst sameRole
    simp only [if_pos, Function.update_apply, true_and]
  · simp only [sameRole, if_false, false_and]

theorem admin_assign {isMember : Bool} {e : RoleEvent} :
    (grants (assign s role account isMember e)).admin = (grants s).admin := by
  funext q
  simp only [grants, getRoleAdmin, assign, Function.update_apply]
  split
  · rename_i same
    rw [same]
  · rfl

theorem grants_grantRole : grants (_grantRole s sender role account) =
    { grants s with holds := fun q c => (grants s).holds q c ∨ q = role ∧ c = account } := by
  unfold _grantRole
  split
  · rename_i member
    refine Authority.Grants.ext (funext₂ fun q c => propext ⟨.inl, fun either => ?_⟩) rfl
    rcases either with before | ⟨here, self⟩
    · exact before
    · rw [here, self]
      exact member
  · refine Authority.Grants.ext (funext₂ fun q c => ?_) admin_assign
    simp only [grants, hasRole_assign]
    split
    · rename_i entry
      simp [entry]
    · rename_i other
      simp [other]

theorem hasRole_revokeRole (q : Bytes32) (c : Address) :
    hasRole (_revokeRole s sender role account) q c =
      if q = role ∧ c = account then false else hasRole s q c := by
  unfold _revokeRole
  split
  · exact hasRole_assign q c
  · rename_i missing
    split
    · rename_i entry
      rw [entry.1, entry.2]
      exact Bool.eq_false_of_not_eq_true missing
    · rfl

theorem admin_revokeRole :
    (grants (_revokeRole s sender role account)).admin = (grants s).admin := by
  unfold _revokeRole
  split
  · exact admin_assign
  · rfl

/-- Every call is a promotion of the sender's or takes one role from one account. -/
inductive Effect (P : Precompiles) (this sender : Address) (s : PermissionsState) :
    PermissionsState → Prop where
  | admin (role adminRole : Bytes32) (governor : isGovernor P s sender) :
    Effect P this sender s (_setRoleAdmin s role adminRole)
  | grant (role : Bytes32) (account : Address)
    (administers : hasRole s (getRoleAdmin s role) sender) :
    Effect P this sender s (_grantRole s sender role account)
  | revoke (role : Bytes32) (account : Address)
    (administers : hasRole s (getRoleAdmin s role) sender) :
    Effect P this sender s (_revokeRole s sender role account)
  | renounce (role : Bytes32) : Effect P this sender s (_revokeRole s sender role sender)
  | override (role : Bytes32) (account : Address) (guardian : isGuardian P s sender)
    (other : role ≠ GOVERN_ROLE P) (administers : hasRole s (getRoleAdmin s role) this) :
    Effect P this sender s (_revokeRole s this role account)

theorem grantRole_eq_ok_iff : grantRole s sender role account = .ok s' ↔
    hasRole s (getRoleAdmin s role) sender ∧ _grantRole s sender role account = s' := by
  simp only [grantRole, seq_eq_ok_iff, _checkRole_eq_ok_iff, pure_eq_ok_iff]

theorem revokeRole_eq_ok_iff : revokeRole s sender role account = .ok s' ↔
    hasRole s (getRoleAdmin s role) sender ∧ _revokeRole s sender role account = s' := by
  simp only [revokeRole, seq_eq_ok_iff, _checkRole_eq_ok_iff, pure_eq_ok_iff]

theorem createRole_eq_ok_iff : createRole P s sender role adminRole = .ok s' ↔
    isGovernor P s sender ∧ _setRoleAdmin s role adminRole = s' := by
  simp only [createRole, onlyGovernor, seq_eq_ok_iff, require_eq_ok_iff, pure_eq_ok_iff]

theorem revokeOverride_eq_ok_iff : revokeOverride P s this sender role account = .ok s' ↔
    isGuardian P s sender ∧ role ≠ GOVERN_ROLE P ∧ hasRole s (getRoleAdmin s role) this ∧
      _revokeRole s this role account = s' := by
  simp only [revokeOverride, onlyGuardian, seq_eq_ok_iff, require_eq_ok_iff, revokeRole_eq_ok_iff]

theorem governorGrants_effect (succeeds : governorGrants P s role sender account = .ok s') :
    Effect P this sender s s' := by
  simp only [governorGrants, onlyGovernor, seq_eq_ok_iff, require_eq_ok_iff,
    grantRole_eq_ok_iff] at succeeds
  obtain ⟨_, administers, same⟩ := succeeds
  exact same ▸ .grant role account administers

theorem governorRevokes_effect (succeeds : governorRevokes P s role sender account = .ok s') :
    Effect P this sender s s' := by
  simp only [governorRevokes, onlyGovernor, seq_eq_ok_iff, require_eq_ok_iff,
    revokeRole_eq_ok_iff] at succeeds
  obtain ⟨_, administers, same⟩ := succeeds
  exact same ▸ .revoke role account administers

theorem effect_of_call {c : Call} (succeeds : call P s this sender c = .ok s') :
    Effect P this sender s s' := by
  cases c with
  | createRole role adminRole =>
      obtain ⟨governor, same⟩ := createRole_eq_ok_iff.mp succeeds
      exact same ▸ .admin role adminRole governor
  | grantRole role account =>
      obtain ⟨administers, same⟩ := grantRole_eq_ok_iff.mp succeeds
      exact same ▸ .grant role account administers
  | revokeRole role account =>
      obtain ⟨administers, same⟩ := revokeRole_eq_ok_iff.mp succeeds
      exact same ▸ .revoke role account administers
  | renounceRole role account =>
      simp only [call, renounceRole, seq_eq_ok_iff, require_eq_ok_iff, pure_eq_ok_iff] at succeeds
      obtain ⟨self, same⟩ := succeeds
      subst self
      exact same ▸ .renounce role
  | revokeOverride role account =>
      obtain ⟨guardian, other, administers, same⟩ := revokeOverride_eq_ok_iff.mp succeeds
      exact same ▸ .override role account guardian other administers
  | grantMinter minter => exact governorGrants_effect succeeds
  | grantBurner burner => exact governorGrants_effect succeeds
  | grantPCVController pcvController => exact governorGrants_effect succeeds
  | grantGovernor governor => exact governorGrants_effect succeeds
  | grantGuardian guardian => exact governorGrants_effect succeeds
  | revokeMinter minter => exact governorRevokes_effect succeeds
  | revokeBurner burner => exact governorRevokes_effect succeeds
  | revokePCVController pcvController => exact governorRevokes_effect succeeds
  | revokeGovernor governor => exact governorRevokes_effect succeeds
  | revokeGuardian guardian => exact governorRevokes_effect succeeds

open Authority

theorem shed_revokeRole {C : Address → Prop} {root : Bytes32} :
    Move root C (grants s) (grants (_revokeRole s sender role account)) := by
  refine .shed admin_revokeRole fun q c holds => ?_
  simp only [grants, hasRole_revokeRole] at holds ⊢
  split at holds
  · cases holds
  · exact holds

/-- **Calls are moves** of their sender. -/
theorem Effect.move (effect : Effect P this sender s s') :
    Move (GOVERN_ROLE P) (· = sender) (grants s) (grants s') := by
  cases effect with
  | admin role adminRole governor =>
      rw [grants_setRoleAdmin]
      exact .promotion (.appoint role adminRole rfl governor)
  | grant role account administers =>
      rw [grants_grantRole]
      exact .promotion (.grant role account rfl administers)
  | revoke role account administers => exact shed_revokeRole
  | renounce role => exact shed_revokeRole
  | override role account guardian other administers => exact shed_revokeRole

/-- Every promotion of a sender's is a call. -/
theorem exists_call_of_promotion (this : Address) {g : Grants Bytes32 Address} {C : Address → Prop}
    (promoted : Promotion (GOVERN_ROLE P) C (grants s) g) :
    ∃ sender, C sender ∧ ∃ c s', call P s this sender c = .ok s' ∧ grants s' = g := by
  cases promoted with
  | appoint role adminRole acts rules =>
      exact ⟨_, acts, .createRole role adminRole, _, createRole_eq_ok_iff.mpr ⟨rules, rfl⟩,
        grants_setRoleAdmin⟩
  | grant role account acts administers =>
      exact ⟨_, acts, .grantRole role account, _, grantRole_eq_ok_iff.mpr ⟨administers, rfl⟩,
        grants_grantRole⟩

end Permissions

end FeiProtocol
