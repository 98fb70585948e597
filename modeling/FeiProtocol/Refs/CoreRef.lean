import FeiProtocol.Evm.Execution

/-!
# `CoreRef`

Access checks against the roles that `Core` keeps, and the pause switch of a contract that
references it. A contract state with a pause flag is `Pausable`.
-/

namespace FeiProtocol

open Evm

/-- The roles that the checks read. -/
structure Core : Type where
  isMinter : Address → Bool
  isBurner : Address → Bool
  isPCVController : Address → Bool
  isGovernor : Address → Bool
  isGuardian : Address → Bool

/-- The role identifiers that the checks name: each is the hash of its role's name. -/
structure TribeRoles : Type where
  GOVERNOR : Bytes32
  PARAMETER_ADMIN : Bytes32
  PSM_ADMIN_ROLE : Bytes32
  ADD_MINTER_ROLE : Bytes32

/-- The roles that have no getter of their own. -/
structure AccessControl : Type where
  hasRole : Bytes32 → Address → Bool
  roles : TribeRoles

/-- Access to the pause flag of a contract state. -/
class Pausable (σ : Type) where
  paused : σ → Bool
  withPaused : σ → Bool → σ

namespace CoreRef

open Pausable

variable (core : Core) {σ : Type} [Pausable σ]

def onlyMinter (sender : Address) : Except Revert Unit :=
  require (core.isMinter sender) "CoreRef: Caller is not a minter"

def onlyBurner (sender : Address) : Except Revert Unit :=
  require (core.isBurner sender) "CoreRef: Caller is not a burner"

def onlyPCVController (sender : Address) : Except Revert Unit :=
  require (core.isPCVController sender) "CoreRef: Caller is not a PCV controller"

def onlyGuardianOrGovernor (sender : Address) : Except Revert Unit :=
  require (core.isGovernor sender || core.isGuardian sender)
    "CoreRef: Caller is not a guardian or governor"

def onlyGovernor (sender : Address) : Except Revert Unit :=
  require (core.isGovernor sender) "CoreRef: Caller is not a governor"

section Roles

variable (access : AccessControl)

/-- A governor, or a holder of the contract's own `CONTRACT_ADMIN_ROLE`. -/
def onlyGovernorOrAdmin (CONTRACT_ADMIN_ROLE : Bytes32) (sender : Address) :
    Except Revert Unit :=
  require (core.isGovernor sender || access.hasRole CONTRACT_ADMIN_ROLE sender)
    "CoreRef: Caller is not a governor or contract admin"

def isGovernorOrGuardianOrAdmin (CONTRACT_ADMIN_ROLE : Bytes32) (sender : Address) :
    Except Revert Unit :=
  require (core.isGovernor sender || core.isGuardian sender ||
    access.hasRole CONTRACT_ADMIN_ROLE sender)
    "CoreRef: Caller is not governor or guardian or admin"

def onlyTribeRole (role : Bytes32) (sender : Address) : Except Revert Unit :=
  require (access.hasRole role sender) "UNAUTHORIZED"

def hasAnyOfTwoRoles (role1 role2 : Bytes32) (sender : Address) : Except Revert Unit :=
  require (access.hasRole role1 sender || access.hasRole role2 sender) "UNAUTHORIZED"

end Roles

def whenNotPaused (s : σ) : Except Revert Unit :=
  require (paused s = false) "Pausable: paused"

def pause (s : σ) (sender : Address) : Except Revert σ := do
  onlyGuardianOrGovernor core sender
  whenNotPaused s
  return withPaused s true

def unpause (s : σ) (sender : Address) : Except Revert σ := do
  onlyGuardianOrGovernor core sender
  require (paused s = true) "Pausable: not paused"
  return withPaused s false

variable {core}

@[simp]
theorem onlyMinter_eq_ok_iff {sender : Address} {u : Unit} :
    onlyMinter core sender = .ok u ↔ core.isMinter sender :=
  require_eq_ok_iff

@[simp]
theorem onlyBurner_eq_ok_iff {sender : Address} {u : Unit} :
    onlyBurner core sender = .ok u ↔ core.isBurner sender :=
  require_eq_ok_iff

@[simp]
theorem whenNotPaused_eq_ok_iff {s : σ} {u : Unit} :
    whenNotPaused s = .ok u ↔ paused s = false :=
  require_eq_ok_iff

/-- Pausing and unpausing change nothing but the flag. -/
theorem pause_eq {s s' : σ} {sender : Address} (succeeds : pause core s sender = .ok s') :
    s' = withPaused s true := by
  simp only [pause, bind_eq_ok_iff, pure_eq_ok_iff] at succeeds
  obtain ⟨_, _, _, _, same⟩ := succeeds
  exact same.symm

theorem unpause_eq {s s' : σ} {sender : Address} (succeeds : unpause core s sender = .ok s') :
    s' = withPaused s false := by
  simp only [unpause, bind_eq_ok_iff, pure_eq_ok_iff] at succeeds
  obtain ⟨_, _, _, _, same⟩ := succeeds
  exact same.symm

end CoreRef

end FeiProtocol
