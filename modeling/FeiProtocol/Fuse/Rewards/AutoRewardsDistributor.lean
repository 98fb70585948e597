import FeiProtocol.Staking.TribalChief

/-!
# `AutoRewardsDistributor`

The contract that keeps the speed of a market on Rari at what its pool of the `TribalChief` earns.
It acts through `RewardsDistributorAdmin`, which acts on Rari's own rewards distributor, a
parameter here.

* `setAutoRewardsDistribution_succeeds_iff`: when it accepts the state of the `TribalChief`.
-/

namespace FeiProtocol

open Evm

/-- The rewards distributor on Rari. -/
structure RewardsDistributor (V : Type) : Type where
  compBorrowSpeeds : V → Address → Nat
  compSupplySpeeds : V → Address → Nat
  _setCompBorrowSpeed : V → Address → Nat → Except Revert V
  _setCompSupplySpeed : V → Address → Nat → Except Revert V

structure RewardsDistributorAdminState (V : Type) : Type where
  _paused : Bool
  /-- the holders of `AUTO_REWARDS_DISTRIBUTOR_ROLE` -/
  hasRole : Address → Bool
  rewardsDistributorContract : V

instance {V : Type} : Pausable (RewardsDistributorAdminState V) where
  paused s := s._paused
  withPaused s b := { s with _paused := b }

structure AutoRewardsDistributorState (V : Type) : Type where
  _paused : Bool
  rewardsDistributorAdmin : RewardsDistributorAdminState V

instance {V : Type} : Pausable (AutoRewardsDistributorState V) where
  paused s := s._paused
  withPaused s b := { s with _paused := b }

structure AutoRewardsDistributorEnv (V : Type) : Type where
  this : Address
  cTokenAddress : Address
  isBorrowIncentivized : Bool
  tribalChiefRewardIndex : Nat
  AUTO_REWARDS_DISTRIBUTOR_ROLE : Bytes32
  rewardsDistributor : RewardsDistributor V

variable {V : Type} (env : AutoRewardsDistributorEnv V)

namespace RewardsDistributorAdmin

open CoreRef

variable (s : RewardsDistributorAdminState V)

def onlyRole (msgSender : Address) : Except Revert Unit :=
  let account := msgSender.toHex
  let role := env.AUTO_REWARDS_DISTRIBUTOR_ROLE.toHex
  require (s.hasRole msgSender) s!"AccessControl: account 0x{account} is missing role 0x{role}"

/-- The two setters differ in the setter of the distributor that they call. -/
def setCompSpeed (_setSpeed : V → Address → Nat → Except Revert V) (msgSender cToken : Address)
    (compSpeed : Nat) : Except Revert (RewardsDistributorAdminState V) := do
  onlyRole env s msgSender
  whenNotPaused s
  let rewardsDistributorContract ← _setSpeed s.rewardsDistributorContract cToken compSpeed
  return { s with rewardsDistributorContract }

def _setCompSupplySpeed (msgSender cToken : Address) (compSpeed : Nat) :
    Except Revert (RewardsDistributorAdminState V) :=
  setCompSpeed env s env.rewardsDistributor._setCompSupplySpeed msgSender cToken compSpeed

def _setCompBorrowSpeed (msgSender cToken : Address) (compSpeed : Nat) :
    Except Revert (RewardsDistributorAdminState V) :=
  setCompSpeed env s env.rewardsDistributor._setCompBorrowSpeed msgSender cToken compSpeed

end RewardsDistributorAdmin

namespace AutoRewardsDistributor

open CoreRef

variable (tribalChief : TribalChiefState) (s : AutoRewardsDistributorState V)

def actualCompSpeed : Nat :=
  let admin := s.rewardsDistributorAdmin
  if env.isBorrowIncentivized then
    env.rewardsDistributor.compBorrowSpeeds admin.rewardsDistributorContract env.cTokenAddress
  else
    env.rewardsDistributor.compSupplySpeeds admin.rewardsDistributorContract env.cTokenAddress

def _deriveRequiredCompSpeed (tribalChiefRewardIndex : Nat) : Except Revert Nat := do
  let pool ← element tribalChief.poolInfo tribalChiefRewardIndex
  if tribalChief.totalAllocPoint = 0 then return 0
  else do
    let product ← checkedMul (TribalChief.tribePerBlock tribalChief) pool.allocPoint
    checkedDiv product tribalChief.totalAllocPoint

def getNewRewardSpeed : Except Revert (Nat × Bool) := do
  let newCompSpeed ← _deriveRequiredCompSpeed tribalChief env.tribalChiefRewardIndex
  return (newCompSpeed, actualCompSpeed env s ≠ newCompSpeed)

def setAutoRewardsDistribution : Except Revert (AutoRewardsDistributorState V) := do
  whenNotPaused s
  let (compSpeed, updateNeeded) ← getNewRewardSpeed env tribalChief s
  require (updateNeeded = true) "AutoRewardsDistributor: update not needed"
  let rewardsDistributorAdmin ← (if env.isBorrowIncentivized then
      RewardsDistributorAdmin._setCompBorrowSpeed env s.rewardsDistributorAdmin env.this
        env.cTokenAddress compSpeed
    else
      RewardsDistributorAdmin._setCompSupplySpeed env s.rewardsDistributorAdmin env.this
        env.cTokenAddress compSpeed)
  return { s with rewardsDistributorAdmin }

/-! ## When it succeeds -/

/-- The speed that a pool of weight `allocPoint` earns at a rate. -/
def speedAt (tribalChief : TribalChiefState) (allocPoint rate : Nat) : Nat :=
  if tribalChief.totalAllocPoint = 0 then 0
  else rate * allocPoint / tribalChief.totalAllocPoint

/-- The setter of the distributor on Rari that is called. -/
def setSpeed : V → Address → Nat → Except Revert V :=
  if env.isBorrowIncentivized then env.rewardsDistributor._setCompBorrowSpeed
  else env.rewardsDistributor._setCompSupplySpeed

/-- The distributor takes over the speed that its pool earns at a rate, which is a new one. -/
structure Accepts (tribalChief : TribalChiefState) (s : AutoRewardsDistributorState V)
    (rate allocPoint : Nat) : Prop where
  unpaused : s._paused = false
  fits : tribalChief.totalAllocPoint ≠ 0 → rate * allocPoint < 2 ^ 256
  needed : actualCompSpeed env s ≠ speedAt tribalChief allocPoint rate
  role : s.rewardsDistributorAdmin.hasRole env.this = true
  adminUnpaused : s.rewardsDistributorAdmin._paused = false
  sets : ∃ v, setSpeed env s.rewardsDistributorAdmin.rewardsDistributorContract env.cTokenAddress
    (speedAt tribalChief allocPoint rate) = .ok v

variable {env tribalChief s}

/-- Of the `TribalChief`, acceptance depends on the total weight only. -/
theorem Accepts.congr {tribalChief' : TribalChiefState} {rate allocPoint : Nat}
    (accepts : Accepts env tribalChief s rate allocPoint)
    (total : tribalChief'.totalAllocPoint = tribalChief.totalAllocPoint) :
    Accepts env tribalChief' s rate allocPoint := by
  have speed : speedAt tribalChief' allocPoint rate = speedAt tribalChief allocPoint rate := by
    unfold speedAt
    rw [total]
  exact ⟨accepts.unpaused, total ▸ accepts.fits, speed ▸ accepts.needed, accepts.role,
    accepts.adminUnpaused, speed ▸ accepts.sets⟩

theorem deriveRequiredCompSpeed_eq_ok_iff {index speed : Nat} :
    _deriveRequiredCompSpeed tribalChief index = .ok speed ↔
      ∃ pool, tribalChief.poolInfo[index]? = some pool ∧
        (tribalChief.totalAllocPoint ≠ 0 →
          tribalChief.tribalChiefTribePerBlock * pool.allocPoint < 2 ^ 256) ∧
        speed = speedAt tribalChief pool.allocPoint tribalChief.tribalChiefTribePerBlock := by
  simp only [_deriveRequiredCompSpeed, TribalChief.tribePerBlock, bind_eq_ok_iff,
    element_eq_ok_iff, speedAt]
  refine exists_congr fun pool => and_congr_right fun _ => ?_
  split
  · rename_i none
    rw [pure_eq_ok_iff]
    exact ⟨fun same => ⟨fun some => absurd none some, same.symm⟩, fun all => all.2.symm⟩
  · rename_i some
    simp only [bind_eq_ok_iff, checkedMul_eq_ok_iff, checkedDiv_eq_ok_iff]
    constructor
    · intro given
      rcases given with ⟨_, ⟨fits, product⟩, _, value⟩
      rw [← value, ← product]
      exact ⟨fun _ => fits, rfl⟩
    · intro given
      rcases given with ⟨fits, value⟩
      exact ⟨_, ⟨fits some, rfl⟩, some, value.symm⟩

theorem setCompSpeed_succeeds_iff {t : RewardsDistributorAdminState V} {sender cToken : Address}
    {speed : Nat} {set : V → Address → Nat → Except Revert V} :
    (∃ t', RewardsDistributorAdmin.setCompSpeed env t set sender cToken speed = .ok t') ↔
      t.hasRole sender = true ∧ t._paused = false ∧
        ∃ v, set t.rewardsDistributorContract cToken speed = .ok v := by
  simp only [RewardsDistributorAdmin.setCompSpeed, RewardsDistributorAdmin.onlyRole,
    whenNotPaused, Pausable.paused, bind_eq_ok_iff, pure_eq_ok_iff, require_eq_ok_iff, exists_const]
  constructor
  · intro given
    rcases given with ⟨_, role, unpaused, v, sets, _⟩
    exact ⟨role, unpaused, v, sets⟩
  · intro given
    rcases given with ⟨role, unpaused, v, sets⟩
    exact ⟨_, role, unpaused, v, sets, rfl⟩

/-- **What the distributor accepts.** -/
theorem setAutoRewardsDistribution_succeeds_iff :
    (∃ s', setAutoRewardsDistribution env tribalChief s = .ok s') ↔
      ∃ pool, tribalChief.poolInfo[env.tribalChiefRewardIndex]? = some pool ∧
        Accepts env tribalChief s tribalChief.tribalChiefTribePerBlock pool.allocPoint := by
  have setter : ∀ speed, (∃ t, (if env.isBorrowIncentivized then
        RewardsDistributorAdmin._setCompBorrowSpeed env s.rewardsDistributorAdmin env.this
          env.cTokenAddress speed
      else
        RewardsDistributorAdmin._setCompSupplySpeed env s.rewardsDistributorAdmin env.this
          env.cTokenAddress speed) = .ok t) ↔
      s.rewardsDistributorAdmin.hasRole env.this = true ∧
        s.rewardsDistributorAdmin._paused = false ∧
        ∃ v, setSpeed env s.rewardsDistributorAdmin.rewardsDistributorContract env.cTokenAddress
          speed = .ok v := by
    intro speed
    unfold setSpeed
    split
    · exact setCompSpeed_succeeds_iff
    · exact setCompSpeed_succeeds_iff
  simp only [setAutoRewardsDistribution, getNewRewardSpeed, whenNotPaused, Pausable.paused,
    bind_eq_ok_iff, pure_eq_ok_iff, require_eq_ok_iff, exists_const,
    deriveRequiredCompSpeed_eq_ok_iff]
  constructor
  · intro given
    rcases given with ⟨_, unpaused, ⟨speed, needed⟩, ⟨_, ⟨pool, found, fits, value⟩, same⟩, update,
      t, sets, _⟩
    cases same
    subst value
    obtain ⟨role, adminUnpaused, v, sets⟩ := (setter _).mp ⟨t, sets⟩
    exact ⟨pool, found, unpaused, fits, of_decide_eq_true update, role, adminUnpaused, v, sets⟩
  · intro given
    rcases given with ⟨pool, found, accepts⟩
    obtain ⟨t, sets⟩ := (setter _).mpr ⟨accepts.role, accepts.adminUnpaused, accepts.sets⟩
    exact ⟨_, accepts.unpaused, (_, _), ⟨_, ⟨pool, found, accepts.fits, rfl⟩, rfl⟩,
      decide_eq_true accepts.needed, t, sets, rfl⟩

end AutoRewardsDistributor

end FeiProtocol
