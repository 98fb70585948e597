import FeiProtocol.Utils.RateLimited
import Mathlib.Logic.Function.Basic

/-!
# `MultiRateLimited`

Beside the contract's own buffer, a buffer for each registered address. These are stored in
narrower words, with update functions of their own; they are token buckets all the same
(`RateLimitData.bucket`).

* `individualBuffer_eq_ok_iff`: the getter is the level of an address's bucket.
* `depleted_of_depleteIndividualBuffer`: a depletion draws one amount from both buckets.
* `Registry`: an address that is not registered has an empty record.
-/

namespace FeiProtocol

open Evm

structure RateLimitData : Type where
  lastBufferUsedTime : BitVec 32
  bufferCap : BitVec 112
  bufferStored : BitVec 112
  rateLimitPerSecond : BitVec 112
  deriving DecidableEq, Repr

/-- The record of an address that was never added, or that was deleted. -/
def RateLimitData.empty : RateLimitData := ⟨0, 0, 0, 0⟩

structure MultiRateLimited : Type extends RateLimited where
  rateLimitPerAddress : Address → RateLimitData
  individualMaxRateLimitPerSecond : Nat
  individualMaxBufferCap : Nat

namespace MultiRateLimited

open CoreRef

variable (core : Core) (access : AccessControl) (m : MultiRateLimited) (timestamp : Nat)

/-! ## The contract -/

def addressIsRegistered (rateLimitedAddress : Address) : Except Revert Unit :=
  require ((m.rateLimitPerAddress rateLimitedAddress).lastBufferUsedTime ≠ 0)
    "MultiRateLimited: rate limit address does not exist"

def individualBuffer (rateLimitedAddress : Address) : Except Revert (BitVec 112) := do
  let rateLimitData := m.rateLimitPerAddress rateLimitedAddress
  let elapsed ← checkedSub timestamp rateLimitData.lastBufferUsedTime.toNat
  let replenished ← checkedMul rateLimitData.rateLimitPerSecond.toNat elapsed
  let uncapped ← checkedAdd rateLimitData.bufferStored.toNat replenished
  return BitVec.ofNat 112 (min uncapped rateLimitData.bufferCap.toNat)

def setRecord (rateLimitedAddress : Address) (rateLimitData : RateLimitData) :
    MultiRateLimited :=
  { m with
    rateLimitPerAddress :=
      Function.update m.rateLimitPerAddress rateLimitedAddress rateLimitData }

def _updateAddress (rateLimitedAddress : Address) (_rateLimitPerSecond _bufferCap : BitVec 112) :
    Except Revert MultiRateLimited := do
  let currentBufferStored ← m.individualBuffer timestamp rateLimitedAddress
  let newBlockTimestamp ← toUint 32 timestamp
  return m.setRecord rateLimitedAddress
    { bufferStored := currentBufferStored
      lastBufferUsedTime := newBlockTimestamp
      bufferCap := _bufferCap
      rateLimitPerSecond := _rateLimitPerSecond }

def _addAddress (rateLimitedAddress : Address) (_rateLimitPerSecond _bufferCap : BitVec 112) :
    Except Revert MultiRateLimited := do
  require (_bufferCap.toNat ≤ m.bufferCap) "MultiRateLimited: new buffercap too high"
  require ((m.rateLimitPerAddress rateLimitedAddress).lastBufferUsedTime = 0)
    "MultiRateLimited: address already added"
  require (_rateLimitPerSecond.toNat ≤ m.MAX_RATE_LIMIT_PER_SECOND)
    "MultiRateLimited: rateLimitPerSecond too high"
  let lastBufferUsedTime ← toUint 32 timestamp
  return m.setRecord rateLimitedAddress
    { lastBufferUsedTime
      bufferCap := _bufferCap
      rateLimitPerSecond := _rateLimitPerSecond
      bufferStored := _bufferCap }

def _depleteIndividualBuffer (rateLimitedAddress : Address) (amount : Nat) :
    Except Revert MultiRateLimited := do
  let (rateLimited, _) ← m.toRateLimited._depleteBuffer timestamp amount
  let m := { m with toRateLimited := rateLimited }
  let buffered ← m.individualBuffer timestamp rateLimitedAddress
  let newBuffer := buffered.toNat
  require (newBuffer ≠ 0) "MultiRateLimited: no rate limit buffer"
  require (amount ≤ newBuffer) "MultiRateLimited: rate limit hit"
  let lastBufferUsedTime ← toUint 32 timestamp
  let left ← checkedSub newBuffer amount
  let newBufferStored := BitVec.ofNat 112 left
  return m.setRecord rateLimitedAddress
    { m.rateLimitPerAddress rateLimitedAddress with
      lastBufferUsedTime
      bufferStored := newBufferStored }

def construct (_maxRateLimitPerSecond _rateLimitPerSecond _individualMaxRateLimitPerSecond
    _individualMaxBufferCap _globalBufferCap : UInt256) : Except Revert MultiRateLimited := do
  let rateLimited ← RateLimited.construct timestamp _maxRateLimitPerSecond _rateLimitPerSecond
    _globalBufferCap false
  require (_individualMaxBufferCap < _globalBufferCap) "MultiRateLimited: max buffer cap invalid"
  return { toRateLimited := rateLimited
           rateLimitPerAddress := fun _ => .empty
           individualMaxRateLimitPerSecond := _individualMaxRateLimitPerSecond.toNat
           individualMaxBufferCap := _individualMaxBufferCap.toNat }

def updateMaxRateLimitPerSecond (msgSender : Address) (newRateLimitPerSecond : UInt256) :
    Except Revert MultiRateLimited := do
  onlyGovernor core msgSender
  require (newRateLimitPerSecond.toNat ≤ m.MAX_RATE_LIMIT_PER_SECOND)
    "MultiRateLimited: exceeds global max rate limit per second"
  return { m with individualMaxRateLimitPerSecond := newRateLimitPerSecond.toNat }

def updateMaxBufferCap (msgSender : Address) (newBufferCap : UInt256) :
    Except Revert MultiRateLimited := do
  onlyGovernor core msgSender
  require (newBufferCap.toNat ≤ m.bufferCap) "MultiRateLimited: exceeds global buffer cap"
  return { m with individualMaxBufferCap := newBufferCap.toNat }

def addAddress (msgSender rateLimitedAddress : Address)
    (_rateLimitPerSecond _bufferCap : BitVec 112) : Except Revert MultiRateLimited := do
  onlyGovernor core msgSender
  m._addAddress timestamp rateLimitedAddress _rateLimitPerSecond _bufferCap

def updateAddress (msgSender rateLimitedAddress : Address)
    (_rateLimitPerSecond _bufferCap : BitVec 112) : Except Revert MultiRateLimited := do
  m.addressIsRegistered rateLimitedAddress
  hasAnyOfTwoRoles access access.roles.ADD_MINTER_ROLE access.roles.GOVERNOR msgSender
  if access.hasRole access.roles.ADD_MINTER_ROLE msgSender then
    require (_rateLimitPerSecond.toNat ≤ m.individualMaxRateLimitPerSecond)
      "MultiRateLimited: rate limit per second exceeds non governor allowable amount"
    require (_bufferCap.toNat ≤ m.individualMaxBufferCap)
      "MultiRateLimited: max buffer cap exceeds non governor allowable amount"
  require (_bufferCap.toNat ≤ m.bufferCap) "MultiRateLimited: buffercap too high"
  require (_rateLimitPerSecond.toNat ≤ m.MAX_RATE_LIMIT_PER_SECOND)
    "MultiRateLimited: rateLimitPerSecond too high"
  m._updateAddress timestamp rateLimitedAddress _rateLimitPerSecond _bufferCap

/-- The overload with the maximal limits, which are cut to the width of the record. -/
def addAddressAsMinter (msgSender rateLimitedAddress : Address) :
    Except Revert MultiRateLimited := do
  onlyTribeRole access access.roles.ADD_MINTER_ROLE msgSender
  m._addAddress timestamp rateLimitedAddress
    (BitVec.ofNat 112 m.individualMaxRateLimitPerSecond)
    (BitVec.ofNat 112 m.individualMaxBufferCap)

/-- The overload with limits of the caller's choice. -/
def addAddressAsMinterWithLimits (msgSender rateLimitedAddress : Address)
    (_rateLimitPerSecond _bufferCap : BitVec 112) : Except Revert MultiRateLimited := do
  onlyTribeRole access access.roles.ADD_MINTER_ROLE msgSender
  require (_rateLimitPerSecond.toNat ≤ m.individualMaxRateLimitPerSecond)
    "MultiRateLimited: rlps exceeds role amt"
  require (_bufferCap.toNat ≤ m.individualMaxBufferCap)
    "MultiRateLimited: buffercap exceeds role amt"
  m._addAddress timestamp rateLimitedAddress _rateLimitPerSecond _bufferCap

def removeAddress (msgSender rateLimitedAddress : Address) : Except Revert MultiRateLimited := do
  m.addressIsRegistered rateLimitedAddress
  onlyGuardianOrGovernor core msgSender
  return m.setRecord rateLimitedAddress .empty

/-! ## The buckets -/

end MultiRateLimited

def RateLimitData.bucket (d : RateLimitData) : TokenBucket where
  cap := d.bufferCap.toNat
  rate := d.rateLimitPerSecond.toNat
  stored := d.bufferStored.toNat
  lastUsed := d.lastBufferUsedTime.toNat

namespace MultiRateLimited

/-- The bucket of one address. -/
def individual (m : MultiRateLimited) (a : Address) : TokenBucket :=
  (m.rateLimitPerAddress a).bucket

variable {core : Core} {access : AccessControl} {m m' : MultiRateLimited} {timestamp : Nat}
  {a b sender : Address} {rate cap buffered : BitVec 112} {amount : Nat}

theorem level_lt (m : MultiRateLimited) (timestamp : Nat) (a : Address) :
    (m.individual a).level timestamp < 2 ^ 112 :=
  Nat.lt_of_le_of_lt (TokenBucket.level_le_cap _ _) (m.rateLimitPerAddress a).bufferCap.isLt

/-- The computation of an address's buffer fits a word. -/
def Fits (d : RateLimitData) (timestamp : Nat) : Prop :=
  d.lastBufferUsedTime.toNat ≤ timestamp ∧
    d.rateLimitPerSecond.toNat * (timestamp - d.lastBufferUsedTime.toNat) < 2 ^ 256 ∧
    d.bufferStored.toNat + d.rateLimitPerSecond.toNat *
      (timestamp - d.lastBufferUsedTime.toNat) < 2 ^ 256

/-- The getter is the level of the address's bucket: nothing is lost in the narrow word. -/
theorem individualBuffer_eq_ok_iff : m.individualBuffer timestamp a = .ok buffered ↔
    Fits (m.rateLimitPerAddress a) timestamp ∧
      (m.individual a).level timestamp = buffered.toNat := by
  have lt := level_lt m timestamp a
  simp only [individualBuffer, bind_eq_ok_iff, pure_eq_ok_iff, checkedSub_eq_ok_iff,
    checkedMul_eq_ok_iff, checkedAdd_eq_ok_iff, and_assoc, exists_and_left, exists_eq_left', Fits]
  simp only [individual, RateLimitData.bucket, TokenBucket.level] at lt ⊢
  rw [← BitVec.toNat_inj, BitVec.toNat_ofNat, Nat.mod_eq_of_lt lt]

theorem individual_setRecord (d : RateLimitData) :
    (m.setRecord a d).individual b = if b = a then d.bucket else m.individual b := by
  simp only [individual, setRecord, Function.update_apply]
  split <;> rfl

/-! ## What each operation does to the buckets -/

/-- A depletion of both buffers. -/
structure Depleted (m m' : MultiRateLimited) (timestamp : Nat) (a : Address) (amount : Nat) :
    Prop where
  contract : ∃ used,
    RateLimited.Depleted m.toRateLimited m'.toRateLimited timestamp amount used
  covered : amount ≤ (m.individual a).level timestamp
  positive : (m.individual a).level timestamp ≠ 0
  drawn : m'.individual a = (m.individual a).draw timestamp amount
  touched : (m'.rateLimitPerAddress a).lastBufferUsedTime.toNat = timestamp
  others : ∀ b, b ≠ a → m'.rateLimitPerAddress b = m.rateLimitPerAddress b

theorem depleted_of_depleteIndividualBuffer
    (succeeds : m._depleteIndividualBuffer timestamp a amount = .ok m') :
    Depleted m m' timestamp a amount := by
  simp only [_depleteIndividualBuffer, bind_eq_ok_iff, pure_eq_ok_iff, require_eq_ok_iff,
    exists_const, checkedSub_eq_ok_iff, toUint_eq_ok_iff, individualBuffer_eq_ok_iff] at succeeds
  obtain ⟨⟨r, used⟩, contract, buffered, ⟨_, level⟩, positive, covered, now, ⟨_, time⟩, left,
    ⟨_, rest⟩, same⟩ := succeeds
  have level : (m.individual a).level timestamp = buffered.toNat := level
  have narrow : left < 2 ^ 112 := by
    have lt := buffered.isLt
    omega
  subst same
  refine ⟨⟨used, RateLimited.depleted_of_depleteBuffer contract⟩, level ▸ covered,
    level ▸ positive, ?_, ?_, ?_⟩
  · rw [individual_setRecord, if_pos rfl]
    simp only [RateLimitData.bucket, BitVec.toNat_ofNat, Nat.mod_eq_of_lt narrow]
    rw [← rest, ← level, ← time]
    rfl
  · simp only [setRecord, Function.update_self, time]
  · intro b other
    simp only [setRecord, Function.update_of_ne other]

/-- New limits for one address. -/
structure Updated (m m' : MultiRateLimited) (timestamp : Nat) (a : Address) (cap rate : Nat) :
    Prop where
  fits : Fits (m.rateLimitPerAddress a) timestamp
  relimited : m'.individual a = (m.individual a).relimit timestamp cap rate
  touched : (m'.rateLimitPerAddress a).lastBufferUsedTime.toNat = timestamp
  contract : m'.toRateLimited = m.toRateLimited
  others : ∀ b, b ≠ a → m'.rateLimitPerAddress b = m.rateLimitPerAddress b

/-- What rewriting the record of one address can be: new limits, a first record, or none. -/
inductive Rewritten (m m' : MultiRateLimited) (timestamp : Nat) (a : Address) : Prop where
  | updated (cap rate : Nat) (limits : Updated m m' timestamp a cap rate)
  | added (unregistered : (m.rateLimitPerAddress a).lastBufferUsedTime = 0)
    (touched : (m'.rateLimitPerAddress a).lastBufferUsedTime.toNat = timestamp)
  | removed (empty : m'.rateLimitPerAddress a = .empty)

theorem updated_of_updateAddress
    (succeeds : m._updateAddress timestamp a rate cap = .ok m') :
    Updated m m' timestamp a cap.toNat rate.toNat := by
  simp only [_updateAddress, bind_eq_ok_iff, pure_eq_ok_iff, toUint_eq_ok_iff,
    individualBuffer_eq_ok_iff] at succeeds
  obtain ⟨buffered, ⟨fits, level⟩, now, ⟨_, time⟩, same⟩ := succeeds
  subst same
  refine ⟨fits, ?_, ?_, rfl, ?_⟩
  · rw [individual_setRecord, if_pos rfl]
    simp only [RateLimitData.bucket, TokenBucket.relimit, level, ← time]
  · simp only [setRecord, Function.update_self, time]
  · intro b other
    simp only [setRecord, Function.update_of_ne other]

theorem rewritten_of_addAddress (succeeds : m._addAddress timestamp a rate cap = .ok m') :
    Rewritten m m' timestamp a ∧ m'.toRateLimited = m.toRateLimited ∧
      ∀ b, b ≠ a → m'.rateLimitPerAddress b = m.rateLimitPerAddress b := by
  simp only [_addAddress, bind_eq_ok_iff, pure_eq_ok_iff, require_eq_ok_iff, exists_const,
    toUint_eq_ok_iff] at succeeds
  obtain ⟨_, unregistered, _, now, ⟨_, time⟩, same⟩ := succeeds
  subst same
  refine ⟨.added unregistered ?_, rfl, ?_⟩
  · simp only [setRecord, Function.update_self, time]
  · intro b other
    simp only [setRecord, Function.update_of_ne other]

/-- What an operation can do to the buckets. -/
inductive Change (m m' : MultiRateLimited) (timestamp : Nat) : Prop where
  | depleted (a : Address) (amount : Nat) (both : Depleted m m' timestamp a amount)
  | relimited (cap rate : Nat)
    (contract : RateLimited.Relimited m.toRateLimited m'.toRateLimited timestamp cap rate)
    (records : m'.rateLimitPerAddress = m.rateLimitPerAddress)
  | rewritten (a : Address) (own : Rewritten m m' timestamp a)
    (contract : m'.toRateLimited = m.toRateLimited)
    (others : ∀ b, b ≠ a → m'.rateLimitPerAddress b = m.rateLimitPerAddress b)
  | idle (contract : m'.toRateLimited = m.toRateLimited)
    (records : m'.rateLimitPerAddress = m.rateLimitPerAddress)

/-- A call that changes limits, registers addresses or removes them. -/
inductive Configuration : Type where
  | setRateLimitPerSecond (newRateLimitPerSecond : UInt256)
  | setBufferCap (newBufferCap : UInt256)
  | updateMaxRateLimitPerSecond (newRateLimitPerSecond : UInt256)
  | updateMaxBufferCap (newBufferCap : UInt256)
  | addAddress (rateLimitedAddress : Address) (_rateLimitPerSecond _bufferCap : BitVec 112)
  | updateAddress (rateLimitedAddress : Address) (_rateLimitPerSecond _bufferCap : BitVec 112)
  | addAddressAsMinter (rateLimitedAddress : Address)
  | addAddressAsMinterWithLimits (rateLimitedAddress : Address)
    (_rateLimitPerSecond _bufferCap : BitVec 112)
  | removeAddress (rateLimitedAddress : Address)
  deriving DecidableEq, Repr

/-- A configuration call by `sender`. -/
def configure (core : Core) (access : AccessControl) (CONTRACT_ADMIN_ROLE : Bytes32)
    (m : MultiRateLimited) (timestamp : Nat) (sender : Address) :
    Configuration → Except Revert MultiRateLimited
  | .setRateLimitPerSecond newRateLimitPerSecond => do
      let r ← m.toRateLimited.setRateLimitPerSecond core access timestamp CONTRACT_ADMIN_ROLE
        sender newRateLimitPerSecond
      return { m with toRateLimited := r }
  | .setBufferCap newBufferCap => do
      let r ← m.toRateLimited.setBufferCap core access timestamp CONTRACT_ADMIN_ROLE sender
        newBufferCap
      return { m with toRateLimited := r }
  | .updateMaxRateLimitPerSecond newRateLimitPerSecond =>
      m.updateMaxRateLimitPerSecond core sender newRateLimitPerSecond
  | .updateMaxBufferCap newBufferCap => m.updateMaxBufferCap core sender newBufferCap
  | .addAddress a _rateLimitPerSecond _bufferCap =>
      m.addAddress core timestamp sender a _rateLimitPerSecond _bufferCap
  | .updateAddress a _rateLimitPerSecond _bufferCap =>
      m.updateAddress access timestamp sender a _rateLimitPerSecond _bufferCap
  | .addAddressAsMinter a => m.addAddressAsMinter access timestamp sender a
  | .addAddressAsMinterWithLimits a _rateLimitPerSecond _bufferCap =>
      m.addAddressAsMinterWithLimits access timestamp sender a _rateLimitPerSecond _bufferCap
  | .removeAddress a => m.removeAddress core sender a

variable {CONTRACT_ADMIN_ROLE : Bytes32}

theorem updateAddress_eq_ok
    (succeeds : m.updateAddress access timestamp sender a rate cap = .ok m') :
    m._updateAddress timestamp a rate cap = .ok m' := by
  simp only [updateAddress, bind_eq_ok_iff] at succeeds
  obtain ⟨_, _, _, _, succeeds⟩ := succeeds
  split at succeeds
  · simp only [bind_eq_ok_iff] at succeeds
    obtain ⟨_, _, _, _, _, _, _, _, succeeds⟩ := succeeds
    exact succeeds
  · simp only [bind_eq_ok_iff] at succeeds
    obtain ⟨_, _, _, _, succeeds⟩ := succeeds
    exact succeeds

theorem configure_change {c : Configuration}
    (succeeds : configure core access CONTRACT_ADMIN_ROLE m timestamp sender c = .ok m') :
    Change m m' timestamp := by
  cases c with
  | setRateLimitPerSecond newRateLimitPerSecond =>
      obtain ⟨r, called, same⟩ := bind_eq_ok_iff.mp succeeds
      cases same
      exact .relimited _ _ (RateLimited.setRateLimitPerSecond_relimited called) rfl
  | setBufferCap newBufferCap =>
      obtain ⟨r, called, same⟩ := bind_eq_ok_iff.mp succeeds
      cases same
      exact .relimited _ _ (RateLimited.setBufferCap_relimited called) rfl
  | updateMaxRateLimitPerSecond newRateLimitPerSecond =>
      simp only [configure, updateMaxRateLimitPerSecond, bind_eq_ok_iff, pure_eq_ok_iff]
        at succeeds
      obtain ⟨_, _, _, _, same⟩ := succeeds
      subst same
      exact .idle rfl rfl
  | updateMaxBufferCap newBufferCap =>
      simp only [configure, updateMaxBufferCap, bind_eq_ok_iff, pure_eq_ok_iff] at succeeds
      obtain ⟨_, _, _, _, same⟩ := succeeds
      subst same
      exact .idle rfl rfl
  | addAddress a _rateLimitPerSecond _bufferCap =>
      simp only [configure, addAddress, bind_eq_ok_iff] at succeeds
      obtain ⟨_, _, added⟩ := succeeds
      obtain ⟨own, contract, others⟩ := rewritten_of_addAddress added
      exact .rewritten a own contract others
  | updateAddress a _rateLimitPerSecond _bufferCap =>
      have limits := updated_of_updateAddress (updateAddress_eq_ok succeeds)
      exact .rewritten a (.updated _ _ limits) limits.contract limits.others
  | addAddressAsMinter a =>
      simp only [configure, addAddressAsMinter, bind_eq_ok_iff] at succeeds
      obtain ⟨_, _, added⟩ := succeeds
      obtain ⟨own, contract, others⟩ := rewritten_of_addAddress added
      exact .rewritten a own contract others
  | addAddressAsMinterWithLimits a _rateLimitPerSecond _bufferCap =>
      simp only [configure, addAddressAsMinterWithLimits, bind_eq_ok_iff] at succeeds
      obtain ⟨_, _, _, _, _, _, added⟩ := succeeds
      obtain ⟨own, contract, others⟩ := rewritten_of_addAddress added
      exact .rewritten a own contract others
  | removeAddress a =>
      simp only [configure, removeAddress, bind_eq_ok_iff, pure_eq_ok_iff] at succeeds
      obtain ⟨_, _, _, _, same⟩ := succeeds
      subst same
      apply Change.rewritten a
      · exact .removed (Function.update_self _ _ _)
      · rfl
      · intro b other
        exact Function.update_of_ne other _ _

/-! ## Flows -/

theorem Depleted.contract_flow (depleted : Depleted m m' timestamp a amount)
    (whole : m.doPartialAction = false) :
    TokenBucket.Flow m.bucket m'.bucket timestamp timestamp amount 0 := by
  obtain ⟨used, contract⟩ := depleted.contract
  have flow := contract.flow
  rwa [contract.whole whole] at flow

theorem Depleted.individual_flow (depleted : Depleted m m' timestamp a amount) :
    TokenBucket.Flow (m.individual a) (m'.individual a) timestamp timestamp amount 0 := by
  rw [depleted.drawn]
  exact .draw depleted.covered

/-- An address that is not registered has an empty record. -/
def Registry (m : MultiRateLimited) : Prop :=
  ∀ a, (m.rateLimitPerAddress a).lastBufferUsedTime = 0 → m.rateLimitPerAddress a = .empty

theorem Change.doPartialAction (change : Change m m' timestamp) :
    m'.doPartialAction = m.doPartialAction := by
  cases change with
  | depleted a amount both =>
      obtain ⟨used, contract⟩ := both.contract
      exact contract.doPartialAction
  | relimited cap rate contract records => exact contract.doPartialAction
  | rewritten a own contract others => rw [contract]
  | idle contract records => rw [contract]

/-- A record is stamped whenever it is written, so what is not registered stays empty. -/
theorem Change.registry (change : Change m m' timestamp) (registry : Registry m)
    (positive : 0 < timestamp) : Registry m' := by
  have stamped : ∀ {d : RateLimitData}, d.lastBufferUsedTime.toNat = timestamp →
      d.lastBufferUsedTime ≠ 0 := by
    intro d touched zero
    rw [zero] at touched
    exact Nat.ne_of_lt positive touched
  intro b unregistered
  cases change with
  | depleted a amount both =>
      by_cases same : b = a
      · subst same
        exact absurd unregistered (stamped both.touched)
      · rw [both.others b same] at unregistered ⊢
        exact registry b unregistered
  | relimited cap rate contract records =>
      rw [records] at unregistered ⊢
      exact registry b unregistered
  | rewritten a own contract others =>
      by_cases same : b = a
      · subst same
        cases own with
        | updated cap rate limits => exact absurd unregistered (stamped limits.touched)
        | added new touched => exact absurd unregistered (stamped touched)
        | removed empty => exact empty
      · rw [others b same] at unregistered ⊢
        exact registry b unregistered
  | idle contract records =>
      rw [records] at unregistered ⊢
      exact registry b unregistered

/-- Under unchanged limits the contract's buffer is not raised. -/
theorem Change.contract_flow (change : Change m m' timestamp)
    (cap : m'.bufferCap = m.bufferCap) (rate : m'.rateLimitPerSecond = m.rateLimitPerSecond) :
    TokenBucket.Flow m.bucket m'.bucket timestamp timestamp 0 0 := by
  cases change with
  | depleted a amount both =>
      obtain ⟨used, contract⟩ := both.contract
      exact contract.flow.of_drawn (Nat.zero_le _)
  | relimited newCap newRate contract records =>
      have limits := contract.bucket
      have sameCap : newCap = m.bufferCap := by
        rw [← cap]
        exact (congrArg TokenBucket.cap limits).symm
      have sameRate : newRate = m.rateLimitPerSecond := by
        rw [← rate]
        exact (congrArg TokenBucket.rate limits).symm
      exact contract.flow sameCap sameRate
  | rewritten a own contract others =>
      rw [contract]
      exact .refl _ _
  | idle contract records =>
      rw [contract]
      exact .refl _ _

/-- Under unchanged limits an address's buffer is not raised. -/
theorem Change.individual_flow (change : Change m m' timestamp) (registry : Registry m)
    (cap : (m'.rateLimitPerAddress b).bufferCap = (m.rateLimitPerAddress b).bufferCap)
    (rate : (m'.rateLimitPerAddress b).rateLimitPerSecond =
      (m.rateLimitPerAddress b).rateLimitPerSecond) :
    TokenBucket.Flow (m.individual b) (m'.individual b) timestamp timestamp 0 0 := by
  have capNat : (m'.individual b).cap = (m.individual b).cap := congrArg BitVec.toNat cap
  have rateNat : (m'.individual b).rate = (m.individual b).rate := congrArg BitVec.toNat rate
  have kept : m'.rateLimitPerAddress b = m.rateLimitPerAddress b →
      TokenBucket.Flow (m.individual b) (m'.individual b) timestamp timestamp 0 0 := by
    intro same
    rw [individual, individual, same]
    exact .refl _ _
  cases change with
  | depleted a amount both =>
      by_cases same : b = a
      · subst same
        exact both.individual_flow.of_drawn (Nat.zero_le _)
      · exact kept (both.others b same)
  | relimited newCap newRate contract records => exact kept (by rw [records])
  | rewritten a own contract others =>
      by_cases same : b = a
      · subst same
        cases own with
        | updated newCap newRate limits =>
            rw [limits.relimited] at capNat rateNat ⊢
            have capNat : newCap = (m.individual b).cap := capNat
            have rateNat : newRate = (m.individual b).rate := rateNat
            rw [capNat, rateNat]
            exact .relimit _ _
        | added new touched =>
            -- the record was empty, so the unchanged limits are zero
            apply TokenBucket.Flow.emptied capNat rateNat
            rw [capNat, individual, registry b new]
            rfl
        | removed empty =>
            apply TokenBucket.Flow.emptied capNat rateNat
            rw [individual, empty]
            rfl
      · exact kept (others b same)
  | idle contract records => exact kept (by rw [records])

/-- An empty record has no buffer. -/
theorem level_of_unregistered (registry : Registry m)
    (unregistered : (m.rateLimitPerAddress a).lastBufferUsedTime = 0) :
    (m.individual a).level timestamp = 0 := by
  have le := (m.individual a).level_le_cap timestamp
  have empty : (m.individual a).cap = 0 := by
    rw [individual, registry a unregistered]
    rfl
  omega

/-- The getter of a buffer that fits. -/
theorem individualBuffer_of_fits (fits : Fits (m.rateLimitPerAddress a) timestamp) :
    m.individualBuffer timestamp a =
      .ok (BitVec.ofNat 112 ((m.individual a).level timestamp)) := by
  apply individualBuffer_eq_ok_iff.mpr
  rw [BitVec.toNat_ofNat, Nat.mod_eq_of_lt (level_lt _ _ a)]
  exact ⟨fits, rfl⟩

/-- A record written now fits. -/
theorem fits_of_touched {d : RateLimitData} (touched : d.lastBufferUsedTime.toNat = timestamp) :
    Fits d timestamp := by
  have narrow := d.bufferStored.isLt
  simp only [Fits, touched, Nat.sub_self, Nat.mul_zero, Nat.add_zero]
  omega

/-- New limits of an address raise its buffer by nothing at once. -/
theorem Updated.individualBuffer_le {newCap newRate : Nat}
    (limits : Updated m m' timestamp a newCap newRate) :
    ∃ before after, m.individualBuffer timestamp a = .ok before ∧
      m'.individualBuffer timestamp a = .ok after ∧ after ≤ before := by
  refine ⟨_, _, individualBuffer_of_fits limits.fits,
    individualBuffer_of_fits (fits_of_touched limits.touched), ?_⟩
  rw [BitVec.le_def, BitVec.toNat_ofNat, BitVec.toNat_ofNat, Nat.mod_eq_of_lt (level_lt _ _ a),
    Nat.mod_eq_of_lt (level_lt _ _ a), limits.relimited]
  exact TokenBucket.level_relimit_le

end MultiRateLimited

end FeiProtocol
