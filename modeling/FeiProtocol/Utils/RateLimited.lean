import FeiProtocol.Evm.Execution
import FeiProtocol.Math.TokenBucket
import FeiProtocol.Refs.CoreRef

/-!
# `RateLimited`

A buffer that limits how fast a contract can act. It is a token bucket, stored lazily
(`bucket`):

* `buffer_eq_ok_iff`: the getter is the level of the bucket.
* `depleted_of_depleteBuffer`, `replenished_of_replenishBuffer`: the two actions are flows of it.
* `Relimited.buffer_le`: new limits raise nothing at once.
-/

namespace FeiProtocol

open Evm

structure RateLimited : Type where
  MAX_RATE_LIMIT_PER_SECOND : Nat
  rateLimitPerSecond : Nat
  lastBufferUsedTime : Nat
  bufferCap : Nat
  doPartialAction : Bool
  bufferStored : Nat
  deriving DecidableEq, Repr

namespace RateLimited

open CoreRef

variable (core : Core) (access : AccessControl) (r : RateLimited) (timestamp : Nat)

/-! ## The contract -/

def buffer : Except Revert Nat := do
  let elapsed ← checkedSub timestamp r.lastBufferUsedTime
  let replenished ← checkedMul r.rateLimitPerSecond elapsed
  let uncapped ← checkedAdd r.bufferStored replenished
  return min uncapped r.bufferCap

def _depleteBuffer (amount : Nat) : Except Revert (RateLimited × Nat) := do
  let newBuffer ← r.buffer timestamp
  let usedAmount := if r.doPartialAction ∧ amount > newBuffer then newBuffer else amount
  require (newBuffer ≠ 0) "RateLimited: no rate limit buffer"
  require (usedAmount ≤ newBuffer) "RateLimited: rate limit hit"
  let bufferStored ← checkedSub newBuffer usedAmount
  return ({ r with bufferStored, lastBufferUsedTime := timestamp }, usedAmount)

def _replenishBuffer (amount : Nat) : Except Revert RateLimited := do
  let newBuffer ← r.buffer timestamp
  let _bufferCap := r.bufferCap
  if newBuffer = _bufferCap then return r
  else
    let uncapped ← checkedAdd newBuffer amount
    return { r with lastBufferUsedTime := timestamp, bufferStored := min uncapped _bufferCap }

def _updateBufferStored : Except Revert RateLimited := do
  let bufferStored ← r.buffer timestamp
  return { r with bufferStored, lastBufferUsedTime := timestamp }

def _setRateLimitPerSecond (newRateLimitPerSecond : Nat) : RateLimited :=
  { r with rateLimitPerSecond := newRateLimitPerSecond }

def _setBufferCap (newBufferCap : Nat) : Except Revert RateLimited := do
  let r ← r._updateBufferStored timestamp
  return { r with bufferCap := newBufferCap }

def construct (_maxRateLimitPerSecond _rateLimitPerSecond _bufferCap : UInt256)
    (_doPartialAction : Bool) : Except Revert RateLimited := do
  let r ← _setBufferCap ⟨0, 0, timestamp, 0, false, 0⟩ timestamp _bufferCap.toNat
  let r := { r with bufferStored := _bufferCap.toNat }
  require (_rateLimitPerSecond ≤ _maxRateLimitPerSecond) "RateLimited: rateLimitPerSecond too high"
  let r := r._setRateLimitPerSecond _rateLimitPerSecond.toNat
  return { r with
    MAX_RATE_LIMIT_PER_SECOND := _maxRateLimitPerSecond.toNat
    doPartialAction := _doPartialAction }

def setRateLimitPerSecond (CONTRACT_ADMIN_ROLE : Bytes32) (msgSender : Address)
    (newRateLimitPerSecond : UInt256) : Except Revert RateLimited := do
  onlyGovernorOrAdmin core access CONTRACT_ADMIN_ROLE msgSender
  require (newRateLimitPerSecond.toNat ≤ r.MAX_RATE_LIMIT_PER_SECOND)
    "RateLimited: rateLimitPerSecond too high"
  let r ← r._updateBufferStored timestamp
  return r._setRateLimitPerSecond newRateLimitPerSecond.toNat

def setBufferCap (CONTRACT_ADMIN_ROLE : Bytes32) (msgSender : Address)
    (newBufferCap : UInt256) : Except Revert RateLimited := do
  onlyGovernorOrAdmin core access CONTRACT_ADMIN_ROLE msgSender
  r._setBufferCap timestamp newBufferCap.toNat

/-! ## The bucket -/

def bucket : TokenBucket where
  cap := r.bufferCap
  rate := r.rateLimitPerSecond
  stored := r.bufferStored
  lastUsed := r.lastBufferUsedTime

variable {core access r timestamp} {r' : RateLimited} {amount used limit : Nat}

/-- The computation of the buffer fits a word. -/
def Fits (r : RateLimited) (timestamp : Nat) : Prop :=
  r.lastBufferUsedTime ≤ timestamp ∧
    r.rateLimitPerSecond * (timestamp - r.lastBufferUsedTime) < 2 ^ 256 ∧
    r.bufferStored + r.rateLimitPerSecond * (timestamp - r.lastBufferUsedTime) < 2 ^ 256

/-- The getter is the level of the bucket. -/
theorem buffer_eq_ok_iff : r.buffer timestamp = .ok amount ↔
    r.Fits timestamp ∧ r.bucket.level timestamp = amount := by
  simp only [buffer, bind_eq_ok_iff, pure_eq_ok_iff, checkedSub_eq_ok_iff, checkedMul_eq_ok_iff,
    checkedAdd_eq_ok_iff, and_assoc, exists_and_left, exists_eq_left', Fits, bucket,
    TokenBucket.level]

theorem buffer_le_cap (gets : r.buffer timestamp = .ok amount) : amount ≤ r.bufferCap := by
  obtain ⟨_, level⟩ := buffer_eq_ok_iff.mp gets
  rw [← level]
  exact r.bucket.level_le_cap timestamp

/-- A depletion draws what is used, which is all that is asked for or all that there is. -/
structure Depleted (r r' : RateLimited) (timestamp amount used : Nat) : Prop where
  bucket : r'.bucket = r.bucket.draw timestamp used
  covered : used ≤ r.bucket.level timestamp
  whole : r.doPartialAction = false → used = amount
  doPartialAction : r'.doPartialAction = r.doPartialAction
  max : r'.MAX_RATE_LIMIT_PER_SECOND = r.MAX_RATE_LIMIT_PER_SECOND

theorem depleted_of_depleteBuffer
    (succeeds : r._depleteBuffer timestamp amount = .ok (r', used)) :
    Depleted r r' timestamp amount used := by
  simp only [_depleteBuffer, bind_eq_ok_iff, pure_eq_ok_iff, require_eq_ok_iff, exists_const,
    checkedSub_eq_ok_iff, buffer_eq_ok_iff] at succeeds
  obtain ⟨newBuffer, ⟨_, level⟩, _, covered, rest, ⟨_, left⟩, same⟩ := succeeds
  subst level
  subst left
  cases same
  refine ⟨rfl, covered, ?_, rfl, rfl⟩
  intro whole
  simp only [whole, Bool.false_eq_true, false_and, if_false]

/-- Where nothing less than the amount is used, what the buffer covers can be drawn. -/
theorem depleteBuffer_of_covered {newBuffer : Nat} (whole : r.doPartialAction = false)
    (gets : r.buffer timestamp = .ok newBuffer) (positive : newBuffer ≠ 0)
    (covered : amount ≤ newBuffer) :
    r._depleteBuffer timestamp amount =
      .ok ({ r with bufferStored := newBuffer - amount, lastBufferUsedTime := timestamp },
        amount) := by
  simp only [_depleteBuffer, bind_eq_ok_iff, pure_eq_ok_iff, require_eq_ok_iff, exists_const,
    checkedSub_eq_ok_iff, whole, Bool.false_eq_true, false_and, if_false]
  exact ⟨newBuffer, gets, positive, covered, _, ⟨covered, rfl⟩, rfl⟩

/-- A depletion flows out what it uses. -/
theorem Depleted.flow (depleted : Depleted r r' timestamp amount used) :
    TokenBucket.Flow r.bucket r'.bucket timestamp timestamp used 0 := by
  rw [depleted.bucket]
  exact .draw depleted.covered

/-- A replenishment pours in the amount, or finds the bucket full. -/
structure Replenished (r r' : RateLimited) (timestamp amount : Nat) : Prop where
  bucket : r'.bucket = r.bucket.pour timestamp amount ∨
    r' = r ∧ r.bucket.level timestamp = r.bucket.cap
  doPartialAction : r'.doPartialAction = r.doPartialAction
  max : r'.MAX_RATE_LIMIT_PER_SECOND = r.MAX_RATE_LIMIT_PER_SECOND

theorem replenished_of_replenishBuffer
    (succeeds : r._replenishBuffer timestamp amount = .ok r') :
    Replenished r r' timestamp amount := by
  simp only [_replenishBuffer, bind_eq_ok_iff, buffer_eq_ok_iff] at succeeds
  obtain ⟨newBuffer, ⟨_, level⟩, succeeds⟩ := succeeds
  subst level
  split at succeeds
  · rename_i full
    cases succeeds
    exact ⟨.inr ⟨rfl, full⟩, rfl, rfl⟩
  · simp only [bind_eq_ok_iff, pure_eq_ok_iff, checkedAdd_eq_ok_iff] at succeeds
    obtain ⟨uncapped, ⟨_, sum⟩, same⟩ := succeeds
    subst sum
    subst same
    exact ⟨.inl rfl, rfl, rfl⟩

/-- A replenishment flows in no more than the amount. -/
theorem Replenished.flow (replenished : Replenished r r' timestamp amount) :
    TokenBucket.Flow r.bucket r'.bucket timestamp timestamp 0 amount := by
  rcases replenished.bucket with poured | ⟨same, _⟩
  · rw [poured]
    exact .pour _ _ _
  · rw [same]
    exact ⟨rfl, rfl, Nat.le_refl _, by omega⟩

/-! ## New limits -/

theorem _updateBufferStored_eq_ok_iff : r._updateBufferStored timestamp = .ok r' ↔
    r.Fits timestamp ∧
      { r with
        bufferStored := r.bucket.level timestamp
        lastBufferUsedTime := timestamp } = r' := by
  simp only [_updateBufferStored, bind_eq_ok_iff, pure_eq_ok_iff, buffer_eq_ok_iff, and_assoc,
    exists_and_left, exists_eq_left']

/-- What a change of limits does. -/
structure Relimited (r r' : RateLimited) (timestamp cap rate : Nat) : Prop where
  fits : r.Fits timestamp
  bucket : r'.bucket = r.bucket.relimit timestamp cap rate
  doPartialAction : r'.doPartialAction = r.doPartialAction
  max : r'.MAX_RATE_LIMIT_PER_SECOND = r.MAX_RATE_LIMIT_PER_SECOND

theorem relimited_of_setBufferCap (succeeds : r._setBufferCap timestamp limit = .ok r') :
    Relimited r r' timestamp limit r.rateLimitPerSecond := by
  simp only [_setBufferCap, bind_eq_ok_iff, pure_eq_ok_iff, _updateBufferStored_eq_ok_iff]
    at succeeds
  obtain ⟨m, ⟨fits, stored⟩, same⟩ := succeeds
  subst stored
  subst same
  exact ⟨fits, rfl, rfl, rfl⟩

theorem setBufferCap_relimited {role : Bytes32} {sender : Address} {newBufferCap : UInt256}
    (succeeds : r.setBufferCap core access timestamp role sender newBufferCap = .ok r') :
    Relimited r r' timestamp newBufferCap.toNat r.rateLimitPerSecond := by
  simp only [setBufferCap, bind_eq_ok_iff] at succeeds
  obtain ⟨_, _, succeeds⟩ := succeeds
  exact relimited_of_setBufferCap succeeds

theorem setRateLimitPerSecond_relimited {role : Bytes32} {sender : Address}
    {newRateLimitPerSecond : UInt256}
    (succeeds : r.setRateLimitPerSecond core access timestamp role sender newRateLimitPerSecond =
      .ok r') :
    Relimited r r' timestamp r.bufferCap newRateLimitPerSecond.toNat := by
  simp only [setRateLimitPerSecond, bind_eq_ok_iff, pure_eq_ok_iff,
    _updateBufferStored_eq_ok_iff] at succeeds
  obtain ⟨_, _, _, _, m, ⟨fits, stored⟩, same⟩ := succeeds
  subst stored
  subst same
  exact ⟨fits, rfl, rfl, rfl⟩

/-- New limits raise the buffer by nothing at once. -/
theorem Relimited.buffer_le {cap rate : Nat} (relimited : Relimited r r' timestamp cap rate) :
    ∃ before after, r.buffer timestamp = .ok before ∧ r'.buffer timestamp = .ok after ∧
      after ≤ before := by
  have fits' : r'.Fits timestamp := by
    have last : r'.lastBufferUsedTime = timestamp :=
      congrArg TokenBucket.lastUsed relimited.bucket
    have stored : r'.bufferStored = r.bucket.level timestamp :=
      congrArg TokenBucket.stored relimited.bucket
    have le : r.bucket.level timestamp ≤ r.bufferStored +
      r.rateLimitPerSecond * (timestamp - r.lastBufferUsedTime) := Nat.min_le_left _ _
    have fits := relimited.fits.2.2
    simp only [Fits, last, stored, Nat.sub_self, Nat.mul_zero, Nat.add_zero]
    omega
  refine ⟨_, _, buffer_eq_ok_iff.mpr ⟨relimited.fits, rfl⟩, buffer_eq_ok_iff.mpr ⟨fits', rfl⟩, ?_⟩
  rw [relimited.bucket]
  exact TokenBucket.level_relimit_le

/-- Limits that are set to what they were leave the bucket as it was. -/
theorem Relimited.flow {cap rate : Nat} (relimited : Relimited r r' timestamp cap rate)
    (sameCap : cap = r.bufferCap) (sameRate : rate = r.rateLimitPerSecond) :
    TokenBucket.Flow r.bucket r'.bucket timestamp timestamp 0 0 := by
  rw [relimited.bucket, sameCap, sameRate]
  exact .relimit _ _

end RateLimited

end FeiProtocol
