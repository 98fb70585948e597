import FeiProtocol.Evm.Execution

/-!
# `Timed`

A period of fixed duration from a start time. The duration is positive from the
constructor on, so it is a field of the timer that it is (`duration_ne`).

* `afterTime_eq_ok_iff`: the modifier passes once the timer has been
  started and a whole duration has gone by.
-/

namespace FeiProtocol

open Evm

inductive TimedEvent : Type where
  | DurationUpdate (oldDuration newDuration : Nat)
  | TimerReset (startTime : Nat)
  deriving DecidableEq, Repr

structure Timed : Type where
  startTime : Nat
  duration : Nat
  duration_ne : duration ≠ 0

namespace Timed

variable (t : Timed) (timestamp : Nat)

/-! ## The contract -/

def construct (_duration : Nat) : Except Revert (Timed × TimedEvent) :=
  if valid : _duration ≠ 0 then
    .ok (⟨0, _duration, valid⟩, .DurationUpdate 0 _duration)
  else .error (.reason "Timed: zero duration")

def isTimeStarted : Bool := t.startTime ≠ 0

def timeSinceStart : Except Revert Nat :=
  if isTimeStarted t then do
    let _duration := t.duration
    let timePassed ← checkedSub timestamp t.startTime
    return if timePassed > _duration then _duration else timePassed
  else return 0

def remainingTime : Except Revert Nat := do
  let elapsed ← timeSinceStart t timestamp
  checkedSub t.duration elapsed

def isTimeEnded : Except Revert Bool := do
  let remaining ← remainingTime t timestamp
  return remaining = 0

def afterTime : Except Revert Unit := do
  let ended ← isTimeEnded t timestamp
  require (ended = true) "Timed: time not ended"

def _initTimed : Timed × TimedEvent :=
  ({ t with startTime := timestamp }, .TimerReset timestamp)

/-! ## When time has ended -/

variable {t timestamp}

theorem isTimeStarted_iff : isTimeStarted t = true ↔ t.startTime ≠ 0 := by
  simp [isTimeStarted]

theorem timeSinceStart_eq_ok_iff {elapsed : Nat} :
    timeSinceStart t timestamp = .ok elapsed ↔
      t.startTime ≠ 0 ∧ t.startTime ≤ timestamp ∧
        min (timestamp - t.startTime) t.duration = elapsed ∨
      t.startTime = 0 ∧ elapsed = 0 := by
  by_cases started : t.startTime ≠ 0
  · have capped : ∀ passed, (if passed > t.duration then t.duration else passed) =
        min passed t.duration := by
      intro passed
      split <;> omega
    rw [timeSinceStart, if_pos (isTimeStarted_iff.mpr started)]
    simp only [bind_eq_ok_iff, checkedSub_eq_ok_iff, pure_eq_ok_iff, capped, and_assoc,
      exists_and_left, exists_eq_left', started, ne_eq, not_false_eq_true, true_and, false_and,
      or_false]
  · rw [timeSinceStart, if_neg fun h => started (isTimeStarted_iff.mp h), pure_eq_ok_iff]
    omega

/-- The remaining time never underflows. -/
theorem remainingTime_eq_ok_iff {remaining : Nat} :
    remainingTime t timestamp = .ok remaining ↔
      t.startTime ≠ 0 ∧ t.startTime ≤ timestamp ∧
        t.startTime + t.duration - timestamp = remaining ∨
      t.startTime = 0 ∧ t.duration = remaining := by
  simp only [remainingTime, bind_eq_ok_iff, checkedSub_eq_ok_iff, timeSinceStart_eq_ok_iff]
  constructor
  · intro given
    rcases given with ⟨elapsed, when, le, same⟩
    rcases when with ⟨started, past, capped⟩ | ⟨unset, none⟩
    · exact .inl ⟨started, past, by omega⟩
    · exact .inr ⟨unset, by omega⟩
  · intro h
    rcases h with ⟨started, past, left⟩ | ⟨unset, whole⟩
    · exact ⟨_, .inl ⟨started, past, rfl⟩, Nat.min_le_right _ _, by omega⟩
    · exact ⟨0, .inr ⟨unset, rfl⟩, Nat.zero_le _, whole⟩

theorem isTimeEnded_eq_ok_true_iff :
    isTimeEnded t timestamp = .ok true ↔
      t.startTime ≠ 0 ∧ t.startTime + t.duration ≤ timestamp := by
  have positive := t.duration_ne
  simp only [isTimeEnded, bind_eq_ok_iff, pure_eq_ok_iff, remainingTime_eq_ok_iff,
    decide_eq_true_eq]
  constructor
  · intro given
    rcases given with ⟨remaining, when, zero⟩
    omega
  · intro given
    rcases given with ⟨started, past⟩
    exact ⟨0, .inl ⟨started, by omega, by omega⟩, rfl⟩

/-- **Expiry.** The timer has been started, and a whole duration ago. -/
theorem afterTime_eq_ok_iff {u : Unit} : afterTime t timestamp = .ok u ↔
    t.startTime ≠ 0 ∧ t.startTime + t.duration ≤ timestamp := by
  simp only [afterTime, bind_eq_ok_iff, require_eq_ok_iff, exists_eq_right,
    isTimeEnded_eq_ok_true_iff]

end Timed

end FeiProtocol
