import FeiProtocol.Timelocks.TimelockBooks

/-!
# When a timelock can be clawed back

The start time of a timelock may lie in the future, where the subtraction of `timeSinceStart`
underflows. Until then no timer function answers and no clawback is possible.

* `Timed.answers_iff`: the timer keeps its promises exactly from its start time on.
* `clawback_possible_iff`: the exact condition for a clawback, in every state that deposits and
  releases can reach.
-/

namespace FeiProtocol

open Evm TokenTimelock

namespace Timed

/-- The time since the start is in `[0, duration]`, only grows, and adds up to the duration
with the remaining time. -/
structure Answers (t : Timed) (now : Nat) : Prop where
  adds : ∃ elapsed remaining, t.timeSinceStart now = .ok elapsed ∧
    t.remainingTime now = .ok remaining ∧ elapsed ≤ t.duration ∧
    elapsed + remaining = t.duration ∧
    ∀ later, now ≤ later → ∃ elapsed', t.timeSinceStart later = .ok elapsed' ∧ elapsed ≤ elapsed'

theorem answers_iff {t : Timed} {now : Nat} : t.Answers now ↔ t.startTime ≤ now := by
  constructor
  · intro given
    rcases given with ⟨elapsed, remaining, since, -⟩
    rcases timeSinceStart_eq_ok_iff.mp since with ⟨_, past, _⟩ | ⟨unset, _⟩
    · exact past
    · omega
  · intro past
    by_cases unset : t.startTime = 0
    · refine ⟨0, t.duration, timeSinceStart_eq_ok_iff.mpr (.inr ⟨unset, rfl⟩),
        remainingTime_eq_ok_iff.mpr (.inr ⟨unset, rfl⟩), Nat.zero_le _, Nat.zero_add _, ?_⟩
      intro later _
      exact ⟨0, timeSinceStart_eq_ok_iff.mpr (.inr ⟨unset, rfl⟩), Nat.le_refl _⟩
    · refine ⟨min (now - t.startTime) t.duration, t.startTime + t.duration - now,
        timeSinceStart_eq_ok_iff.mpr (.inl ⟨unset, past, rfl⟩),
        remainingTime_eq_ok_iff.mpr (.inl ⟨unset, past, rfl⟩), Nat.min_le_right _ _, by omega, ?_⟩
      intro later after
      exact ⟨_, timeSinceStart_eq_ok_iff.mpr (.inl ⟨unset, Nat.le_trans past after, rfl⟩),
        by omega⟩

end Timed

namespace TokenTimelock

variable {this : Address} {schedule : Nat → Nat → Nat → Nat} {fits : Nat → Nat → Prop}
  {o : Overrides} {s : TokenTimelockState}

/-- A timer that answers, and a clawback that pays out. -/
structure Revocable (this : Address) (o : Overrides) (s : TokenTimelockState) : Prop where
  timer : s.timed.Answers s.timestamp
  clawback : ∃ s', clawback this o s s.clawbackAdmin = .ok s' ∧ ClawedBack this o s s'

theorem revocable_iff (computes : Computes o this 0 schedule fits)
    (books : Books this 0 schedule s) : Revocable this o s ↔
      s.timed.startTime ≤ s.timestamp ∧ noted this 0 s < 2 ^ 256 ∧
        (s.cliffSeconds ≤ elapsed s → fits (noted this 0 s) (elapsed s)) := by
  constructor
  · intro given
    rcases given with ⟨timer, paid⟩
    obtain ⟨fit, started, fitting⟩ := (clawback_iff computes books).mp paid
    exact ⟨started, fit, fitting⟩
  · intro given
    rcases given with ⟨started, fit, fitting⟩
    exact ⟨Timed.answers_iff.mpr started, (clawback_iff computes books).mpr ⟨fit, started, fitting⟩⟩

end TokenTimelock

/-- **Clawbacks.** In every state of every run of deposits and releases, from any deployment
of the two timelocks, the timer answers and a clawback by the admin pays out exactly if the
start time is not in the future, what was received fits a word, and so does its product with
the time elapsed, which is computed once the cliff has passed. -/
theorem clawback_possible_iff {this : Address} {ledger : Ledger} (none : ledger.Unapproved this)
    (timestamp : Nat) (_beneficiary _lockedToken _clawbackAdmin : Address)
    (_duration _cliffDuration _startTime : UInt256) :
    (∀ s₀, LinearTokenTimelock.construct ledger timestamp _beneficiary _duration _lockedToken
        _cliffDuration _clawbackAdmin _startTime = .ok s₀ →
      ∀ actions, (∀ a ∈ actions, a.Regular (· = this)) →
      ∀ s, s = run (step this (LinearTokenTimelock.overrides this)) s₀ actions →
        (Revocable this (LinearTokenTimelock.overrides this) s ↔
          s.timed.startTime ≤ s.timestamp ∧ noted this 0 s < 2 ^ 256 ∧
            (s.cliffSeconds ≤ elapsed s →
              LinearTokenTimelock.fits (noted this 0 s) (elapsed s)))) ∧
    (∀ s₀, QuadraticTokenTimelock.construct ledger timestamp _beneficiary _duration _lockedToken
        _cliffDuration _clawbackAdmin _startTime = .ok s₀ →
      ∀ actions, (∀ a ∈ actions, a.Regular (· = this)) →
      ∀ s, s = run (step this (QuadraticTokenTimelock.overrides this)) s₀ actions →
        (Revocable this (QuadraticTokenTimelock.overrides this) s ↔
          s.timed.startTime ≤ s.timestamp ∧ noted this 0 s < 2 ^ 256 ∧
            (s.cliffSeconds ≤ elapsed s →
              QuadraticTokenTimelock.fits (noted this 0 s) (elapsed s)))) := by
  constructor
  · intro s₀ deploys actions regular s reached
    simp only [LinearTokenTimelock.construct, bind_eq_ok_iff, pure_eq_ok_iff] at deploys
    obtain ⟨t, built, same⟩ := deploys
    subst same
    subst reached
    exact revocable_iff (LinearTokenTimelock.computes this)
      (books_run (LinearTokenTimelock.computes this) (books_of_construct built none _) regular)
  · intro s₀ deploys actions regular s reached
    simp only [QuadraticTokenTimelock.construct, bind_eq_ok_iff, pure_eq_ok_iff] at deploys
    obtain ⟨t, built, same⟩ := deploys
    subst same
    subst reached
    exact revocable_iff (QuadraticTokenTimelock.computes this)
      (books_run (QuadraticTokenTimelock.computes this) (books_of_construct built none _) regular)

namespace Timelocks.Sample

theorem lasting : (100 : Nat) ≠ 0 := by decide

/-- A timelock over token 20 that starts 1000 seconds after its deployment. -/
def future : TokenTimelockState where
  timed := ⟨2000, 100, lasting⟩
  lockedToken := 20
  beneficiary := 7
  pendingBeneficiary := 0
  initialBalance := 0
  lastBalance := 0
  cliffSeconds := 10
  clawbackAdmin := 3
  ledger := ledger
  timestamp := 1000
  events := []

def deposit (seconds : Nat) : List TokenTimelock.Action :=
  [.token 9 (.transfer 20 0xAA 400), .elapse seconds]

theorem deposit_regular (seconds : Nat) :
    ∀ a ∈ deposit seconds, a.Regular (· = (0xAA : Address)) := by
  simp [deposit, TokenTimelock.Action.Regular]

end Timelocks.Sample

open Timelocks in
/-- A clawback before the start underflows. -/
theorem clawback_possible_counterexample :
    LinearTokenTimelock.construct Sample.ledger 1000 7 100 20 10 3 2000 = .ok Sample.future ∧
    (∀ a ∈ Sample.deposit 500, a.Regular (· = (0xAA : Address))) ∧
    (run (step 0xAA (LinearTokenTimelock.overrides 0xAA)) Sample.future
      (Sample.deposit 500)).timed.timeSinceStart 1500 = .error (.panic 0x11) ∧
    ∃ e, step 0xAA (LinearTokenTimelock.overrides 0xAA)
      (run (step 0xAA (LinearTokenTimelock.overrides 0xAA)) Sample.future (Sample.deposit 500))
      (.clawback 3) = .error e :=
  ⟨rfl, Sample.deposit_regular 500, rfl, _, rfl⟩

open Timelocks in
/-- The same timelock after its start. -/
theorem clawback_possible_iff_sample :
    Revocable 0xAA (LinearTokenTimelock.overrides 0xAA)
      (run (step 0xAA (LinearTokenTimelock.overrides 0xAA)) Sample.future
        (Sample.deposit 1050)) := by
  obtain ⟨linear, -⟩ := clawback_possible_iff (Sample.unapproved 0xAA) 1000 7 20 3 100 10 2000
  apply (linear Sample.future rfl (Sample.deposit 1050) (Sample.deposit_regular 1050) _ rfl).mpr
  decide +kernel

end FeiProtocol
