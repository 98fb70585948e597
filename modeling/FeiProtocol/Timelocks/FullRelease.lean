import FeiProtocol.Timelocks.DelegationAccounting
import FeiProtocol.Timelocks.Clawback

/-!
# What is left in a timelock after its end

At the end the schedule is due in full, so `releaseMax` pays out the whole balance, unless the
cliff is later than the end: the elapsed time stops at the duration and never reaches it.

* `releaseMax_end_iff`: when `releaseMax` pays everything.
* `nothing_locked_iff`: the same for the four timelocks, along every run.
-/

namespace FeiProtocol

open Evm TokenTimelock

namespace TokenTimelock

variable {this : Address} {delegated : Nat} {schedule : Nat → Nat → Nat → Nat}
  {fits : Nat → Nat → Prop} {o : Overrides} {s s' : TokenTimelockState} {receiver : Address}

/-- The end of the vesting period, with nothing kept elsewhere. -/
structure Ended (delegated : Nat) (s : TokenTimelockState) : Prop where
  past : s.timed.startTime + s.timed.duration ≤ s.timestamp
  nothing : delegated = 0

/-- `releaseMax` by the beneficiary pays out the whole balance. -/
def EmptiesTo (this : Address) (o : Overrides) (s : TokenTimelockState) (receiver : Address) :
    Prop :=
  ∃ s', step this o s (.releaseMax s.beneficiary receiver) = .ok s' ∧
    s.ledger.safeTransfer this s.lockedToken receiver (heldToken this s) = .ok s'.ledger

/-- The cliff can be reached, and the total received and its proportion can be computed. -/
structure Unlockable (this : Address) (fits : Nat → Nat → Prop) (s : TokenTimelockState) :
    Prop where
  cliff : s.cliffSeconds ≤ s.timed.duration
  received : noted this 0 s < 2 ^ 256
  proportion : fits (noted this 0 s) s.timed.duration

theorem available_end (computes : Computes o this 0 schedule fits)
    (books : Books this 0 schedule s) (whole : elapsed s = s.timed.duration) :
    available this 0 schedule s = heldToken this s := by
  have last := books.last_le
  have initial := books.last_le_initial
  rw [available, whole, computes.complete.full s.timed.duration_ne]
  simp only [noted]
  omega

theorem releaseMax_end_iff (computes : Computes o this delegated schedule fits)
    (books : Books this delegated schedule s) (set : s.timed.startTime ≠ 0)
    (ended : Ended delegated s) : EmptiesTo this o s receiver ↔ Unlockable this fits s := by
  have nothing := ended.nothing
  subst nothing
  have past := ended.past
  have whole : elapsed s = s.timed.duration := by
    rw [elapsed, if_neg set]
    omega
  have all := available_end computes books whole
  constructor
  · intro given
    rcases given with ⟨s', succeeds, _⟩
    obtain ⟨_, fit, _, cliff, fitting, _⟩ := (releaseMax_iff computes books).mp succeeds
    rw [whole] at cliff fitting
    exact ⟨cliff, fit, fitting⟩
  · intro unlockable
    obtain ⟨s', pays⟩ : ∃ s', Pays this 0 s s' receiver (heldToken this s) :=
      exists_pays (Nat.le_refl _) receiver
    refine ⟨s', (releaseMax_iff computes books).mpr ?_, pays.paid⟩
    rw [whole, all]
    exact ⟨rfl, unlockable.received, by omega, unlockable.cliff, unlockable.proportion, pays⟩

/-- What the constructor fixed stays fixed. -/
theorem terms_run (computes : Computes o this 0 schedule fits) (books : Books this 0 schedule s)
    {actions : List Action} (regular : ∀ a ∈ actions, a.Regular (· = this)) :
    SameTerms s (run (step this o) s actions) := by
  have all := @run_invariant _ _ _ (step this o)
    (fun t => Books this 0 schedule t ∧ SameTerms s t)
    (fun a => a.Regular (· = this)) ?_ _ ⟨books, .refl s⟩ _ regular
  · exact all.2
  · intro t a t' ⟨books, terms⟩ regular succeeds
    have effect : Effect this (· = this) 0 schedule t t' :=
      effect_of_step computes books rfl regular succeeds
    exact ⟨effect.books rfl computes.complete books, terms.trans effect.terms⟩

/-- A timelock that holds its own tokens, after its end. -/
theorem empties_run {ledger : Ledger} {timestamp : Nat}
    {_beneficiary _lockedToken _clawbackAdmin : Address}
    {_duration _cliffSeconds _startTime : UInt256} (computes : Computes o this 0 schedule fits)
    (deploys : construct ledger timestamp _beneficiary _duration _cliffSeconds _lockedToken
      _clawbackAdmin = .ok s) (none : ledger.Unapproved this) (positive : 0 < timestamp)
    {actions : List Action} (regular : ∀ a ∈ actions, a.Regular (· = this))
    (reached : s' = run (step this o) (startAt s _startTime) actions) (ended : Ended 0 s') :
    EmptiesTo this o s' receiver ↔ Unlockable this fits s' := by
  have books : Books this 0 schedule (startAt s _startTime) :=
    books_of_construct deploys none _startTime
  have terms := terms_run computes books regular
  have later := books_run computes books regular
  rw [← reached] at terms later
  apply releaseMax_end_iff computes later _ ended
  rw [terms.timed]
  exact startTime_ne_of_construct deploys positive _startTime

end TokenTimelock

namespace Delegator

variable {this : Address} {create : Nat → Address} {schedule : Nat → Nat → Nat → Nat}
  {fits : Nat → Nat → Prop} {o : Nat → Overrides} {s s' : TimelockedDelegatorState}
  {receiver : Address}

/-- Moving tokens to delegates and back changes no terms either. -/
theorem terms_of_step {a : Action} (computes : Computes o this schedule fits)
    (kept : Kept this create schedule s) (regular : a.Regular this create)
    (succeeds : step this create o s a = .ok s') :
    SameTerms s.toTokenTimelockState s'.toTokenTimelockState := by
  cases a with
  | timelock a =>
      obtain ⟨t, called, same⟩ := bind_eq_ok_iff.mp succeeds
      cases same
      have effect : Effect this (Own this create) s.totalDelegated schedule s.toTokenTimelockState
          t := effect_of_step (computes s.totalDelegated) kept.books (.inl rfl) regular called
      exact effect.terms
  | delegate sender delegatee amount =>
      obtain ⟨m, total, cleared, done⟩ := delegated_of_delegate succeeds
      rw [done.timelock]
      rcases cleared with ⟨same, _⟩ | returned
      · subst same
        exact ⟨rfl, rfl, rfl, rfl⟩
      · rw [returned.timelock]
        exact ⟨rfl, rfl, rfl, rfl⟩
  | undelegate sender delegatee =>
      obtain ⟨⟨m, amount⟩, called, same⟩ := map_eq_ok_iff.mp succeeds
      subst same
      rw [(undelegated_of_undelegate called).timelock]
      exact ⟨rfl, rfl, rfl, rfl⟩

theorem terms_run (computes : Computes o this schedule fits) (fresh : Fresh this create)
    (nonzero : ∀ n, create n ≠ 0) (kept : Kept this create schedule s) {actions : List Action}
    (regular : ∀ a ∈ actions, a.Regular this create) :
    SameTerms s.toTokenTimelockState (run (step this create o) s actions).toTokenTimelockState := by
  have all := @run_invariant _ _ _ (step this create o)
    (fun t => Kept this create schedule t ∧
      SameTerms s.toTokenTimelockState t.toTokenTimelockState)
    (fun a => a.Regular this create) ?_ _ ⟨kept, .refl _⟩ _ regular
  · exact all.2
  · intro t a t' ⟨kept, terms⟩ regular succeeds
    exact ⟨(kept_of_step computes fresh nonzero kept regular succeeds).1,
      terms.trans (terms_of_step computes kept regular succeeds)⟩

/-- `releaseMax` by the beneficiary pays out the whole balance. -/
def EmptiesTo (this : Address) (create : Nat → Address) (o : Nat → Overrides)
    (s : TimelockedDelegatorState) (receiver : Address) : Prop :=
  ∃ s', step this create o s (.timelock (.releaseMax s.beneficiary receiver)) = .ok s' ∧
    s.ledger.safeTransfer this s.lockedToken receiver (heldToken this s.toTokenTimelockState) =
      .ok s'.ledger

theorem emptiesTo_iff : EmptiesTo this create o s receiver ↔
    TokenTimelock.EmptiesTo this (o s.totalDelegated) s.toTokenTimelockState receiver := by
  constructor
  · intro given
    rcases given with ⟨s', succeeds, paid⟩
    obtain ⟨t, called, same⟩ := bind_eq_ok_iff.mp succeeds
    cases same
    exact ⟨t, called, paid⟩
  · intro given
    rcases given with ⟨t, called, paid⟩
    exact ⟨{ s with toTokenTimelockState := t }, bind_eq_ok_iff.mpr ⟨t, called, rfl⟩, paid⟩

/-- A timelock that delegates, after its end. -/
theorem empties_run {ledger : Ledger} {timestamp : Nat}
    {_beneficiary _lockedToken _clawbackAdmin : Address}
    {_duration _cliffSeconds _startTime : UInt256} {t : TokenTimelockState}
    (computes : Computes o this schedule fits) (fresh : Fresh this create)
    (nonzero : ∀ n, create n ≠ 0) (noneElsewhere : ∀ n, ledger.Unapproved (create n))
    (uncalled : ∀ n, ledger.calledBy (create n) = [])
    (deploys : TokenTimelock.construct ledger timestamp _beneficiary _duration _cliffSeconds
      _lockedToken _clawbackAdmin = .ok t)
    (none : ledger.Unapproved this) (positive : 0 < timestamp) {actions : List Action}
    (regular : ∀ a ∈ actions, a.Regular this create)
    (reached : s' = run (step this create o) (ofTimelock _lockedToken (startAt t _startTime))
      actions) (ended : Ended s'.totalDelegated s'.toTokenTimelockState) :
    EmptiesTo this create o s' receiver ↔ Unlockable this fits s'.toTokenTimelockState := by
  have token : (startAt t _startTime).lockedToken = _lockedToken :=
    lockedToken_of_construct deploys _startTime
  have start : Kept this create schedule (ofTimelock _lockedToken (startAt t _startTime)) := by
    rw [← token]
    exact kept_ofTimelock (books_of_construct deploys none _startTime)
      (ledger_of_construct deploys _startTime) noneElsewhere uncalled
  have terms := terms_run computes fresh nonzero start regular
  have kept := kept_run computes fresh nonzero start regular
  rw [← reached] at terms kept
  rw [emptiesTo_iff]
  apply releaseMax_end_iff (computes _) kept.books _ ended
  rw [terms.timed]
  exact startTime_ne_of_construct deploys positive _startTime

end Delegator

/-- **Nothing stays locked.** In every state of every run without a clawback, from any
deployment of the four timelocks, in a block after genesis: after the end, with nothing
delegated, `releaseMax` pays out the whole balance exactly if the cliff is not later than the
end and the arithmetic of the proportion fits a word. -/
theorem nothing_locked_iff {this : Address} {ledger : Ledger} {create : Nat → Address}
    (none : ledger.Unapproved this) (fresh : Delegator.Fresh this create)
    (nonzero : ∀ n, create n ≠ 0) (noneElsewhere : ∀ n, ledger.Unapproved (create n))
    (uncalled : ∀ n, ledger.calledBy (create n) = []) {timestamp : Nat}
    (positive : 0 < timestamp) (_beneficiary _lockedToken _clawbackAdmin receiver : Address)
    (_duration _cliffDuration _startTime : UInt256) :
    (∀ s₀, LinearTokenTimelock.construct ledger timestamp _beneficiary _duration _lockedToken
        _cliffDuration _clawbackAdmin _startTime = .ok s₀ →
      ∀ actions, (∀ a ∈ actions, a.Regular (· = this)) →
      ∀ s, s = run (step this (LinearTokenTimelock.overrides this)) s₀ actions → Ended 0 s →
        (EmptiesTo this (LinearTokenTimelock.overrides this) s receiver ↔
          Unlockable this LinearTokenTimelock.fits s)) ∧
    (∀ s₀, QuadraticTokenTimelock.construct ledger timestamp _beneficiary _duration _lockedToken
        _cliffDuration _clawbackAdmin _startTime = .ok s₀ →
      ∀ actions, (∀ a ∈ actions, a.Regular (· = this)) →
      ∀ s, s = run (step this (QuadraticTokenTimelock.overrides this)) s₀ actions → Ended 0 s →
        (EmptiesTo this (QuadraticTokenTimelock.overrides this) s receiver ↔
          Unlockable this QuadraticTokenTimelock.fits s)) ∧
    (∀ s₀, TimelockedDelegator.construct ledger timestamp _lockedToken _beneficiary _duration =
        .ok s₀ →
      ∀ actions, (∀ a ∈ actions, a.Regular this create) →
      ∀ s, s = run (Delegator.step this create (TimelockedDelegator.overrides this)) s₀ actions →
      Ended s.totalDelegated s.toTokenTimelockState →
        (Delegator.EmptiesTo this create (TimelockedDelegator.overrides this) s receiver ↔
          Unlockable this LinearTokenTimelock.fits s.toTokenTimelockState)) ∧
    (∀ s₀, QuadtraticTimelockedSubdelegator.construct ledger timestamp _beneficiary _duration
        _lockedToken _cliffDuration _startTime = .ok s₀ →
      ∀ actions, (∀ a ∈ actions, a.Regular this create) →
      ∀ s, s = run (Delegator.step this create (QuadtraticTimelockedSubdelegator.overrides this))
        s₀ actions →
      Ended s.totalDelegated s.toTokenTimelockState →
        (Delegator.EmptiesTo this create (QuadtraticTimelockedSubdelegator.overrides this) s
          receiver ↔ Unlockable this QuadraticTokenTimelock.fits s.toTokenTimelockState)) := by
  refine ⟨?_, ?_, ?_, ?_⟩
  · intro s₀ deploys actions regular s reached ended
    simp only [LinearTokenTimelock.construct, bind_eq_ok_iff, pure_eq_ok_iff] at deploys
    obtain ⟨t, built, same⟩ := deploys
    subst same
    exact empties_run (LinearTokenTimelock.computes this) built none positive regular reached ended
  · intro s₀ deploys actions regular s reached ended
    simp only [QuadraticTokenTimelock.construct, bind_eq_ok_iff, pure_eq_ok_iff] at deploys
    obtain ⟨t, built, same⟩ := deploys
    subst same
    exact empties_run (QuadraticTokenTimelock.computes this) built none positive regular reached
      ended
  · intro s₀ deploys actions regular s reached ended
    simp only [TimelockedDelegator.construct, LinearTokenTimelock.construct, bind_eq_ok_iff,
      pure_eq_ok_iff] at deploys
    obtain ⟨_, ⟨t, built, started⟩, same⟩ := deploys
    subst started
    subst same
    exact Delegator.empties_run (Delegator.computes_overrides Vesting.complete_linear
      LinearTokenTimelock.proportion_iff) fresh nonzero noneElsewhere uncalled built none positive
      regular reached ended
  · intro s₀ deploys actions regular s reached ended
    simp only [QuadtraticTimelockedSubdelegator.construct, QuadraticTokenTimelock.construct,
      bind_eq_ok_iff, pure_eq_ok_iff] at deploys
    obtain ⟨_, ⟨t, built, started⟩, same⟩ := deploys
    subst started
    subst same
    exact Delegator.empties_run (Delegator.computes_overrides Vesting.complete_quadratic
      QuadraticTokenTimelock.proportion_iff) fresh nonzero noneElsewhere uncalled built none
      positive regular reached ended

namespace Timelocks.Sample

/-- A cliff after 200 seconds, in a period of 100. -/
def unreachable : TokenTimelockState := { linear with cliffSeconds := 200 }

end Timelocks.Sample

open Timelocks in
/-- The cliff is never passed, whatever the time. -/
theorem nothing_locked_counterexample :
    LinearTokenTimelock.construct Sample.ledger 1000 7 100 20 200 3 0 = .ok Sample.unreachable ∧
    (∀ a ∈ Sample.deposit 1000, a.Regular (· = (0xAA : Address))) ∧
    Ended 0 (run (step 0xAA (LinearTokenTimelock.overrides 0xAA)) Sample.unreachable
      (Sample.deposit 1000)) ∧
    step 0xAA (LinearTokenTimelock.overrides 0xAA)
      (run (step 0xAA (LinearTokenTimelock.overrides 0xAA)) Sample.unreachable
        (Sample.deposit 1000)) (.releaseMax 7 7) =
      .error (.reason "TokenTimelock: Cliff not passed") :=
  ⟨rfl, Sample.deposit_regular 1000, ⟨by decide +kernel, rfl⟩, rfl⟩

open Timelocks in
/-- With a cliff of 10 seconds everything is paid. -/
theorem nothing_locked_iff_sample :
    EmptiesTo 0xAA (LinearTokenTimelock.overrides 0xAA)
      (run (step 0xAA (LinearTokenTimelock.overrides 0xAA)) Sample.linear (Sample.deposit 1000))
      8 := by
  obtain ⟨linear, -⟩ := nothing_locked_iff (Sample.unapproved 0xAA) Sample.fresh Sample.create_ne
    (fun _ => Sample.unapproved _) (fun _ => rfl) (by decide : 0 < 1000) 7 20 3 8 100 10 0
  apply (linear Sample.linear rfl (Sample.deposit 1000) (Sample.deposit_regular 1000) _ rfl
    ⟨by decide +kernel, rfl⟩).mpr
  exact ⟨by decide +kernel, by decide +kernel, by decide +kernel⟩

end FeiProtocol
