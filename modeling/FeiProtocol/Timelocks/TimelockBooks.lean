import FeiProtocol.Timelocks.TimelockedDelegator

/-!
# The books of a timelock

What `balanceCheck` makes of the two stored balances, with exact conditions for every call
that pays. Nothing is assumed of the start time, and a release may go to the timelock itself.

* `Books`: no more has left than the schedule allows, as far as the stored balances tell.
* `releaseMax_iff`, `release_iff`, `clawback_iff`: when a call succeeds, and what it pays.
* `books_run`: every run without a clawback keeps the books.
-/

namespace FeiProtocol

open Evm

namespace TokenTimelock

/-! ## Schedules that are computed -/

/-- The overrides compute the total and the proportion, as long as the numbers fit. -/
structure Computes (o : Overrides) (this : Address) (delegated : Nat)
    (schedule : Nat → Nat → Nat → Nat) (fits : Nat → Nat → Prop) : Prop where
  counts : ∀ {s n}, o.totalToken s = .ok n → n = heldToken this s + delegated
  totalToken : ∀ {s}, heldToken this s + delegated < 2 ^ 256 →
    o.totalToken s = .ok (heldToken this s + delegated)
  proportion : ∀ {r e d n}, d ≠ 0 →
    (o._proportionAvailable r e d = .ok n ↔ fits r e ∧ schedule d r e = n)
  complete : Vesting.Complete schedule

end TokenTimelock

namespace LinearTokenTimelock

def fits (received elapsed : Nat) : Prop := received * elapsed < 2 ^ 256

instance (received elapsed : Nat) : Decidable (fits received elapsed) :=
  inferInstanceAs (Decidable (_ < _))

theorem proportion_iff {r e d n : Nat} (positive : d ≠ 0) :
    _proportionAvailable r e d = .ok n ↔ fits r e ∧ Vesting.linear d r e = n := by
  simp only [_proportionAvailable, bind_eq_ok_iff, checkedMul_eq_ok_iff, checkedDiv_eq_ok_iff,
    and_assoc, exists_and_left, exists_eq_left', positive, ne_eq, not_false_eq_true, true_and,
    fits, Vesting.linear]

theorem computes (this : Address) :
    TokenTimelock.Computes (overrides this) this 0 Vesting.linear fits where
  counts counted := by
    cases counted
    rfl
  totalToken _ := rfl
  proportion := proportion_iff
  complete := Vesting.complete_linear

end LinearTokenTimelock

namespace QuadraticTokenTimelock

def fits (received elapsed : Nat) : Prop :=
  received * elapsed < 2 ^ 256 ∧ received * elapsed * elapsed < 2 ^ 256

instance (received elapsed : Nat) : Decidable (fits received elapsed) :=
  inferInstanceAs (Decidable (_ ∧ _))

theorem proportion_iff {r e d n : Nat} (positive : d ≠ 0) :
    _proportionAvailable r e d = .ok n ↔ fits r e ∧ Vesting.quadratic d r e = n := by
  simp only [_proportionAvailable, bind_eq_ok_iff, checkedMul_eq_ok_iff, checkedDiv_eq_ok_iff,
    and_assoc, exists_and_left, exists_eq_left', positive, ne_eq, not_false_eq_true, true_and,
    fits, Vesting.quadratic]

theorem computes (this : Address) :
    TokenTimelock.Computes (overrides this) this 0 Vesting.quadratic fits where
  counts counted := by
    cases counted
    rfl
  totalToken _ := rfl
  proportion := proportion_iff
  complete := Vesting.complete_quadratic

end QuadraticTokenTimelock

namespace TokenTimelock

/-! ## The stored balances -/

section Books

variable (this : Address) (delegated : Nat) (schedule : Nat → Nat → Nat → Nat)
  (s : TokenTimelockState)

/-- All that was received, once `balanceCheck` has noted the deposits. -/
def noted : Nat := s.initialBalance + (heldToken this s + delegated - s.lastBalance)

/-- What the schedule leaves of it. -/
def available : Nat :=
  schedule s.timed.duration (noted this delegated s) (elapsed s) -
    (s.initialBalance - s.lastBalance)

/-- The state in which the body of a call with `balanceCheck` starts. -/
def note : TokenTimelockState := { s with initialBalance := noted this delegated s }

/-- The stored balances are those of the last call with `balanceCheck`, and no more has
left than the schedule allows. -/
structure Books : Prop where
  last_le : s.lastBalance ≤ heldToken this s + delegated
  last_le_initial : s.lastBalance ≤ s.initialBalance
  initial_lt : s.initialBalance < 2 ^ 256
  within : s.initialBalance - s.lastBalance ≤
    schedule s.timed.duration s.initialBalance (elapsed s)
  unapproved : s.ledger.Unapproved this

end Books

variable {this : Address} {delegated : Nat} {schedule : Nat → Nat → Nat → Nat}
  {fits : Nat → Nat → Prop} {o : Overrides} {s s' : TokenTimelockState}
  {sender receiver : Address} {amount n : Nat}

theorem timeSinceStart_iff : s.timed.timeSinceStart s.timestamp = .ok n ↔
    s.timed.startTime ≤ s.timestamp ∧ elapsed s = n := by
  constructor
  · intro time
    have started : s.timed.startTime ≤ s.timestamp := by
      rcases Timed.timeSinceStart_eq_ok_iff.mp time with ⟨_, past, _⟩ | ⟨unset, _⟩
      · exact past
      · omega
    exact ⟨started, Except.ok.inj ((timeSinceStart_eq started).symm.trans time)⟩
  · intro given
    rcases given with ⟨started, same⟩
    rw [timeSinceStart_eq started, same]

theorem passedCliff_iff : passedCliff s = .ok true ↔
    s.timed.startTime ≤ s.timestamp ∧ s.cliffSeconds ≤ elapsed s := by
  simp only [passedCliff, bind_eq_ok_iff, pure_eq_ok_iff, timeSinceStart_iff, and_assoc,
    exists_and_left, exists_eq_left', ge_iff_le, decide_eq_true_eq]

theorem elapsed_le_duration (s : TokenTimelockState) : elapsed s ≤ s.timed.duration := by
  rw [elapsed]
  split <;> omega

theorem Books.total_le (books : Books this delegated schedule s) :
    heldToken this s + delegated ≤ noted this delegated s := by
  have last := books.last_le
  have initial := books.last_le_initial
  rw [noted]
  omega

/-- What has left, once the deposits are noted. -/
theorem Books.gone (books : Books this delegated schedule s) :
    noted this delegated s - (heldToken this s + delegated) = s.initialBalance - s.lastBalance := by
  have last := books.last_le
  have initial := books.last_le_initial
  rw [noted]
  omega

theorem noteDeposits_iff (computes : Computes o this delegated schedule fits)
    (books : Books this delegated schedule s) : noteDeposits o s = .ok s' ↔
      noted this delegated s < 2 ^ 256 ∧ note this delegated s = s' := by
  have last := books.last_le
  have initial := books.initial_lt
  simp only [noteDeposits, bind_eq_ok_iff]
  constructor
  · intro given
    rcases given with ⟨total, counted, succeeds⟩
    have total_eq := computes.counts counted
    split at succeeds
    · simp only [bind_eq_ok_iff, pure_eq_ok_iff, checkedSub_eq_ok_iff, checkedAdd_eq_ok_iff]
        at succeeds
      obtain ⟨delta, ⟨_, more⟩, initialBalance, ⟨fit, sum⟩, same⟩ := succeeds
      have received : noted this delegated s = initialBalance := by
        rw [noted]
        omega
      rw [note, received]
      exact ⟨by omega, same⟩
    · cases succeeds
      have received : noted this delegated s = s.initialBalance := by
        rw [noted]
        omega
      rw [note, received]
      exact ⟨initial, rfl⟩
  · intro given
    rcases given with ⟨fit, same⟩
    subst same
    have whole := books.total_le
    refine ⟨_, computes.totalToken (by omega), ?_⟩
    split
    · simp only [bind_eq_ok_iff, pure_eq_ok_iff, checkedSub_eq_ok_iff, checkedAdd_eq_ok_iff]
      exact ⟨_, ⟨last, rfl⟩, _, ⟨fit, rfl⟩, rfl⟩
    · have received : noted this delegated s = s.initialBalance := by
        rw [noted]
        omega
      rw [note, received]
      rfl

/-- With the deposits noted, nothing underflows. -/
theorem availableForRelease_iff (computes : Computes o this delegated schedule fits)
    (books : Books this delegated schedule s) (fit : noted this delegated s < 2 ^ 256) :
    availableForRelease o (note this delegated s) = .ok n ↔
      s.timed.startTime ≤ s.timestamp ∧ fits (noted this delegated s) (elapsed s) ∧
        available this delegated schedule s = n := by
  have whole := books.total_le
  have gone := books.gone
  have counted : o.totalToken (note this delegated s) = .ok (heldToken this s + delegated) :=
    computes.totalToken (s := note this delegated s) (by
      have same : heldToken this (note this delegated s) = heldToken this s := rfl
      omega)
  have within : s.initialBalance - s.lastBalance ≤
      schedule s.timed.duration (noted this delegated s) (elapsed s) :=
    Nat.le_trans books.within
      (computes.complete.mono _ (Nat.le_add_right _ _) (Nat.le_refl (elapsed s)))
  have proportion : ∀ {m}, o._proportionAvailable (noted this delegated s) (elapsed s)
      s.timed.duration = .ok m ↔ fits (noted this delegated s) (elapsed s) ∧
        schedule s.timed.duration (noted this delegated s) (elapsed s) = m :=
    computes.proportion s.timed.duration_ne
  have time : ∀ {m},
      (note this delegated s).timed.timeSinceStart (note this delegated s).timestamp =
      .ok m ↔ s.timed.startTime ≤ s.timestamp ∧ elapsed s = m := timeSinceStart_iff (s := s)
  have received : (note this delegated s).initialBalance = noted this delegated s := rfl
  have duration : (note this delegated s).timed.duration = s.timed.duration := rfl
  simp only [availableForRelease, alreadyReleasedAmount, bind_eq_ok_iff, checkedSub_eq_ok_iff,
    time, counted, received, duration, and_assoc, exists_and_left, exists_eq_left',
    Except.ok.injEq, proportion, whole, true_and, gone, within, available]

/-! ## Payments -/

/-- The state after the deposits were noted and one release was paid. -/
structure Pays (this : Address) (delegated : Nat) (s s' : TokenTimelockState)
    (receiver : Address) (amount : Nat) : Prop where
  paid : s.ledger.safeTransfer this s.lockedToken receiver amount = .ok s'.ledger
  result : s' = { s with
    initialBalance := noted this delegated s
    lastBalance := s'.ledger.balanceOf s.lockedToken this + delegated
    ledger := s'.ledger
    events := s.events ++ [.Release s.beneficiary receiver amount] }

theorem balanceOf_of_transfer {w w' : Ledger} {token dst : Address}
    (paid : w.safeTransfer this token dst amount = .ok w') :
    w'.balanceOf token this + (if dst = this then 0 else amount) = w.balanceOf token this := by
  have moved := Ledger.safeTransfer_moved paid
  have covered := moved.covered
  have exact := moved.balance token this
  simp only [and_self, if_true, true_and, eq_comm (a := this)] at exact
  by_cases own : dst = this
  · simp only [own, if_true] at exact ⊢
    omega
  · simp only [own, if_false] at exact ⊢
    omega

/-- Whatever is held can be released. -/
theorem _release_succeeds (le : amount ≤ heldToken this s) (receiver : Address) :
    ∃ w, s.ledger.safeTransfer this s.lockedToken receiver amount = .ok w ∧
      _release this s receiver amount = .ok { s with
        ledger := w
        events := s.events ++ [.Release s.beneficiary receiver amount] } := by
  obtain ⟨w, paid⟩ := Ledger.safeTransfer_succeeds le receiver
  refine ⟨w, paid, ?_⟩
  simp only [_release, bind_eq_ok_iff, pure_eq_ok_iff]
  exact ⟨w, paid, rfl⟩

theorem exists_pays (le : amount ≤ heldToken this s) (receiver : Address) :
    ∃ s', Pays this delegated s s' receiver amount := by
  obtain ⟨w, paid⟩ := Ledger.safeTransfer_succeeds le receiver
  exact ⟨{ s with
    initialBalance := noted this delegated s
    lastBalance := w.balanceOf s.lockedToken this + delegated
    ledger := w
    events := s.events ++ [.Release s.beneficiary receiver amount] }, paid, rfl⟩

/-- The end of a call that pays. -/
theorem finish_iff (computes : Computes o this delegated schedule fits)
    (books : Books this delegated schedule s) (fit : noted this delegated s < 2 ^ 256) :
    (∃ t, _release this (note this delegated s) receiver amount = .ok t ∧
      ∃ last, o.totalToken t = .ok last ∧ { t with lastBalance := last } = s') ↔
      Pays this delegated s s' receiver amount := by
  have whole := books.total_le
  constructor
  · simp only [_release, bind_eq_ok_iff, pure_eq_ok_iff]
    intro given
    rcases given with ⟨t, ⟨ledger, paid, released⟩, last, counted, stored⟩
    subst released
    subst stored
    have total := computes.counts counted
    subst total
    exact ⟨paid, rfl⟩
  · intro given
    rcases given with ⟨paid, result⟩
    have left := balanceOf_of_transfer paid
    have total : s'.ledger.balanceOf s.lockedToken this + delegated < 2 ^ 256 := by
      simp only [heldToken] at whole
      omega
    refine ⟨{ note this delegated s with
      ledger := s'.ledger
      events := s.events ++ [.Release s.beneficiary receiver amount] }, ?_, _,
      computes.totalToken total, result.symm⟩
    simp only [_release, bind_eq_ok_iff, pure_eq_ok_iff]
    exact ⟨s'.ledger, paid, rfl⟩

theorem releaseMax_iff (computes : Computes o this delegated schedule fits)
    (books : Books this delegated schedule s) :
    releaseMax this o s sender receiver = .ok s' ↔
      sender = s.beneficiary ∧ noted this delegated s < 2 ^ 256 ∧
        s.timed.startTime ≤ s.timestamp ∧ s.cliffSeconds ≤ elapsed s ∧
        fits (noted this delegated s) (elapsed s) ∧
        Pays this delegated s s' receiver (available this delegated schedule s) := by
  have passed : passedCliff (note this delegated s) = .ok true ↔
      s.timed.startTime ≤ s.timestamp ∧ s.cliffSeconds ≤ elapsed s := passedCliff_iff (s := s)
  simp only [releaseMax, balanceCheck, onlyBeneficiary, bind_eq_ok_iff, pure_eq_ok_iff,
    require_eq_ok_iff, exists_const, noteDeposits_iff computes books, and_assoc, exists_and_left,
    exists_eq_left']
  constructor
  · intro given
    rcases given with ⟨caller, fit, t, ⟨flag, cliff, yes, n, computed, pays⟩, finish⟩
    subst yes
    obtain ⟨started, fitting, same⟩ := (availableForRelease_iff computes books fit).mp computed
    subst same
    exact ⟨caller, fit, started, (passed.mp cliff).2, fitting,
      (finish_iff computes books fit).mp ⟨t, pays, finish⟩⟩
  · intro given
    rcases given with ⟨caller, fit, started, cliff, fitting, pays⟩
    obtain ⟨t, pays, finish⟩ := (finish_iff computes books fit).mpr pays
    exact ⟨caller, fit, t, ⟨true, passed.mpr ⟨started, cliff⟩, rfl, _,
      (availableForRelease_iff computes books fit).mpr ⟨started, fitting, rfl⟩, pays⟩, finish⟩

theorem release_iff {amount : UInt256} (computes : Computes o this delegated schedule fits)
    (books : Books this delegated schedule s) :
    release this o s sender receiver amount = .ok s' ↔
      sender = s.beneficiary ∧ noted this delegated s < 2 ^ 256 ∧ amount ≠ 0 ∧
        s.timed.startTime ≤ s.timestamp ∧ s.cliffSeconds ≤ elapsed s ∧
        fits (noted this delegated s) (elapsed s) ∧
        amount.toNat ≤ available this delegated schedule s ∧
        Pays this delegated s s' receiver amount.toNat := by
  have passed : passedCliff (note this delegated s) = .ok true ↔
      s.timed.startTime ≤ s.timestamp ∧ s.cliffSeconds ≤ elapsed s := passedCliff_iff (s := s)
  simp only [release, balanceCheck, onlyBeneficiary, bind_eq_ok_iff, pure_eq_ok_iff,
    require_eq_ok_iff, exists_const, noteDeposits_iff computes books, and_assoc, exists_and_left,
    exists_eq_left']
  constructor
  · intro given
    rcases given with ⟨caller, fit, some, t, ⟨flag, cliff, yes, n, computed, covered, pays⟩, finish⟩
    subst yes
    obtain ⟨started, fitting, same⟩ := (availableForRelease_iff computes books fit).mp computed
    subst same
    exact ⟨caller, fit, some, started, (passed.mp cliff).2, fitting, covered,
      (finish_iff computes books fit).mp ⟨t, pays, finish⟩⟩
  · intro given
    rcases given with ⟨caller, fit, some, started, cliff, fitting, covered, pays⟩
    obtain ⟨t, pays, finish⟩ := (finish_iff computes books fit).mpr pays
    exact ⟨caller, fit, some, t, ⟨true, passed.mpr ⟨started, cliff⟩, rfl, _,
      (availableForRelease_iff computes books fit).mpr ⟨started, fitting, rfl⟩, covered, pays⟩,
      finish⟩

/-- What is available is there, here or with the delegates. -/
theorem available_le (computes : Computes o this delegated schedule fits)
    (books : Books this delegated schedule s) :
    available this delegated schedule s ≤ heldToken this s + delegated := by
  have last := books.last_le
  have initial := books.last_le_initial
  have le : schedule s.timed.duration (noted this delegated s) (elapsed s) ≤
      noted this delegated s := computes.complete.le (elapsed_le_duration s)
  rw [available]
  simp only [noted] at le ⊢
  omega

/-! ## Clawbacks -/

/-- The two payments of a clawback: the beneficiary gets what the contract says is available
once the deposits are noted, if the cliff has passed, and the admin gets all that is left. -/
structure ClawedBack (this : Address) (o : Overrides) (s s' : TokenTimelockState) : Prop where
  payments : ∃ m : Ledger,
    (if s.cliffSeconds ≤ elapsed s then ∃ t n, noteDeposits o s = .ok t ∧
      availableForRelease o t = .ok n ∧
      s.ledger.safeTransfer this s.lockedToken s.beneficiary n = .ok m
    else m = s.ledger) ∧
    m.safeTransfer this s.lockedToken s.clawbackAdmin (m.balanceOf s.lockedToken this) =
      .ok s'.ledger

/-- Everything a timelock holds can be released to an account. -/
theorem remainder_paid (computes : Computes o this 0 schedule fits)
    (narrow : heldToken this s < 2 ^ 256) (receiver : Address) :
    ∃ v, (do let total ← o.totalToken s; _release this s receiver total) = .ok v ∧
      s.ledger.safeTransfer this s.lockedToken receiver (heldToken this s) = .ok v.ledger ∧
      heldToken this v < 2 ^ 256 := by
  obtain ⟨w, paid, released⟩ := _release_succeeds (Nat.le_refl (heldToken this s)) receiver
  have left := balanceOf_of_transfer paid
  refine ⟨_, bind_eq_ok_iff.mpr ⟨_, computes.totalToken narrow, released⟩, paid, ?_⟩
  simp only [heldToken] at narrow left ⊢
  omega

theorem passedCliff_eq (started : s.timed.startTime ≤ s.timestamp) :
    passedCliff s = .ok (decide (s.cliffSeconds ≤ elapsed s)) := by
  simp only [passedCliff, bind_eq_ok_iff, pure_eq_ok_iff]
  exact ⟨_, timeSinceStart_eq started, rfl⟩

theorem clawback_iff (computes : Computes o this 0 schedule fits)
    (books : Books this 0 schedule s) :
    (∃ s', clawback this o s s.clawbackAdmin = .ok s' ∧ ClawedBack this o s s') ↔
      noted this 0 s < 2 ^ 256 ∧ s.timed.startTime ≤ s.timestamp ∧
        (s.cliffSeconds ≤ elapsed s → fits (noted this 0 s) (elapsed s)) := by
  have whole := books.total_le
  constructor
  · intro given
    rcases given with ⟨s', succeeds, -⟩
    simp only [clawback, balanceCheck, bind_eq_ok_iff, noteDeposits_iff computes books] at succeeds
    obtain ⟨t, ⟨fit, same⟩, t', ⟨_, _, flag, cliff, u, paid, _⟩, _⟩ := succeeds
    subst same
    have started : s.timed.startTime ≤ s.timestamp := by
      simp only [passedCliff, bind_eq_ok_iff] at cliff
      obtain ⟨e, gone, _⟩ := cliff
      exact (timeSinceStart_iff.mp gone).1
    refine ⟨fit, started, fun passed => ?_⟩
    have yes : flag = true := Except.ok.inj
      (cliff.symm.trans ((passedCliff_iff (s := note this 0 s)).mpr ⟨started, passed⟩))
    subst yes
    simp only [if_true, bind_eq_ok_iff] at paid
    obtain ⟨n, computed, _⟩ := paid
    exact ((availableForRelease_iff computes books fit).mp computed).2.1
  · intro given
    rcases given with ⟨fit, started, fitting⟩
    have admin : require (s.clawbackAdmin = (note this 0 s).clawbackAdmin)
        "TokenTimelock: Only clawbackAdmin" = .ok () := require_eq_ok_iff.mpr rfl
    have cliff : passedCliff (note this 0 s) = .ok (decide (s.cliffSeconds ≤ elapsed s)) :=
      passedCliff_eq (s := note this 0 s) started
    simp only [clawback, balanceCheck, bind_eq_ok_iff, pure_eq_ok_iff,
      noteDeposits_iff computes books]
    by_cases passed : s.cliffSeconds ≤ elapsed s
    · have computed := (availableForRelease_iff computes books fit).mpr
        ⟨started, fitting passed, rfl⟩
      have there : available this 0 schedule s ≤ heldToken this (note this 0 s) :=
        available_le computes books
      obtain ⟨m, first, vested⟩ := _release_succeeds there s.beneficiary
      have left := balanceOf_of_transfer first
      have few : m.balanceOf s.lockedToken this < 2 ^ 256 := by
        simp only [note, heldToken] at left whole
        omega
      obtain ⟨v, ends, paid, narrow⟩ := remainder_paid computes
        (s := { note this 0 s with
          ledger := m
          events := s.events ++
            [.Release s.beneficiary s.beneficiary (available this 0 schedule s)] })
        few s.clawbackAdmin
      rw [decide_eq_true passed] at cliff
      refine ⟨_, ⟨note this 0 s, ⟨fit, rfl⟩, v, ⟨(), admin, true, cliff, _, ?_,
        bind_eq_ok_iff.mp ends⟩, _, computes.totalToken narrow, rfl⟩, ⟨m, ?_, paid⟩⟩
      · simp only [if_true, bind_eq_ok_iff]
        exact ⟨_, computed, vested⟩
      · rw [if_pos passed]
        exact ⟨_, _, (noteDeposits_iff computes books).mpr ⟨fit, rfl⟩, computed, first⟩
    · have few : heldToken this s < 2 ^ 256 := Nat.lt_of_le_of_lt whole fit
      obtain ⟨v, ends, paid, narrow⟩ := remainder_paid computes (s := note this 0 s) few
        s.clawbackAdmin
      rw [decide_eq_false passed] at cliff
      refine ⟨_, ⟨note this 0 s, ⟨fit, rfl⟩, v, ⟨(), admin, false, cliff, _, ?_,
        bind_eq_ok_iff.mp ends⟩, _, computes.totalToken narrow, rfl⟩, ⟨s.ledger, ?_, paid⟩⟩
      · simp only [Bool.false_eq_true, if_false]
      · rw [if_neg passed]

/-! ## Runs -/

/-- Token calls come from accounts that the timelock does not own, and nothing is clawed back. -/
def Action.Regular (own : Address → Prop) : Action → Prop
  | .clawback _ => False
  | .token sender _ => ¬ own sender
  | _ => True

/-- What the constructor fixes. -/
structure SameTerms (s s' : TokenTimelockState) : Prop where
  timed : s'.timed = s.timed
  lockedToken : s'.lockedToken = s.lockedToken
  cliffSeconds : s'.cliffSeconds = s.cliffSeconds
  clawbackAdmin : s'.clawbackAdmin = s.clawbackAdmin

theorem SameTerms.refl (s : TokenTimelockState) : SameTerms s s := ⟨rfl, rfl, rfl, rfl⟩

theorem SameTerms.trans {s'' : TokenTimelockState} (first : SameTerms s s')
    (second : SameTerms s' s'') : SameTerms s s'' :=
  ⟨second.timed.trans first.timed, second.lockedToken.trans first.lockedToken,
    second.cliffSeconds.trans first.cliffSeconds, second.clawbackAdmin.trans first.clawbackAdmin⟩

/-- What a regular transaction does: pay what is available at most, or let tokens in. -/
inductive Effect (this : Address) (own : Address → Prop) (delegated : Nat)
    (schedule : Nat → Nat → Nat → Nat) (s s' : TokenTimelockState) : Prop where
  | paid (receiver : Address) (amount : Nat) (fit : noted this delegated s < 2 ^ 256)
    (le : amount ≤ available this delegated schedule s)
    (pays : Pays this delegated s s' receiver amount)
  | accrued (change : Accrued this delegated delegated s s') (terms : SameTerms s s')
    (events : ∃ more, s'.events = s.events ++ more ∧
      ∀ e ∈ more, ∀ b r amount, e ≠ .Release b r amount)
    (custody : ∀ c, own c → s.ledger.Unapproved c → Ledger.Custody s.ledger s'.ledger c)

theorem Pays.terms (pays : Pays this delegated s s' receiver amount) : SameTerms s s' := by
  have result := pays.result
  generalize s'.ledger = w at result
  subst result
  exact ⟨rfl, rfl, rfl, rfl⟩

theorem Pays.timestamp (pays : Pays this delegated s s' receiver amount) :
    s'.timestamp = s.timestamp := by
  have result := pays.result
  generalize s'.ledger = w at result
  subst result
  rfl

theorem Pays.lastBalance (pays : Pays this delegated s s' receiver amount) :
    s'.lastBalance = heldToken this s' + delegated := by
  have token := pays.terms.lockedToken
  have result := congrArg TokenTimelockState.lastBalance pays.result
  rw [heldToken, token]
  exact result

theorem Pays.initialBalance (pays : Pays this delegated s s' receiver amount) :
    s'.initialBalance = noted this delegated s :=
  congrArg TokenTimelockState.initialBalance pays.result

theorem Pays.events (pays : Pays this delegated s s' receiver amount) :
    s'.events = s.events ++ [.Release s.beneficiary receiver amount] :=
  congrArg TokenTimelockState.events pays.result

theorem Pays.heldToken (pays : Pays this delegated s s' receiver amount) :
    heldToken this s' + (if receiver = this then 0 else amount) = heldToken this s := by
  rw [TokenTimelock.heldToken, pays.terms.lockedToken]
  exact balanceOf_of_transfer pays.paid

theorem Pays.elapsed (pays : Pays this delegated s s' receiver amount) :
    elapsed s' = elapsed s := by
  rw [TokenTimelock.elapsed, TokenTimelock.elapsed, pays.terms.timed, pays.timestamp]

/-- A payment within what is available keeps the books. -/
theorem Pays.books (pays : Pays this delegated s s' receiver amount)
    (complete : Vesting.Complete schedule) (books : Books this delegated schedule s)
    (fit : noted this delegated s < 2 ^ 256) (le : amount ≤ available this delegated schedule s) :
    Books this delegated schedule s' := by
  have held := pays.heldToken
  have last := pays.lastBalance
  have initial := pays.initialBalance
  have whole := books.total_le
  have before := books.last_le
  have order := books.last_le_initial
  have within : s.initialBalance - s.lastBalance ≤
      schedule s.timed.duration (noted this delegated s) (TokenTimelock.elapsed s) :=
    Nat.le_trans books.within (complete.mono _ (Nat.le_add_right _ _) (Nat.le_refl _))
  have left : TokenTimelock.heldToken this s ≤ TokenTimelock.heldToken this s' + amount := by
    split at held <;> omega
  rw [available] at le
  refine ⟨Nat.le_of_eq last, ?_, ?_, ?_, ?_⟩
  · omega
  · omega
  · rw [pays.terms.timed, pays.elapsed, initial, last]
    have gone := books.gone
    omega
  · exact (Ledger.safeTransfer_moved pays.paid).unapproved books.unapproved

theorem Accrued.books {delegated' : Nat} (accrued : Accrued this delegated delegated' s s')
    (complete : Vesting.Complete schedule) (books : Books this delegated schedule s)
    (unapproved : s'.ledger.Unapproved this) : Books this delegated' schedule s' := by
  refine ⟨?_, ?_, ?_, ?_, unapproved⟩
  · rw [accrued.lastBalance]
    exact Nat.le_trans books.last_le accrued.total_le
  · rw [accrued.lastBalance, accrued.initialBalance]
    exact books.last_le_initial
  · rw [accrued.initialBalance]
    exact books.initial_lt
  · rw [accrued.lastBalance, accrued.initialBalance, accrued.timed]
    exact Nat.le_trans books.within (complete.mono _ (Nat.le_refl _) accrued.elapsed_le)

variable {own : Address → Prop}

/-- Events that pay nothing count for nothing. -/
theorem sum_quiet {more : List TokenTimelockEvent}
    (quiet : ∀ e ∈ more, ∀ b r amount, e ≠ TokenTimelockEvent.Release b r amount)
    {count : TokenTimelockEvent → Nat} (update : ∀ b, count (.BeneficiaryUpdate b) = 0)
    (pending : ∀ b, count (.PendingBeneficiaryUpdate b) = 0) : (more.map count).sum = 0 := by
  apply List.sum_eq_zero
  intro n mem
  obtain ⟨e, here, same⟩ := List.mem_map.mp mem
  subst same
  cases e with
  | Release b r amount => exact absurd rfl (quiet _ here b r amount)
  | BeneficiaryUpdate b => exact update b
  | PendingBeneficiaryUpdate b => exact pending b

/-- Tokens come in, if anything happens to them. -/
theorem effect_of_custody (isOwn : own this) (books : Books this delegated schedule s)
    (terms : SameTerms s s') (initialBalance : s'.initialBalance = s.initialBalance)
    (lastBalance : s'.lastBalance = s.lastBalance) (later : s.timestamp ≤ s'.timestamp)
    {more : List TokenTimelockEvent} (events : s'.events = s.events ++ more)
    (quiet : ∀ e ∈ more, ∀ b r amount, e ≠ TokenTimelockEvent.Release b r amount)
    (custody : ∀ c, own c → s.ledger.Unapproved c → Ledger.Custody s.ledger s'.ledger c) :
    Effect this own delegated schedule s s' := by
  have mine := custody this isOwn books.unapproved
  have balance := mine.balance s.lockedToken
  have received_le := mine.received_le s.lockedToken
  have none : (more.map TokenTimelockEvent.released).sum = 0 :=
    sum_quiet quiet (fun _ => rfl) fun _ => rfl
  refine .accrued ⟨?_, ?_, initialBalance, lastBalance, terms.timed, later⟩ terms
    ⟨more, events, quiet⟩ custody
  · simp only [heldToken, terms.lockedToken]
    omega
  · simp only [released, events, List.map_append, List.sum_append, none, Nat.add_zero]

theorem effect_of_step {a : Action} (computes : Computes o this delegated schedule fits)
    (books : Books this delegated schedule s) (isOwn : own this) (regular : a.Regular own)
    (succeeds : step this o s a = .ok s') : Effect this own delegated schedule s s' := by
  cases a with
  | release sender receiver amount =>
      obtain ⟨_, fit, _, _, _, _, covered, pays⟩ := (release_iff computes books).mp succeeds
      exact .paid receiver _ fit covered pays
  | releaseMax sender receiver =>
      obtain ⟨_, fit, _, _, _, pays⟩ := (releaseMax_iff computes books).mp succeeds
      exact .paid receiver _ fit (Nat.le_refl _) pays
  | setPendingBeneficiary sender _pendingBeneficiary =>
      simp only [step, setPendingBeneficiary, bind_eq_ok_iff, pure_eq_ok_iff] at succeeds
      obtain ⟨_, _, same⟩ := succeeds
      subst same
      exact effect_of_custody isOwn books ⟨rfl, rfl, rfl, rfl⟩ rfl rfl (Nat.le_refl _) rfl
        (by simp) fun c _ none => custody_refl none
  | acceptBeneficiary sender =>
      simp only [step, acceptBeneficiary, _setBeneficiary, bind_eq_ok_iff, pure_eq_ok_iff]
        at succeeds
      obtain ⟨_, _, same⟩ := succeeds
      subst same
      exact effect_of_custody isOwn books ⟨rfl, rfl, rfl, rfl⟩ rfl rfl (Nat.le_refl _) rfl
        (by simp) fun c _ none => custody_refl none
  | clawback sender => exact absurd regular id
  | token sender c =>
      obtain ⟨ledger, performed, same⟩ := bind_eq_ok_iff.mp succeeds
      cases same
      have other : ∀ {c}, own c → sender ≠ c := fun mine same => regular (same ▸ mine)
      exact effect_of_custody isOwn books ⟨rfl, rfl, rfl, rfl⟩ rfl rfl (Nat.le_refl _)
        (List.append_nil _).symm (fun e mem => absurd mem List.not_mem_nil) fun c mine none =>
          Ledger.perform_custody none (other mine) performed
  | elapse seconds =>
      cases succeeds
      exact effect_of_custody isOwn books ⟨rfl, rfl, rfl, rfl⟩ rfl rfl (Nat.le_add_right _ _)
        (List.append_nil _).symm (fun e mem => absurd mem List.not_mem_nil) fun c _ none =>
          custody_refl none

/-- Tokens move by a release or by a call from elsewhere. -/
theorem ledger_of_step {a : Action} (computes : Computes o this delegated schedule fits)
    (books : Books this delegated schedule s) (regular : a.Regular own)
    (succeeds : step this o s a = .ok s') :
    (∃ sender receiver asked amount, (a = .release sender receiver asked ∨
      a = .releaseMax sender receiver) ∧ Pays this delegated s s' receiver amount) ∨
    (∃ sender c, a = .token sender c ∧ s.ledger.perform sender c = .ok s'.ledger) ∨
    s'.ledger = s.ledger := by
  cases a with
  | release sender receiver amount =>
      have pays := ((release_iff computes books).mp succeeds).2.2.2.2.2.2.2
      exact .inl ⟨sender, receiver, amount, _, .inl rfl, pays⟩
  | releaseMax sender receiver =>
      have pays := ((releaseMax_iff computes books).mp succeeds).2.2.2.2.2
      exact .inl ⟨sender, receiver, 0, _, .inr rfl, pays⟩
  | setPendingBeneficiary sender _pendingBeneficiary =>
      obtain ⟨_, _, same⟩ := bind_eq_ok_iff.mp succeeds
      cases same
      exact .inr (.inr rfl)
  | acceptBeneficiary sender =>
      obtain ⟨_, _, same⟩ := bind_eq_ok_iff.mp succeeds
      cases same
      exact .inr (.inr rfl)
  | clawback sender => exact absurd regular id
  | token sender c =>
      obtain ⟨ledger, performed, same⟩ := bind_eq_ok_iff.mp succeeds
      cases same
      exact .inr (.inl ⟨sender, c, rfl, performed⟩)
  | elapse seconds =>
      cases succeeds
      exact .inr (.inr rfl)

theorem Effect.terms (effect : Effect this own delegated schedule s s') : SameTerms s s' := by
  cases effect with
  | paid receiver amount fit le pays => exact pays.terms
  | accrued change terms events custody => exact terms

theorem Effect.timestamp_le (effect : Effect this own delegated schedule s s') :
    s.timestamp ≤ s'.timestamp := by
  cases effect with
  | paid receiver amount fit le pays => exact Nat.le_of_eq pays.timestamp.symm
  | accrued change terms events custody => exact change.timestamp_le

theorem Effect.books (effect : Effect this own delegated schedule s s') (isOwn : own this)
    (complete : Vesting.Complete schedule) (books : Books this delegated schedule s) :
    Books this delegated schedule s' := by
  cases effect with
  | paid receiver amount fit le pays => exact pays.books complete books fit le
  | accrued change terms events custody =>
      exact change.books complete books (custody this isOwn books.unapproved).unapproved

/-- Accounts of the timelock other than itself lose nothing. -/
theorem Effect.custody (effect : Effect this own delegated schedule s s') {c : Address}
    (mine : own c) (other : c ≠ this) (none : s.ledger.Unapproved c) :
    Ledger.Custody s.ledger s'.ledger c := by
  cases effect with
  | paid receiver amount fit le pays =>
      exact (Ledger.safeTransfer_moved pays.paid).custody none other.symm
        fun source => absurd source other.symm
  | accrued change terms events custody => exact custody c mine none

theorem books_of_construct {ledger : Ledger} {timestamp : Nat}
    {_beneficiary _lockedToken _clawbackAdmin : Address} {_duration _cliffSeconds : UInt256}
    (deploys : construct ledger timestamp _beneficiary _duration _cliffSeconds _lockedToken
      _clawbackAdmin = .ok s) (none : ledger.Unapproved this) (_startTime : UInt256) :
    Books this 0 schedule (startAt s _startTime) := by
  simp only [construct, bind_eq_ok_iff, pure_eq_ok_iff] at deploys
  obtain ⟨_, _, _, _, _, _, same⟩ := deploys
  subst same
  rw [startAt]
  split
  · exact ⟨Nat.zero_le _, Nat.le_refl _, Nat.two_pow_pos 256, Nat.zero_le _, none⟩
  · exact ⟨Nat.zero_le _, Nat.le_refl _, Nat.two_pow_pos 256, Nat.zero_le _, none⟩

theorem ledger_of_construct {ledger : Ledger} {timestamp : Nat}
    {_beneficiary _lockedToken _clawbackAdmin : Address} {_duration _cliffSeconds : UInt256}
    (deploys : construct ledger timestamp _beneficiary _duration _cliffSeconds _lockedToken
      _clawbackAdmin = .ok s) (_startTime : UInt256) :
    (startAt s _startTime).ledger = ledger := by
  simp only [construct, bind_eq_ok_iff, pure_eq_ok_iff] at deploys
  obtain ⟨_, _, _, _, _, _, same⟩ := deploys
  subst same
  rw [startAt]
  split <;> rfl

theorem startTime_ne_of_construct {ledger : Ledger} {timestamp : Nat}
    {_beneficiary _lockedToken _clawbackAdmin : Address} {_duration _cliffSeconds : UInt256}
    (deploys : construct ledger timestamp _beneficiary _duration _cliffSeconds _lockedToken
      _clawbackAdmin = .ok s) (positive : 0 < timestamp) (_startTime : UInt256) :
    (startAt s _startTime).timed.startTime ≠ 0 := by
  simp only [construct, bind_eq_ok_iff, pure_eq_ok_iff] at deploys
  obtain ⟨_, _, _, _, _, _, same⟩ := deploys
  subst same
  rw [startAt]
  split
  · rename_i given
    intro zero
    exact given (BitVec.eq_of_toNat_eq zero)
  · exact Nat.ne_of_gt positive

/-- **Books.** Every regular run of a timelock that holds its own tokens keeps them. -/
theorem books_run (computes : Computes o this 0 schedule fits) (books : Books this 0 schedule s)
    {actions : List Action} (regular : ∀ a ∈ actions, a.Regular (· = this)) :
    Books this 0 schedule (run (step this o) s actions) := by
  apply run_invariant (I := Books this 0 schedule) (A := fun a => a.Regular (· = this)) _ books
    regular
  intro s a s' books regular succeeds
  have effect : Effect this (· = this) 0 schedule s s' :=
    effect_of_step computes books rfl regular succeeds
  exact effect.books rfl computes.complete books

end TokenTimelock

end FeiProtocol
