import FeiProtocol.Timelocks.Captive

/-!
# `FeiLinearTokenTimelockBurner`

The beneficiary of a timelock of FEI that burns what it can have released.

* `fei_contained`: after it has become the beneficiary, what leaves the timelock comes to the
  burner, and what comes to the burner is burned or still there.
* `burnFeiHeld_end_iff`: at the end of the vesting period anybody can have everything burned.

FEI is a token of the ledger: without incentive contracts its transfers are exact.
-/

namespace FeiProtocol

open Evm TokenTimelock

structure FeiLinearTokenTimelockBurnerState : Type extends TokenTimelockState where
  /-- what the burner has burned so far -/
  burned : Nat

namespace FeiLinearTokenTimelockBurner

/-! ## The contract -/

def FEI : Address := 0x956F47F50A910163D8BF957Cf5846D573E7f87CA

section Contract

variable (timelock this : Address) (s : FeiLinearTokenTimelockBurnerState)

def acceptBeneficiary : Except Revert FeiLinearTokenTimelockBurnerState := do
  let t ← TokenTimelock.acceptBeneficiary s.toTokenTimelockState this
  return { s with toTokenTimelockState := t }

def burnFeiHeld : Except Revert FeiLinearTokenTimelockBurnerState := do
  let t ← releaseMax timelock (LinearTokenTimelock.overrides timelock) s.toTokenTimelockState this
    this
  let feiBalance := t.ledger.balanceOf FEI this
  if feiBalance ≠ 0 then do
    let ledger ← t.ledger.perform this (.burn FEI feiBalance)
    return { toTokenTimelockState := { t with ledger }, burned := s.burned + feiBalance }
  else return { s with toTokenTimelockState := t }

end Contract

/-! ## Transactions -/

inductive Action : Type where
  | timelock (a : TokenTimelock.Action)
  | acceptBeneficiary
  | burnFeiHeld
  deriving DecidableEq, Repr

def step (timelock this : Address) (s : FeiLinearTokenTimelockBurnerState) :
    Action → Except Revert FeiLinearTokenTimelockBurnerState
  | .timelock a => do
      let t ← TokenTimelock.step timelock (LinearTokenTimelock.overrides timelock)
        s.toTokenTimelockState a
      return { s with toTokenTimelockState := t }
  | .acceptBeneficiary => acceptBeneficiary this s
  | .burnFeiHeld => burnFeiHeld timelock this s

/-- The burner does nothing but its own functions. -/
def Action.External (timelock this : Address) : Action → Prop
  | .timelock a => a.ByOthers (· = timelock) this
  | .acceptBeneficiary | .burnFeiHeld => True

variable {timelock this : Address} {s s' s'' : FeiLinearTokenTimelockBurnerState}

/-! ## Burning -/

/-- The burner without its FEI, which is burned. -/
structure Burned (this : Address) (t : TokenTimelockState)
    (s s' : FeiLinearTokenTimelockBurnerState) : Prop where
  timelock : s'.toTokenTimelockState = { t with ledger := s'.ledger }
  burned : s'.burned = s.burned + t.ledger.balanceOf FEI this
  empty : s'.ledger.balanceOf FEI this = 0
  others : ∀ {token holder}, holder ≠ this →
    s'.ledger.balanceOf token holder = t.ledger.balanceOf token holder
  transfers : s'.ledger.transfers = t.ledger.transfers
  allowance : s'.ledger.allowance = t.ledger.allowance

/-- Burning all that an account has always succeeds. -/
theorem perform_burn_all (w : Ledger) (this : Address) :
    ∃ w', w.perform this (.burn FEI (w.balanceOf FEI this)) = .ok w' ∧
      w'.balanceOf FEI this = 0 ∧
      (∀ {token holder}, holder ≠ this → w'.balanceOf token holder = w.balanceOf token holder) ∧
      w'.transfers = w.transfers ∧ w'.allowance = w.allowance := by
  refine ⟨_, bind_eq_ok_iff.mpr ⟨_, Erc20.burn_eq_ok_iff.mpr ⟨Nat.le_refl _, rfl⟩, rfl⟩, ?_, ?_,
    rfl, ?_⟩
  · simp [Ledger.balanceOf]
  · intro token holder other
    by_cases same : token = FEI
    · subst same
      simp [Ledger.balanceOf, other]
    · simp [Ledger.balanceOf, same]
  · funext token owner spender
    by_cases same : token = FEI
    · subst same
      simp [Ledger.allowance]
    · simp [Ledger.allowance, same]

theorem burned_of_burnFeiHeld (succeeds : burnFeiHeld timelock this s = .ok s') :
    ∃ t, releaseMax timelock (LinearTokenTimelock.overrides timelock) s.toTokenTimelockState this
      this = .ok t ∧ Burned this t s s' := by
  obtain ⟨t, released, rest⟩ := bind_eq_ok_iff.mp succeeds
  refine ⟨t, released, ?_⟩
  dsimp only at rest
  split at rest
  · obtain ⟨w, burns, empty, others, transfers, allowance⟩ := perform_burn_all t.ledger this
    obtain ⟨ledger, performed, same⟩ := bind_eq_ok_iff.mp rest
    cases burns.symm.trans performed
    cases same
    exact ⟨rfl, rfl, empty, others, transfers, allowance⟩
  · rename_i zero
    have zero := not_not.mp zero
    cases rest
    exact ⟨rfl, by rw [zero, Nat.add_zero], zero, fun _ => rfl, rfl, rfl⟩

theorem burnFeiHeld_succeeds {t : TokenTimelockState}
    (released : releaseMax timelock (LinearTokenTimelock.overrides timelock)
      s.toTokenTimelockState this this = .ok t) : ∃ s', burnFeiHeld timelock this s = .ok s' := by
  by_cases some : t.ledger.balanceOf FEI this ≠ 0
  · obtain ⟨w, burns, _⟩ := perform_burn_all t.ledger this
    refine ⟨⟨{ t with ledger := w }, s.burned + t.ledger.balanceOf FEI this⟩,
      bind_eq_ok_iff.mpr ⟨t, released, ?_⟩⟩
    exact (if_pos some).trans (bind_eq_ok_iff.mpr ⟨w, burns, rfl⟩)
  · refine ⟨{ s with toTokenTimelockState := t }, bind_eq_ok_iff.mpr ⟨t, released, ?_⟩⟩
    exact if_neg some

theorem Burned.heldToken {t : TokenTimelockState} (burned : Burned this t s s')
    (other : this ≠ timelock) :
    heldToken timelock s'.toTokenTimelockState = heldToken timelock t := by
  have token : s'.lockedToken = t.lockedToken := by rw [burned.timelock]
  rw [TokenTimelock.heldToken, token]
  exact burned.others other.symm

theorem Burned.received {t : TokenTimelockState} (burned : Burned this t s s')
    (holder token : Address) :
    s'.ledger.received holder token = t.ledger.received holder token := by
  rw [Ledger.received, Ledger.received, Ledger.total, Ledger.total, burned.transfers]

theorem Burned.books {t : TokenTimelockState} {schedule : Nat → Nat → Nat → Nat}
    (burned : Burned this t s s') (other : this ≠ timelock) (books : Books timelock 0 schedule t) :
    Books timelock 0 schedule s'.toTokenTimelockState := by
  have held := burned.heldToken other
  have unapproved : s'.ledger.Unapproved timelock := by
    intro token spender
    rw [burned.allowance]
    exact books.unapproved token spender
  have result := burned.timelock
  have fields : s'.lastBalance = t.lastBalance ∧ s'.initialBalance = t.initialBalance ∧
      s'.timed = t.timed ∧ elapsed s'.toTokenTimelockState = elapsed t := by
    rw [result]
    exact ⟨rfl, rfl, rfl, rfl⟩
  obtain ⟨last, initial, timed, time⟩ := fields
  refine ⟨?_, ?_, ?_, ?_, unapproved⟩
  · rw [last, held]
    exact books.last_le
  · rw [last, initial]
    exact books.last_le_initial
  · rw [initial]
    exact books.initial_lt
  · rw [last, initial, timed, time]
    exact books.within

theorem Burned.flow {t : TokenTimelockState} (burned : Burned this t s s')
    (other : this ≠ timelock) :
    Flow timelock this 0 0 t s'.toTokenTimelockState := by
  have held := burned.heldToken other
  have result := burned.timelock
  have token : s'.lockedToken = t.lockedToken := by rw [result]
  have quiet : released s'.toTokenTimelockState = released t := by rw [result]; rfl
  refine ⟨?_, ?_, token, .quiet (by rw [result])⟩
  · rw [held, quiet, receivedToken, receivedToken, token, burned.received]
  · rw [quiet, burned.received]

/-! ## Steps -/

/-- The burner is the beneficiary, of a timelock of FEI. -/
structure Held (timelock this : Address) (s : FeiLinearTokenTimelockBurnerState) : Prop where
  captive : Captive this s.toTokenTimelockState
  books : Books timelock 0 Vesting.linear s.toTokenTimelockState
  token : s.lockedToken = FEI
  unapproved : s.ledger.Unapproved this

/-- What left the timelock was released, each time to the burner, and what came to the burner was
burned or is there. -/
structure Contained (timelock this : Address) (s s' : FeiLinearTokenTimelockBurnerState) :
    Prop where
  flow : Flow timelock this 0 0 s.toTokenTimelockState s'.toTokenTimelockState
  burner : s'.burned + s'.ledger.balanceOf FEI this + s.ledger.received this FEI =
    s.burned + s.ledger.balanceOf FEI this + s'.ledger.received this FEI

theorem Contained.trans (first : Contained timelock this s s')
    (second : Contained timelock this s' s'') : Contained timelock this s s'' := by
  have before := first.burner
  have after := second.burner
  exact ⟨first.flow.trans second.flow, by omega⟩

/-- A sweep releases all that is available, and burns it with what the burner had. -/
structure Swept (timelock this : Address) (s s' : FeiLinearTokenTimelockBurnerState) : Prop where
  contained : Contained timelock this s s'
  terms : SameTerms s.toTokenTimelockState s'.toTokenTimelockState
  held : heldToken timelock s'.toTokenTimelockState +
    available timelock 0 Vesting.linear s.toTokenTimelockState =
      heldToken timelock s.toTokenTimelockState
  empty : s'.ledger.balanceOf FEI this = 0
  burned : s'.burned = s.burned + s.ledger.balanceOf FEI this +
    available timelock 0 Vesting.linear s.toTokenTimelockState

theorem swept_of_burnFeiHeld (held : Held timelock this s) (other : this ≠ timelock)
    (succeeds : burnFeiHeld timelock this s = .ok s') :
    Held timelock this s' ∧ Swept timelock this s s' := by
  have books := held.books
  obtain ⟨t, releases, burned⟩ := burned_of_burnFeiHeld succeeds
  obtain ⟨_, fit, _, _, _, pays⟩ :=
    (releaseMax_iff (LinearTokenTimelock.computes timelock) books).mp releases
  have moved := Ledger.safeTransfer_moved pays.paid
  have token := held.token
  have result := burned.timelock
  have terms : SameTerms s.toTokenTimelockState s'.toTokenTimelockState := by
    rw [result]
    exact ⟨pays.terms.timed, pays.terms.lockedToken, pays.terms.cliffSeconds,
      pays.terms.clawbackAdmin⟩
  have come : t.ledger.balanceOf FEI this = s.ledger.balanceOf FEI this +
      available timelock 0 Vesting.linear s.toTokenTimelockState := by
    have balance := moved.balance FEI this
    simpa only [token, other, and_false, if_false, and_self, if_true, Nat.add_zero] using balance
  have received : s'.ledger.received this FEI = s.ledger.received this FEI +
      available timelock 0 Vesting.linear s.toTokenTimelockState := by
    rw [burned.received]
    simpa [Ledger.received, token, other.symm] using moved.total_eq
      fun e => e.operator ≠ this && e.token = FEI && e.dst = this
  have left := pays.heldToken
  rw [if_neg other] at left
  have gone := burned.burned
  have empty := burned.empty
  constructor
  · refine ⟨?_, burned.books other (pays.books Vesting.complete_linear books fit (Nat.le_refl _)),
      terms.lockedToken.trans token, ?_⟩
    · have same := pays.result
      rw [result]
      constructor
      · exact (congrArg TokenTimelockState.beneficiary same).trans held.captive.beneficiary
      · exact (congrArg TokenTimelockState.pendingBeneficiary same).trans
          held.captive.pendingBeneficiary
    · intro any spender
      rw [burned.allowance]
      exact moved.unapproved held.unapproved any spender
  · refine ⟨⟨(pays.flow other).trans (burned.flow other), by omega⟩, terms, ?_, empty, by omega⟩
    rw [burned.heldToken other]
    exact left

theorem contained_of_step {a : Action} (held : Held timelock this s) (other : this ≠ timelock)
    (nonzero : this ≠ 0) (external : a.External timelock this)
    (succeeds : step timelock this s a = .ok s') :
    Held timelock this s' ∧ Contained timelock this s s' ∧
      SameTerms s.toTokenTimelockState s'.toTokenTimelockState := by
  cases a with
  | timelock a =>
      obtain ⟨t, called, same⟩ := bind_eq_ok_iff.mp succeeds
      cases same
      have others := others_of_step held.captive external called
      have none := held.books.unapproved
      have custody := others.custody (.inl rfl) held.unapproved
      have balance := custody.balance FEI
      have accrued : Accrued timelock 0 0 s.toTokenTimelockState t := others.accrued rfl none
      have books := accrued.books Vesting.complete_linear held.books
        (others.custody (.inr rfl) none).unapproved
      refine ⟨⟨others.captive held.captive, books,
        others.terms.lockedToken.trans held.token, custody.unapproved⟩,
        ⟨others.flow rfl none held.unapproved, ?_⟩, others.terms⟩
      dsimp only
      omega
  | acceptBeneficiary =>
      obtain ⟨t, accepts, _⟩ := bind_eq_ok_iff.mp succeeds
      obtain ⟨_, caller, _⟩ := bind_eq_ok_iff.mp accepts
      exact absurd ((require_eq_ok_iff.mp caller).trans held.captive.pendingBeneficiary) nonzero
  | burnFeiHeld =>
      obtain ⟨kept, swept⟩ := swept_of_burnFeiHeld held other succeeds
      exact ⟨kept, swept.contained, swept.terms⟩

/-! ## Runs -/

theorem held_of_accept {t : TokenTimelockState} (books : Books timelock 0 Vesting.linear t)
    (same : s.toTokenTimelockState = t) (token : t.lockedToken = FEI)
    (unapproved : t.ledger.Unapproved this) (accepts : acceptBeneficiary this s = .ok s') :
    Held timelock this s' ∧ SameTerms t s'.toTokenTimelockState := by
  subst same
  obtain ⟨t, accepted, same⟩ := bind_eq_ok_iff.mp accepts
  cases same
  have captive := captive_of_accept accepted
  obtain ⟨_, _, result⟩ := bind_eq_ok_iff.mp accepted
  cases result
  exact ⟨⟨captive, ⟨books.last_le, books.last_le_initial, books.initial_lt, books.within,
    books.unapproved⟩, token, unapproved⟩, ⟨rfl, rfl, rfl, rfl⟩⟩

section Runs

variable {ledger : Ledger} {timestamp : Nat} {_beneficiary _clawbackAdmin : Address}
  {_duration _cliffDuration _startTime : UInt256} {t₀ : TokenTimelockState}
  {before : List TokenTimelock.Action} {after : List Action}
  (other : this ≠ timelock) (nonzero : this ≠ 0)
  (deploys : LinearTokenTimelock.construct ledger timestamp _beneficiary _duration FEI
    _cliffDuration _clawbackAdmin _startTime = .ok t₀)
  (none : ledger.Unapproved timelock) (regular : ∀ a ∈ before, a.Regular (· = timelock))
  (reached : s.toTokenTimelockState =
    run (TokenTimelock.step timelock (LinearTokenTimelock.overrides timelock)) t₀ before)
  (unapproved : s.ledger.Unapproved this) (accepts : acceptBeneficiary this s = .ok s')
  (external : ∀ a ∈ after, a.External timelock this)
  (ends : s'' = run (step timelock this) s' after)

include other nonzero deploys none regular reached unapproved accepts external ends

theorem held_run : Held timelock this s'' ∧ Contained timelock this s' s'' ∧
    SameTerms t₀ s''.toTokenTimelockState := by
  obtain ⟨t, built, started⟩ := bind_eq_ok_iff.mp deploys
  cases started
  have computes := LinearTokenTimelock.computes timelock
  have books : Books timelock 0 Vesting.linear (startAt t _startTime) :=
    books_of_construct built none _startTime
  have terms := terms_run computes books regular
  have token := lockedToken_of_construct built _startTime
  have later := books_run computes books regular
  rw [← reached] at later terms
  obtain ⟨held, kept⟩ := held_of_accept later rfl (terms.lockedToken.trans token) unapproved accepts
  have all : Held timelock this (run (step timelock this) s' after) ∧
      Contained timelock this s' (run (step timelock this) s' after) ∧
      SameTerms s'.toTokenTimelockState
        (run (step timelock this) s' after).toTokenTimelockState := by
    refine run_invariant (I := fun r => Held timelock this r ∧ Contained timelock this s' r ∧
      SameTerms s'.toTokenTimelockState r.toTokenTimelockState)
      (A := fun a => a.External timelock this) ?_ ⟨held, ⟨.refl _, rfl⟩, .refl _⟩ external
    intro r a r' kept external succeeds
    obtain ⟨held, contained, terms⟩ := kept
    obtain ⟨held', contained', terms'⟩ := contained_of_step held other nonzero external succeeds
    exact ⟨held', contained.trans contained', terms.trans terms'⟩
  rw [← ends] at all
  exact ⟨all.1, all.2.1, (terms.trans kept).trans all.2.2⟩

/-- Once the burner has become the beneficiary of a timelock of FEI, in whatever state and
whatever others do, as long as nothing is clawed back: it stays the beneficiary, what leaves the
timelock is released, each time to the burner, and what comes to the burner is burned or there to
be burned. -/
theorem fei_contained : s''.beneficiary = this ∧ Contained timelock this s' s'' := by
  obtain ⟨held, contained, _⟩ :=
    held_run other nonzero deploys none regular reached unapproved accepts external ends
  exact ⟨held.captive.beneficiary, contained⟩

/-- At the end of the vesting period one call by anybody burns everything, the timelock's FEI and
the burner's, exactly if the cliff is not later than the end and the arithmetic fits a word. -/
theorem burnFeiHeld_end_iff (positive : 0 < timestamp) (ended : Ended 0 s''.toTokenTimelockState) :
    (∃ r, burnFeiHeld timelock this s'' = .ok r ∧
      heldToken timelock r.toTokenTimelockState = 0 ∧ r.ledger.balanceOf FEI this = 0 ∧
      r.burned = s''.burned + s''.ledger.balanceOf FEI this +
        heldToken timelock s''.toTokenTimelockState) ↔
    Unlockable timelock LinearTokenTimelock.fits s''.toTokenTimelockState := by
  obtain ⟨held, _, terms⟩ :=
    held_run other nonzero deploys none regular reached unapproved accepts external ends
  obtain ⟨t, built, started⟩ := bind_eq_ok_iff.mp deploys
  cases started
  have computes := LinearTokenTimelock.computes timelock
  have set : s''.timed.startTime ≠ 0 := by
    rw [terms.timed]
    exact startTime_ne_of_construct built positive _startTime
  have past := ended.past
  have whole : elapsed s''.toTokenTimelockState = s''.timed.duration := by
    rw [elapsed, if_neg set]
    omega
  have all := available_end computes held.books whole
  have empties : EmptiesTo timelock _ s''.toTokenTimelockState this ↔ _ :=
    releaseMax_end_iff computes held.books set ended
  rw [← empties]
  constructor
  · intro given
    obtain ⟨r, succeeds, _⟩ := given
    obtain ⟨u, releases, _⟩ := burned_of_burnFeiHeld succeeds
    have pays := ((releaseMax_iff computes held.books).mp releases).2.2.2.2.2
    rw [all] at pays
    refine ⟨u, ?_, pays.paid⟩
    change releaseMax timelock _ _ s''.beneficiary this = _
    rw [held.captive.beneficiary]
    exact releases
  · intro given
    obtain ⟨u, releases, _⟩ := given
    change releaseMax timelock _ _ s''.beneficiary this = _ at releases
    rw [held.captive.beneficiary] at releases
    obtain ⟨r, succeeds⟩ := burnFeiHeld_succeeds releases
    obtain ⟨_, swept⟩ := swept_of_burnFeiHeld held other succeeds
    have left := swept.held
    have burned := swept.burned
    rw [all] at left burned
    exact ⟨r, succeeds, by omega, swept.empty, burned⟩

end Runs

end FeiLinearTokenTimelockBurner

namespace FeiLinearTokenTimelockBurner.Sample

open Timelocks.Sample

/-- A timelock of FEI at 0xAA, for 100 seconds. -/
def deployed : TokenTimelockState := { linear with lockedToken := FEI }

/-- The beneficiary appoints the burner at 0xBB. -/
def appointed : List TokenTimelock.Action :=
  [.token 9 (.transfer FEI 0xAA 400), .elapse 50, .setPendingBeneficiary 7 0xBB]

theorem appointed_regular : ∀ a ∈ appointed, a.Regular (· = (0xAA : Address)) := by
  simp [appointed, TokenTimelock.Action.Regular]

def handedOver : FeiLinearTokenTimelockBurnerState :=
  ⟨run (TokenTimelock.step 0xAA (LinearTokenTimelock.overrides 0xAA)) deployed appointed, 0⟩

def accepted : FeiLinearTokenTimelockBurnerState :=
  ⟨{ handedOver.toTokenTimelockState with
      beneficiary := 0xBB
      pendingBeneficiary := 0
      events := handedOver.events ++ [.BeneficiaryUpdate 0xBB] }, 0⟩

theorem accepts : acceptBeneficiary 0xBB handedOver = .ok accepted := rfl

theorem unapproved : handedOver.ledger.Unapproved 0xBB := by
  have paid : ledger.safeTransfer 9 FEI 0xAA 400 = .ok handedOver.ledger := rfl
  exact (Ledger.safeTransfer_moved paid).unapproved (Timelocks.Sample.unapproved 0xBB)

/-- Half is burned. The former beneficiary tries to have more released, and gives the burner
30. -/
def after : List Action :=
  [.burnFeiHeld, .timelock (.releaseMax 7 7), .timelock (.token 9 (.transfer FEI 0xBB 30)),
    .timelock (.elapse 100)]

theorem after_external : ∀ a ∈ after, a.External 0xAA 0xBB := by
  simp [after, Action.External, TokenTimelock.Action.ByOthers]

def last : FeiLinearTokenTimelockBurnerState := run (step 0xAA 0xBB) accepted after

end FeiLinearTokenTimelockBurner.Sample

namespace FeiLinearTokenTimelockBurner

theorem fei_contained_sample :
    (Sample.last.beneficiary = 0xBB ∧ Sample.last.burned = 200 ∧
      Sample.last.ledger.balanceOf FEI 0xBB = 30) ∧
    Contained 0xAA 0xBB Sample.accepted Sample.last := by
  obtain ⟨beneficiary, contained⟩ := fei_contained (by decide) (by decide)
    (rfl : LinearTokenTimelock.construct _ 1000 7 100 FEI 10 3 0 = .ok Sample.deployed)
    (Timelocks.Sample.unapproved 0xAA) Sample.appointed_regular
    (rfl : Sample.handedOver.toTokenTimelockState = _) Sample.unapproved
    Sample.accepts Sample.after_external (rfl : Sample.last = _)
  exact ⟨⟨beneficiary, by decide +kernel, by decide +kernel⟩, contained⟩

theorem burnFeiHeld_end_iff_sample : ∃ r, burnFeiHeld 0xAA 0xBB Sample.last = .ok r ∧
    heldToken 0xAA r.toTokenTimelockState = 0 ∧ r.burned = 430 := by
  have unlockable : Unlockable 0xAA LinearTokenTimelock.fits Sample.last.toTokenTimelockState :=
    ⟨by decide +kernel, by decide +kernel, by decide +kernel⟩
  obtain ⟨r, succeeds, empty, _, burned⟩ := (burnFeiHeld_end_iff (by decide) (by decide)
    (rfl : LinearTokenTimelock.construct _ 1000 7 100 FEI 10 3 0 = .ok Sample.deployed)
    (Timelocks.Sample.unapproved 0xAA) Sample.appointed_regular
    (rfl : Sample.handedOver.toTokenTimelockState = _) Sample.unapproved
    Sample.accepts Sample.after_external (rfl : Sample.last = _)
    (by decide : 0 < 1000) ⟨by decide +kernel, rfl⟩).mpr unlockable
  refine ⟨r, succeeds, empty, burned.trans ?_⟩
  decide +kernel

end FeiLinearTokenTimelockBurner

end FeiProtocol
