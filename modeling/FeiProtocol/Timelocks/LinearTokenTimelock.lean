import FeiProtocol.Timelocks.TokenTimelock

/-!
# `LinearTokenTimelock` and `QuadraticTokenTimelock`

The two timelocks that hold their own tokens. They differ in the proportion that has
vested.

* `Vested`: the vesting account is within its schedule, and adds up to what the ledger says
  was received.
* `Vested.released_le`, `Vested.availableForRelease_succeeds`: what this says of releases.
* `vested_run`: every ordinary run keeps it.
-/

namespace FeiProtocol

open Evm TokenTimelock

namespace TokenTimelock

/-- A start time of zero means now. -/
def startAt (s : TokenTimelockState) (_startTime : UInt256) : TokenTimelockState :=
  if _startTime ≠ 0 then { s with timed := { s.timed with startTime := _startTime.toNat } } else s

end TokenTimelock

/-! ## The contracts -/

namespace LinearTokenTimelock

def _proportionAvailable (initialBalance elapsed duration : Nat) : Except Revert Nat := do
  let product ← checkedMul initialBalance elapsed
  checkedDiv product duration

def construct (ledger : Ledger) (timestamp : Nat) (_beneficiary : Address) (_duration : UInt256)
    (_lockedToken : Address) (_cliffDuration : UInt256) (_clawbackAdmin : Address)
    (_startTime : UInt256) : Except Revert TokenTimelockState := do
  let s ← TokenTimelock.construct ledger timestamp _beneficiary _duration _cliffDuration
    _lockedToken _clawbackAdmin
  return startAt s _startTime

def overrides (this : Address) : Overrides where
  totalToken s := .ok (heldToken this s)
  _proportionAvailable := _proportionAvailable

theorem proportion_eq {r e d n : Nat} (succeeds : _proportionAvailable r e d = .ok n) :
    n = Vesting.linear d r e := by
  simp only [_proportionAvailable, bind_eq_ok_iff, checkedMul_eq_ok_iff, checkedDiv_eq_ok_iff]
    at succeeds
  obtain ⟨product, ⟨_, same⟩, _, quotient⟩ := succeeds
  subst same
  exact quotient.symm

theorem implements (this : Address) :
    Implements (overrides this) this 0 Vesting.linear where
  totalToken counted := by
    cases counted
    rfl
  proportion := proportion_eq

end LinearTokenTimelock

namespace QuadraticTokenTimelock

def _proportionAvailable (initialBalance elapsed duration : Nat) : Except Revert Nat := do
  let product ← checkedMul initialBalance elapsed
  let square ← checkedMul product elapsed
  let quotient ← checkedDiv square duration
  checkedDiv quotient duration

def construct (ledger : Ledger) (timestamp : Nat) (_beneficiary : Address) (_duration : UInt256)
    (_lockedToken : Address) (_cliffDuration : UInt256) (_clawbackAdmin : Address)
    (_startTime : UInt256) : Except Revert TokenTimelockState := do
  let s ← TokenTimelock.construct ledger timestamp _beneficiary _duration _cliffDuration
    _lockedToken _clawbackAdmin
  return startAt s _startTime

def overrides (this : Address) : Overrides where
  totalToken s := .ok (heldToken this s)
  _proportionAvailable := _proportionAvailable

theorem proportion_eq {r e d n : Nat} (succeeds : _proportionAvailable r e d = .ok n) :
    n = Vesting.quadratic d r e := by
  simp only [_proportionAvailable, bind_eq_ok_iff, checkedMul_eq_ok_iff, checkedDiv_eq_ok_iff]
    at succeeds
  obtain ⟨product, ⟨_, same⟩, square, ⟨_, squared⟩, quotient, ⟨_, divided⟩, _, last⟩ := succeeds
  subst same
  subst squared
  subst divided
  exact last.symm

theorem implements (this : Address) :
    Implements (overrides this) this 0 Vesting.quadratic where
  totalToken counted := by
    cases counted
    rfl
  proportion := proportion_eq

end QuadraticTokenTimelock

/-! ## Runs -/

namespace TokenTimelock

/-- The tokens received since before the deployment: those it found, and what other accounts
have sent since, less what came back from delegates. -/
def totalReceived (this : Address) (ledger : Ledger) (undelegated : Nat)
    (s : TokenTimelockState) : Nat :=
  ledger.balanceOf s.lockedToken this +
    (receivedToken this s - ledger.received this s.lockedToken) - undelegated

/-- What holds from deployment over `ledger` on, with `delegated` tokens kept elsewhere
and `undelegated` that came back. -/
structure Vested (this : Address) (ledger : Ledger) (delegated undelegated : Nat)
    (schedule : Nat → Nat → Nat → Nat) (s : TokenTimelockState) : Prop where
  known : Reconstructed this delegated s
  within : Vesting.Within (schedule s.timed.duration) (account this s delegated)
  unapproved : s.ledger.Unapproved this
  accounted : heldToken this s + delegated + released s + undelegated +
    ledger.received this s.lockedToken =
      ledger.balanceOf s.lockedToken this + receivedToken this s
  received_le : ledger.received this s.lockedToken ≤ receivedToken this s

variable {this : Address} {ledger : Ledger} {delegated undelegated : Nat} {o : Overrides}
  {schedule : Nat → Nat → Nat → Nat} {s s' : TokenTimelockState} {own : Address → Prop}

/-- The account has received what the ledger says. -/
theorem Vested.received_eq (vested : Vested this ledger delegated undelegated schedule s) :
    (account this s delegated).received = totalReceived this ledger undelegated s := by
  have accounted := vested.accounted
  have received_le := vested.received_le
  simp only [account, totalReceived]
  omega

/-- No more was released than the schedule allows of what was received. -/
theorem Vested.released_le (vested : Vested this ledger delegated undelegated schedule s) :
    released s ≤ schedule s.timed.duration (totalReceived this ledger undelegated s)
      (elapsed s) := by
  rw [← vested.received_eq]
  exact vested.within

theorem Vested.availableForRelease_succeeds
    (vested : Vested this ledger delegated undelegated schedule s)
    (implements : Implements o this delegated schedule) {e total totalAvailable : Nat}
    (noted : noteDeposits o s = .ok s') (time : s'.timed.timeSinceStart s'.timestamp = .ok e)
    (counted : o.totalToken s' = .ok total)
    (proportion : o._proportionAvailable s'.initialBalance e s'.timed.duration =
      .ok totalAvailable) :
    ∃ available, availableForRelease o s' = .ok available := by
  have same := noteDeposits_eq implements vested.known noted
  subst same
  have now := time.symm.trans (timeSinceStart_eq vested.known.started)
  cases now
  exact TokenTimelock.availableForRelease_succeeds
    (s := { s with initialBalance := (account this s delegated).received }) implements
    vested.known.started rfl vested.within counted proportion

theorem Stepped.vested (stepped : Stepped this own delegated schedule s s')
    (mono : ∀ d, Vesting.Monotone (schedule d))
    (vested : Vested this ledger delegated undelegated schedule s) :
    Vested this ledger delegated undelegated schedule s' := by
  have balance := stepped.balance
  have more := stepped.received_le
  have accounted := vested.accounted
  have before := vested.received_le
  refine ⟨stepped.known, ?_, stepped.unapproved, ?_, ?_⟩
  · rw [stepped.timed]
    exact stepped.vests.within (mono _) vested.within
  · rw [stepped.lockedToken]
    omega
  · rw [stepped.lockedToken]
    exact Nat.le_trans before more

/-- Moving tokens to other places and back keeps what was received. -/
theorem Accrued.vested {delegated' undelegated' : Nat}
    (accrued : Accrued this delegated delegated' s s')
    (mono : ∀ d, Vesting.Monotone (schedule d))
    (vested : Vested this ledger delegated undelegated schedule s)
    (unapproved : s'.ledger.Unapproved this) (lockedToken : s'.lockedToken = s.lockedToken)
    (balance : heldToken this s' + delegated' + undelegated' + receivedToken this s =
      heldToken this s + delegated + undelegated + receivedToken this s')
    (more : receivedToken this s ≤ receivedToken this s') :
    Vested this ledger delegated' undelegated' schedule s' := by
  have accounted := vested.accounted
  have before := vested.received_le
  have out := accrued.released
  refine ⟨accrued.reconstructed vested.known, ?_, unapproved, ?_, ?_⟩
  · rw [accrued.timed]
    exact accrued.vests.within (mono _) vested.within
  · rw [lockedToken]
    omega
  · rw [lockedToken]
    exact Nat.le_trans before more

/-- A timelock right after its deployment over `ledger`. -/
structure Deployed (this : Address) (ledger : Ledger) (s : TokenTimelockState) : Prop where
  ledger : s.ledger = ledger
  initialBalance : s.initialBalance = 0
  lastBalance : s.lastBalance = 0
  events : s.events = []
  started : s.timed.startTime ≤ s.timestamp

theorem Deployed.vested (deployed : Deployed this ledger s) (none : ledger.Unapproved this) :
    Vested this ledger 0 0 schedule s := by
  have nothing : released s = 0 := by simp [released, deployed.events]
  refine ⟨⟨deployed.started, ?_, ?_⟩, ?_, ?_, ?_, ?_⟩
  · rw [deployed.lastBalance]
    exact Nat.zero_le _
  · rw [deployed.initialBalance, deployed.lastBalance, nothing]
  · simp only [Vesting.Within, account, nothing, Nat.zero_le]
  · rw [deployed.ledger]
    exact none
  · rw [nothing, heldToken, receivedToken, deployed.ledger]
    omega
  · rw [receivedToken, deployed.ledger]

theorem deployed_of_construct {timestamp : Nat} {_beneficiary _lockedToken _clawbackAdmin : Address}
    {_duration _cliffSeconds _startTime : UInt256} (past : _startTime.toNat ≤ timestamp)
    (deploys : construct ledger timestamp _beneficiary _duration _cliffSeconds _lockedToken
      _clawbackAdmin = .ok s) :
    Deployed this ledger (startAt s _startTime) := by
  simp only [construct, bind_eq_ok_iff, pure_eq_ok_iff] at deploys
  obtain ⟨_, _, _, _, _, _, same⟩ := deploys
  subst same
  rw [startAt]
  split
  · exact ⟨rfl, rfl, rfl, rfl, past⟩
  · exact ⟨rfl, rfl, rfl, rfl, Nat.le_refl _⟩

theorem lockedToken_of_construct {timestamp : Nat}
    {_beneficiary _lockedToken _clawbackAdmin : Address} {_duration _cliffSeconds : UInt256}
    (deploys : construct ledger timestamp _beneficiary _duration _cliffSeconds _lockedToken
      _clawbackAdmin = .ok s) (_startTime : UInt256) :
    (startAt s _startTime).lockedToken = _lockedToken := by
  simp only [construct, bind_eq_ok_iff, pure_eq_ok_iff] at deploys
  obtain ⟨_, _, _, _, _, _, same⟩ := deploys
  subst same
  rw [startAt]
  split <;> rfl

/-- **Vesting.** Every ordinary run of a timelock that holds its own tokens stays within the
schedule. -/
theorem vested_run (implements : Implements o this 0 schedule)
    (mono : ∀ d, Vesting.Monotone (schedule d)) (vested : Vested this ledger 0 0 schedule s)
    {actions : List Action} (ordinary : ∀ a ∈ actions, a.Ordinary this (· = this)) :
    Vested this ledger 0 0 schedule (run (step this o) s actions) := by
  apply run_invariant (I := Vested this ledger 0 0 schedule)
    (A := fun a => a.Ordinary this (· = this)) _ vested ordinary
  intro s a s' vested ordinary succeeds
  exact (stepped_of_step implements vested.known vested.unapproved ordinary rfl
    succeeds).vested mono vested

/-! ## The promise -/

/-- What a timelock deployed over `ledger` promises in a state `s`, with `r` an earlier state
of the run, or `s` itself: if nothing was released since `r`, all releases stay within the
proportion of what was received by then, and the subtractions in `availableForRelease` do not
underflow once `balanceCheck` has noted the deposits. -/
structure Safe (this : Address) (ledger : Ledger) (undelegated : Nat) (o : Overrides)
    (r s : TokenTimelockState) : Prop where
  released_le : released s = released r → ∀ e available,
    r.timed.timeSinceStart r.timestamp = .ok e →
    o._proportionAvailable (totalReceived this ledger undelegated r) e r.timed.duration =
      .ok available → released s ≤ available
  noUnderflow : ∀ s' e total totalAvailable, noteDeposits o s = .ok s' →
    s'.timed.timeSinceStart s'.timestamp = .ok e → o.totalToken s' = .ok total →
    o._proportionAvailable s'.initialBalance e s'.timed.duration = .ok totalAvailable →
    ∃ available, availableForRelease o s' = .ok available

theorem safe_of_vested {r : TokenTimelockState} {d u : Nat}
    (implements : Implements o this delegated schedule)
    (earlier : Vested this ledger d u schedule r)
    (now : Vested this ledger delegated undelegated schedule s) : Safe this ledger u o r s := by
  constructor
  · intro same e available time proportion
    cases time.symm.trans (timeSinceStart_eq earlier.known.started)
    rw [same, implements.proportion proportion]
    exact earlier.released_le
  · intro s' e total totalAvailable noted time counted proportion
    exact now.availableForRelease_succeeds implements noted time counted proportion

/-- The promise of a timelock that holds its own tokens. -/
theorem safe_run (implements : Implements o this 0 schedule)
    (mono : ∀ d, Vesting.Monotone (schedule d)) (deployed : Deployed this ledger s)
    (none : ledger.Unapproved this) {before after : List Action}
    (ordinary : ∀ a ∈ before ++ after, a.Ordinary this (· = this)) :
    Safe this ledger 0 o (run (step this o) s before) (run (step this o) s (before ++ after)) := by
  have vested : Vested this ledger 0 0 schedule s := deployed.vested none
  exact safe_of_vested implements
    (vested_run implements mono vested fun a mem => ordinary a (List.mem_append_left _ mem))
    (vested_run implements mono vested ordinary)

end TokenTimelock

end FeiProtocol
