import FeiProtocol.Evm.Ledger
import FeiProtocol.Evm.Machine
import FeiProtocol.Math.Vesting
import FeiProtocol.Utils.Timed

/-!
# `TokenTimelock`

A timelock that releases a token to a beneficiary over time. What it has received is not
stored: `balanceCheck` reconstructs it from the balance before and after each release.

The two virtual functions are `Overrides`. A timelock that keeps part of its tokens
elsewhere counts them in `totalToken`.

* `Reconstructed`: what the stored balances say about what was received and released.
* `released_of_release`: a release is a release of the vesting account, and
  `availableForRelease_succeeds`: the subtraction in it does not underflow.
-/

namespace FeiProtocol

open Evm

inductive TokenTimelockEvent : Type where
  | Release (beneficiary recipient : Address) (amount : Nat)
  | BeneficiaryUpdate (beneficiary : Address)
  | PendingBeneficiaryUpdate (pendingBeneficiary : Address)
  deriving DecidableEq, Repr

structure TokenTimelockState : Type where
  timed : Timed
  lockedToken : Address
  beneficiary : Address
  pendingBeneficiary : Address
  initialBalance : Nat
  lastBalance : Nat
  cliffSeconds : Nat
  clawbackAdmin : Address
  ledger : Ledger
  /-- the timestamp of the current block -/
  timestamp : Nat
  /-- oldest first -/
  events : List TokenTimelockEvent

namespace TokenTimelock

/-- The functions that the timelocks override. -/
structure Overrides : Type where
  totalToken : TokenTimelockState → Except Revert Nat
  _proportionAvailable : Nat → Nat → Nat → Except Revert Nat

variable (this : Address) (o : Overrides) (s : TokenTimelockState)

/-! ## The contract -/

def construct (ledger : Ledger) (timestamp : Nat) (_beneficiary : Address)
    (_duration _cliffSeconds : UInt256) (_lockedToken _clawbackAdmin : Address) :
    Except Revert TokenTimelockState := do
  let (timed, _) ← Timed.construct _duration.toNat
  require (_duration ≠ 0) "TokenTimelock: duration is 0"
  require (_beneficiary ≠ 0) "TokenTimelock: Beneficiary must not be 0 address"
  let (timed, _) := timed._initTimed timestamp
  return { timed
           lockedToken := _lockedToken
           beneficiary := _beneficiary
           pendingBeneficiary := 0
           initialBalance := 0
           lastBalance := 0
           cliffSeconds := _cliffSeconds.toNat
           clawbackAdmin := _clawbackAdmin
           ledger
           timestamp
           events := [] }

/-- `lockedToken.balanceOf(address(this))` -/
def heldToken : Nat := s.ledger.balanceOf s.lockedToken this

/-- The part of `balanceCheck` before the body. -/
def noteDeposits : Except Revert TokenTimelockState := do
  let total ← o.totalToken s
  if total > s.lastBalance then
    let delta ← checkedSub total s.lastBalance
    let initialBalance ← checkedAdd s.initialBalance delta
    return { s with initialBalance }
  else return s

def balanceCheck (body : TokenTimelockState → Except Revert TokenTimelockState) :
    Except Revert TokenTimelockState := do
  let s ← noteDeposits o s
  let s ← body s
  let lastBalance ← o.totalToken s
  return { s with lastBalance }

def onlyBeneficiary (msgSender : Address) : Except Revert Unit :=
  require (msgSender = s.beneficiary) "TokenTimelock: Caller is not a beneficiary"

def passedCliff : Except Revert Bool := do
  let elapsed ← s.timed.timeSinceStart s.timestamp
  return elapsed ≥ s.cliffSeconds

def alreadyReleasedAmount : Except Revert Nat := do
  let total ← o.totalToken s
  checkedSub s.initialBalance total

def availableForRelease : Except Revert Nat := do
  let elapsed ← s.timed.timeSinceStart s.timestamp
  let totalAvailable ← o._proportionAvailable s.initialBalance elapsed s.timed.duration
  let alreadyReleased ← alreadyReleasedAmount o s
  checkedSub totalAvailable alreadyReleased

def _release (receiver : Address) (amount : Nat) : Except Revert TokenTimelockState := do
  let ledger ← s.ledger.safeTransfer this s.lockedToken receiver amount
  return { s with ledger, events := s.events ++ [.Release s.beneficiary receiver amount] }

def release (msgSender receiver : Address) (amount : UInt256) :
    Except Revert TokenTimelockState := do
  onlyBeneficiary s msgSender
  balanceCheck o s fun s => do
    require (amount ≠ 0) "TokenTimelock: no amount desired"
    let passed ← passedCliff s
    require (passed = true) "TokenTimelock: Cliff not passed"
    let available ← availableForRelease o s
    require (amount.toNat ≤ available) "TokenTimelock: not enough released tokens"
    _release this s receiver amount.toNat

def releaseMax (msgSender receiver : Address) : Except Revert TokenTimelockState := do
  onlyBeneficiary s msgSender
  balanceCheck o s fun s => do
    let passed ← passedCliff s
    require (passed = true) "TokenTimelock: Cliff not passed"
    let available ← availableForRelease o s
    _release this s receiver available

def setPendingBeneficiary (msgSender _pendingBeneficiary : Address) :
    Except Revert TokenTimelockState := do
  onlyBeneficiary s msgSender
  return { s with
    pendingBeneficiary := _pendingBeneficiary
    events := s.events ++ [.PendingBeneficiaryUpdate _pendingBeneficiary] }

def _setBeneficiary (newBeneficiary : Address) : Except Revert TokenTimelockState := do
  require (newBeneficiary = s.pendingBeneficiary)
    "TokenTimelock: Caller is not pending beneficiary"
  return { s with
    beneficiary := newBeneficiary
    pendingBeneficiary := 0
    events := s.events ++ [.BeneficiaryUpdate newBeneficiary] }

def acceptBeneficiary (msgSender : Address) : Except Revert TokenTimelockState :=
  _setBeneficiary s msgSender

def clawback (msgSender : Address) : Except Revert TokenTimelockState :=
  balanceCheck o s fun s => do
    require (msgSender = s.clawbackAdmin) "TokenTimelock: Only clawbackAdmin"
    let passed ← passedCliff s
    let s ← (if passed then do
      let available ← availableForRelease o s
      _release this s s.beneficiary available
    else .ok s)
    let total ← o.totalToken s
    _release this s s.clawbackAdmin total

/-! ## What the balances say -/

def TokenTimelockEvent.released : TokenTimelockEvent → Nat
  | .Release _ _ amount => amount
  | _ => 0

/-- All that has left by releases. -/
def released : Nat := (s.events.map TokenTimelockEvent.released).sum

/-- The time since the start, at most the duration. -/
def elapsed : Nat :=
  if s.timed.startTime = 0 then 0 else min (s.timestamp - s.timed.startTime) s.timed.duration

/-- The timelock as a vesting account, with `delegated` tokens kept elsewhere: what it has and
what it has released is what it has received. -/
def account (delegated : Nat) : Vesting.Account where
  received := heldToken this s + delegated + released s
  released := released s
  elapsed := elapsed s

/-- The overrides count the tokens kept elsewhere and follow a schedule. -/
structure Implements (o : Overrides) (this : Address) (delegated : Nat)
    (schedule : Nat → Nat → Nat → Nat) : Prop where
  totalToken : ∀ {s n}, o.totalToken s = .ok n → n = heldToken this s + delegated
  proportion : ∀ {r e d n}, o._proportionAvailable r e d = .ok n → n = schedule d r e

/-- The stored balances are those of the last release, if there was one. -/
structure Reconstructed (this : Address) (delegated : Nat) (s : TokenTimelockState) : Prop where
  started : s.timed.startTime ≤ s.timestamp
  last_le : s.lastBalance ≤ heldToken this s + delegated
  initial : s.initialBalance = s.lastBalance + released s

variable {this o s} {s' : TokenTimelockState} {delegated : Nat}
  {schedule : Nat → Nat → Nat → Nat} {sender receiver : Address} {amount n : Nat}

theorem timeSinceStart_eq (started : s.timed.startTime ≤ s.timestamp) :
    s.timed.timeSinceStart s.timestamp = .ok (elapsed s) := by
  rw [Timed.timeSinceStart_eq_ok_iff, elapsed]
  by_cases unset : s.timed.startTime = 0
  · exact .inr ⟨unset, if_pos unset⟩
  · exact .inl ⟨unset, started, (if_neg unset).symm⟩

/-- `balanceCheck` first stores what was received. -/
theorem noteDeposits_eq (implements : Implements o this delegated schedule)
    (known : Reconstructed this delegated s) (succeeds : noteDeposits o s = .ok s') :
    s' = { s with initialBalance := (account this s delegated).received } := by
  simp only [noteDeposits, bind_eq_ok_iff] at succeeds
  obtain ⟨total, counted, succeeds⟩ := succeeds
  have total_eq := implements.totalToken counted
  have last_le := known.last_le
  have initial := known.initial
  split at succeeds
  · simp only [bind_eq_ok_iff, pure_eq_ok_iff, checkedSub_eq_ok_iff, checkedAdd_eq_ok_iff]
      at succeeds
    obtain ⟨delta, ⟨_, more⟩, initialBalance, ⟨_, sum⟩, same⟩ := succeeds
    have received : initialBalance = (account this s delegated).received := by
      simp only [account]
      omega
    rw [← same, received]
  · cases succeeds
    have received : s.initialBalance = (account this s delegated).received := by
      simp only [account]
      omega
    rw [← received]

/-- With the deposits noted, what is available is what the schedule leaves. -/
theorem availableForRelease_eq_ok (implements : Implements o this delegated schedule)
    (started : s.timed.startTime ≤ s.timestamp)
    (noted : s.initialBalance = (account this s delegated).received)
    (succeeds : availableForRelease o s = .ok n) :
    released s + n ≤ schedule s.timed.duration (account this s delegated).received (elapsed s) := by
  simp only [availableForRelease, alreadyReleasedAmount, bind_eq_ok_iff, checkedSub_eq_ok_iff,
    timeSinceStart_eq started] at succeeds
  obtain ⟨e, time, totalAvailable, proportion, already, ⟨total, counted, _, less⟩, covered, rest⟩ :=
    succeeds
  cases time
  have total_eq := implements.totalToken counted
  have available := implements.proportion proportion
  rw [noted] at available less
  simp only [account] at available less ⊢
  omega

/-- **No underflow.** With the deposits noted, what was released is within the schedule,
so the subtractions succeed whenever the proportion and the total can be computed. -/
theorem availableForRelease_succeeds (implements : Implements o this delegated schedule)
    (started : s.timed.startTime ≤ s.timestamp)
    (noted : s.initialBalance = (account this s delegated).received)
    (within : Vesting.Within (schedule s.timed.duration) (account this s delegated))
    {totalAvailable total : Nat} (counted : o.totalToken s = .ok total)
    (proportion : o._proportionAvailable s.initialBalance (elapsed s) s.timed.duration =
      .ok totalAvailable) :
    ∃ available, availableForRelease o s = .ok available := by
  have total_eq := implements.totalToken counted
  have available := implements.proportion proportion
  simp only [Vesting.Within, account] at within
  simp only [availableForRelease, alreadyReleasedAmount, bind_eq_ok_iff, checkedSub_eq_ok_iff,
    timeSinceStart_eq started]
  rw [noted] at available
  simp only [account] at available noted
  exact ⟨_, _, rfl, totalAvailable, proportion, _, ⟨total, counted, by omega, rfl⟩, by omega, rfl⟩

/-! ## Releases -/

/-- What a release does. -/
structure Released (this : Address) (delegated : Nat) (schedule : Nat → Nat → Nat → Nat)
    (s s' : TokenTimelockState) (receiver : Address) (amount : Nat) : Prop where
  moved : Ledger.Moved s.ledger s'.ledger ⟨this, s.lockedToken, this, receiver, amount⟩
  emitted : s'.events = s.events ++ [.Release s.beneficiary receiver amount]
  initialBalance : s'.initialBalance = (account this s delegated).received
  lastBalance : s'.lastBalance = heldToken this s' + delegated
  within : released s + amount ≤
    schedule s.timed.duration (account this s delegated).received (elapsed s)
  timed : s'.timed = s.timed
  lockedToken : s'.lockedToken = s.lockedToken
  timestamp : s'.timestamp = s.timestamp

/-- Both releases pay at most what is available, and end with a count of the total. -/
theorem released_of_paid {available last : Nat} {ledger : Ledger}
    (implements : Implements o this delegated schedule) (known : Reconstructed this delegated s)
    (computed : availableForRelease o
      { s with initialBalance := (account this s delegated).received } = .ok available)
    (covered : amount ≤ available)
    (paid : s.ledger.safeTransfer this s.lockedToken receiver amount = .ok ledger)
    (counted : o.totalToken { s with
      initialBalance := (account this s delegated).received
      ledger := ledger
      events := s.events ++ [.Release s.beneficiary receiver amount] } = .ok last) :
    Released this delegated schedule s { s with
      initialBalance := (account this s delegated).received
      lastBalance := last
      ledger := ledger
      events := s.events ++ [.Release s.beneficiary receiver amount] } receiver amount := by
  have within := availableForRelease_eq_ok
    (s := { s with initialBalance := (account this s delegated).received }) implements
    known.started rfl computed
  have last_eq := implements.totalToken counted
  refine ⟨Ledger.safeTransfer_moved paid, rfl, rfl, last_eq, ?_, rfl, rfl, rfl⟩
  exact Nat.le_trans (Nat.add_le_add_left covered _) within

theorem released_of_release {amount : UInt256} (implements : Implements o this delegated schedule)
    (known : Reconstructed this delegated s)
    (succeeds : release this o s sender receiver amount = .ok s') :
    Released this delegated schedule s s' receiver amount.toNat := by
  simp only [release, balanceCheck, _release, bind_eq_ok_iff, pure_eq_ok_iff, require_eq_ok_iff]
    at succeeds
  obtain ⟨_, _, s₁, noted, s₂, ⟨_, _, passed, _, _, _, available, computed, _, covered, ledger,
    paid, same⟩, last, counted, stored⟩ := succeeds
  have initial := noteDeposits_eq implements known noted
  subst initial
  subst same
  subst stored
  exact released_of_paid implements known computed covered paid counted

theorem released_of_releaseMax (implements : Implements o this delegated schedule)
    (known : Reconstructed this delegated s)
    (succeeds : releaseMax this o s sender receiver = .ok s') :
    ∃ amount, Released this delegated schedule s s' receiver amount := by
  simp only [releaseMax, balanceCheck, _release, bind_eq_ok_iff, pure_eq_ok_iff,
    require_eq_ok_iff] at succeeds
  obtain ⟨_, _, s₁, noted, s₂, ⟨passed, _, _, _, available, computed, ledger, paid, same⟩, last,
    counted, stored⟩ := succeeds
  have initial := noteDeposits_eq implements known noted
  subst initial
  subst same
  subst stored
  exact ⟨available, released_of_paid implements known computed (Nat.le_refl _) paid counted⟩

theorem Released.released (done : Released this delegated schedule s s' receiver amount) :
    released s' = released s + amount := by
  simp [TokenTimelock.released, done.emitted, TokenTimelockEvent.released]

/-- To another account, what leaves is what is released. -/
theorem Released.heldToken (done : Released this delegated schedule s s' receiver amount)
    (other : receiver ≠ this) : heldToken this s' + amount = heldToken this s := by
  have exact := done.moved.balance s.lockedToken this
  simpa [TokenTimelock.heldToken, done.lockedToken, other.symm] using exact

theorem Released.reconstructed (done : Released this delegated schedule s s' receiver amount)
    (known : Reconstructed this delegated s) (other : receiver ≠ this) :
    Reconstructed this delegated s' := by
  have held := done.heldToken other
  have out := done.released
  have initial := done.initialBalance
  have last := done.lastBalance
  refine ⟨?_, Nat.le_of_eq last, ?_⟩
  · rw [done.timed, done.timestamp]
    exact known.started
  · simp only [account] at initial
    omega

/-- A release is a release of the vesting account. -/
theorem Released.vests (done : Released this delegated schedule s s' receiver amount)
    (other : receiver ≠ this) :
    Vesting.Step (schedule s.timed.duration) (account this s delegated)
      (account this s' delegated) := by
  have held := done.heldToken other
  have out := done.released
  have time : elapsed s' = elapsed s := by rw [elapsed, elapsed, done.timed, done.timestamp]
  have received : (account this s' delegated).received = (account this s delegated).received := by
    simp only [account]
    omega
  apply Vesting.Step.release received time
  rw [Vesting.Within, received]
  simp only [account, time, out]
  exact done.within

/-! ## Everything else -/

/-- Nothing was released, and tokens can only have come in. -/
structure Accrued (this : Address) (delegated delegated' : Nat) (s s' : TokenTimelockState) :
    Prop where
  total_le : heldToken this s + delegated ≤ heldToken this s' + delegated'
  released : released s' = released s
  initialBalance : s'.initialBalance = s.initialBalance
  lastBalance : s'.lastBalance = s.lastBalance
  timed : s'.timed = s.timed
  timestamp_le : s.timestamp ≤ s'.timestamp

variable {delegated' : Nat}

theorem Accrued.reconstructed (accrued : Accrued this delegated delegated' s s')
    (known : Reconstructed this delegated s) : Reconstructed this delegated' s' := by
  refine ⟨?_, ?_, ?_⟩
  · rw [accrued.timed]
    exact Nat.le_trans known.started accrued.timestamp_le
  · rw [accrued.lastBalance]
    exact Nat.le_trans known.last_le accrued.total_le
  · rw [accrued.initialBalance, accrued.lastBalance, accrued.released]
    exact known.initial

theorem Accrued.elapsed_le (accrued : Accrued this delegated delegated' s s') :
    elapsed s ≤ elapsed s' := by
  have later := accrued.timestamp_le
  simp only [elapsed, accrued.timed]
  split <;> omega

theorem Accrued.vests (accrued : Accrued this delegated delegated' s s') :
    Vesting.Step (schedule s.timed.duration) (account this s delegated)
      (account this s' delegated') := by
  apply Vesting.Step.accrue _ accrued.elapsed_le accrued.released
  have more := accrued.total_le
  have out := accrued.released
  simp only [account]
  omega

/-! ## Transactions -/

/-- A call of the timelock, or a call that somebody makes on a token directly. Between
transactions time passes. -/
inductive Action : Type where
  | release (sender receiver : Address) (amount : UInt256)
  | releaseMax (sender receiver : Address)
  | setPendingBeneficiary (sender _pendingBeneficiary : Address)
  | acceptBeneficiary (sender : Address)
  | clawback (sender : Address)
  | token (sender : Address) (c : Ledger.TokenCall)
  | elapse (seconds : Nat)
  deriving DecidableEq, Repr

def step (this : Address) (o : Overrides) (s : TokenTimelockState) :
    Action → Except Revert TokenTimelockState
  | .release sender receiver amount => release this o s sender receiver amount
  | .releaseMax sender receiver => releaseMax this o s sender receiver
  | .setPendingBeneficiary sender _pendingBeneficiary =>
      setPendingBeneficiary s sender _pendingBeneficiary
  | .acceptBeneficiary sender => acceptBeneficiary s sender
  | .clawback sender => clawback this o s sender
  | .token sender c => do
      let ledger ← s.ledger.perform sender c
      return { s with ledger }
  | .elapse seconds => .ok { s with timestamp := s.timestamp + seconds }

/-- Token calls come from accounts other than the timelock's own, releases go to other
accounts than the timelock, and nothing is clawed back. -/
def Action.Ordinary (this : Address) (own : Address → Prop) : Action → Prop
  | .release _ receiver _ => receiver ≠ this
  | .releaseMax _ receiver => receiver ≠ this
  | .clawback _ => False
  | .token sender _ => ¬ own sender
  | _ => True

/-- What other accounts have sent to the timelock. -/
def receivedToken (this : Address) (s : TokenTimelockState) : Nat :=
  s.ledger.received this s.lockedToken

/-- What an ordinary transaction does. -/
structure Stepped (this : Address) (own : Address → Prop) (delegated : Nat)
    (schedule : Nat → Nat → Nat → Nat) (s s' : TokenTimelockState) : Prop where
  known : Reconstructed this delegated s'
  vests : Vesting.Step (schedule s.timed.duration) (account this s delegated)
    (account this s' delegated)
  timed : s'.timed = s.timed
  lockedToken : s'.lockedToken = s.lockedToken
  unapproved : s'.ledger.Unapproved this
  balance : heldToken this s' + released s' + receivedToken this s =
    heldToken this s + released s + receivedToken this s'
  received_le : receivedToken this s ≤ receivedToken this s'
  custody : ∀ c, c ≠ this → own c → s.ledger.Unapproved c → Ledger.Custody s.ledger s'.ledger c

variable {own : Address → Prop}

theorem Released.stepped (done : Released this delegated schedule s s' receiver amount)
    (known : Reconstructed this delegated s) (unapproved : s.ledger.Unapproved this)
    (other : receiver ≠ this) : Stepped this own delegated schedule s s' := by
  have held := done.heldToken other
  have out := done.released
  have received : receivedToken this s' = receivedToken this s := by
    simpa [receivedToken, done.lockedToken, Ledger.received] using done.moved.total_eq
      fun e => e.operator ≠ this && e.token = s.lockedToken && e.dst = this
  refine ⟨done.reconstructed known other, done.vests other, done.timed, done.lockedToken,
    done.moved.unapproved unapproved, by omega, Nat.le_of_eq received.symm, ?_⟩
  intro c different _ none
  exact done.moved.custody none different.symm fun source => absurd source different.symm

/-- A transaction that moves none of the timelock's tokens out. -/
theorem stepped_of_custody (custody : Ledger.Custody s.ledger s'.ledger this)
    (known : Reconstructed this delegated s) (events : released s' = released s)
    (initialBalance : s'.initialBalance = s.initialBalance)
    (lastBalance : s'.lastBalance = s.lastBalance) (timed : s'.timed = s.timed)
    (lockedToken : s'.lockedToken = s.lockedToken) (later : s.timestamp ≤ s'.timestamp)
    (others : ∀ c, c ≠ this → own c → s.ledger.Unapproved c →
      Ledger.Custody s.ledger s'.ledger c) :
    Stepped this own delegated schedule s s' := by
  have balance := custody.balance s.lockedToken
  have received_le := custody.received_le s.lockedToken
  have accrued : Accrued this delegated delegated s s' := by
    refine ⟨?_, events, initialBalance, lastBalance, timed, later⟩
    simp only [heldToken, lockedToken]
    omega
  refine ⟨accrued.reconstructed known, accrued.vests, timed, lockedToken, custody.unapproved, ?_,
    ?_, others⟩
  · simp only [heldToken, receivedToken, lockedToken, events]
    omega
  · simp only [receivedToken, lockedToken]
    exact received_le

theorem custody_refl {w : Ledger} {c : Address} (none : w.Unapproved c) :
    Ledger.Custody w w c :=
  ⟨none, fun _ => rfl, fun _ => Nat.le_refl _⟩

theorem stepped_of_step {a : Action} (implements : Implements o this delegated schedule)
    (known : Reconstructed this delegated s) (unapproved : s.ledger.Unapproved this)
    (ordinary : a.Ordinary this own) (isOwn : own this) (succeeds : step this o s a = .ok s') :
    Stepped this own delegated schedule s s' := by
  cases a with
  | release sender receiver amount =>
      exact (released_of_release implements known succeeds).stepped known unapproved ordinary
  | releaseMax sender receiver =>
      obtain ⟨amount, done⟩ := released_of_releaseMax implements known succeeds
      exact done.stepped known unapproved ordinary
  | setPendingBeneficiary sender _pendingBeneficiary =>
      simp only [step, setPendingBeneficiary, bind_eq_ok_iff, pure_eq_ok_iff] at succeeds
      obtain ⟨_, _, same⟩ := succeeds
      subst same
      refine stepped_of_custody (custody_refl unapproved) known ?_ rfl rfl rfl rfl
        (Nat.le_refl _) fun c _ _ none => custody_refl none
      simp [released, TokenTimelockEvent.released]
  | acceptBeneficiary sender =>
      simp only [step, acceptBeneficiary, _setBeneficiary, bind_eq_ok_iff, pure_eq_ok_iff]
        at succeeds
      obtain ⟨_, _, same⟩ := succeeds
      subst same
      refine stepped_of_custody (custody_refl unapproved) known ?_ rfl rfl rfl rfl
        (Nat.le_refl _) fun c _ _ none => custody_refl none
      simp [released, TokenTimelockEvent.released]
  | clawback sender => exact absurd ordinary id
  | token sender c =>
      obtain ⟨ledger, performed, same⟩ := bind_eq_ok_iff.mp succeeds
      cases same
      have other : ∀ {c}, own c → sender ≠ c := fun mine same => ordinary (same ▸ mine)
      exact stepped_of_custody (Ledger.perform_custody unapproved (other isOwn) performed) known
        rfl rfl rfl rfl rfl (Nat.le_refl _) fun c _ mine none =>
          Ledger.perform_custody none (other mine) performed
  | elapse seconds =>
      cases succeeds
      exact stepped_of_custody (custody_refl unapproved) known rfl rfl rfl rfl rfl
        (Nat.le_add_right _ _) fun c _ _ none => custody_refl none

end TokenTimelock

end FeiProtocol
