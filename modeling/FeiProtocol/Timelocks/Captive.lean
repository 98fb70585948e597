import FeiProtocol.Timelocks.FullRelease

/-!
# A timelock whose beneficiary is a contract

A beneficiary that never appoints another stays the beneficiary, and nobody else can have anything
released.

* `others_of_step`: of what others do, only calls of tokens and the passing of time have an
  effect.
* `Flow`: what left the timelock was released, and what was released came to the beneficiary.
-/

namespace FeiProtocol

open Evm

namespace TokenTimelock

/-- A call by others than `b`, of which no one has the address zero. Token calls come from accounts
that the timelock does not own, and nothing is clawed back. -/
def Action.ByOthers (own : Address → Prop) (b : Address) : Action → Prop
  | .release sender _ _ | .releaseMax sender _ | .setPendingBeneficiary sender _ => sender ≠ b
  | .acceptBeneficiary sender => sender ≠ 0
  | .clawback _ => False
  | .token sender _ => ¬ own sender ∧ sender ≠ b
  | .elapse _ => True

theorem Action.ByOthers.regular {own : Address → Prop} {b : Address} {a : Action}
    (others : a.ByOthers own b) : a.Regular own := by
  cases a with
  | clawback sender => exact others
  | token sender c => exact others.1
  | release sender receiver amount => trivial
  | releaseMax sender receiver => trivial
  | setPendingBeneficiary sender _pendingBeneficiary => trivial
  | acceptBeneficiary sender => trivial
  | elapse seconds => trivial

/-- `b` is the beneficiary, and nobody is to become it. -/
structure Captive (b : Address) (s : TokenTimelockState) : Prop where
  beneficiary : s.beneficiary = b
  pendingBeneficiary : s.pendingBeneficiary = 0

variable {this b sender receiver : Address} {own : Address → Prop} {o : Overrides}
  {delegated amount : Nat} {schedule : Nat → Nat → Nat → Nat} {s s' s'' : TokenTimelockState}

theorem captive_of_accept (accepts : acceptBeneficiary s b = .ok s') : Captive b s' := by
  obtain ⟨_, _, same⟩ := bind_eq_ok_iff.mp accepts
  cases same
  exact ⟨rfl, rfl⟩

/-- What others can do to the timelock of a captor. -/
inductive Others (own : Address → Prop) (b : Address) (s : TokenTimelockState) :
    TokenTimelockState → Prop where
  | token {sender : Address} {c : Ledger.TokenCall} {ledger : Ledger} (foreign : ¬ own sender)
    (other : sender ≠ b) (performed : s.ledger.perform sender c = .ok ledger) :
    Others own b s { s with ledger }
  | elapse (seconds : Nat) : Others own b s { s with timestamp := s.timestamp + seconds }

theorem others_of_step {a : Action} (captive : Captive b s) (others : a.ByOthers own b)
    (succeeds : step this o s a = .ok s') : Others own b s s' := by
  have beneficiary := captive.beneficiary
  cases a with
  | release sender receiver amount =>
      obtain ⟨_, caller, _⟩ := bind_eq_ok_iff.mp succeeds
      exact absurd ((require_eq_ok_iff.mp caller).trans beneficiary) others
  | releaseMax sender receiver =>
      obtain ⟨_, caller, _⟩ := bind_eq_ok_iff.mp succeeds
      exact absurd ((require_eq_ok_iff.mp caller).trans beneficiary) others
  | setPendingBeneficiary sender _pendingBeneficiary =>
      obtain ⟨_, caller, _⟩ := bind_eq_ok_iff.mp succeeds
      exact absurd ((require_eq_ok_iff.mp caller).trans beneficiary) others
  | acceptBeneficiary sender =>
      obtain ⟨_, caller, _⟩ := bind_eq_ok_iff.mp succeeds
      exact absurd ((require_eq_ok_iff.mp caller).trans captive.pendingBeneficiary) others
  | clawback sender => exact absurd others id
  | token sender c =>
      obtain ⟨ledger, performed, same⟩ := bind_eq_ok_iff.mp succeeds
      cases same
      exact .token others.1 others.2 performed
  | elapse seconds =>
      cases succeeds
      exact .elapse seconds

theorem Others.captive (others : Others own b s s') (captive : Captive b s) : Captive b s' := by
  cases others with
  | token foreign other performed => exact ⟨captive.beneficiary, captive.pendingBeneficiary⟩
  | elapse seconds => exact ⟨captive.beneficiary, captive.pendingBeneficiary⟩

/-- An account that has approved nobody keeps what it has. -/
theorem Others.custody (others : Others own b s s') {c : Address}
    (holder : c = b ∨ own c) (none : s.ledger.Unapproved c) :
    Ledger.Custody s.ledger s'.ledger c := by
  cases others with
  | token foreign other performed =>
      refine Ledger.perform_custody none ?_ performed
      intro same
      subst same
      rcases holder with same | mine
      · exact other same
      · exact foreign mine
  | elapse seconds => exact custody_refl none

theorem Others.terms (others : Others own b s s') : SameTerms s s' := by
  cases others with
  | token foreign other performed => exact ⟨rfl, rfl, rfl, rfl⟩
  | elapse seconds => exact ⟨rfl, rfl, rfl, rfl⟩

theorem Others.events (others : Others own b s s') : s'.events = s.events := by
  cases others with
  | token foreign other performed => rfl
  | elapse seconds => rfl

theorem Others.released (others : Others own b s s') : released s' = released s := by
  rw [TokenTimelock.released, TokenTimelock.released, others.events]

/-- Tokens come in, if anything happens to them. -/
theorem Others.accrued (others : Others own b s s') (isOwn : own this)
    (none : s.ledger.Unapproved this) : Accrued this delegated delegated s s' := by
  have custody := others.custody (.inr isOwn) none
  have balance := custody.balance s.lockedToken
  have received_le := custody.received_le s.lockedToken
  have total_le : heldToken this s + delegated ≤ heldToken this s' + delegated := by
    rw [heldToken, heldToken, others.terms.lockedToken]
    omega
  cases others with
  | token foreign other performed => exact ⟨total_le, rfl, rfl, rfl, rfl, Nat.le_refl _⟩
  | elapse seconds => exact ⟨total_le, rfl, rfl, rfl, rfl, Nat.le_add_right _ _⟩

/-! ## Where the tokens went -/

/-- The event is a release to `b`, if it is one. -/
def ReleasesTo (b : Address) : TokenTimelockEvent → Prop
  | .Release _ recipient _ => recipient = b
  | .BeneficiaryUpdate _ | .PendingBeneficiaryUpdate _ => True

/-- Every release since went to `b`. -/
def ReleasedTo (b : Address) (s s' : TokenTimelockState) : Prop :=
  ∃ added, s'.events = s.events ++ added ∧ ∀ e ∈ added, ReleasesTo b e

theorem ReleasedTo.quiet (events : s'.events = s.events) : ReleasedTo b s s' :=
  ⟨[], by rw [events, List.append_nil], by simp⟩

theorem ReleasedTo.trans (first : ReleasedTo b s s') (second : ReleasedTo b s' s'') :
    ReleasedTo b s s'' := by
  obtain ⟨added, log, releases⟩ := first
  obtain ⟨added', log', releases'⟩ := second
  refine ⟨added ++ added', by rw [log', log, List.append_assoc], fun e mem => ?_⟩
  rcases List.mem_append.mp mem with old | new
  · exact releases e old
  · exact releases' e new

/-- What left the timelock was released, each time to `b`, and what was released came to `b`. The
timelock may keep or have kept tokens elsewhere. -/
structure Flow (this b : Address) (elsewhere elsewhere' : Nat) (s s' : TokenTimelockState) :
    Prop where
  timelock : heldToken this s' + elsewhere' + released s' + receivedToken this s =
    heldToken this s + elsewhere + released s + receivedToken this s'
  passed : released s' + s.ledger.received b s.lockedToken ≤
    released s + s'.ledger.received b s.lockedToken
  lockedToken : s'.lockedToken = s.lockedToken
  each : ReleasedTo b s s'

variable {elsewhere elsewhere' elsewhere'' : Nat}

theorem Flow.refl (s : TokenTimelockState) : Flow this b elsewhere elsewhere s s :=
  ⟨rfl, Nat.le_refl _, rfl, .quiet rfl⟩

theorem Flow.trans (first : Flow this b elsewhere elsewhere' s s')
    (second : Flow this b elsewhere' elsewhere'' s' s'') :
    Flow this b elsewhere elsewhere'' s s'' := by
  have before := first.timelock
  have after := second.timelock
  have passed := first.passed
  have passed' := second.passed
  rw [first.lockedToken] at passed'
  exact ⟨by omega, by omega, second.lockedToken.trans first.lockedToken,
    first.each.trans second.each⟩

theorem Others.flow (others : Others own b s s') (isOwn : own this)
    (none : s.ledger.Unapproved this) (noneElsewhere : s.ledger.Unapproved b) :
    Flow this b elsewhere elsewhere s s' := by
  have token := others.terms.lockedToken
  have balance := (others.custody (.inr isOwn) none).balance s.lockedToken
  have received := (others.custody (.inl rfl) noneElsewhere).received_le s.lockedToken
  have quiet := others.released
  refine ⟨?_, by omega, token, .quiet others.events⟩
  simp only [heldToken, receivedToken, token]
  omega

/-- A release to the beneficiary. -/
theorem Pays.flow (pays : Pays this delegated s s' b amount) (other : b ≠ this) :
    Flow this b elsewhere elsewhere s s' := by
  have moved := Ledger.safeTransfer_moved pays.paid
  have token := pays.terms.lockedToken
  have out : released s' = released s + amount := by
    simp [released, pays.events, TokenTimelockEvent.released]
  have held := pays.heldToken
  rw [if_neg other] at held
  have received : receivedToken this s' = receivedToken this s := by
    simpa [receivedToken, Ledger.received, token] using moved.total_eq
      fun e => e.operator ≠ this && e.token = s.lockedToken && e.dst = this
  have passed : s'.ledger.received b s.lockedToken =
      s.ledger.received b s.lockedToken + amount := by
    simpa [Ledger.received, other.symm] using moved.total_eq
      fun e => e.operator ≠ b && e.token = s.lockedToken && e.dst = b
  refine ⟨by omega, by omega, token, [.Release s.beneficiary b amount], pays.events, ?_⟩
  exact List.forall_mem_singleton.mpr rfl

end TokenTimelock

end FeiProtocol
