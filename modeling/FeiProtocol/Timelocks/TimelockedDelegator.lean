import FeiProtocol.Timelocks.LinearTokenTimelock

/-!
# `TimelockedDelegator` and `QuadtraticTimelockedSubdelegator`

Timelocks that keep part of their tokens in contracts of their own, one for each delegatee,
so that the delegatee has the votes. The two share everything but the schedule.

* `Delegations`: every live delegate contract has at least what was delegated to it.
* `Undelegated.vested`, `Delegated.vested`: moving tokens there and back neither releases
  tokens nor loses any.
* `timelocks_safe`: the four timelocks never release ahead of their schedules.

A delegate contract sits at a new address that nobody else controls: `create` gives the
addresses of the contracts that the timelock creates, by their number.
-/

namespace FeiProtocol

open Evm TokenTimelock

inductive TimelockedDelegatorEvent : Type where
  | Delegate (delegatee : Address) (amount : Nat)
  | Undelegate (delegatee : Address) (amount : Nat)
  deriving DecidableEq, Repr

structure TimelockedDelegatorState : Type extends TokenTimelockState where
  delegateContract : Address → Address
  delegateAmount : Address → Nat
  tribe : Address
  totalDelegated : Nat
  /-- the number of contracts created so far -/
  nonce : Nat
  /-- oldest first -/
  delegations : List TimelockedDelegatorEvent

namespace Delegatee

/-- Called by the owner, the delegate contract returns all it has. -/
def withdraw (ledger : Ledger) (delegateContract tribe owner : Address) : Except Revert Ledger :=
  ledger.safeTransfer delegateContract tribe owner (ledger.balanceOf tribe delegateContract)

end Delegatee

namespace Delegator

variable (this : Address) (create : Nat → Address)

/-! ## What the two contracts share -/

def _tribeBalance (s : TimelockedDelegatorState) : Nat := s.ledger.balanceOf s.tribe this

def undelegate (s : TimelockedDelegatorState) (msgSender delegatee : Address) :
    Except Revert (TimelockedDelegatorState × Nat) := do
  onlyBeneficiary s.toTokenTimelockState msgSender
  let _delegateContract := s.delegateContract delegatee
  require (_delegateContract ≠ 0) "TimelockedDelegator: Delegate contract nonexistent"
  let ledger ← Delegatee.withdraw s.ledger _delegateContract s.tribe this
  let amount := s.delegateAmount delegatee
  let totalDelegated ← checkedSub s.totalDelegated amount
  let s := { s with
    ledger
    totalDelegated
    delegateContract := Function.update s.delegateContract delegatee 0
    delegateAmount := Function.update s.delegateAmount delegatee 0
    delegations := s.delegations ++ [.Undelegate delegatee amount] }
  return (s, amount)

/-- No account creates more than `2 ^ 64 - 1` contracts. -/
def delegate (s : TimelockedDelegatorState) (msgSender delegatee : Address) (amount : UInt256) :
    Except Revert TimelockedDelegatorState := do
  onlyBeneficiary s.toTokenTimelockState msgSender
  require (amount.toNat ≤ _tribeBalance this s) "TimelockedDelegator: Not enough Tribe"
  let (s, amount) ← (if s.delegateContract delegatee ≠ 0 then do
    let (s, undelegated) ← undelegate this s msgSender delegatee
    let amount ← checkedAdd amount.toNat undelegated
    .ok (s, amount)
  else .ok (s, amount.toNat))
  require (s.nonce + 1 < 2 ^ 64) ""
  let _delegateContract := create s.nonce
  let totalDelegated ← checkedAdd s.totalDelegated amount
  let ledger ← s.ledger.safeTransfer this s.tribe _delegateContract amount
  return { s with
    nonce := s.nonce + 1
    delegateContract := Function.update s.delegateContract delegatee _delegateContract
    delegateAmount := Function.update s.delegateAmount delegatee amount
    totalDelegated
    ledger
    delegations := s.delegations ++ [.Delegate delegatee amount] }

/-- A timelock over `s`, without delegations. -/
def ofTimelock (_tribe : Address) (s : TokenTimelockState) : TimelockedDelegatorState where
  toTokenTimelockState := s
  delegateContract _ := 0
  delegateAmount _ := 0
  tribe := _tribe
  totalDelegated := 0
  nonce := 0
  delegations := []

/-- The total counts what is delegated. -/
def overrides (totalDelegated : Nat) (proportion : Nat → Nat → Nat → Except Revert Nat) :
    Overrides where
  totalToken s := checkedAdd (heldToken this s) totalDelegated
  _proportionAvailable := proportion

end Delegator

namespace TimelockedDelegator

def construct (ledger : Ledger) (timestamp : Nat) (_tribe _beneficiary : Address)
    (_duration : UInt256) : Except Revert TimelockedDelegatorState := do
  let s ← LinearTokenTimelock.construct ledger timestamp _beneficiary _duration _tribe 0 0 0
  return Delegator.ofTimelock _tribe s

def overrides (this : Address) (totalDelegated : Nat) : Overrides :=
  Delegator.overrides this totalDelegated LinearTokenTimelock._proportionAvailable

end TimelockedDelegator

namespace QuadtraticTimelockedSubdelegator

def construct (ledger : Ledger) (timestamp : Nat) (_beneficiary : Address) (_duration : UInt256)
    (_tribe : Address) (_cliff _startTime : UInt256) : Except Revert TimelockedDelegatorState := do
  let s ← QuadraticTokenTimelock.construct ledger timestamp _beneficiary _duration _tribe _cliff 0
    _startTime
  return Delegator.ofTimelock _tribe s

def overrides (this : Address) (totalDelegated : Nat) : Overrides :=
  Delegator.overrides this totalDelegated QuadraticTokenTimelock._proportionAvailable

end QuadtraticTimelockedSubdelegator

namespace Delegator

/-! ## Transactions -/

inductive Action : Type where
  | timelock (a : TokenTimelock.Action)
  | delegate (sender delegatee : Address) (amount : UInt256)
  | undelegate (sender delegatee : Address)
  deriving DecidableEq, Repr

variable {this create}

/-- `o` gives the overrides for what is delegated at the time of the call. -/
def step (this : Address) (create : Nat → Address) (o : Nat → Overrides)
    (s : TimelockedDelegatorState) : Action → Except Revert TimelockedDelegatorState
  | .timelock a => do
      let timelock ← TokenTimelock.step this (o s.totalDelegated) s.toTokenTimelockState a
      return { s with toTokenTimelockState := timelock }
  | .delegate sender delegatee amount => delegate this create s sender delegatee amount
  | .undelegate sender delegatee => Prod.fst <$> undelegate this s sender delegatee

/-- The timelock and the contracts it creates. -/
def Own (this : Address) (create : Nat → Address) (c : Address) : Prop :=
  c = this ∨ ∃ n, c = create n

/-- What is done to the timelock is ordinary, with the delegates among its own accounts. -/
def Action.Ordinary (this : Address) (create : Nat → Address) : Action → Prop
  | .timelock a => a.Ordinary this (Own this create)
  | _ => True

/-- The addresses of the contracts that an account creates are new ones. -/
structure Fresh (this : Address) (create : Nat → Address) : Prop where
  other : ∀ n, create n ≠ this
  distinct : ∀ {m n}, m < 2 ^ 64 → n < 2 ^ 64 → create m = create n → m = n

def TimelockedDelegatorEvent.undelegated : TimelockedDelegatorEvent → Nat
  | .Undelegate _ amount => amount
  | .Delegate _ _ => 0

/-- All that has come back from delegates of what was delegated to them. -/
def undelegated (s : TimelockedDelegatorState) : Nat :=
  (s.delegations.map TimelockedDelegatorEvent.undelegated).sum

/-- Live delegate contracts are distinct, and each has what was delegated to it. -/
structure Delegations (create : Nat → Address) (s : TimelockedDelegatorState) : Prop where
  tribe : s.tribe = s.lockedToken
  nonce_lt : s.nonce < 2 ^ 64
  unapproved : ∀ n, s.ledger.Unapproved (create n)
  live : ∀ d, s.delegateContract d ≠ 0 → ∃ n, n < s.nonce ∧ s.delegateContract d = create n
  covered : ∀ d, s.delegateContract d ≠ 0 →
    s.delegateAmount d ≤ s.ledger.balanceOf s.tribe (s.delegateContract d)
  distinct : ∀ d d', s.delegateContract d ≠ 0 → s.delegateContract d = s.delegateContract d' →
    d = d'

/-- What holds from deployment over `ledger` on. -/
structure Vested (this : Address) (create : Nat → Address) (ledger : Ledger)
    (schedule : Nat → Nat → Nat → Nat) (s : TimelockedDelegatorState) : Prop where
  timelock : TokenTimelock.Vested this ledger s.totalDelegated (undelegated s) schedule
    s.toTokenTimelockState
  delegations : Delegations create s

variable {ledger : Ledger} {schedule : Nat → Nat → Nat → Nat} {s s' : TimelockedDelegatorState}
  {sender delegatee : Address} {amount : Nat}

/-- The timelock's own transactions take nothing from the delegate contracts. -/
theorem Delegations.timelock {t : TokenTimelockState} (delegations : Delegations create s)
    (token : t.lockedToken = s.lockedToken)
    (custody : ∀ n, Ledger.Custody s.ledger t.ledger (create n)) :
    Delegations create { s with toTokenTimelockState := t } := by
  refine ⟨delegations.tribe.trans token.symm, delegations.nonce_lt,
    fun n => (custody n).unapproved, delegations.live, ?_, delegations.distinct⟩
  intro d live
  obtain ⟨n, _, created⟩ := delegations.live d live
  have covered := delegations.covered d live
  have balance := (custody n).balance s.tribe
  have more := (custody n).received_le s.tribe
  rw [created] at covered
  simp only [created]
  omega

/-- Where the delegated tokens are may change, as long as none are lost. -/
theorem Vested.moved (vested : Vested this create ledger schedule s)
    (mono : ∀ d, Vesting.Monotone (schedule d)) (delegations : Delegations create s')
    (timelock : s'.toTokenTimelockState = { s.toTokenTimelockState with ledger := s'.ledger })
    (unapproved : s'.ledger.Unapproved this)
    (total_le : s.ledger.balanceOf s.lockedToken this + s.totalDelegated ≤
      s'.ledger.balanceOf s.lockedToken this + s'.totalDelegated)
    (balance : s'.ledger.balanceOf s.lockedToken this + s'.totalDelegated + undelegated s' +
        receivedToken this s.toTokenTimelockState =
      s.ledger.balanceOf s.lockedToken this + s.totalDelegated + undelegated s +
        receivedToken this s'.toTokenTimelockState)
    (more : receivedToken this s.toTokenTimelockState ≤
      receivedToken this s'.toTokenTimelockState) :
    Vested this create ledger schedule s' := by
  have token : s'.lockedToken = s.lockedToken := by rw [timelock]
  have accrued : Accrued this s.totalDelegated s'.totalDelegated s.toTokenTimelockState
      s'.toTokenTimelockState := by
    rw [timelock]
    exact ⟨total_le, rfl, rfl, rfl, rfl, Nat.le_refl _⟩
  refine ⟨accrued.vested mono vested.timelock unapproved token ?_ more, delegations⟩
  rw [heldToken, token]
  exact balance

/-! ## Undelegating -/

/-- What undelegating does: the whole balance of the delegate contract comes back. -/
structure Undelegated (this : Address) (s s' : TimelockedDelegatorState) (delegatee : Address) :
    Prop where
  live : s.delegateContract delegatee ≠ 0
  moved : Ledger.Moved s.ledger s'.ledger ⟨s.delegateContract delegatee, s.tribe,
    s.delegateContract delegatee, this, s.ledger.balanceOf s.tribe (s.delegateContract delegatee)⟩
  amount_le : s.delegateAmount delegatee ≤ s.totalDelegated
  totalDelegated : s'.totalDelegated = s.totalDelegated - s.delegateAmount delegatee
  delegateContract : s'.delegateContract = Function.update s.delegateContract delegatee 0
  delegateAmount : s'.delegateAmount = Function.update s.delegateAmount delegatee 0
  delegations : s'.delegations = s.delegations ++
    [.Undelegate delegatee (s.delegateAmount delegatee)]
  timelock : s'.toTokenTimelockState = { s.toTokenTimelockState with ledger := s'.ledger }
  tribe : s'.tribe = s.tribe
  nonce : s'.nonce = s.nonce

theorem undelegated_of_undelegate
    (succeeds : undelegate this s sender delegatee = .ok (s', amount)) :
    Undelegated this s s' delegatee := by
  simp only [undelegate, Delegatee.withdraw, bind_eq_ok_iff, pure_eq_ok_iff, require_eq_ok_iff,
    checkedSub_eq_ok_iff] at succeeds
  obtain ⟨_, _, _, live, ledger, returned, total, ⟨covered, rest⟩, same⟩ := succeeds
  subst rest
  cases same
  exact ⟨live, Ledger.safeTransfer_moved returned, covered, rfl, rfl, rfl, rfl, rfl, rfl, rfl⟩

theorem Undelegated.undelegated (done : Undelegated this s s' delegatee) :
    undelegated s' = undelegated s + s.delegateAmount delegatee := by
  simp [Delegator.undelegated, done.delegations, TimelockedDelegatorEvent.undelegated]

/-- A live delegate contract is one that the timelock created. -/
theorem Delegations.contract_ne (delegations : Delegations create s) (fresh : Fresh this create)
    (live : s.delegateContract delegatee ≠ 0) : s.delegateContract delegatee ≠ this := by
  obtain ⟨n, _, created⟩ := delegations.live delegatee live
  rw [created]
  exact fresh.other n

theorem Undelegated.delegations_kept (done : Undelegated this s s' delegatee)
    (fresh : Fresh this create) (before : Delegations create s) : Delegations create s' := by
  have still : ∀ {d}, s'.delegateContract d ≠ 0 →
      d ≠ delegatee ∧ s'.delegateContract d = s.delegateContract d := by
    intro d live
    rw [done.delegateContract] at live ⊢
    by_cases same : d = delegatee
    · rw [same, Function.update_self] at live
      exact absurd rfl live
    · exact ⟨same, Function.update_of_ne same _ _⟩
  constructor
  · rw [done.tribe, done.timelock]
    exact before.tribe
  · rw [done.nonce]
    exact before.nonce_lt
  · exact fun n => done.moved.unapproved (before.unapproved n)
  · intro d live
    obtain ⟨_, same⟩ := still live
    rw [same, done.nonce]
    exact before.live d (same ▸ live)
  · intro d live
    obtain ⟨other, same⟩ := still live
    have covered := before.covered d (same ▸ live)
    have apart : s.delegateContract d ≠ s.delegateContract delegatee :=
      fun h => other (before.distinct d delegatee (same ▸ live) h)
    have notThis := before.contract_ne fresh (same ▸ live)
    have exact := done.moved.balance s.tribe (s.delegateContract d)
    simp only [apart, notThis, and_false, if_false] at exact
    rw [same, done.tribe, done.delegateAmount, Function.update_of_ne other]
    omega
  · intro d d' live equal
    obtain ⟨_, same⟩ := still live
    obtain ⟨_, same'⟩ := still (equal ▸ live)
    rw [same, same'] at equal
    exact before.distinct d d' (same ▸ live) equal

/-- Undelegating loses nothing: what comes back is what was delegated, or more. -/
theorem Undelegated.vested (done : Undelegated this s s' delegatee) (fresh : Fresh this create)
    (mono : ∀ d, Vesting.Monotone (schedule d)) (vested : Vested this create ledger schedule s) :
    Vested this create ledger schedule s' := by
  have notThis := vested.delegations.contract_ne fresh done.live
  have covered := vested.delegations.covered delegatee done.live
  have token : s'.lockedToken = s.lockedToken := by rw [done.timelock]
  have tribe := vested.delegations.tribe
  have exact := done.moved.balance s.lockedToken this
  simp only [tribe, notThis.symm, and_false, if_false, and_self, if_true] at exact covered
  have received : receivedToken this s'.toTokenTimelockState =
      receivedToken this s.toTokenTimelockState +
        s.ledger.balanceOf s.lockedToken (s.delegateContract delegatee) := by
    simpa [receivedToken, Ledger.received, token, tribe, notThis] using done.moved.total_eq
      fun e => e.operator ≠ this && e.token = s.lockedToken && e.dst = this
  have total := done.totalDelegated
  have enough := done.amount_le
  have back := done.undelegated
  apply vested.moved mono (done.delegations_kept fresh vested.delegations) done.timelock
    (done.moved.unapproved vested.timelock.unapproved)
  · omega
  · omega
  · omega

/-! ## Delegating -/

/-- What delegating does, once an earlier delegation to the delegatee has come back. -/
structure Delegated (this : Address) (create : Nat → Address) (s s' : TimelockedDelegatorState)
    (delegatee : Address) (amount : Nat) : Prop where
  nonce_lt : s.nonce + 1 < 2 ^ 64
  moved : Ledger.Moved s.ledger s'.ledger ⟨this, s.tribe, this, create s.nonce, amount⟩
  totalDelegated : s'.totalDelegated = s.totalDelegated + amount
  delegateContract :
    s'.delegateContract = Function.update s.delegateContract delegatee (create s.nonce)
  delegateAmount : s'.delegateAmount = Function.update s.delegateAmount delegatee amount
  delegations : s'.delegations = s.delegations ++ [.Delegate delegatee amount]
  timelock : s'.toTokenTimelockState = { s.toTokenTimelockState with ledger := s'.ledger }
  tribe : s'.tribe = s.tribe
  nonce : s'.nonce = s.nonce + 1

theorem delegated_of_delegate {amount : UInt256}
    (succeeds : delegate this create s sender delegatee amount = .ok s') :
    ∃ m total, (m = s ∧ s.delegateContract delegatee = 0 ∨ Undelegated this s m delegatee) ∧
      Delegated this create m s' delegatee total := by
  simp only [delegate, bind_eq_ok_iff, pure_eq_ok_iff, require_eq_ok_iff, checkedAdd_eq_ok_iff]
    at succeeds
  obtain ⟨_, _, _, _, ⟨m, total⟩, cleared, _, room, sum, ⟨_, grown⟩, ledger, paid, same⟩ :=
    succeeds
  subst grown
  subst same
  refine ⟨m, total, ?_, room, Ledger.safeTransfer_moved paid, rfl, rfl, rfl, rfl, rfl, rfl, rfl⟩
  split at cleared
  · simp only [bind_eq_ok_iff, checkedAdd_eq_ok_iff] at cleared
    obtain ⟨⟨k, returned⟩, undelegates, _, _, last⟩ := cleared
    cases last
    exact .inr (undelegated_of_undelegate undelegates)
  · rename_i absent
    cases cleared
    exact .inl ⟨rfl, not_not.mp absent⟩

theorem Delegated.delegations_kept (done : Delegated this create s s' delegatee amount)
    (fresh : Fresh this create) (before : Delegations create s) : Delegations create s' := by
  have own : s'.delegateContract delegatee = create s.nonce := by
    rw [done.delegateContract, Function.update_self]
  have others : ∀ {d}, d ≠ delegatee → s'.delegateContract d = s.delegateContract d := by
    intro d other
    rw [done.delegateContract, Function.update_of_ne other]
  -- the new contract is none of the live ones
  have new : ∀ {d}, s.delegateContract d ≠ 0 → s.delegateContract d ≠ create s.nonce := by
    intro d live same
    obtain ⟨n, lt, created⟩ := before.live d live
    have equal := fresh.distinct (Nat.lt_trans lt before.nonce_lt) before.nonce_lt
      (created.symm.trans same)
    omega
  constructor
  · rw [done.tribe, done.timelock]
    exact before.tribe
  · rw [done.nonce]
    exact done.nonce_lt
  · exact fun n => done.moved.unapproved (before.unapproved n)
  · intro d live
    rw [done.nonce]
    by_cases same : d = delegatee
    · subst same
      exact ⟨s.nonce, Nat.lt_succ_self _, own⟩
    · rw [others same] at live ⊢
      obtain ⟨n, lt, created⟩ := before.live d live
      exact ⟨n, Nat.lt_succ_of_lt lt, created⟩
  · intro d live
    rw [done.tribe, done.delegateAmount]
    by_cases same : d = delegatee
    · subst same
      have exact := done.moved.balance s.tribe (create s.nonce)
      simp only [fresh.other, and_false, if_false, and_self, if_true] at exact
      rw [own, Function.update_self]
      omega
    · rw [others same] at live ⊢
      have covered := before.covered d live
      have notThis := before.contract_ne fresh live
      have exact := done.moved.balance s.tribe (s.delegateContract d)
      simp only [new live, notThis, and_false, if_false] at exact
      rw [Function.update_of_ne same]
      omega
  · intro d d' live equal
    by_cases first : d = delegatee <;> by_cases second : d' = delegatee
    · rw [first, second]
    · subst first
      rw [own, others second] at equal
      exact absurd equal.symm (new (by rw [← equal, ← own]; exact live))
    · subst second
      rw [own, others first] at equal
      exact absurd equal (new (by rw [← others first]; exact live))
    · rw [others first] at live
      rw [others first, others second] at equal
      exact before.distinct d d' live equal

/-- Delegating moves tokens of the timelock to a contract of the timelock. -/
theorem Delegated.vested (done : Delegated this create s s' delegatee amount)
    (fresh : Fresh this create) (mono : ∀ d, Vesting.Monotone (schedule d))
    (vested : Vested this create ledger schedule s) : Vested this create ledger schedule s' := by
  have token : s'.lockedToken = s.lockedToken := by rw [done.timelock]
  have tribe := vested.delegations.tribe
  have exact := done.moved.balance s.lockedToken this
  simp only [tribe, (fresh.other s.nonce).symm, and_false, if_false, and_self, if_true] at exact
  have received : receivedToken this s'.toTokenTimelockState =
      receivedToken this s.toTokenTimelockState := by
    simpa [receivedToken, Ledger.received, token] using done.moved.total_eq
      fun e => e.operator ≠ this && e.token = s.lockedToken && e.dst = this
  have total := done.totalDelegated
  have back : undelegated s' = undelegated s := by
    simp [undelegated, done.delegations, TimelockedDelegatorEvent.undelegated]
  apply vested.moved mono (done.delegations_kept fresh vested.delegations) done.timelock
    (done.moved.unapproved vested.timelock.unapproved)
  · omega
  · omega
  · exact Nat.le_of_eq received.symm

/-! ## Runs -/

/-- `o` counts what is delegated and follows the schedule. -/
def Implements (o : Nat → Overrides) (this : Address) (schedule : Nat → Nat → Nat → Nat) : Prop :=
  ∀ totalDelegated, TokenTimelock.Implements (o totalDelegated) this totalDelegated schedule

theorem implements_overrides {proportion : Nat → Nat → Nat → Except Revert Nat}
    (follows : ∀ {r e d n}, proportion r e d = .ok n → n = schedule d r e) :
    Implements (fun totalDelegated => overrides this totalDelegated proportion) this schedule := by
  intro totalDelegated
  constructor
  · intro s n counted
    exact (checkedAdd_eq_ok_iff.mp counted).2.symm
  · exact follows

variable {o : Nat → Overrides}

theorem vested_of_step {a : Action} (implements : Implements o this schedule)
    (fresh : Fresh this create) (mono : ∀ d, Vesting.Monotone (schedule d))
    (vested : Vested this create ledger schedule s) (ordinary : a.Ordinary this create)
    (succeeds : step this create o s a = .ok s') : Vested this create ledger schedule s' := by
  cases a with
  | timelock a =>
      obtain ⟨t, called, same⟩ := bind_eq_ok_iff.mp succeeds
      cases same
      have stepped := stepped_of_step (implements s.totalDelegated) vested.timelock.known
        vested.timelock.unapproved ordinary (.inl rfl) called
      have before := vested.delegations
      have custody : ∀ n, Ledger.Custody s.ledger t.ledger (create n) := fun n =>
        stepped.custody (create n) (fresh.other n) (.inr ⟨n, rfl⟩) (before.unapproved n)
      exact ⟨stepped.vested mono vested.timelock, before.timelock stepped.lockedToken custody⟩
  | delegate sender delegatee amount =>
      obtain ⟨m, total, cleared, done⟩ := delegated_of_delegate succeeds
      rcases cleared with ⟨same, _⟩ | returned
      · subst same
        exact done.vested fresh mono vested
      · exact done.vested fresh mono (returned.vested fresh mono vested)
  | undelegate sender delegatee =>
      obtain ⟨⟨m, amount⟩, called, same⟩ := map_eq_ok_iff.mp succeeds
      subst same
      exact (undelegated_of_undelegate called).vested fresh mono vested

theorem vested_run (implements : Implements o this schedule) (fresh : Fresh this create)
    (mono : ∀ d, Vesting.Monotone (schedule d)) (vested : Vested this create ledger schedule s)
    {actions : List Action} (ordinary : ∀ a ∈ actions, a.Ordinary this create) :
    Vested this create ledger schedule (run (step this create o) s actions) := by
  apply run_invariant (I := Vested this create ledger schedule)
    (A := fun a => a.Ordinary this create) _ vested ordinary
  intro s a s' vested ordinary succeeds
  exact vested_of_step implements fresh mono vested ordinary succeeds

theorem vested_ofTimelock {t : TokenTimelockState} (deployed : Deployed this ledger t)
    (none : ledger.Unapproved this) (noneElsewhere : ∀ n, ledger.Unapproved (create n)) :
    Vested this create ledger schedule (ofTimelock t.lockedToken t) := by
  refine ⟨deployed.vested none, rfl, Nat.two_pow_pos 64, ?_, ?_, ?_, ?_⟩
  · intro n
    have same := deployed.ledger
    simp only [ofTimelock, same]
    exact noneElsewhere n
  · exact fun d live => absurd rfl live
  · exact fun d live => absurd rfl live
  · exact fun d d' live => absurd rfl live

/-- The promise of a timelock that delegates. -/
theorem safe_run (implements : Implements o this schedule) (fresh : Fresh this create)
    (mono : ∀ d, Vesting.Monotone (schedule d)) (vested : Vested this create ledger schedule s)
    {before after : List Action} (ordinary : ∀ a ∈ before ++ after, a.Ordinary this create)
    {r now : TimelockedDelegatorState} (earlier : r = run (step this create o) s before)
    (reached : now = run (step this create o) s (before ++ after)) :
    Safe this ledger (undelegated r) (o now.totalDelegated) r.toTokenTimelockState
      now.toTokenTimelockState := by
  have first := vested_run implements fresh mono vested fun a mem =>
    ordinary a (List.mem_append_left after mem)
  have last := vested_run implements fresh mono vested ordinary
  rw [← earlier] at first
  rw [← reached] at last
  exact safe_of_vested (implements now.totalDelegated) first.timelock last.timelock

end Delegator

/-! ## The four timelocks -/

/-- **Vesting safety.** From deployment with a start time not in the future, and as long as
nothing is clawed back, each of the four timelocks keeps its promise in every state:
what has left by releases is within the proportion at the time of the last release, and
`availableForRelease` does not underflow. -/
theorem timelocks_safe {this : Address} {ledger : Ledger} {create : Nat → Address}
    (none : ledger.Unapproved this) (fresh : Delegator.Fresh this create)
    (noneElsewhere : ∀ n, ledger.Unapproved (create n)) (timestamp : Nat)
    (_beneficiary _lockedToken _clawbackAdmin : Address)
    (_duration _cliffDuration _startTime : UInt256) (past : _startTime.toNat ≤ timestamp) :
    (∀ s, LinearTokenTimelock.construct ledger timestamp _beneficiary _duration _lockedToken
        _cliffDuration _clawbackAdmin _startTime = .ok s →
      ∀ before after, (∀ a ∈ before ++ after, a.Ordinary this (· = this)) →
        Safe this ledger 0 (LinearTokenTimelock.overrides this)
          (run (step this (LinearTokenTimelock.overrides this)) s before)
          (run (step this (LinearTokenTimelock.overrides this)) s (before ++ after))) ∧
    (∀ s, QuadraticTokenTimelock.construct ledger timestamp _beneficiary _duration _lockedToken
        _cliffDuration _clawbackAdmin _startTime = .ok s →
      ∀ before after, (∀ a ∈ before ++ after, a.Ordinary this (· = this)) →
        Safe this ledger 0 (QuadraticTokenTimelock.overrides this)
          (run (step this (QuadraticTokenTimelock.overrides this)) s before)
          (run (step this (QuadraticTokenTimelock.overrides this)) s (before ++ after))) ∧
    (∀ s, TimelockedDelegator.construct ledger timestamp _lockedToken _beneficiary _duration =
        .ok s →
      ∀ before after, (∀ a ∈ before ++ after, a.Ordinary this create) → ∀ r now,
        r = run (Delegator.step this create (TimelockedDelegator.overrides this)) s before →
        now = run (Delegator.step this create (TimelockedDelegator.overrides this)) s
          (before ++ after) →
        Safe this ledger (Delegator.undelegated r)
          (TimelockedDelegator.overrides this now.totalDelegated) r.toTokenTimelockState
          now.toTokenTimelockState) ∧
    (∀ s, QuadtraticTimelockedSubdelegator.construct ledger timestamp _beneficiary _duration
        _lockedToken _cliffDuration _startTime = .ok s →
      ∀ before after, (∀ a ∈ before ++ after, a.Ordinary this create) → ∀ r now,
        r = run (Delegator.step this create (QuadtraticTimelockedSubdelegator.overrides this)) s
          before →
        now = run (Delegator.step this create (QuadtraticTimelockedSubdelegator.overrides this)) s
          (before ++ after) →
        Safe this ledger (Delegator.undelegated r)
          (QuadtraticTimelockedSubdelegator.overrides this now.totalDelegated)
          r.toTokenTimelockState now.toTokenTimelockState) := by
  refine ⟨?_, ?_, ?_, ?_⟩
  · intro s deploys before after ordinary
    simp only [LinearTokenTimelock.construct, bind_eq_ok_iff, pure_eq_ok_iff] at deploys
    obtain ⟨t, built, same⟩ := deploys
    subst same
    exact safe_run (LinearTokenTimelock.implements this) Vesting.monotone_linear
      (deployed_of_construct past built) none ordinary
  · intro s deploys before after ordinary
    simp only [QuadraticTokenTimelock.construct, bind_eq_ok_iff, pure_eq_ok_iff] at deploys
    obtain ⟨t, built, same⟩ := deploys
    subst same
    exact safe_run (QuadraticTokenTimelock.implements this) Vesting.monotone_quadratic
      (deployed_of_construct past built) none ordinary
  · intro s deploys before after ordinary r now earlier reached
    simp only [TimelockedDelegator.construct, LinearTokenTimelock.construct, bind_eq_ok_iff,
      pure_eq_ok_iff] at deploys
    obtain ⟨_, ⟨t, built, started⟩, same⟩ := deploys
    subst started
    have deployed : Deployed this ledger (startAt t 0) :=
      deployed_of_construct (Nat.zero_le timestamp) built
    have token : (startAt t 0).lockedToken = _lockedToken := lockedToken_of_construct built 0
    subst token
    subst same
    exact Delegator.safe_run (Delegator.implements_overrides LinearTokenTimelock.proportion_eq)
      fresh Vesting.monotone_linear (Delegator.vested_ofTimelock deployed none noneElsewhere)
      ordinary earlier reached
  · intro s deploys before after ordinary r now earlier reached
    simp only [QuadtraticTimelockedSubdelegator.construct, QuadraticTokenTimelock.construct,
      bind_eq_ok_iff, pure_eq_ok_iff] at deploys
    obtain ⟨_, ⟨t, built, started⟩, same⟩ := deploys
    subst started
    have deployed : Deployed this ledger (startAt t _startTime) :=
      deployed_of_construct past built
    have token : (startAt t _startTime).lockedToken = _lockedToken :=
      lockedToken_of_construct built _startTime
    subst token
    subst same
    exact Delegator.safe_run (Delegator.implements_overrides QuadraticTokenTimelock.proportion_eq)
      fresh Vesting.monotone_quadratic (Delegator.vested_ofTimelock deployed none noneElsewhere)
      ordinary earlier reached

namespace Timelocks.Sample

/-- Account 9 has 1000 of token 20. -/
def ledger : Ledger where
  erc20 _ :=
    { balanceOf := fun a => if a = 9 then 1000 else 0
      allowance := fun _ _ => 0
      totalSupply := 1000
      unlimited := false }
  transfers := []

def create (n : Nat) : Address := BitVec.ofNat 160 (2 ^ 64 + n % 2 ^ 64)

theorem unapproved (c : Address) : ledger.Unapproved c := fun _ _ => rfl

theorem toNat_create (n : Nat) : (create n).toNat = 2 ^ 64 + n % 2 ^ 64 := by
  rw [create, BitVec.toNat_ofNat]
  omega

theorem fresh : Delegator.Fresh 0xAA create where
  other n same := by
    have values := congrArg BitVec.toNat same
    have this : (0xAA : Address).toNat = 170 := by decide
    rw [toNat_create, this] at values
    omega
  distinct := by
    intro m n hm hn same
    have values := congrArg BitVec.toNat same
    rw [toNat_create, toNat_create, Nat.mod_eq_of_lt hm, Nat.mod_eq_of_lt hn] at values
    omega

/-- Two deposits, and a release of all that is available after each. -/
def actions (second : UInt256) : List TokenTimelock.Action :=
  [.token 9 (.transfer 20 0xAA 400), .elapse 50, .releaseMax 7 7,
    .token 9 (.transfer 20 0xAA 200), .elapse 10, .release 7 8 second]

/-- A delegate contract is given 50 more, which count once they come back. -/
def delegatorActions : List Delegator.Action :=
  [.timelock (.token 9 (.transfer 20 0xAA 400)), .delegate 7 11 300, .timelock (.elapse 50),
    .timelock (.release 7 7 100), .timelock (.token 9 (.transfer 20 (create 0) 50)),
    .undelegate 7 11, .timelock (.releaseMax 7 8)]

def linear : TokenTimelockState where
  timed := ⟨1000, 100, by decide⟩
  lockedToken := 20
  beneficiary := 7
  pendingBeneficiary := 0
  initialBalance := 0
  lastBalance := 0
  cliffSeconds := 10
  clawbackAdmin := 3
  ledger := ledger
  timestamp := 1000
  events := []

def linearDelegator : TimelockedDelegatorState :=
  Delegator.ofTimelock 20 { linear with cliffSeconds := 0, clawbackAdmin := 0 }

def quadraticDelegator : TimelockedDelegatorState :=
  Delegator.ofTimelock 20 { linear with clawbackAdmin := 0 }

def linearLast : TimelockedDelegatorState :=
  run (Delegator.step 0xAA create (TimelockedDelegator.overrides 0xAA)) linearDelegator
    delegatorActions

def quadraticLast : TimelockedDelegatorState :=
  run (Delegator.step 0xAA create (QuadtraticTimelockedSubdelegator.overrides 0xAA))
    quadraticDelegator delegatorActions

theorem ordinary (second : UInt256) :
    ∀ a ∈ actions second ++ [.elapse 5], a.Ordinary 0xAA (· = 0xAA) := by
  simp [actions, TokenTimelock.Action.Ordinary]

theorem not_own : ¬ Delegator.Own 0xAA create 9 := by
  intro own
  rcases own with this | ⟨n, made⟩
  · exact absurd this (by decide)
  · have values := congrArg BitVec.toNat made
    have nine : (9 : Address).toNat = 9 := by decide
    rw [toNat_create, nine] at values
    omega

theorem ordinaryDelegator :
    ∀ a ∈ delegatorActions ++ [], a.Ordinary 0xAA create := by
  simpa [delegatorActions, Delegator.Action.Ordinary, TokenTimelock.Action.Ordinary] using not_own

end Timelocks.Sample

open Timelocks in
/-- What each of the four may have released at the end of these runs. -/
theorem timelocks_safe_sample :
    released (run (step 0xAA (LinearTokenTimelock.overrides 0xAA)) Sample.linear
      (Sample.actions 160 ++ [.elapse 5])) ≤ 360 ∧
    released (run (step 0xAA (QuadraticTokenTimelock.overrides 0xAA)) Sample.linear
      (Sample.actions 116 ++ [.elapse 5])) ≤ 216 ∧
    released Sample.linearLast.toTokenTimelockState ≤ 225 ∧
    released Sample.quadraticLast.toTokenTimelockState ≤ 112 := by
  obtain ⟨linear, quadratic, linearDelegator, quadraticDelegator⟩ :=
    timelocks_safe (Sample.unapproved 0xAA) Sample.fresh (fun _ => Sample.unapproved _) 1000 7 20
      3 100 10 0 (by decide)
  refine ⟨?_, ?_, ?_, ?_⟩
  · exact (linear Sample.linear rfl (Sample.actions 160) [.elapse 5]
      (Sample.ordinary 160)).released_le (by decide +kernel) 60 360 (by decide +kernel)
      (by decide +kernel)
  · exact (quadratic Sample.linear rfl (Sample.actions 116) [.elapse 5]
      (Sample.ordinary 116)).released_le (by decide +kernel) 60 216 (by decide +kernel)
      (by decide +kernel)
  · exact (linearDelegator Sample.linearDelegator rfl Sample.delegatorActions []
      Sample.ordinaryDelegator Sample.linearLast Sample.linearLast rfl rfl).released_le rfl 50 225
      (by decide +kernel) (by decide +kernel)
  · exact (quadraticDelegator Sample.quadraticDelegator rfl Sample.delegatorActions []
      Sample.ordinaryDelegator Sample.quadraticLast Sample.quadraticLast rfl rfl).released_le rfl
      50 112 (by decide +kernel) (by decide +kernel)

end FeiProtocol
