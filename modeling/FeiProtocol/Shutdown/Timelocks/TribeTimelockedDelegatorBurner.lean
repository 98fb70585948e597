import FeiProtocol.Timelocks.Captive

/-!
# `TribeTimelockedDelegatorBurner`

The beneficiary of a timelock of TRIBE that delegates. It takes delegations back, and sends what
it can have released to the treasury.

* `tribe_contained`: after it has become the beneficiary, what leaves the timelock comes to the
  burner, and what comes to the burner is in the treasury or still there.
* `sweep_end_iff`: at the end of the vesting period anybody can have all delegations taken back,
  and then everything sent to the treasury.

The votes that go with TRIBE are not part of a ledger.
-/

namespace FeiProtocol

open Evm TokenTimelock

namespace TribeTimelockedDelegatorBurner

/-! ## The contract -/

/-- the treasury -/
def core : Address := 0x8d5ED43dCa8C2F7dFB20CF7b53CC7E593635d7b9

def TRIBE : Address := 0xc7283b66Eb1EB5FB86327f08e1B5816b0720212B

section Contract

variable (timelock this : Address) (s : TimelockedDelegatorState)

def undelegate (_delegate : Address) : Except Revert TimelockedDelegatorState :=
  Prod.fst <$> Delegator.undelegate timelock s this _delegate

def acceptBeneficiary : Except Revert TimelockedDelegatorState := do
  let t ← TokenTimelock.acceptBeneficiary s.toTokenTimelockState this
  return { s with toTokenTimelockState := t }

def sendTribeToTreaury : Except Revert TimelockedDelegatorState := do
  let t ← releaseMax timelock (TimelockedDelegator.overrides timelock s.totalDelegated)
    s.toTokenTimelockState this this
  let tribeBalance := t.ledger.balanceOf TRIBE this
  if tribeBalance ≠ 0 then do
    let ledger ← t.ledger.safeTransfer this TRIBE core tribeBalance
    return { s with toTokenTimelockState := { t with ledger } }
  else return { s with toTokenTimelockState := t }

end Contract

/-! ## Transactions -/

inductive Action : Type where
  | timelock (a : Delegator.Action)
  | undelegate (_delegate : Address)
  | acceptBeneficiary
  | sendTribeToTreaury
  deriving DecidableEq, Repr

def step (timelock this : Address) (create : Nat → Address) (s : TimelockedDelegatorState) :
    Action → Except Revert TimelockedDelegatorState
  | .timelock a => Delegator.step timelock create (TimelockedDelegator.overrides timelock) s a
  | .undelegate _delegate => undelegate timelock this s _delegate
  | .acceptBeneficiary => acceptBeneficiary this s
  | .sendTribeToTreaury => sendTribeToTreaury timelock this s

/-- The burner does nothing but its own functions. -/
def Action.External (timelock this : Address) (create : Nat → Address) : Action → Prop
  | .timelock (.timelock a) => a.ByOthers (Delegator.Own timelock create) this
  | .timelock (.delegate sender _ _) | .timelock (.undelegate sender _) => sender ≠ this
  | .undelegate _ | .acceptBeneficiary | .sendTribeToTreaury => True

/-- The burner, the treasury and the timelock with its delegates are different accounts, and the
delegates are new ones. -/
structure Apart (timelock this : Address) (create : Nat → Address) : Prop where
  fresh : Delegator.Fresh timelock create
  created : ∀ n, create n ≠ 0
  nonzero : this ≠ 0
  foreign : ¬ Delegator.Own timelock create this
  treasury : ¬ Delegator.Own timelock create core
  other : this ≠ core

variable {timelock this : Address} {create : Nat → Address}
  {s s' s'' : TimelockedDelegatorState} {d : Address}

theorem Apart.ne (apart : Apart timelock this create) : this ≠ timelock :=
  fun same => apart.foreign (.inl same)

theorem Apart.core_ne (apart : Apart timelock this create) : core ≠ timelock :=
  fun same => apart.treasury (.inl same)

theorem computes (timelock : Address) :
    Delegator.Computes (TimelockedDelegator.overrides timelock) timelock Vesting.linear
      LinearTokenTimelock.fits :=
  Delegator.computes_overrides Vesting.complete_linear LinearTokenTimelock.proportion_iff

/-- What the burner has sent to the treasury. -/
def treasured (this : Address) (w : Ledger) : Nat :=
  w.total fun e => e.operator = this && e.token = TRIBE && e.dst = core

/-- The burner is the beneficiary, of a timelock of TRIBE. -/
structure Held (timelock this : Address) (create : Nat → Address)
    (s : TimelockedDelegatorState) : Prop where
  captive : Captive this s.toTokenTimelockState
  kept : Delegator.Kept timelock create Vesting.linear s
  token : s.lockedToken = TRIBE
  unapproved : s.ledger.Unapproved this

/-- What left the timelock was released, each time to the burner, delegated tokens came back, and
what came to the burner is in the treasury or there. -/
structure Contained (timelock this : Address) (s s' : TimelockedDelegatorState) : Prop where
  flow : Flow timelock this (s.totalDelegated + Delegator.undelegated s)
    (s'.totalDelegated + Delegator.undelegated s') s.toTokenTimelockState s'.toTokenTimelockState
  returned : Delegator.undelegated s' + receivedToken timelock s.toTokenTimelockState ≤
    Delegator.undelegated s + receivedToken timelock s'.toTokenTimelockState
  burner : treasured this s'.ledger + s'.ledger.balanceOf TRIBE this +
      s.ledger.received this TRIBE =
    treasured this s.ledger + s.ledger.balanceOf TRIBE this + s'.ledger.received this TRIBE

theorem Contained.refl (s : TimelockedDelegatorState) : Contained timelock this s s :=
  ⟨.refl _, Nat.le_refl _, rfl⟩

theorem Contained.trans (first : Contained timelock this s s')
    (second : Contained timelock this s' s'') : Contained timelock this s s'' := by
  have before := first.burner
  have after := second.burner
  have back := first.returned
  have back' := second.returned
  exact ⟨first.flow.trans second.flow, by omega, by omega⟩

/-- All that the timelock had is still there, or has come to the treasury or the burner. -/
theorem Contained.total_le (contained : Contained timelock this s s')
    (token : s.lockedToken = TRIBE) :
    heldToken timelock s.toTokenTimelockState + s.totalDelegated + treasured this s.ledger +
        s.ledger.balanceOf TRIBE this ≤
      heldToken timelock s'.toTokenTimelockState + s'.totalDelegated + treasured this s'.ledger +
        s'.ledger.balanceOf TRIBE this := by
  have flow := contained.flow.timelock
  have passed := contained.flow.passed
  have returned := contained.returned
  have burner := contained.burner
  rw [token] at passed
  omega

/-! ## Steps -/

/-- Others bring tokens. -/
theorem contained_of_others {t : TokenTimelockState} (held : Held timelock this create s)
    (others : Others (Delegator.Own timelock create) this s.toTokenTimelockState t) :
    Captive this t ∧ t.lockedToken = TRIBE ∧ t.ledger.Unapproved this ∧
      Contained timelock this s { s with toTokenTimelockState := t } := by
  have none := held.kept.books.unapproved
  have custody := others.custody (.inl rfl) held.unapproved
  have balance := custody.balance TRIBE
  have mine := (others.custody (.inr (.inl rfl)) none).received_le s.lockedToken
  have token := others.terms.lockedToken
  have sent : treasured this t.ledger = treasured this s.ledger := by
    cases others with
    | token foreign other performed =>
        have same := Ledger.perform_calledBy other performed
        simpa only [treasured, Bool.and_assoc] using
          Ledger.total_calledBy_congr same fun e => e.token = TRIBE && e.dst = core
    | elapse seconds => rfl
  refine ⟨others.captive held.captive, token.trans held.token, custody.unapproved,
    ⟨others.flow (.inl rfl) none held.unapproved, ?_, ?_⟩⟩
  · simp only [Delegator.undelegated, receivedToken, token]
    omega
  · dsimp only
    omega

/-- A delegation comes back. -/
theorem contained_of_undelegated (apart : Apart timelock this create)
    (held : Held timelock this create s) (done : Delegator.Undelegated timelock s s' d) :
    Held timelock this create s' ∧ Contained timelock this s s' := by
  have delegations := held.kept.delegations
  obtain ⟨n, _, created⟩ := delegations.live d done.live
  have notThis : s.delegateContract d ≠ this := by
    rw [created]
    exact fun same => apart.foreign (.inr ⟨n, same.symm⟩)
  have notTimelock := delegations.contract_ne apart.fresh done.live
  have tribe := delegations.tribe
  have result := done.timelock
  have token : s'.lockedToken = s.lockedToken := by rw [result]
  have quiet : released s'.toTokenTimelockState = released s.toTokenTimelockState := by
    rw [result]
    rfl
  have total := done.total delegations apart.fresh
  have back := done.undelegated
  have covered := delegations.covered d done.live
  have come : receivedToken timelock s'.toTokenTimelockState =
      receivedToken timelock s.toTokenTimelockState +
        s.ledger.balanceOf s.tribe (s.delegateContract d) := by
    simpa [receivedToken, Ledger.received, token, tribe, notTimelock] using done.moved.total_eq
      fun e => e.operator ≠ timelock && e.token = s.lockedToken && e.dst = timelock
  have received : s'.ledger.received this TRIBE = s.ledger.received this TRIBE := by
    simpa [Ledger.received, apart.ne.symm] using done.moved.total_eq
      fun e => e.operator ≠ this && e.token = TRIBE && e.dst = this
  have sent : treasured this s'.ledger = treasured this s.ledger := by
    simpa [treasured, notThis] using done.moved.total_eq
      fun e => e.operator = this && e.token = TRIBE && e.dst = core
  have balance : s'.ledger.balanceOf TRIBE this = s.ledger.balanceOf TRIBE this := by
    have exact := done.moved.balance TRIBE this
    simpa [notThis.symm, apart.ne] using exact
  constructor
  · refine ⟨?_, done.kept Vesting.complete_linear apart.fresh held.kept, token.trans held.token,
      done.moved.unapproved held.unapproved⟩
    rw [result]
    exact ⟨held.captive.beneficiary, held.captive.pendingBeneficiary⟩
  · refine ⟨⟨?_, ?_, token, .quiet (by rw [result])⟩, ?_, ?_⟩
    · omega
    · rw [quiet, held.token, received]
    · omega
    · omega

/-! ## Sending -/

/-- The burner without its TRIBE, which the treasury has. -/
structure Sent (this : Address) (t : TokenTimelockState) (s s' : TimelockedDelegatorState) :
    Prop where
  result : s' = { s with toTokenTimelockState := { t with ledger := s'.ledger } }
  transfers : s'.ledger = t.ledger ∨
    t.ledger.perform this (.transfer TRIBE core (t.ledger.balanceOf TRIBE this)) = .ok s'.ledger
  empty : s'.ledger.balanceOf TRIBE this = 0
  others : ∀ {token holder}, holder ≠ this → holder ≠ core →
    s'.ledger.balanceOf token holder = t.ledger.balanceOf token holder
  treasured : treasured this s'.ledger = treasured this t.ledger + t.ledger.balanceOf TRIBE this
  received : ∀ {holder token}, holder ≠ core →
    s'.ledger.received holder token = t.ledger.received holder token
  unapproved : ∀ {holder}, t.ledger.Unapproved holder → s'.ledger.Unapproved holder

theorem sent_of_sendTribeToTreaury (other : this ≠ core)
    (succeeds : sendTribeToTreaury timelock this s = .ok s') :
    ∃ t, releaseMax timelock (TimelockedDelegator.overrides timelock s.totalDelegated)
      s.toTokenTimelockState this this = .ok t ∧ Sent this t s s' := by
  obtain ⟨t, releases, rest⟩ := bind_eq_ok_iff.mp succeeds
  refine ⟨t, releases, ?_⟩
  dsimp only at rest
  split at rest
  · obtain ⟨ledger, paid, same⟩ := bind_eq_ok_iff.mp rest
    cases same
    have moved := Ledger.safeTransfer_moved paid
    refine ⟨rfl, .inr paid, ?_, ?_, ?_, ?_, moved.unapproved⟩
    · have exact := moved.balance TRIBE this
      simp only [other, and_self, and_false, if_true, if_false] at exact
      dsimp only
      omega
    · intro token holder notThis notCore
      have exact := moved.balance token holder
      simpa only [notThis, notCore, and_false, if_false, Nat.add_zero] using exact
    · simpa [treasured] using moved.total_eq
        fun e => e.operator = this && e.token = TRIBE && e.dst = core
    · intro holder token notCore
      simpa [Ledger.received, notCore.symm] using moved.total_eq
        fun e => e.operator ≠ holder && e.token = token && e.dst = holder
  · rename_i zero
    have zero := not_not.mp zero
    cases rest
    exact ⟨rfl, .inl rfl, zero, fun _ _ => rfl, by rw [zero, Nat.add_zero], fun _ => rfl, id⟩

theorem sendTribeToTreaury_succeeds {t : TokenTimelockState}
    (releases : releaseMax timelock (TimelockedDelegator.overrides timelock s.totalDelegated)
      s.toTokenTimelockState this this = .ok t) :
    ∃ s', sendTribeToTreaury timelock this s = .ok s' := by
  by_cases some : t.ledger.balanceOf TRIBE this ≠ 0
  · obtain ⟨w, paid⟩ :=
      Ledger.safeTransfer_succeeds (Nat.le_refl (t.ledger.balanceOf TRIBE this)) core
    refine ⟨{ s with toTokenTimelockState := { t with ledger := w } },
      bind_eq_ok_iff.mpr ⟨t, releases, ?_⟩⟩
    exact (if_pos some).trans (bind_eq_ok_iff.mpr ⟨w, paid, rfl⟩)
  · refine ⟨{ s with toTokenTimelockState := t }, bind_eq_ok_iff.mpr ⟨t, releases, ?_⟩⟩
    exact if_neg some

theorem Sent.parts {t : TokenTimelockState} (sent : Sent this t s s') :
    s'.toTokenTimelockState = { t with ledger := s'.ledger } ∧
      s'.totalDelegated = s.totalDelegated ∧
      Delegator.undelegated s' = Delegator.undelegated s := by
  have result := sent.result
  generalize s'.ledger = w at result
  subst result
  exact ⟨rfl, rfl, rfl⟩

/-- The timelock is no party to the transfer to the treasury. -/
theorem Sent.flow {t : TokenTimelockState} (sent : Sent this t s s')
    (apart : Apart timelock this create) :
    Flow timelock this (s.totalDelegated + Delegator.undelegated s)
      (s'.totalDelegated + Delegator.undelegated s') t s'.toTokenTimelockState := by
  obtain ⟨result, totalDelegated, undelegated⟩ := sent.parts
  have token : s'.lockedToken = t.lockedToken := by rw [result]
  have quiet : released s'.toTokenTimelockState = released t := by
    rw [result]
    rfl
  have held : heldToken timelock s'.toTokenTimelockState = heldToken timelock t := by
    rw [heldToken, heldToken, token]
    exact sent.others apart.ne.symm apart.core_ne.symm
  refine ⟨?_, ?_, token, .quiet (by rw [result])⟩
  · rw [held, quiet, totalDelegated, undelegated, receivedToken, receivedToken, token,
      sent.received apart.core_ne.symm]
  · rw [quiet, sent.received apart.other]

/-- What a release to the burner brings it. -/
structure Arrived (this : Address) (w w' : Ledger) (amount : Nat) : Prop where
  balance : w'.balanceOf TRIBE this = w.balanceOf TRIBE this + amount
  received : w'.received this TRIBE = w.received this TRIBE + amount
  treasured : treasured this w' = treasured this w

theorem arrived_of_moved {w w' : Ledger} {amount : Nat} (apart : Apart timelock this create)
    (moved : Ledger.Moved w w' ⟨timelock, TRIBE, timelock, this, amount⟩) :
    Arrived this w w' amount := by
  have other := apart.ne
  constructor
  · have balance := moved.balance TRIBE this
    simpa only [other, and_false, if_false, and_self, if_true, Nat.add_zero] using balance
  · simpa [Ledger.received, other.symm] using moved.total_eq
      fun e => e.operator ≠ this && e.token = TRIBE && e.dst = this
  · simpa [TribeTimelockedDelegatorBurner.treasured, other.symm] using moved.total_eq
      fun e => e.operator = this && e.token = TRIBE && e.dst = core

/-- Sending releases all that is available, and sends it with what the burner had. -/
structure Swept (timelock this : Address) (s s' : TimelockedDelegatorState) : Prop where
  contained : Contained timelock this s s'
  terms : SameTerms s.toTokenTimelockState s'.toTokenTimelockState
  held : heldToken timelock s'.toTokenTimelockState +
    available timelock s.totalDelegated Vesting.linear s.toTokenTimelockState =
      heldToken timelock s.toTokenTimelockState
  totalDelegated : s'.totalDelegated = s.totalDelegated
  empty : s'.ledger.balanceOf TRIBE this = 0

theorem swept_of_sent {t : TokenTimelockState} (apart : Apart timelock this create)
    (token : s.lockedToken = TRIBE)
    (pays : Pays timelock s.totalDelegated s.toTokenTimelockState t this
      (available timelock s.totalDelegated Vesting.linear s.toTokenTimelockState))
    (sent : Sent this t s s') : Swept timelock this s s' := by
  have moved := Ledger.safeTransfer_moved pays.paid
  have mine : receivedToken timelock t = receivedToken timelock s.toTokenTimelockState := by
    simpa [receivedToken, Ledger.received, pays.terms.lockedToken] using moved.total_eq
      fun e => e.operator ≠ timelock && e.token = s.lockedToken && e.dst = timelock
  have released := pays.heldToken
  rw [if_neg apart.ne] at released
  rw [token] at moved
  have arrived := arrived_of_moved apart moved
  have balance := arrived.balance
  have received := arrived.received
  have before := arrived.treasured
  obtain ⟨result, totalDelegated, undelegated⟩ := sent.parts
  have later := sent.flow apart
  have locked := later.lockedToken
  have held : heldToken timelock s'.toTokenTimelockState = heldToken timelock t := by
    rw [heldToken, heldToken, locked]
    exact sent.others apart.ne.symm apart.core_ne.symm
  have quiet : receivedToken timelock s'.toTokenTimelockState = receivedToken timelock t := by
    rw [receivedToken, receivedToken, locked, sent.received apart.core_ne.symm]
  have received' : s'.ledger.received this TRIBE = t.ledger.received this TRIBE :=
    sent.received apart.other
  have after := sent.treasured
  have empty := sent.empty
  refine ⟨⟨(pays.flow apart.ne).trans later, by omega, by omega⟩, ?_, by omega, totalDelegated,
    empty⟩
  rw [result]
  exact ⟨pays.terms.timed, pays.terms.lockedToken, pays.terms.cliffSeconds,
    pays.terms.clawbackAdmin⟩

/-- To the timelock it is a call of its beneficiary and one of its token. -/
theorem Sent.kept {t : TokenTimelockState} (sent : Sent this t s s')
    (apart : Apart timelock this create) (kept : Delegator.Kept timelock create Vesting.linear s)
    (releases : releaseMax timelock (TimelockedDelegator.overrides timelock s.totalDelegated)
      s.toTokenTimelockState this this = .ok t) :
    Delegator.Kept timelock create Vesting.linear s' := by
  have computes := computes timelock
  have called : Delegator.Action.Regular timelock create (.timelock (.releaseMax this this)) :=
    trivial
  have release : Delegator.step timelock create (TimelockedDelegator.overrides timelock) s
      (.timelock (.releaseMax this this)) = .ok { s with toTokenTimelockState := t } :=
    bind_eq_ok_iff.mpr ⟨t, releases, rfl⟩
  have middle := (Delegator.kept_of_step computes apart.fresh apart.created kept called release).1
  rcases sent.transfers with same | paid
  · rw [sent.result, same]
    exact middle
  · have foreign : Delegator.Action.Regular timelock create
        (.timelock (.token this (.transfer TRIBE core (t.ledger.balanceOf TRIBE this)))) :=
      apart.foreign
    have transfer : Delegator.step timelock create (TimelockedDelegator.overrides timelock)
        { s with toTokenTimelockState := t }
        (.timelock (.token this (.transfer TRIBE core (t.ledger.balanceOf TRIBE this)))) =
        .ok s' := by
      refine bind_eq_ok_iff.mpr ⟨{ t with ledger := s'.ledger },
        bind_eq_ok_iff.mpr ⟨s'.ledger, paid, rfl⟩, ?_⟩
      exact congrArg Except.ok sent.result.symm
    exact (Delegator.kept_of_step computes apart.fresh apart.created middle foreign transfer).1

theorem swept_of_sendTribeToTreaury (apart : Apart timelock this create)
    (held : Held timelock this create s)
    (succeeds : sendTribeToTreaury timelock this s = .ok s') :
    Held timelock this create s' ∧ Swept timelock this s s' := by
  obtain ⟨t, releases, sent⟩ := sent_of_sendTribeToTreaury apart.other succeeds
  have pays := ((releaseMax_iff (computes timelock _) held.kept.books).mp releases).2.2.2.2.2
  have swept := swept_of_sent apart held.token pays sent
  have moved := Ledger.safeTransfer_moved pays.paid
  refine ⟨⟨?_, sent.kept apart held.kept releases, swept.terms.lockedToken.trans held.token,
    sent.unapproved (moved.unapproved held.unapproved)⟩, swept⟩
  have same := pays.result
  rw [sent.parts.1]
  exact ⟨(congrArg TokenTimelockState.beneficiary same).trans held.captive.beneficiary,
    (congrArg TokenTimelockState.pendingBeneficiary same).trans held.captive.pendingBeneficiary⟩

theorem contained_of_step {a : Action} (apart : Apart timelock this create)
    (held : Held timelock this create s) (external : a.External timelock this create)
    (succeeds : step timelock this create s a = .ok s') :
    Held timelock this create s' ∧ Contained timelock this s s' ∧
      SameTerms s.toTokenTimelockState s'.toTokenTimelockState := by
  have beneficiary := held.captive.beneficiary
  cases a with
  | timelock a =>
      cases a with
      | timelock a =>
          have regular : Delegator.Action.Regular timelock create (.timelock a) :=
            external.regular
          have kept := (Delegator.kept_of_step (computes timelock) apart.fresh apart.created
            held.kept regular succeeds).1
          obtain ⟨t, called, same⟩ := bind_eq_ok_iff.mp succeeds
          cases same
          have others := others_of_step held.captive external called
          obtain ⟨captive, token, unapproved, contained⟩ := contained_of_others held others
          exact ⟨⟨captive, kept, token, unapproved⟩, contained, others.terms⟩
      | delegate sender delegatee amount =>
          obtain ⟨_, caller, _⟩ := bind_eq_ok_iff.mp succeeds
          exact absurd ((require_eq_ok_iff.mp caller).trans beneficiary) external
      | undelegate sender delegatee =>
          obtain ⟨_, called, _⟩ := map_eq_ok_iff.mp succeeds
          obtain ⟨_, caller, _⟩ := bind_eq_ok_iff.mp called
          exact absurd ((require_eq_ok_iff.mp caller).trans beneficiary) external
  | undelegate _delegate =>
      obtain ⟨⟨m, amount⟩, called, same⟩ := map_eq_ok_iff.mp succeeds
      subst same
      have done := Delegator.undelegated_of_undelegate called
      obtain ⟨kept, contained⟩ := contained_of_undelegated apart held done
      refine ⟨kept, contained, ?_⟩
      rw [done.timelock]
      exact ⟨rfl, rfl, rfl, rfl⟩
  | acceptBeneficiary =>
      obtain ⟨t, accepts, _⟩ := bind_eq_ok_iff.mp succeeds
      obtain ⟨_, caller, _⟩ := bind_eq_ok_iff.mp accepts
      exact absurd ((require_eq_ok_iff.mp caller).trans held.captive.pendingBeneficiary)
        apart.nonzero
  | sendTribeToTreaury =>
      obtain ⟨kept, swept⟩ := swept_of_sendTribeToTreaury apart held succeeds
      exact ⟨kept, swept.contained, swept.terms⟩

/-! ## Runs -/

/-- The burner becomes the beneficiary by a call of the timelock. -/
theorem held_of_accept (apart : Apart timelock this create)
    (kept : Delegator.Kept timelock create Vesting.linear s) (token : s.lockedToken = TRIBE)
    (unapproved : s.ledger.Unapproved this) (accepts : acceptBeneficiary this s = .ok s') :
    Held timelock this create s' ∧ SameTerms s.toTokenTimelockState s'.toTokenTimelockState := by
  have called : Delegator.step timelock create (TimelockedDelegator.overrides timelock) s
      (.timelock (.acceptBeneficiary this)) = .ok s' := accepts
  have regular : Delegator.Action.Regular timelock create (.timelock (.acceptBeneficiary this)) :=
    trivial
  have later := (Delegator.kept_of_step (computes timelock) apart.fresh apart.created kept regular
    called).1
  have terms := Delegator.terms_of_step (computes timelock) kept regular called
  obtain ⟨t, accepted, same⟩ := bind_eq_ok_iff.mp accepts
  cases same
  have captive := captive_of_accept accepted
  obtain ⟨_, _, result⟩ := bind_eq_ok_iff.mp accepted
  cases result
  exact ⟨⟨captive, later, token, unapproved⟩, terms⟩

theorem held_run {actions : List Action} (apart : Apart timelock this create)
    (held : Held timelock this create s)
    (external : ∀ a ∈ actions, a.External timelock this create) :
    Held timelock this create (run (step timelock this create) s actions) ∧
      Contained timelock this s (run (step timelock this create) s actions) ∧
      SameTerms s.toTokenTimelockState
        (run (step timelock this create) s actions).toTokenTimelockState := by
  refine run_invariant (I := fun r => Held timelock this create r ∧ Contained timelock this s r ∧
    SameTerms s.toTokenTimelockState r.toTokenTimelockState)
    (A := fun a => a.External timelock this create) ?_ ⟨held, .refl s, .refl _⟩ external
  intro r a r' kept external succeeds
  obtain ⟨held, contained, terms⟩ := kept
  obtain ⟨held', contained', terms'⟩ := contained_of_step apart held external succeeds
  exact ⟨held', contained.trans contained', terms.trans terms'⟩

/-! ## Taking everything back -/

/-- Taking delegations back succeeds, in any order. -/
theorem undelegate_all (apart : Apart timelock this create) (held : Held timelock this create s)
    {ds : List Address} (distinct : ds.Nodup) (live : ∀ d ∈ ds, s.delegateContract d ≠ 0) :
    let m := run (step timelock this create) s (ds.map .undelegate)
    m.timestamp = s.timestamp ∧
      ∀ d, m.delegateContract d = if d ∈ ds then 0 else s.delegateContract d := by
  induction ds generalizing s with
  | nil => exact ⟨rfl, fun d => (if_neg List.not_mem_nil).symm⟩
  | cons d ds ih =>
      obtain ⟨new, distinct⟩ := List.nodup_cons.mp distinct
      obtain ⟨s', amount, succeeds⟩ :=
        Delegator.undelegate_succeeds held.kept (live d List.mem_cons_self)
      rw [held.captive.beneficiary] at succeeds
      have called : step timelock this create s (.undelegate d) = .ok s' :=
        map_eq_ok_iff.mpr ⟨(s', amount), succeeds, rfl⟩
      have done := Delegator.undelegated_of_undelegate succeeds
      have contract := done.delegateContract
      have still : ∀ e ∈ ds, s'.delegateContract e ≠ 0 := by
        intro e mem
        have other : e ≠ d := fun same => new (same ▸ mem)
        rw [contract, Function.update_of_ne other]
        exact live e (List.mem_cons_of_mem _ mem)
      obtain ⟨time, rest⟩ := ih (contained_of_undelegated apart held done).1 distinct still
      rw [List.map_cons, run_cons, commit_of_ok called]
      refine ⟨time.trans ?_, ?_⟩
      · rw [done.timelock]
      · intro e
        rw [rest e, contract]
        by_cases same : e = d
        · subst same
          rw [Function.update_self, ite_self, if_pos List.mem_cons_self]
        · rw [Function.update_of_ne same]
          simp only [List.mem_cons, same, false_or]

theorem totalDelegated_eq_zero (kept : Delegator.Kept timelock create Vesting.linear s)
    (none : ∀ d, s.delegateContract d = 0) : s.totalDelegated = 0 := by
  rw [kept.counters.total]
  exact Finset.sum_eq_zero fun d _ => kept.counters.none d (none d)

theorem kept_of_construct {ledger : Ledger} {timestamp : Nat} {_beneficiary : Address}
    {_duration : UInt256}
    (deploys : TimelockedDelegator.construct ledger timestamp TRIBE _beneficiary _duration = .ok s)
    (none : ledger.Unapproved timelock) (noneElsewhere : ∀ n, ledger.Unapproved (create n))
    (uncalled : ∀ n, ledger.calledBy (create n) = []) :
    Delegator.Kept timelock create Vesting.linear s ∧ s.lockedToken = TRIBE := by
  simp only [TimelockedDelegator.construct, LinearTokenTimelock.construct, bind_eq_ok_iff,
    pure_eq_ok_iff] at deploys
  obtain ⟨_, ⟨t, built, started⟩, same⟩ := deploys
  subst started
  subst same
  have token : (startAt t 0).lockedToken = TRIBE := lockedToken_of_construct built 0
  refine ⟨?_, token⟩
  rw [← token]
  exact Delegator.kept_ofTimelock (books_of_construct built none 0) (ledger_of_construct built 0)
    noneElsewhere uncalled

theorem startTime_of_construct {ledger : Ledger} {timestamp : Nat} {_beneficiary : Address}
    {_duration : UInt256}
    (deploys : TimelockedDelegator.construct ledger timestamp TRIBE _beneficiary _duration = .ok s)
    (positive : 0 < timestamp) : s.timed.startTime ≠ 0 := by
  simp only [TimelockedDelegator.construct, LinearTokenTimelock.construct, bind_eq_ok_iff,
    pure_eq_ok_iff] at deploys
  obtain ⟨_, ⟨t, built, started⟩, same⟩ := deploys
  subst started
  subst same
  exact startTime_ne_of_construct built positive 0

/-- After the end, and with no delegations, a call sends everything if the timelock can release
it. -/
theorem sends_end_iff (apart : Apart timelock this create) (held : Held timelock this create s)
    (set : s.timed.startTime ≠ 0) (ended : Ended s.totalDelegated s.toTokenTimelockState) :
    (∃ r, sendTribeToTreaury timelock this s = .ok r ∧
      heldToken timelock r.toTokenTimelockState = 0) ↔
      Unlockable timelock LinearTokenTimelock.fits s.toTokenTimelockState := by
  have computes := computes timelock s.totalDelegated
  have books := held.kept.books
  have empties : EmptiesTo timelock _ s.toTokenTimelockState this ↔ _ :=
    releaseMax_end_iff computes books set ended
  have whole : elapsed s.toTokenTimelockState = s.timed.duration := by
    have past := ended.past
    rw [elapsed, if_neg set]
    omega
  have all : available timelock s.totalDelegated Vesting.linear s.toTokenTimelockState =
      heldToken timelock s.toTokenTimelockState := by
    rw [ended.nothing] at books ⊢
    exact available_end (LinearTokenTimelock.computes timelock) books whole
  rw [← empties]
  constructor
  · intro given
    obtain ⟨r, succeeds, _⟩ := given
    obtain ⟨u, releases, _⟩ := sent_of_sendTribeToTreaury apart.other succeeds
    have pays := ((releaseMax_iff computes books).mp releases).2.2.2.2.2
    rw [all] at pays
    refine ⟨u, ?_, pays.paid⟩
    change releaseMax timelock _ _ s.beneficiary this = _
    rw [held.captive.beneficiary]
    exact releases
  · intro given
    obtain ⟨u, releases, _⟩ := given
    change releaseMax timelock _ _ s.beneficiary this = _ at releases
    rw [held.captive.beneficiary] at releases
    obtain ⟨r, succeeds⟩ := sendTribeToTreaury_succeeds releases
    have left := (swept_of_sendTribeToTreaury apart held succeeds).2.held
    rw [all] at left
    exact ⟨r, succeeds, by omega⟩

section Runs

variable {ledger : Ledger} {timestamp : Nat} {_beneficiary : Address} {_duration : UInt256}
  {s₀ : TimelockedDelegatorState} {before : List Delegator.Action} {after : List Action}
  (apart : Apart timelock this create)
  (deploys : TimelockedDelegator.construct ledger timestamp TRIBE _beneficiary _duration = .ok s₀)
  (none : ledger.Unapproved timelock) (noneElsewhere : ∀ n, ledger.Unapproved (create n))
  (uncalled : ∀ n, ledger.calledBy (create n) = [])
  (regular : ∀ a ∈ before, a.Regular timelock create)
  (reached : s = run (Delegator.step timelock create (TimelockedDelegator.overrides timelock)) s₀
    before)
  (unapproved : s.ledger.Unapproved this) (accepts : acceptBeneficiary this s = .ok s')
  (external : ∀ a ∈ after, a.External timelock this create)
  (ends : s'' = run (step timelock this create) s' after)

include apart deploys none noneElsewhere uncalled regular reached unapproved accepts external ends

theorem held_reached : Held timelock this create s'' ∧ Contained timelock this s' s'' ∧
    SameTerms s₀.toTokenTimelockState s''.toTokenTimelockState := by
  obtain ⟨start, token⟩ := kept_of_construct deploys none noneElsewhere uncalled
  have terms := Delegator.terms_run (computes timelock) apart.fresh apart.created start regular
  have kept := Delegator.kept_run (computes timelock) apart.fresh apart.created start regular
  rw [← reached] at terms kept
  obtain ⟨held, more⟩ :=
    held_of_accept apart kept (terms.lockedToken.trans token) unapproved accepts
  obtain ⟨held', contained, terms'⟩ := held_run apart held external
  rw [← ends] at held' contained terms'
  exact ⟨held', contained, (terms.trans more).trans terms'⟩

/-- Once the burner has become the beneficiary of a timelock of TRIBE, in whatever state and
whatever others do, as long as nothing is clawed back: it stays the beneficiary, what leaves the
timelock is released, each time to the burner, and what comes to the burner is in the treasury or
there to be sent. -/
theorem tribe_contained : s''.beneficiary = this ∧ Contained timelock this s' s'' := by
  obtain ⟨held, contained, _⟩ := held_reached apart deploys none noneElsewhere uncalled regular
    reached unapproved accepts external ends
  exact ⟨held.captive.beneficiary, contained⟩

/-- At the end of the vesting period anybody can take all delegations back, and then send
everything to the treasury, what the timelock and its delegates and what the burner had, exactly
if the arithmetic fits a word. -/
theorem sweep_end_iff (positive : 0 < timestamp)
    (past : s''.timed.startTime + s''.timed.duration ≤ s''.timestamp) {ds : List Address}
    (distinct : ds.Nodup) (live : ∀ d, d ∈ ds ↔ s''.delegateContract d ≠ 0) :
    let m := run (step timelock this create) s'' (ds.map .undelegate)
    m.totalDelegated = 0 ∧
    ((∃ r, sendTribeToTreaury timelock this m = .ok r ∧
        heldToken timelock r.toTokenTimelockState = 0 ∧ r.ledger.balanceOf TRIBE this = 0 ∧
        treasured this s''.ledger + s''.ledger.balanceOf TRIBE this +
            heldToken timelock s''.toTokenTimelockState + s''.totalDelegated ≤
          treasured this r.ledger) ↔
      Unlockable timelock LinearTokenTimelock.fits m.toTokenTimelockState) := by
  obtain ⟨held, _, terms⟩ := held_reached apart deploys none noneElsewhere uncalled regular reached
    unapproved accepts external ends
  obtain ⟨time, contracts⟩ := undelegate_all apart held distinct fun d mem => (live d).mp mem
  have own : ∀ a ∈ ds.map Action.undelegate, a.External timelock this create := by
    intro a mem
    obtain ⟨d, _, same⟩ := List.mem_map.mp mem
    subst same
    trivial
  obtain ⟨held', contained, terms'⟩ := held_run apart held own
  generalize run (step timelock this create) s'' (ds.map .undelegate) = m at *
  have gone : ∀ d, m.delegateContract d = 0 := by
    intro d
    rw [contracts d]
    split
    · rfl
    · rename_i absent
      exact not_not.mp fun some => absent ((live d).mpr some)
  have zero := totalDelegated_eq_zero held'.kept gone
  have all := terms.trans terms'
  have set : m.timed.startTime ≠ 0 := by
    rw [all.timed]
    exact startTime_of_construct deploys positive
  have ended : Ended m.totalDelegated m.toTokenTimelockState := by
    refine ⟨?_, zero⟩
    rw [terms'.timed, time]
    exact past
  refine ⟨zero, ?_⟩
  rw [← sends_end_iff apart held' set ended]
  constructor
  · intro given
    obtain ⟨r, succeeds, empty, _⟩ := given
    exact ⟨r, succeeds, empty⟩
  · intro given
    obtain ⟨r, succeeds, empty⟩ := given
    have swept := (swept_of_sendTribeToTreaury apart held' succeeds).2
    have total := (contained.trans swept.contained).total_le held.token
    have nothing := swept.totalDelegated
    have burner := swept.empty
    exact ⟨r, succeeds, empty, burner, by omega⟩

end Runs

end TribeTimelockedDelegatorBurner

namespace TribeTimelockedDelegatorBurner.Sample

open Timelocks.Sample

/-- The accounts that the timelock at 0xAA creates lie elsewhere. -/
theorem elsewhere {c : Address} (other : c ≠ 0xAA) (apart : c.toNat < 2 ^ 64 ∨ 2 ^ 65 ≤ c.toNat) :
    ¬ Delegator.Own 0xAA create c := by
  intro own
  rcases own with same | ⟨n, made⟩
  · exact other same
  · have values := congrArg BitVec.toNat made
    rw [toNat_create] at values
    omega

theorem apart : Apart 0xAA 0xBB create where
  fresh := fresh
  created := create_ne
  nonzero := by decide
  foreign := elsewhere (by decide) (.inl (by decide))
  treasury := elsewhere (by decide) (.inr (by decide))
  other := by decide

/-- A timelock of TRIBE at 0xAA, for 100 seconds. -/
def deployed : TimelockedDelegatorState := Delegator.ofTimelock TRIBE
  { linear with lockedToken := TRIBE, cliffSeconds := 0, clawbackAdmin := 0 }

/-- The beneficiary delegates 300 of 400, and appoints the burner at 0xBB. -/
def appointed : List Delegator.Action :=
  [.timelock (.token 9 (.transfer TRIBE 0xAA 400)), .delegate 7 11 300, .timelock (.elapse 50),
    .timelock (.setPendingBeneficiary 7 0xBB)]

theorem appointed_regular : ∀ a ∈ appointed, a.Regular 0xAA create := by
  simpa [appointed, Delegator.Action.Regular, TokenTimelock.Action.Regular] using not_own

def handedOver : TimelockedDelegatorState :=
  run (Delegator.step 0xAA create (TimelockedDelegator.overrides 0xAA)) deployed appointed

def accepted : TimelockedDelegatorState :=
  { handedOver with
    beneficiary := 0xBB
    pendingBeneficiary := 0
    events := handedOver.events ++ [.BeneficiaryUpdate 0xBB] }

theorem accepts : acceptBeneficiary 0xBB handedOver = .ok accepted := rfl

theorem unapproved : handedOver.ledger.Unapproved 0xBB := by
  have paid : ∃ w, ledger.safeTransfer 9 TRIBE 0xAA 400 = .ok w ∧
      w.safeTransfer 0xAA TRIBE (create 0) 300 = .ok handedOver.ledger := ⟨_, rfl, rfl⟩
  obtain ⟨w, first, second⟩ := paid
  exact (Ledger.safeTransfer_moved second).unapproved
    ((Ledger.safeTransfer_moved first).unapproved (Timelocks.Sample.unapproved 0xBB))

/-- Too much is delegated to send anything. The former beneficiary tries to have TRIBE released,
and gives the burner 30. -/
def after : List Action :=
  [.sendTribeToTreaury, .timelock (.timelock (.releaseMax 7 7)),
    .timelock (.timelock (.token 9 (.transfer TRIBE 0xBB 30))), .timelock (.timelock (.elapse 100))]

theorem after_external : ∀ a ∈ after, a.External 0xAA 0xBB create := by
  simpa [after, Action.External, TokenTimelock.Action.ByOthers] using not_own

def last : TimelockedDelegatorState := run (step 0xAA 0xBB create) accepted after

end TribeTimelockedDelegatorBurner.Sample

namespace TribeTimelockedDelegatorBurner

theorem tribe_contained_sample :
    (Sample.last.beneficiary = 0xBB ∧ Sample.last.ledger.balanceOf TRIBE 0xBB = 30) ∧
    Contained 0xAA 0xBB Sample.accepted Sample.last := by
  obtain ⟨beneficiary, contained⟩ := tribe_contained Sample.apart
    (rfl : TimelockedDelegator.construct _ 1000 TRIBE 7 100 = .ok Sample.deployed)
    (Timelocks.Sample.unapproved 0xAA) (fun _ => Timelocks.Sample.unapproved _) (fun _ => rfl)
    Sample.appointed_regular (rfl : Sample.handedOver = _) Sample.unapproved Sample.accepts
    Sample.after_external (rfl : Sample.last = _)
  exact ⟨⟨beneficiary, by decide +kernel⟩, contained⟩

theorem sweep_end_iff_sample : ∃ r, sendTribeToTreaury 0xAA 0xBB
      (run (step 0xAA 0xBB Timelocks.Sample.create) Sample.last [.undelegate 11]) = .ok r ∧
    heldToken 0xAA r.toTokenTimelockState = 0 ∧ 430 ≤ treasured 0xBB r.ledger := by
  have unlockable : Unlockable 0xAA LinearTokenTimelock.fits
      (run (step 0xAA 0xBB Timelocks.Sample.create) Sample.last
        [.undelegate 11]).toTokenTimelockState :=
    ⟨by decide +kernel, by decide +kernel, by decide +kernel⟩
  have live : ∀ d, d ∈ [(11 : Address)] ↔ Sample.last.delegateContract d ≠ 0 := by
    intro d
    have contracts : Sample.last.delegateContract =
        Function.update (fun _ => 0) 11 (Timelocks.Sample.create 0) := rfl
    rw [contracts, List.mem_singleton]
    by_cases same : d = 11
    · subst same
      rw [Function.update_self]
      exact ⟨fun _ => Timelocks.Sample.create_ne 0, fun _ => rfl⟩
    · rw [Function.update_of_ne same]
      exact ⟨fun equal => absurd equal same, fun some => absurd rfl some⟩
  obtain ⟨_, sends⟩ := sweep_end_iff Sample.apart
    (rfl : TimelockedDelegator.construct _ 1000 TRIBE 7 100 = .ok Sample.deployed)
    (Timelocks.Sample.unapproved 0xAA) (fun _ => Timelocks.Sample.unapproved _) (fun _ => rfl)
    Sample.appointed_regular (rfl : Sample.handedOver = _) Sample.unapproved Sample.accepts
    Sample.after_external (rfl : Sample.last = _) (by decide : 0 < 1000) (by decide +kernel)
    (List.nodup_singleton 11) live
  obtain ⟨r, succeeds, empty, _, total⟩ := sends.mpr unlockable
  refine ⟨r, succeeds, empty, Nat.le_trans ?_ total⟩
  decide +kernel

end TribeTimelockedDelegatorBurner

end FeiProtocol
