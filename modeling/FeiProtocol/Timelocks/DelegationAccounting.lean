import FeiProtocol.Math.Tables
import FeiProtocol.Timelocks.TimelockBooks
import Mathlib.Algebra.Order.BigOperators.Group.Finset

/-!
# What the delegating timelocks keep track of

A delegated amount is kept twice: in a counter, and as the balance of a contract of its own.

* `Accounted`: the counters add up, and each positive amount is covered by a contract that has
  not paid back yet.
* `Exact`: without donations, the contracts have just what was delegated.
* `delegations_accounted`: both along every run, with what `delegate` and `undelegate` do to
  the total.
-/

namespace FeiProtocol

open Evm TokenTimelock

namespace Delegator

variable {this : Address} {create : Nat → Address}

/-- A regular transaction of the timelock, or a delegation or undelegation. -/
def Action.Regular (this : Address) (create : Nat → Address) : Action → Prop
  | .timelock a => a.Regular (Own this create)
  | _ => True

/-- A token call or a release that brings tokens to a delegate contract. -/
def Action.Donates (token : Address) (create : Nat → Address) : Action → Prop
  | .timelock (.token _ c) => ∃ n, c.Credits token (create n)
  | .timelock (.release _ receiver _) => ∃ n, receiver = create n
  | .timelock (.releaseMax _ receiver) => ∃ n, receiver = create n
  | _ => False

/-- The contract of a delegatee is there: the timelock created it, and it has not yet made the
transfer with which it destroys itself. -/
structure Live (create : Nat → Address) (s : TimelockedDelegatorState) (d : Address) : Prop where
  created : ∃ n, n < s.nonce ∧ s.delegateContract d = create n
  undestroyed : s.ledger.calledBy (s.delegateContract d) = []

/-- The counters add up, and what is delegated is there. -/
structure Accounted (create : Nat → Address) (s : TimelockedDelegatorState) : Prop where
  total : s.totalDelegated = ∑ d, s.delegateAmount d
  live : ∀ d, 0 < s.delegateAmount d → Live create s d ∧
    s.delegateAmount d ≤ s.ledger.balanceOf s.tribe (s.delegateContract d)

/-- What the counters say beside `Delegations`. -/
structure Counters (create : Nat → Address) (s : TimelockedDelegatorState) : Prop where
  total : s.totalDelegated = ∑ d, s.delegateAmount d
  none : ∀ d, s.delegateContract d = 0 → s.delegateAmount d = 0
  undestroyed : ∀ d, s.delegateContract d ≠ 0 → s.ledger.calledBy (s.delegateContract d) = []
  uncalled : ∀ n, s.nonce ≤ n → n < 2 ^ 64 → s.ledger.calledBy (create n) = []

/-- Without donations the contracts have just what was delegated to them. -/
structure Exact (create : Nat → Address) (s : TimelockedDelegatorState) : Prop where
  live : ∀ d, s.delegateContract d ≠ 0 →
    s.ledger.balanceOf s.tribe (s.delegateContract d) = s.delegateAmount d
  new : ∀ n, s.nonce ≤ n → n < 2 ^ 64 → s.ledger.balanceOf s.tribe (create n) = 0

/-- What holds in every state. -/
structure Kept (this : Address) (create : Nat → Address) (schedule : Nat → Nat → Nat → Nat)
    (s : TimelockedDelegatorState) : Prop where
  books : Books this s.totalDelegated schedule s.toTokenTimelockState
  delegations : Delegations create s
  counters : Counters create s

variable {schedule : Nat → Nat → Nat → Nat} {s s' : TimelockedDelegatorState}
  {sender delegatee c : Address} {amount : Nat}

theorem Kept.accounted (kept : Kept this create schedule s) : Accounted create s := by
  refine ⟨kept.counters.total, fun d positive => ?_⟩
  have live : s.delegateContract d ≠ 0 := by
    intro absent
    have none := kept.counters.none d absent
    omega
  exact ⟨⟨kept.delegations.live d live, kept.counters.undestroyed d live⟩,
    kept.delegations.covered d live⟩

theorem Kept.amount_le (kept : Kept this create schedule s) (d : Address) :
    s.delegateAmount d ≤ s.totalDelegated := by
  rw [kept.counters.total]
  exact Finset.single_le_sum (f := s.delegateAmount) (fun _ _ => Nat.zero_le _)
    (Finset.mem_univ d)

/-! ## Undelegating -/

/-- A transfer leaves the calls of every other account. -/
theorem calledBy_of_moved {w w' : Ledger} {e : Transfer} (moved : Ledger.Moved w w' e)
    (other : e.operator ≠ c) : w'.calledBy c = w.calledBy c := by
  simp [Ledger.calledBy, moved.transfers, List.filter_append, other]

theorem sum_of_update {f : Address → Nat} (d : Address) (v : Nat) :
    ∑ x, Function.update f d v x + f d = ∑ x, f x + v := by
  have change := Tables.sum_change (f := f) (g := Function.update f d v) (Finset.mem_univ d)
    fun j _ other => Function.update_of_ne other v f
  rwa [Function.update_self] at change

theorem Undelegated.counters_kept (done : Undelegated this s s' delegatee)
    (delegations : Delegations create s) (counters : Counters create s)
    (fresh : Fresh this create) : Counters create s' := by
  obtain ⟨n, lt, created⟩ := delegations.live delegatee done.live
  constructor
  · have sum := sum_of_update (f := s.delegateAmount) delegatee 0
    have total := counters.total
    have le := done.amount_le
    rw [done.totalDelegated, done.delegateAmount]
    omega
  · intro d absent
    rw [done.delegateContract] at absent
    rw [done.delegateAmount]
    by_cases same : d = delegatee
    · rw [same, Function.update_self]
    · rw [Function.update_of_ne same] at absent ⊢
      exact counters.none d absent
  · intro d live
    rw [done.delegateContract] at live ⊢
    by_cases same : d = delegatee
    · rw [same, Function.update_self] at live
      exact absurd rfl live
    · rw [Function.update_of_ne same] at live ⊢
      rw [calledBy_of_moved done.moved fun equal =>
        same (delegations.distinct d delegatee live equal.symm)]
      exact counters.undestroyed d live
  · intro m later narrow
    rw [done.nonce] at later
    rw [calledBy_of_moved done.moved]
    · exact counters.uncalled m later narrow
    · intro same
      rw [created] at same
      have equal := fresh.distinct (Nat.lt_trans lt delegations.nonce_lt) narrow same
      omega

theorem Undelegated.exact_kept (done : Undelegated this s s' delegatee)
    (delegations : Delegations create s) (exact : Exact create s) (fresh : Fresh this create) :
    Exact create s' := by
  have elsewhere : ∀ {c}, c ≠ s.delegateContract delegatee → c ≠ this →
      s'.ledger.balanceOf s.tribe c = s.ledger.balanceOf s.tribe c := by
    intro c other notThis
    have balance := done.moved.balance s.tribe c
    simpa only [other, notThis, and_false, if_false, Nat.add_zero] using balance
  obtain ⟨n, lt, created⟩ := delegations.live delegatee done.live
  constructor
  · intro d live
    rw [done.delegateContract] at live ⊢
    by_cases same : d = delegatee
    · rw [same, Function.update_self] at live
      exact absurd rfl live
    · rw [Function.update_of_ne same] at live ⊢
      rw [done.tribe, done.delegateAmount, Function.update_of_ne same, elsewhere
        (fun equal => same (delegations.distinct d delegatee live equal))
        (delegations.contract_ne fresh live)]
      exact exact.live d live
  · intro m later narrow
    rw [done.nonce] at later
    rw [done.tribe, elsewhere ?_ (fresh.other m)]
    · exact exact.new m later narrow
    · intro same
      rw [created] at same
      have equal := fresh.distinct narrow (Nat.lt_trans lt delegations.nonce_lt) same
      omega

/-- What comes back is what was delegated, or more. -/
theorem Undelegated.total (done : Undelegated this s s' delegatee)
    (delegations : Delegations create s) (fresh : Fresh this create) :
    heldToken this s'.toTokenTimelockState + s'.totalDelegated + s.delegateAmount delegatee =
      heldToken this s.toTokenTimelockState + s.totalDelegated +
        s.ledger.balanceOf s.tribe (s.delegateContract delegatee) := by
  have notThis := delegations.contract_ne fresh done.live
  have token : s'.lockedToken = s.lockedToken := by rw [done.timelock]
  have balance := done.moved.balance s.lockedToken this
  simp only [delegations.tribe, notThis.symm, and_false, if_false, and_self, if_true] at balance ⊢
  have total := done.totalDelegated
  have le := done.amount_le
  rw [heldToken, heldToken, token]
  omega

/-- The books when tokens move between the timelock and its delegates. -/
theorem books_moved (complete : Vesting.Complete schedule)
    (books : Books this s.totalDelegated schedule s.toTokenTimelockState)
    (timelock : s'.toTokenTimelockState = { s.toTokenTimelockState with ledger := s'.ledger })
    (total_le : heldToken this s.toTokenTimelockState + s.totalDelegated ≤
      heldToken this s'.toTokenTimelockState + s'.totalDelegated)
    (unapproved : s'.ledger.Unapproved this) :
    Books this s'.totalDelegated schedule s'.toTokenTimelockState := by
  have accrued : Accrued this s.totalDelegated s'.totalDelegated s.toTokenTimelockState
      s'.toTokenTimelockState := by
    rw [timelock] at total_le ⊢
    exact ⟨total_le, rfl, rfl, rfl, rfl, Nat.le_refl _⟩
  exact accrued.books complete books unapproved

theorem Undelegated.kept (done : Undelegated this s s' delegatee)
    (complete : Vesting.Complete schedule) (fresh : Fresh this create)
    (kept : Kept this create schedule s) : Kept this create schedule s' := by
  refine ⟨?_, done.delegations_kept fresh kept.delegations,
    done.counters_kept kept.delegations kept.counters fresh⟩
  have total := done.total kept.delegations fresh
  have covered := kept.delegations.covered delegatee done.live
  exact books_moved complete kept.books done.timelock (by omega)
    (done.moved.unapproved kept.books.unapproved)

/-- **No underflow.** The beneficiary can undelegate from every delegatee that has a contract. -/
theorem undelegate_succeeds (kept : Kept this create schedule s)
    (live : s.delegateContract delegatee ≠ 0) :
    ∃ s' amount, undelegate this s s.beneficiary delegatee = .ok (s', amount) := by
  obtain ⟨ledger, returned⟩ := Ledger.safeTransfer_succeeds
    (Nat.le_refl (s.ledger.balanceOf s.tribe (s.delegateContract delegatee))) this
  simp only [undelegate, onlyBeneficiary, Delegatee.withdraw, bind_eq_ok_iff, pure_eq_ok_iff,
    require_eq_ok_iff, checkedSub_eq_ok_iff]
  exact ⟨_, _, (), trivial, (), live, ledger, returned, _, ⟨kept.amount_le delegatee, rfl⟩, rfl⟩

/-! ## Delegating -/

theorem Delegated.counters_kept (done : Delegated this create s s' delegatee amount)
    (free : s.delegateContract delegatee = 0) (nonzero : ∀ n, create n ≠ 0)
    (delegations : Delegations create s) (counters : Counters create s)
    (fresh : Fresh this create) : Counters create s' := by
  have uncalled : ∀ {c}, c ≠ this → s'.ledger.calledBy c = s.ledger.calledBy c :=
    fun other => calledBy_of_moved done.moved other.symm
  have narrow := done.nonce_lt
  constructor
  · have sum := sum_of_update (f := s.delegateAmount) delegatee amount
    have total := counters.total
    have unused := counters.none delegatee free
    rw [done.totalDelegated, done.delegateAmount]
    omega
  · intro d absent
    rw [done.delegateContract] at absent
    rw [done.delegateAmount]
    by_cases same : d = delegatee
    · rw [same, Function.update_self] at absent
      exact absurd absent (nonzero s.nonce)
    · rw [Function.update_of_ne same] at absent ⊢
      exact counters.none d absent
  · intro d live
    rw [done.delegateContract] at live ⊢
    by_cases same : d = delegatee
    · rw [same, Function.update_self, uncalled (fresh.other s.nonce)]
      exact counters.uncalled s.nonce (Nat.le_refl _) (by omega)
    · rw [Function.update_of_ne same] at live ⊢
      rw [uncalled (delegations.contract_ne fresh live)]
      exact counters.undestroyed d live
  · intro n later fits
    rw [done.nonce] at later
    rw [uncalled (fresh.other n)]
    exact counters.uncalled n (by omega) fits

theorem Delegated.exact_kept (done : Delegated this create s s' delegatee amount)
    (delegations : Delegations create s) (exact : Exact create s) (fresh : Fresh this create) :
    Exact create s' := by
  have room := done.nonce_lt
  have balance : ∀ {c}, c ≠ this → s'.ledger.balanceOf s.tribe c =
      s.ledger.balanceOf s.tribe c + if c = create s.nonce then amount else 0 := by
    intro c notThis
    have balance := done.moved.balance s.tribe c
    simpa only [notThis, and_false, if_false, Nat.add_zero, true_and] using balance
  constructor
  · intro d live
    rw [done.delegateContract] at live ⊢
    rw [done.tribe, done.delegateAmount]
    by_cases same : d = delegatee
    · rw [same, Function.update_self, Function.update_self, balance (fresh.other s.nonce),
        if_pos rfl, exact.new s.nonce (Nat.le_refl _) (by omega), Nat.zero_add]
    · rw [Function.update_of_ne same] at live ⊢
      rw [Function.update_of_ne same, balance (delegations.contract_ne fresh live),
        if_neg, Nat.add_zero]
      · exact exact.live d live
      · intro equal
        obtain ⟨n, lt, created⟩ := delegations.live d live
        have number := fresh.distinct (Nat.lt_trans lt delegations.nonce_lt)
          delegations.nonce_lt (created.symm.trans equal)
        omega
  · intro n later fits
    rw [done.nonce] at later
    rw [done.tribe, balance (fresh.other n), if_neg, Nat.add_zero]
    · exact exact.new n (by omega) fits
    · intro equal
      have number := fresh.distinct fits (by omega) equal
      omega

/-- Delegating moves tokens, and none to anywhere else. -/
theorem Delegated.total (done : Delegated this create s s' delegatee amount)
    (delegations : Delegations create s) (fresh : Fresh this create) :
    heldToken this s'.toTokenTimelockState + s'.totalDelegated =
      heldToken this s.toTokenTimelockState + s.totalDelegated := by
  have token : s'.lockedToken = s.lockedToken := by rw [done.timelock]
  have balance := done.moved.balance s.lockedToken this
  simp only [delegations.tribe, (fresh.other s.nonce).symm, and_false, if_false, and_self,
    if_true] at balance
  have total := done.totalDelegated
  rw [heldToken, heldToken, token]
  omega

theorem Delegated.kept (done : Delegated this create s s' delegatee amount)
    (free : s.delegateContract delegatee = 0) (nonzero : ∀ n, create n ≠ 0)
    (complete : Vesting.Complete schedule) (fresh : Fresh this create)
    (kept : Kept this create schedule s) : Kept this create schedule s' := by
  refine ⟨?_, done.delegations_kept fresh kept.delegations,
    done.counters_kept free nonzero kept.delegations kept.counters fresh⟩
  have total := done.total kept.delegations fresh
  exact books_moved complete kept.books done.timelock (Nat.le_of_eq total.symm)
    (done.moved.unapproved kept.books.unapproved)

/-! ## Transactions -/

/-- `o` counts what is delegated and computes the schedule. -/
def Computes (o : Nat → Overrides) (this : Address) (schedule : Nat → Nat → Nat → Nat)
    (fits : Nat → Nat → Prop) : Prop :=
  ∀ totalDelegated, TokenTimelock.Computes (o totalDelegated) this totalDelegated schedule fits

variable {o : Nat → Overrides} {fits : Nat → Nat → Prop}

theorem computes_overrides {proportion : Nat → Nat → Nat → Except Revert Nat}
    (complete : Vesting.Complete schedule)
    (follows : ∀ {r e d n}, d ≠ 0 →
      (proportion r e d = .ok n ↔ fits r e ∧ schedule d r e = n)) :
    Computes (fun totalDelegated => overrides this totalDelegated proportion) this schedule
      fits := by
  intro totalDelegated
  constructor
  · intro s n counted
    exact (checkedAdd_eq_ok_iff.mp counted).2.symm
  · intro s narrow
    exact checkedAdd_eq_ok_iff.mpr ⟨narrow, rfl⟩
  · exact follows
  · exact complete

/-- What a transaction that is not a delegation leaves of the accounting. -/
structure TimelockStepped (this : Address) (create : Nat → Address) (delegated : Nat)
    (schedule : Nat → Nat → Nat → Nat) (s : TimelockedDelegatorState) (t : TokenTimelockState) :
    Prop where
  effect : Effect this (Own this create) delegated schedule s.toTokenTimelockState t
  calledBy : ∀ n, t.ledger.calledBy (create n) = s.ledger.calledBy (create n)

theorem timelockStepped_of_step {a : TokenTimelock.Action} {t : TokenTimelockState}
    (computes : Computes o this schedule fits) (fresh : Fresh this create)
    (kept : Kept this create schedule s) (regular : a.Regular (Own this create))
    (succeeds : TokenTimelock.step this (o s.totalDelegated) s.toTokenTimelockState a = .ok t) :
    TimelockStepped this create s.totalDelegated schedule s t := by
  have books := kept.books
  refine ⟨effect_of_step (computes s.totalDelegated) books (.inl rfl) regular succeeds, ?_⟩
  intro n
  rcases ledger_of_step (computes _) books regular succeeds with
    ⟨_, _, _, _, _, pays⟩ | ⟨sender, c, called, performed⟩ | same
  · exact calledBy_of_moved (Ledger.safeTransfer_moved pays.paid) (fresh.other n).symm
  · subst called
    exact Ledger.perform_calledBy (fun same => regular (.inr ⟨n, same⟩)) performed
  · rw [same]

theorem TimelockStepped.kept {t : TokenTimelockState}
    (stepped : TimelockStepped this create s.totalDelegated schedule s t)
    (complete : Vesting.Complete schedule) (fresh : Fresh this create)
    (kept : Kept this create schedule s) :
    Kept this create schedule { s with toTokenTimelockState := t } := by
  have before := kept.delegations
  have counters := kept.counters
  have custody : ∀ n, Ledger.Custody s.ledger t.ledger (create n) := fun n =>
    stepped.effect.custody (.inr ⟨n, rfl⟩) (fresh.other n) (before.unapproved n)
  refine ⟨stepped.effect.books (.inl rfl) complete kept.books,
    before.timelock stepped.effect.terms.lockedToken custody,
    ⟨counters.total, counters.none, ?_, ?_⟩⟩
  · intro d live
    obtain ⟨n, _, created⟩ := before.live d live
    have quiet := counters.undestroyed d live
    simp only [created] at quiet ⊢
    rw [stepped.calledBy n]
    exact quiet
  · intro n later narrow
    rw [stepped.calledBy n]
    exact counters.uncalled n later narrow

/-- A transaction that donates nothing leaves the delegate contracts what they have. -/
theorem balanceOf_of_quiet {a : TokenTimelock.Action} {t : TokenTimelockState}
    (computes : Computes o this schedule fits) (fresh : Fresh this create)
    (kept : Kept this create schedule s) (regular : a.Regular (Own this create))
    (quiet : ¬ (Action.timelock a).Donates s.tribe create)
    (succeeds : TokenTimelock.step this (o s.totalDelegated) s.toTokenTimelockState a = .ok t)
    (n : Nat) :
    t.ledger.balanceOf s.tribe (create n) = s.ledger.balanceOf s.tribe (create n) := by
  rcases ledger_of_step (computes _) kept.books regular succeeds with
    ⟨_, receiver, _, _, releases, pays⟩ | ⟨sender, c, called, performed⟩ | same
  · have other : receiver ≠ create n := by
      intro same
      rcases releases with released | released
      · exact quiet (released ▸ ⟨n, same⟩)
      · exact quiet (released ▸ ⟨n, same⟩)
    have balance := (Ledger.safeTransfer_moved pays.paid).balance s.tribe (create n)
    simpa only [fresh.other n, other.symm, and_false, if_false, Nat.add_zero] using balance
  · subst called
    have custody := Ledger.perform_custody (kept.delegations.unapproved n)
      (fun same => regular (.inr ⟨n, same⟩)) performed
    have received := Ledger.perform_received (fun credits => quiet ⟨n, credits⟩) performed
    have balance := custody.balance s.tribe
    omega
  · rw [same]

theorem kept_of_step {a : Action} (computes : Computes o this schedule fits)
    (fresh : Fresh this create) (nonzero : ∀ n, create n ≠ 0)
    (kept : Kept this create schedule s) (regular : a.Regular this create)
    (succeeds : step this create o s a = .ok s') :
    Kept this create schedule s' ∧ s'.tribe = s.tribe ∧
      (¬ a.Donates s.tribe create → Exact create s → Exact create s') := by
  have complete := (computes 0).complete
  cases a with
  | timelock a =>
      obtain ⟨t, called, same⟩ := bind_eq_ok_iff.mp succeeds
      cases same
      have stepped := timelockStepped_of_step computes fresh kept regular called
      refine ⟨stepped.kept complete fresh kept, rfl, fun quiet exact => ?_⟩
      have balance := balanceOf_of_quiet computes fresh kept regular quiet called
      constructor
      · intro d live
        obtain ⟨n, _, created⟩ := kept.delegations.live d live
        have same := exact.live d live
        simp only [created] at same ⊢
        rw [balance n]
        exact same
      · intro n later narrow
        exact (balance n).trans (exact.new n later narrow)
  | delegate sender delegatee amount =>
      obtain ⟨m, total, cleared, done⟩ := delegated_of_delegate succeeds
      rcases cleared with ⟨same, free⟩ | returned
      · subst same
        exact ⟨done.kept free nonzero complete fresh kept, done.tribe,
          fun _ exact => done.exact_kept kept.delegations exact fresh⟩
      · have middle := returned.kept complete fresh kept
        have free : m.delegateContract delegatee = 0 := by
          rw [returned.delegateContract, Function.update_self]
        refine ⟨done.kept free nonzero complete fresh middle, done.tribe.trans returned.tribe, ?_⟩
        intro _ exact
        exact done.exact_kept middle.delegations
          (returned.exact_kept kept.delegations exact fresh) fresh
  | undelegate sender delegatee =>
      obtain ⟨⟨m, amount⟩, called, same⟩ := map_eq_ok_iff.mp succeeds
      subst same
      have done := undelegated_of_undelegate called
      exact ⟨done.kept complete fresh kept, done.tribe,
        fun _ exact => done.exact_kept kept.delegations exact fresh⟩

/-- A delegation or an undelegation. -/
def Action.Moves : Action → Prop
  | .timelock _ => False
  | _ => True

/-- Delegating and undelegating lose nothing, and without donations keep the total. -/
theorem total_of_step {a : Action} (fresh : Fresh this create)
    (complete : Vesting.Complete schedule) (kept : Kept this create schedule s)
    (moves : a.Moves) (succeeds : step this create o s a = .ok s') :
    heldToken this s.toTokenTimelockState + s.totalDelegated ≤
        heldToken this s'.toTokenTimelockState + s'.totalDelegated ∧
      (Exact create s → heldToken this s'.toTokenTimelockState + s'.totalDelegated =
        heldToken this s.toTokenTimelockState + s.totalDelegated) := by
  have back : ∀ {m d}, Undelegated this s m d →
      heldToken this s.toTokenTimelockState + s.totalDelegated ≤
          heldToken this m.toTokenTimelockState + m.totalDelegated ∧
        (Exact create s → heldToken this m.toTokenTimelockState + m.totalDelegated =
          heldToken this s.toTokenTimelockState + s.totalDelegated) := by
    intro m d done
    have total := done.total kept.delegations fresh
    have covered := kept.delegations.covered d done.live
    refine ⟨by omega, fun exact => ?_⟩
    have same := exact.live d done.live
    omega
  cases a with
  | timelock a => exact absurd moves id
  | delegate sender delegatee amount =>
      obtain ⟨m, total, cleared, done⟩ := delegated_of_delegate succeeds
      rcases cleared with ⟨same, _⟩ | returned
      · subst same
        have total := done.total kept.delegations fresh
        exact ⟨Nat.le_of_eq total.symm, fun _ => total⟩
      · have total := done.total (returned.kept complete fresh kept).delegations fresh
        rw [total]
        exact back returned
  | undelegate sender delegatee =>
      obtain ⟨⟨m, amount⟩, called, same⟩ := map_eq_ok_iff.mp succeeds
      subst same
      exact back (undelegated_of_undelegate called)

/-! ## Runs -/

theorem kept_run (computes : Computes o this schedule fits) (fresh : Fresh this create)
    (nonzero : ∀ n, create n ≠ 0) (kept : Kept this create schedule s) {actions : List Action}
    (regular : ∀ a ∈ actions, a.Regular this create) :
    Kept this create schedule (run (step this create o) s actions) := by
  apply run_invariant (I := Kept this create schedule) (A := fun a => a.Regular this create) _ kept
    regular
  intro s a s' kept regular succeeds
  exact (kept_of_step computes fresh nonzero kept regular succeeds).1

theorem exact_run (computes : Computes o this schedule fits) (fresh : Fresh this create)
    (nonzero : ∀ n, create n ≠ 0) (kept : Kept this create schedule s) (exact : Exact create s)
    {actions : List Action} (regular : ∀ a ∈ actions, a.Regular this create)
    (quiet : ∀ a ∈ actions, ¬ a.Donates s.tribe create) :
    Exact create (run (step this create o) s actions) := by
  have all := @run_invariant _ _ _ (step this create o)
    (fun t => Kept this create schedule t ∧ Exact create t ∧ t.tribe = s.tribe)
    (fun a => a.Regular this create ∧ ¬ a.Donates s.tribe create) ?_ _
    ⟨kept, exact, rfl⟩ _ fun a mem => ⟨regular a mem, quiet a mem⟩
  · exact all.2.1
  · intro t a t' ⟨kept, exact, token⟩ ⟨regular, quiet⟩ succeeds
    obtain ⟨kept', same, exact'⟩ := kept_of_step computes fresh nonzero kept regular succeeds
    rw [← token] at quiet
    exact ⟨kept', exact' quiet exact, same.trans token⟩

theorem kept_ofTimelock {ledger : Ledger} {t : TokenTimelockState}
    (books : Books this 0 schedule t) (same : t.ledger = ledger)
    (noneElsewhere : ∀ n, ledger.Unapproved (create n))
    (uncalled : ∀ n, ledger.calledBy (create n) = []) :
    Kept this create schedule (ofTimelock t.lockedToken t) := by
  subst same
  refine ⟨books, ⟨rfl, Nat.two_pow_pos 64, noneElsewhere, ?_, ?_, ?_⟩, ⟨?_, ?_, ?_, ?_⟩⟩
  · exact fun d live => absurd rfl live
  · exact fun d live => absurd rfl live
  · exact fun d d' live => absurd rfl live
  · simp [ofTimelock]
  · exact fun d _ => rfl
  · exact fun d live => absurd rfl live
  · exact fun n _ _ => uncalled n

/-- What the delegating timelocks promise in a state `s` that `actions` lead to, from a
deployment over `ledger`. -/
structure Keeps (this : Address) (create : Nat → Address) (o : Nat → Overrides)
    (ledger : Ledger) (actions : List Action) (s : TimelockedDelegatorState) : Prop where
  accounted : Accounted create s
  undelegates : ∀ d, s.delegateContract d ≠ 0 →
    ∃ s', step this create o s (.undelegate s.beneficiary d) = .ok s'
  total_le : ∀ a s' n n', a.Moves → step this create o s a = .ok s' →
    (o s.totalDelegated).totalToken s.toTokenTimelockState = .ok n →
    (o s'.totalDelegated).totalToken s'.toTokenTimelockState = .ok n' → n ≤ n'
  total_eq : (∀ n, ledger.balanceOf s.tribe (create n) = 0) →
    (∀ a ∈ actions, ¬ a.Donates s.tribe create) →
    ∀ a s', a.Moves → step this create o s a = .ok s' →
      (o s'.totalDelegated).totalToken s'.toTokenTimelockState =
        (o s.totalDelegated).totalToken s.toTokenTimelockState

theorem keeps_run {proportion : Nat → Nat → Nat → Except Revert Nat} {ledger : Ledger}
    {t : TokenTimelockState} (complete : Vesting.Complete schedule)
    (follows : ∀ {r e d n}, d ≠ 0 →
      (proportion r e d = .ok n ↔ fits r e ∧ schedule d r e = n))
    (fresh : Fresh this create) (nonzero : ∀ n, create n ≠ 0)
    (noneElsewhere : ∀ n, ledger.Unapproved (create n))
    (uncalled : ∀ n, ledger.calledBy (create n) = []) (books : Books this 0 schedule t)
    (found : t.ledger = ledger) {actions : List Action}
    (regular : ∀ a ∈ actions, a.Regular this create) :
    Keeps this create (fun totalDelegated => overrides this totalDelegated proportion) ledger
      actions (run (step this create fun totalDelegated => overrides this totalDelegated proportion)
        (ofTimelock t.lockedToken t) actions) := by
  have computes : Computes (fun totalDelegated => overrides this totalDelegated proportion) this
      schedule fits := computes_overrides complete follows
  have start := kept_ofTimelock books found noneElsewhere uncalled
  have kept := kept_run computes fresh nonzero start regular
  have token := @run_invariant _ _ _ (step this create fun totalDelegated =>
      overrides this totalDelegated proportion)
    (fun u => Kept this create schedule u ∧ u.tribe = t.lockedToken)
    (fun a => a.Regular this create)
    (fun ⟨kept, same⟩ regular succeeds => by
      obtain ⟨kept', tribe, -⟩ := kept_of_step computes fresh nonzero kept regular succeeds
      exact ⟨kept', tribe.trans same⟩) _ ⟨start, rfl⟩ _ regular
  refine ⟨kept.accounted, ?_, ?_, ?_⟩
  · intro d live
    obtain ⟨s', amount, succeeds⟩ := undelegate_succeeds kept live
    exact ⟨s', map_eq_ok_iff.mpr ⟨_, succeeds, rfl⟩⟩
  · intro a s' n n' moves succeeds before after
    have le := (total_of_step fresh complete kept moves succeeds).1
    have first := (computes _).counts before
    have second := (computes _).counts after
    omega
  · intro empty quiet a s' moves succeeds
    rw [token.2] at empty quiet
    have exact : Exact create (ofTimelock t.lockedToken t) := by
      refine ⟨fun d live => absurd rfl live, fun n _ _ => ?_⟩
      have same : (ofTimelock t.lockedToken t).ledger = ledger := found
      rw [same]
      exact empty n
    have same := (total_of_step fresh complete kept moves succeeds).2
      (exact_run computes fresh nonzero start exact regular quiet)
    have total : ∀ u : TimelockedDelegatorState, (overrides this u.totalDelegated
        proportion).totalToken u.toTokenTimelockState =
          checked (heldToken this u.toTokenTimelockState + u.totalDelegated) := fun _ => rfl
    rw [total, total, same]

end Delegator

/-- **Delegations.** In every state of every run of delegations, undelegations, releases,
beneficiary changes, deposits and donations, from any deployment of the two timelocks that
delegate: the delegated amounts add up and are there, whatever has a contract can be
undelegated, and moving tokens never lowers the total, nor changes it without donations. -/
theorem delegations_accounted {this : Address} {ledger : Ledger} {create : Nat → Address}
    (none : ledger.Unapproved this) (fresh : Delegator.Fresh this create)
    (nonzero : ∀ n, create n ≠ 0) (noneElsewhere : ∀ n, ledger.Unapproved (create n))
    (uncalled : ∀ n, ledger.calledBy (create n) = []) (timestamp : Nat)
    (_beneficiary _tribe : Address) (_duration _cliff _startTime : UInt256) :
    (∀ s₀, TimelockedDelegator.construct ledger timestamp _tribe _beneficiary _duration =
        .ok s₀ →
      ∀ actions, (∀ a ∈ actions, a.Regular this create) →
      ∀ s, s = run (Delegator.step this create (TimelockedDelegator.overrides this)) s₀ actions →
        Delegator.Keeps this create (TimelockedDelegator.overrides this) ledger actions s) ∧
    (∀ s₀, QuadtraticTimelockedSubdelegator.construct ledger timestamp _beneficiary _duration
        _tribe _cliff _startTime = .ok s₀ →
      ∀ actions, (∀ a ∈ actions, a.Regular this create) →
      ∀ s, s = run (Delegator.step this create (QuadtraticTimelockedSubdelegator.overrides this))
        s₀ actions →
        Delegator.Keeps this create (QuadtraticTimelockedSubdelegator.overrides this) ledger
          actions s) := by
  constructor
  · intro s₀ deploys actions regular s reached
    simp only [TimelockedDelegator.construct, LinearTokenTimelock.construct, bind_eq_ok_iff,
      pure_eq_ok_iff] at deploys
    obtain ⟨_, ⟨t, built, started⟩, same⟩ := deploys
    subst started
    have token : (startAt t 0).lockedToken = _tribe := lockedToken_of_construct built 0
    have ledger_eq := ledger_of_construct built 0
    subst token
    subst same
    subst reached
    exact Delegator.keeps_run Vesting.complete_linear LinearTokenTimelock.proportion_iff fresh
      nonzero noneElsewhere uncalled (books_of_construct built none 0) ledger_eq regular
  · intro s₀ deploys actions regular s reached
    simp only [QuadtraticTimelockedSubdelegator.construct, QuadraticTokenTimelock.construct,
      bind_eq_ok_iff, pure_eq_ok_iff] at deploys
    obtain ⟨_, ⟨t, built, started⟩, same⟩ := deploys
    subst started
    have token : (startAt t _startTime).lockedToken = _tribe :=
      lockedToken_of_construct built _startTime
    have ledger_eq := ledger_of_construct built _startTime
    subst token
    subst same
    subst reached
    exact Delegator.keeps_run Vesting.complete_quadratic QuadraticTokenTimelock.proportion_iff
      fresh nonzero noneElsewhere uncalled (books_of_construct built none _startTime) ledger_eq
      regular

namespace Timelocks.Sample

theorem create_ne (n : Nat) : create n ≠ 0 := by
  intro same
  have values := congrArg BitVec.toNat same
  have zero : (0 : Address).toNat = 0 := rfl
  rw [toNat_create, zero] at values
  omega

/-- Two delegations, the first of them increased and given 50 more by somebody else. -/
def delegating : List Delegator.Action :=
  [.timelock (.token 9 (.transfer 20 0xAA 400)), .delegate 7 11 200, .delegate 7 12 50,
    .delegate 7 11 100, .timelock (.token 9 (.transfer 20 (create 2) 50))]

theorem delegating_regular : ∀ a ∈ delegating, a.Regular 0xAA create := by
  simpa [delegating, Delegator.Action.Regular, TokenTimelock.Action.Regular] using not_own

def delegated : TimelockedDelegatorState :=
  run (Delegator.step 0xAA create (TimelockedDelegator.overrides 0xAA)) linearDelegator delegating

end Timelocks.Sample

open Timelocks in
/-- The 300 delegated to account 11 can be undelegated, and the 50 donated come with them. -/
theorem delegations_accounted_sample :
    Sample.delegated.delegateAmount 11 = 300 ∧
    (∃ s', Delegator.step 0xAA Sample.create (TimelockedDelegator.overrides 0xAA) Sample.delegated
      (.undelegate 7 11) = .ok s') ∧
    350 ≤ Sample.delegated.totalDelegated ∧
    Delegator.Live Sample.create Sample.delegated 11 := by
  obtain ⟨linear, -⟩ := delegations_accounted (Sample.unapproved 0xAA) Sample.fresh
    Sample.create_ne (fun _ => Sample.unapproved _) (fun _ => rfl) 1000 7 20 100 0 0
  have keeps := linear Sample.linearDelegator rfl Sample.delegating Sample.delegating_regular
    Sample.delegated rfl
  have amount : Sample.delegated.delegateAmount 11 = 300 := by decide +kernel
  refine ⟨amount, keeps.undelegates 11 (by decide +kernel), by decide +kernel, ?_⟩
  exact (keeps.accounted.live 11 (by rw [amount]; decide)).1

end FeiProtocol
