import FeiProtocol.Refs.CoreRef
import FeiProtocol.Timelocks.TimelockBooks

/-!
# `LinearUnlockTimelock`

A linear timelock whose governor can send all it holds to the beneficiary at once. Neither
this nor a clawback tells the stored balances what left.

* `Coarse`: what any transaction leaves, whatever state the stored balances are in.
* `Renewed`: a timelock emptied before anything was noted is as good as new.
* `deposits_vest_iff`: what is deposited after a withdrawal vests exactly if it was such a one.
-/

namespace FeiProtocol

open Evm TokenTimelock CoreRef

namespace LinearUnlockTimelock

variable (core : Core) (this : Address)

/-! ## The contract -/

def construct (ledger : Ledger) (timestamp : Nat) (_beneficiary : Address) (_duration : UInt256)
    (_lockedToken : Address) (_cliffDuration : UInt256) (_clawbackAdmin : Address)
    (_startTime : UInt256) : Except Revert TokenTimelockState :=
  LinearTokenTimelock.construct ledger timestamp _beneficiary _duration _lockedToken
    _cliffDuration _clawbackAdmin _startTime

def unlockLiquidity (s : TokenTimelockState) (msgSender : Address) :
    Except Revert TokenTimelockState := do
  onlyGovernor core msgSender
  let total ← (LinearTokenTimelock.overrides this).totalToken s
  _release this s s.beneficiary total

inductive Action : Type where
  | timelock (a : TokenTimelock.Action)
  | unlockLiquidity (sender : Address)
  deriving DecidableEq, Repr

def step (s : TokenTimelockState) : Action → Except Revert TokenTimelockState
  | .timelock a => TokenTimelock.step this (LinearTokenTimelock.overrides this) s a
  | .unlockLiquidity sender => unlockLiquidity core this s sender

/-- Tokens are called by other accounts than the timelock. -/
def Action.External : Action → Prop
  | .timelock (.token sender _) => sender ≠ this
  | _ => True

/-- The two calls that take everything out. -/
inductive Withdrawal : Type where
  | unlockLiquidity (sender : Address)
  | clawback (sender : Address)
  deriving DecidableEq, Repr

def Withdrawal.action : Withdrawal → Action
  | .unlockLiquidity sender => .unlockLiquidity sender
  | .clawback sender => .timelock (.clawback sender)

/-! ## What any transaction leaves -/

variable {core this} {s s' : TokenTimelockState} {sender receiver : Address} {amount : Nat}

/-- What payments from the timelock leave. -/
structure Spent (this : Address) (s s' : TokenTimelockState) : Prop where
  terms : SameTerms s s'
  timestamp : s'.timestamp = s.timestamp
  initialBalance : s'.initialBalance = s.initialBalance
  lastBalance : s'.lastBalance = s.lastBalance
  held_le : heldToken this s' ≤ heldToken this s
  unapproved : s.ledger.Unapproved this → s'.ledger.Unapproved this

theorem Spent.refl (s : TokenTimelockState) : Spent this s s :=
  ⟨.refl s, rfl, rfl, rfl, Nat.le_refl _, id⟩

theorem Spent.trans {s'' : TokenTimelockState} (first : Spent this s s')
    (second : Spent this s' s'') : Spent this s s'' :=
  ⟨first.terms.trans second.terms, second.timestamp.trans first.timestamp,
    second.initialBalance.trans first.initialBalance,
    second.lastBalance.trans first.lastBalance, Nat.le_trans second.held_le first.held_le,
    fun none => second.unapproved (first.unapproved none)⟩

theorem spent_of_release (succeeds : _release this s receiver amount = .ok s') :
    Spent this s s' := by
  simp only [_release, bind_eq_ok_iff, pure_eq_ok_iff] at succeeds
  obtain ⟨ledger, paid, same⟩ := succeeds
  subst same
  have left := balanceOf_of_transfer paid
  refine ⟨⟨rfl, rfl, rfl, rfl⟩, rfl, rfl, rfl, ?_, fun none =>
    (Ledger.safeTransfer_moved paid).unapproved none⟩
  simp only [heldToken]
  omega

/-- What any transaction leaves. -/
structure Coarse (this : Address) (s s' : TokenTimelockState) : Prop where
  terms : SameTerms s s'
  timestamp_le : s.timestamp ≤ s'.timestamp
  order : s.lastBalance ≤ s.initialBalance → s'.lastBalance ≤ s'.initialBalance
  unapproved : s.ledger.Unapproved this → s'.ledger.Unapproved this

theorem Spent.coarse (spent : Spent this s s') : Coarse this s s' := by
  refine ⟨spent.terms, Nat.le_of_eq spent.timestamp.symm, fun order => ?_, spent.unapproved⟩
  rw [spent.initialBalance, spent.lastBalance]
  exact order

/-- What a call with `balanceCheck` leaves of the stored balances. -/
structure Checked (this : Address) (s s' : TokenTimelockState) : Prop where
  spent : Spent this (note this 0 s) { s' with lastBalance := s.lastBalance }
  lastBalance : s'.lastBalance = heldToken this s'

theorem note_of_noteDeposits
    (succeeds : noteDeposits (LinearTokenTimelock.overrides this) s = .ok s') :
    s' = note this 0 s := by
  simp only [noteDeposits, bind_eq_ok_iff] at succeeds
  obtain ⟨total, counted, succeeds⟩ := succeeds
  cases counted
  split at succeeds
  · simp only [bind_eq_ok_iff, pure_eq_ok_iff, checkedSub_eq_ok_iff, checkedAdd_eq_ok_iff]
      at succeeds
    obtain ⟨delta, ⟨_, more⟩, initialBalance, ⟨_, sum⟩, same⟩ := succeeds
    have received : initialBalance = noted this 0 s := by
      rw [noted]
      omega
    rw [note, ← received, same]
  · rename_i covered
    cases succeeds
    have received : noted this 0 s = s.initialBalance := by
      rw [noted]
      omega
    rw [note, received]

theorem checked_of_balanceCheck
    {body : TokenTimelockState → Except Revert TokenTimelockState}
    (spends : ∀ {t t'}, body t = .ok t' → Spent this t t')
    (succeeds : balanceCheck (LinearTokenTimelock.overrides this) s body = .ok s') :
    Checked this s s' := by
  simp only [balanceCheck, bind_eq_ok_iff, pure_eq_ok_iff] at succeeds
  obtain ⟨t, noted, t', done, last, counted, same⟩ := succeeds
  have start := note_of_noteDeposits noted
  subst start
  cases counted
  subst same
  have spent := spends done
  refine ⟨?_, rfl⟩
  have last : t'.lastBalance = s.lastBalance := spent.lastBalance
  simp only [← last]
  exact spent

theorem Checked.coarse (checked : Checked this s s') : Coarse this s s' := by
  have spent := checked.spent
  refine ⟨⟨spent.terms.timed, spent.terms.lockedToken, spent.terms.cliffSeconds,
    spent.terms.clawbackAdmin⟩, Nat.le_of_eq spent.timestamp.symm, fun order => ?_,
    spent.unapproved⟩
  have initial : s'.initialBalance = noted this 0 s := spent.initialBalance
  have held : heldToken this s' ≤ heldToken this s := spent.held_le
  rw [checked.lastBalance, initial, noted]
  omega

theorem checked_of_clawback
    (succeeds : clawback this (LinearTokenTimelock.overrides this) s sender = .ok s') :
    Checked this s s' := by
  refine checked_of_balanceCheck ?_ succeeds
  intro t t' done
  simp only [bind_eq_ok_iff] at done
  obtain ⟨_, _, passed, _, m, first, total, _, last⟩ := done
  have before : Spent this t m := by
    split at first
    · simp only [bind_eq_ok_iff] at first
      obtain ⟨_, _, released⟩ := first
      exact spent_of_release released
    · cases first
      exact .refl _
  exact before.trans (spent_of_release last)

theorem coarse_of_step {a : Action} (external : a.External this)
    (succeeds : step core this s a = .ok s') : Coarse this s s' := by
  cases a with
  | unlockLiquidity sender =>
      simp only [step, unlockLiquidity, bind_eq_ok_iff] at succeeds
      obtain ⟨_, _, _, _, released⟩ := succeeds
      exact (spent_of_release released).coarse
  | timelock a =>
      cases a with
      | release sender receiver amount =>
          simp only [step, TokenTimelock.step, release, seq_eq_ok_iff] at succeeds
          obtain ⟨_, called⟩ := succeeds
          refine (checked_of_balanceCheck ?_ called).coarse
          intro t t' done
          simp only [bind_eq_ok_iff] at done
          obtain ⟨_, _, _, _, _, _, _, _, _, _, released⟩ := done
          exact spent_of_release released
      | releaseMax sender receiver =>
          simp only [step, TokenTimelock.step, releaseMax, seq_eq_ok_iff] at succeeds
          obtain ⟨_, called⟩ := succeeds
          refine (checked_of_balanceCheck ?_ called).coarse
          intro t t' done
          simp only [bind_eq_ok_iff] at done
          obtain ⟨_, _, _, _, _, _, released⟩ := done
          exact spent_of_release released
      | setPendingBeneficiary sender _pendingBeneficiary =>
          obtain ⟨_, _, same⟩ := bind_eq_ok_iff.mp succeeds
          cases same
          exact ⟨⟨rfl, rfl, rfl, rfl⟩, Nat.le_refl _, id, id⟩
      | acceptBeneficiary sender =>
          obtain ⟨_, _, same⟩ := bind_eq_ok_iff.mp succeeds
          cases same
          exact ⟨⟨rfl, rfl, rfl, rfl⟩, Nat.le_refl _, id, id⟩
      | clawback sender => exact (checked_of_clawback succeeds).coarse
      | token sender c =>
          obtain ⟨ledger, performed, same⟩ := bind_eq_ok_iff.mp succeeds
          cases same
          exact ⟨⟨rfl, rfl, rfl, rfl⟩, Nat.le_refl _, id, fun none =>
            (Ledger.perform_custody none external performed).unapproved⟩
      | elapse seconds =>
          cases succeeds
          exact ⟨⟨rfl, rfl, rfl, rfl⟩, Nat.le_add_right _ _, id, id⟩

theorem Coarse.trans {s'' : TokenTimelockState} (first : Coarse this s s')
    (second : Coarse this s' s'') : Coarse this s s'' :=
  ⟨first.terms.trans second.terms, Nat.le_trans first.timestamp_le second.timestamp_le,
    fun order => second.order (first.order order),
    fun none => second.unapproved (first.unapproved none)⟩

theorem Coarse.elapsed_le (coarse : Coarse this s s') : elapsed s ≤ elapsed s' := by
  have later := coarse.timestamp_le
  simp only [elapsed, coarse.terms.timed]
  split <;> omega

theorem coarse_run {actions : List Action} (external : ∀ a ∈ actions, a.External this) :
    Coarse this s (run (step core this) s actions) := by
  apply run_invariant (I := Coarse this s) (A := fun a => a.External this) _
    ⟨.refl s, Nat.le_refl _, id, id⟩ external
  intro t a t' coarse external succeeds
  exact coarse.trans (coarse_of_step external succeeds)

/-! ## Withdrawals -/

variable {w : Withdrawal} {q r : TokenTimelockState}

/-- Nothing that a withdrawal takes out was noted before or by it. -/
def Clean (this : Address) (w : Withdrawal) (q : TokenTimelockState) : Prop :=
  q.initialBalance = 0 ∧ ∀ sender, w = .clawback sender → heldToken this q = 0

/-- A withdrawal leaves the amount received as `balanceCheck` knows it. -/
theorem initialBalance_of_withdrawal (succeeds : step core this q w.action = .ok r)
    (order : q.lastBalance ≤ q.initialBalance) : r.initialBalance = 0 ↔ Clean this w q := by
  cases w with
  | unlockLiquidity sender =>
      simp only [Withdrawal.action, step, unlockLiquidity, bind_eq_ok_iff] at succeeds
      obtain ⟨_, _, _, _, released⟩ := succeeds
      rw [(spent_of_release released).initialBalance, Clean]
      simp
  | clawback sender =>
      have initial : r.initialBalance = noted this 0 q :=
        (checked_of_clawback succeeds).spent.initialBalance
      have each : (∀ x, Withdrawal.clawback sender = .clawback x → heldToken this q = 0) ↔
          heldToken this q = 0 := ⟨fun all => all sender rfl, fun none _ _ => none⟩
      rw [initial, Clean, each, noted]
      omega

theorem timestamp_of_withdrawal (succeeds : step core this q w.action = .ok r) :
    r.timestamp = q.timestamp := by
  cases w with
  | unlockLiquidity sender =>
      simp only [Withdrawal.action, step, unlockLiquidity, bind_eq_ok_iff] at succeeds
      obtain ⟨_, _, _, _, released⟩ := succeeds
      exact (spent_of_release released).timestamp
  | clawback sender => exact (checked_of_clawback succeeds).spent.timestamp

/-! ## After a withdrawal -/

def _paidOut (this : Address) : TokenTimelockEvent → Nat
  | .Release _ receiver amount => if receiver = this then 0 else amount
  | _ => 0

/-- All that has left to other accounts. -/
def paidOut (this : Address) (s : TokenTimelockState) : Nat :=
  (s.events.map (_paidOut this)).sum

/-- The tokens received since `r`. -/
def receivedSince (this : Address) (r s : TokenTimelockState) : Nat :=
  receivedToken this s - receivedToken this r

/-- What was released since `r`. -/
def releasedSince (this : Address) (r s : TokenTimelockState) : Nat :=
  paidOut this s - paidOut this r

/-- The elapsed proportion of what was received since `r`, less what was released of it. -/
def dueSince (this : Address) (r s : TokenTimelockState) : Nat :=
  Vesting.linear s.timed.duration (receivedSince this r s) (elapsed s) - releasedSince this r s

/-- Past the cliff, and as long as the proportion of what was received since `r` fits a word,
the two releases pay just what is due of it. -/
structure PaysDue (this : Address) (r s : TokenTimelockState) : Prop where
  covered : releasedSince this r s ≤
    Vesting.linear s.timed.duration (receivedSince this r s) (elapsed s)
  releaseMax : ∀ receiver, ∃ s',
    TokenTimelock.step this (LinearTokenTimelock.overrides this) s
      (.releaseMax s.beneficiary receiver) = .ok s' ∧
    s.ledger.safeTransfer this s.lockedToken receiver (dueSince this r s) = .ok s'.ledger
  release : ∀ receiver amount, (∃ s',
    TokenTimelock.step this (LinearTokenTimelock.overrides this) s
      (.release s.beneficiary receiver amount) = .ok s') ↔
    amount ≠ 0 ∧ amount.toNat ≤ dueSince this r s

/-- The states in which a deposit made since `r` can be released in part. -/
structure Midway (this : Address) (r s : TokenTimelockState) : Prop where
  early : elapsed s < s.timed.duration
  cliff : s.cliffSeconds ≤ elapsed s
  received : receivedSince this r s < 2 ^ 256
  proportion : LinearTokenTimelock.fits (receivedSince this r s) (elapsed s)

/-- The stored balances speak of what happened since `r` only. -/
structure Renewed (this : Address) (r s : TokenTimelockState) : Prop where
  books : Books this 0 Vesting.linear s
  terms : SameTerms r s
  later : r.timestamp ≤ s.timestamp
  paid_le : paidOut this r ≤ paidOut this s
  received_le : receivedToken this r ≤ receivedToken this s
  gone : s.initialBalance - s.lastBalance = releasedSince this r s
  held : heldToken this s + releasedSince this r s = receivedSince this r s

theorem renewed_of_withdrawal (none : r.ledger.Unapproved this)
    (order : r.lastBalance ≤ r.initialBalance) (new : r.initialBalance = 0)
    (empty : heldToken this r = 0) : Renewed this r r := by
  have last : r.lastBalance = 0 := by omega
  refine ⟨⟨?_, order, ?_, ?_, none⟩, .refl r, Nat.le_refl _, Nat.le_refl _, Nat.le_refl _, ?_, ?_⟩
  · omega
  · rw [new]
    exact Nat.two_pow_pos 256
  · rw [new, last]
    exact Nat.zero_le _
  · rw [new, last, releasedSince, Nat.sub_self, Nat.sub_self]
  · rw [empty, releasedSince, receivedSince, Nat.sub_self, Nat.sub_self]

/-- What a step does to the balance, as the events and the stored balances tell it. -/
structure Flows (this : Address) (s s' : TokenTimelockState) : Prop where
  paid_le : paidOut this s ≤ paidOut this s'
  received_le : receivedToken this s ≤ receivedToken this s'
  held : heldToken this s' + paidOut this s' + receivedToken this s =
    heldToken this s + paidOut this s + receivedToken this s'
  gone : s'.initialBalance - s'.lastBalance + paidOut this s =
    s.initialBalance - s.lastBalance + paidOut this s'

theorem flows_of_pays (books : Books this 0 Vesting.linear s)
    (pays : Pays this 0 s s' receiver amount) : Flows this s s' := by
  have left := pays.heldToken
  have out : paidOut this s' = paidOut this s + if receiver = this then 0 else amount := by
    simp [paidOut, pays.events, _paidOut]
  have received : receivedToken this s' = receivedToken this s := by
    simpa [receivedToken, Ledger.received, pays.terms.lockedToken] using
      (Ledger.safeTransfer_moved pays.paid).total_eq
        fun e => e.operator ≠ this && e.token = s.lockedToken && e.dst = this
  have whole := books.total_le
  have gone := books.gone
  refine ⟨?_, Nat.le_of_eq received.symm, ?_, ?_⟩
  · omega
  · omega
  · rw [pays.initialBalance, pays.lastBalance]
    omega

theorem flows_of_accrued (change : Accrued this 0 0 s s') (terms : SameTerms s s')
    {more : List TokenTimelockEvent} (events : s'.events = s.events ++ more)
    (quiet : ∀ e ∈ more, ∀ b r amount, e ≠ TokenTimelockEvent.Release b r amount)
    (custody : Ledger.Custody s.ledger s'.ledger this) : Flows this s s' := by
  have none : (more.map (_paidOut this)).sum = 0 := sum_quiet quiet (fun _ => rfl) fun _ => rfl
  have out : paidOut this s' = paidOut this s := by
    simp only [paidOut, events, List.map_append, List.sum_append, none, Nat.add_zero]
  have balance : heldToken this s' + receivedToken this s =
      heldToken this s + receivedToken this s' := by
    simp only [heldToken, receivedToken, terms.lockedToken]
    exact custody.balance s.lockedToken
  have more_le : receivedToken this s ≤ receivedToken this s' := by
    simp only [receivedToken, terms.lockedToken]
    exact custody.received_le s.lockedToken
  refine ⟨Nat.le_of_eq out.symm, more_le, ?_, ?_⟩
  · omega
  · rw [change.initialBalance, change.lastBalance, out]

theorem Renewed.step (renewed : Renewed this r s) {a : TokenTimelock.Action}
    (regular : a.Regular (· = this))
    (succeeds : TokenTimelock.step this (LinearTokenTimelock.overrides this) s a = .ok s') :
    Renewed this r s' := by
  have computes := LinearTokenTimelock.computes this
  have effect : Effect this (· = this) 0 Vesting.linear s s' :=
    effect_of_step computes renewed.books rfl regular succeeds
  have flows : Flows this s s' := by
    cases effect with
    | paid receiver amount fit le pays => exact flows_of_pays renewed.books pays
    | accrued change terms events custody =>
        obtain ⟨more, appended, quiet⟩ := events
        exact flows_of_accrued change terms appended quiet
          (custody this rfl renewed.books.unapproved)
  have paid_le := Nat.le_trans renewed.paid_le flows.paid_le
  have received_le := Nat.le_trans renewed.received_le flows.received_le
  refine ⟨effect.books rfl computes.complete renewed.books, renewed.terms.trans effect.terms,
    Nat.le_trans renewed.later effect.timestamp_le, paid_le, received_le, ?_, ?_⟩
  · have before := renewed.gone
    have now := flows.gone
    have paid_le_before := renewed.paid_le
    rw [releasedSince] at before ⊢
    omega
  · have before := renewed.held
    have now := flows.held
    have paid_le_before := renewed.paid_le
    have received_le_before := renewed.received_le
    rw [receivedSince, releasedSince] at before ⊢
    omega

theorem renewed_run (renewed : Renewed this r s) {actions : List TokenTimelock.Action}
    (regular : ∀ a ∈ actions, a.Regular (· = this)) :
    Renewed this r (run (TokenTimelock.step this (LinearTokenTimelock.overrides this)) s
      actions) := by
  apply run_invariant (I := Renewed this r) (A := fun a => a.Regular (· = this)) _ renewed regular
  intro t a t' renewed regular succeeds
  exact renewed.step regular succeeds

/-- **Vesting anew.** What is due is paid. -/
theorem Renewed.paysDue (renewed : Renewed this r s) (started : r.timed.startTime ≤ r.timestamp)
    (vesting : Midway this r s) : PaysDue this r s := by
  have computes := LinearTokenTimelock.computes this
  have books := renewed.books
  have gone := renewed.gone
  have held := renewed.held
  have before := books.last_le
  have order := books.last_le_initial
  have received : noted this 0 s = receivedSince this r s := by
    rw [noted]
    omega
  have due : available this 0 Vesting.linear s = dueSince this r s := by
    rw [available, received, gone, dueSince]
  have time : s.timed.startTime ≤ s.timestamp := by
    rw [renewed.terms.timed]
    exact Nat.le_trans started renewed.later
  have fit : noted this 0 s < 2 ^ 256 := received ▸ vesting.received
  have fitting : LinearTokenTimelock.fits (noted this 0 s) (elapsed s) :=
    received ▸ vesting.proportion
  have pays : ∀ {receiver amount}, amount ≤ dueSince this r s →
      ∃ s', Pays this 0 s s' receiver amount := by
    intro receiver amount le
    have there := available_le computes books
    exact exists_pays (by omega) receiver
  refine ⟨?_, ?_, ?_⟩
  · rw [← gone, ← received]
    exact Nat.le_trans books.within
      (Vesting.monotone_linear _ (Nat.le_add_right _ _) (Nat.le_refl _))
  · intro receiver
    obtain ⟨s', paid⟩ := pays (Nat.le_refl (dueSince this r s))
    exact ⟨s', (releaseMax_iff computes books).mpr
      ⟨rfl, fit, time, vesting.cliff, fitting, due ▸ paid⟩, paid.paid⟩
  · intro receiver amount
    constructor
    · intro given
      rcases given with ⟨s', succeeds⟩
      obtain ⟨_, _, some, _, _, _, le, _⟩ := (release_iff computes books).mp succeeds
      exact ⟨some, due ▸ le⟩
    · intro given
      rcases given with ⟨some, le⟩
      obtain ⟨s', paid⟩ := pays le
      exact ⟨s', (release_iff computes books).mpr
        ⟨rfl, fit, some, time, vesting.cliff, fitting, due.symm ▸ le, paid⟩⟩

/-! ## When deposits vest -/

theorem run_map (s : TokenTimelockState) (actions : List TokenTimelock.Action) :
    run (step core this) s (actions.map .timelock) =
      run (TokenTimelock.step this (LinearTokenTimelock.overrides this)) s actions := by
  induction actions generalizing s with
  | nil => rfl
  | cons a actions ih => exact ih _

/-- Before the end, an amount that was noted and has left is more than what is due of it. -/
theorem releaseMax_reverts (empty : heldToken this s = 0) (some : 0 < s.initialBalance)
    (early : elapsed s < s.timed.duration) :
    releaseMax this (LinearTokenTimelock.overrides this) s sender receiver ≠ .ok s' := by
  intro succeeds
  simp only [releaseMax, balanceCheck, bind_eq_ok_iff] at succeeds
  obtain ⟨_, _, t, noted, _, ⟨_, _, _, _, available, computed, _⟩, _⟩ := succeeds
  have start := note_of_noteDeposits noted
  subst start
  have known : TokenTimelock.noted this 0 s = s.initialBalance := by
    rw [TokenTimelock.noted, empty, Nat.zero_add, Nat.zero_sub, Nat.add_zero]
  simp only [availableForRelease, alreadyReleasedAmount, bind_eq_ok_iff, checkedSub_eq_ok_iff]
    at computed
  obtain ⟨e, time, due, proportion, gone, ⟨total, counted, _, less⟩, covered, _⟩ := computed
  have same : elapsed s = e := (timeSinceStart_iff (s := s)).mp time |>.2
  have held : 0 = total := by
    cases counted
    exact empty.symm
  subst same
  subst held
  have value := LinearTokenTimelock.proportion_eq proportion
  have lt := Vesting.linear_lt early some
  simp only [note, known] at value less
  omega

theorem external_of_regular {actions : List TokenTimelock.Action}
    (regular : ∀ a ∈ actions, a.Regular (· = this)) :
    ∀ a ∈ actions.map Action.timelock, a.External this := by
  intro a mem
  obtain ⟨b, here, same⟩ := List.mem_map.mp mem
  subst same
  have plain := regular b here
  cases b with
  | token sender c => exact plain
  | _ => trivial

/-- Waiting for the cliff. -/
theorem midway_of_wait (set : r.timed.startTime ≠ 0) (started : r.timed.startTime ≤ r.timestamp)
    (early : elapsed r < r.timed.duration) (reachable : r.cliffSeconds < r.timed.duration) :
    Midway this r { r with timestamp := r.timestamp + (r.cliffSeconds - elapsed r) } := by
  have later : elapsed { r with timestamp := r.timestamp + (r.cliffSeconds - elapsed r) } =
      max (elapsed r) r.cliffSeconds := by
    simp only [elapsed, if_neg set] at early ⊢
    omega
  have none_since : receivedSince this r
      { r with timestamp := r.timestamp + (r.cliffSeconds - elapsed r) } = 0 := Nat.sub_self _
  refine ⟨?_, ?_, ?_, ?_⟩
  · rw [later]
    exact Nat.max_lt.mpr ⟨early, reachable⟩
  · rw [later]
    exact Nat.le_max_right _ _
  · rw [none_since]
    exact Nat.two_pow_pos 256
  · rw [none_since, LinearTokenTimelock.fits, Nat.zero_mul]
    exact Nat.two_pow_pos 256

/-- **Withdrawals.** In every run from a deployment with a start time not in the future,
after every withdrawal that leaves nothing: what is received from then on vests, in every
state before the end that deposits, releases and time lead to, exactly if the withdrawal came
at the end, or the cliff is no earlier than the end, or nothing had been noted. -/
theorem deposits_vest_iff {ledger : Ledger} (none : ledger.Unapproved this) {timestamp : Nat}
    (positive : 0 < timestamp) {_beneficiary _lockedToken _clawbackAdmin : Address}
    {_duration _cliffDuration _startTime : UInt256} (past : _startTime.toNat ≤ timestamp)
    {s₀ : TokenTimelockState}
    (deploys : construct ledger timestamp _beneficiary _duration _lockedToken _cliffDuration
      _clawbackAdmin _startTime = .ok s₀) {before : List Action}
    (external : ∀ a ∈ before, a.External this) (reached : q = run (step core this) s₀ before)
    (succeeds : step core this q w.action = .ok r) (emptied : heldToken this r = 0) :
    (∀ after : List TokenTimelock.Action, (∀ a ∈ after, a.Regular (· = this)) →
      ∀ s, s = run (step core this) r (after.map .timelock) → Midway this r s →
        PaysDue this r s) ↔
    q.timed.duration ≤ elapsed q ∨ q.timed.duration ≤ q.cliffSeconds ∨ Clean this w q := by
  simp only [construct, LinearTokenTimelock.construct, bind_eq_ok_iff, pure_eq_ok_iff] at deploys
  obtain ⟨t, built, same⟩ := deploys
  subst same
  have deployed : Deployed this ledger (startAt t _startTime) :=
    deployed_of_construct past built
  have set := startTime_ne_of_construct built positive _startTime
  have first : Coarse this (startAt t _startTime) q := reached ▸ coarse_run external
  have taken : w.action.External this := by cases w <;> trivial
  have last := coarse_of_step taken succeeds
  have whole := first.trans last
  have order := whole.order (by rw [deployed.lastBalance]; exact Nat.zero_le _)
  have unapproved := whole.unapproved (by rw [deployed.ledger]; exact none)
  have started : r.timed.startTime ≤ r.timestamp := by
    rw [whole.terms.timed]
    exact Nat.le_trans deployed.started whole.timestamp_le
  have clean := initialBalance_of_withdrawal succeeds
    (first.order (by rw [deployed.lastBalance]; exact Nat.zero_le _))
  have time : elapsed r = elapsed q := by
    rw [elapsed, elapsed, last.terms.timed, timestamp_of_withdrawal succeeds]
  rw [← clean, ← last.terms.timed, ← last.terms.cliffSeconds, ← time]
  constructor
  · intro always
    by_contra unclean
    simp only [not_or, Nat.not_le] at unclean
    obtain ⟨early, reachable, some⟩ := unclean
    let s := { r with timestamp := r.timestamp + (r.cliffSeconds - elapsed r) }
    have midway : Midway this r s :=
      midway_of_wait (whole.terms.timed ▸ set) started early reachable
    have pays := always [.elapse (r.cliffSeconds - elapsed r)]
      (by simp [TokenTimelock.Action.Regular]) s rfl midway
    obtain ⟨s', succeeds, _⟩ := pays.releaseMax 0
    exact releaseMax_reverts (s := s) emptied (Nat.pos_of_ne_zero some) midway.early succeeds
  · intro fine after regular s found midway
    have along : Coarse this r s := found ▸ coarse_run (external_of_regular regular)
    have early := midway.early
    rw [along.terms.timed] at early
    rcases fine with ended | late | new
    · have later := along.elapsed_le
      omega
    · have cliff := midway.cliff
      rw [along.terms.cliffSeconds] at cliff
      omega
    · have renewed := renewed_run (renewed_of_withdrawal unapproved order new emptied) regular
      rw [← @run_map core, ← found] at renewed
      exact renewed.paysDue started midway

end LinearUnlockTimelock

namespace LinearUnlockTimelock.Sample

/-- Account 1 governs. -/
def core : Core where
  isMinter := fun _ => false
  isBurner := fun _ => false
  isPCVController := fun _ => false
  isGovernor := fun a => a = 1
  isGuardian := fun _ => false

/-- 400 tokens are deposited, and half of the time goes by. -/
def before : List Action :=
  [.timelock (.token 9 (.transfer 20 0xAA 400)), .timelock (.elapse 50)]

/-- Another `amount` is deposited, and a tenth of the time goes by. -/
def after (amount : Nat) : List TokenTimelock.Action :=
  [.token 9 (.transfer 20 0xAA amount), .elapse 10]

def reached : TokenTimelockState := run (step core 0xAA) Timelocks.Sample.linear before

/-- After the governor has unlocked the tokens. -/
def unlocked : TokenTimelockState := commit (step core 0xAA) reached (.unlockLiquidity 1)

theorem external : ∀ a ∈ before, a.External 0xAA := by
  simp [before, Action.External]

theorem regular (amount : Nat) : ∀ a ∈ after amount, a.Regular (· = (0xAA : Address)) := by
  simp [after, TokenTimelock.Action.Regular]

end LinearUnlockTimelock.Sample

namespace LinearUnlockTimelock

/-- After a clawback of 400, a deposit of 100 cannot be released: 60 percent of the 500 that
were noted are less than the 400 that left. -/
theorem deposits_vest_counterexample :
    construct Timelocks.Sample.ledger 1000 7 100 20 10 3 0 = .ok Timelocks.Sample.linear ∧
    (∀ a ∈ Sample.before, a.External 0xAA) ∧
    ∃ r, step Sample.core 0xAA (run (step Sample.core 0xAA) Timelocks.Sample.linear Sample.before)
      (Withdrawal.clawback 3).action = .ok r ∧ heldToken 0xAA r = 0 ∧
      step Sample.core 0xAA
        (run (step Sample.core 0xAA) r ((Sample.after 100).map .timelock))
        (.timelock (.releaseMax 7 7)) = .error (.panic 0x11) :=
  ⟨rfl, Sample.external, _, rfl, rfl, rfl⟩

/-- Nothing had been noted when the governor unlocked the tokens, so of 200 deposited later 60
percent can be released. -/
theorem deposits_vest_iff_sample :
    PaysDue 0xAA Sample.unlocked
      (run (step Sample.core 0xAA) Sample.unlocked ((Sample.after 200).map .timelock)) ∧
    dueSince 0xAA Sample.unlocked
      (run (step Sample.core 0xAA) Sample.unlocked ((Sample.after 200).map .timelock)) = 120 := by
  have deploys : construct Timelocks.Sample.ledger 1000 7 100 20 10 3 0 =
      .ok Timelocks.Sample.linear := rfl
  have succeeds : step Sample.core 0xAA Sample.reached (Withdrawal.unlockLiquidity 1).action =
      .ok Sample.unlocked := rfl
  have vests := deposits_vest_iff (Timelocks.Sample.unapproved 0xAA) (by decide) (by decide)
    deploys Sample.external rfl succeeds (by decide +kernel)
  refine ⟨vests.mpr (.inr (.inr ⟨rfl, ?_⟩)) (Sample.after 200) (Sample.regular 200) _ rfl ?_,
    by decide +kernel⟩
  · intro sender other
    cases other
  · exact ⟨by decide +kernel, by decide +kernel, by decide +kernel, by decide +kernel⟩

end LinearUnlockTimelock

end FeiProtocol
