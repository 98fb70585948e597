import FeiProtocol.Evm.Ledger
import FeiProtocol.Evm.Loop
import FeiProtocol.Evm.Machine
import FeiProtocol.Evm.ReentrancyGuard

/-!
# `TribeRedeemer`

The contract that takes one token out of circulation and pays a share of several
others for it. `Ready` is what the redeemer is deployed into and never leaves. From there a
successful transaction is a `Redemption` or an `Outside` token call (`step_cases`),
and `redeem_succeeds` says when a redemption does.

A transaction is a redemption, or a call that somebody makes on a token directly:
donations of output tokens are among these.
-/

namespace FeiProtocol

open Evm ReentrancyGuard

inductive TribeRedeemerEvent : Type where
  | Redeemed (owner receiver : Address) (amount base : Nat)
  deriving DecidableEq, Repr

structure TribeRedeemerState : Type where
  redeemedToken : Address
  tokensReceived : List Address
  redeemBase : Nat
  /-- the reentrancy guard's word -/
  _status : Nat
  ledger : Ledger
  /-- oldest first -/
  events : List TribeRedeemerEvent

instance : ReentrancyGuard TribeRedeemerState where
  status s := s._status
  withStatus s n := { s with _status := n }
  status_withStatus _ _ := rfl
  withStatus_withStatus _ _ _ := rfl
  withStatus_status _ := rfl

namespace TribeRedeemer

variable (this : Address)

/-! ## The contract -/

def construct (ledger : Ledger) (_redeemedToken : Address) (_tokensReceived : List Address)
    (_redeemBase : Nat) : TribeRedeemerState where
  redeemedToken := _redeemedToken
  tokensReceived := _tokensReceived
  redeemBase := _redeemBase
  _status := _NOT_ENTERED
  ledger := ledger
  events := []

def tokensReceivedOnRedeem (s : TribeRedeemerState) : List Address := s.tokensReceived

def previewRedeem (s : TribeRedeemerState) (amountIn : UInt256) :
    Except Revert (List Address × List Nat) := do
  let tokens := tokensReceivedOnRedeem s
  let base := s.redeemBase
  let amountsOut ← s.tokensReceived.mapM fun token => do
    let balance := s.ledger.balanceOf token this
    require (balance ≠ 0) "ZERO_BALANCE"
    let scaled ← checkedMul amountIn.toNat balance
    checkedDiv scaled base
  return (tokens, amountsOut)

/-- The body of `redeem`, inside the guard. -/
def redeemBody (s : TribeRedeemerState) (sender receiver : Address) (amountIn : UInt256) :
    Except Revert TribeRedeemerState := do
  let ledger ← s.ledger.safeTransferFrom this s.redeemedToken sender this amountIn.toNat
  let s := { s with ledger }
  let (tokens, amountsOut) ← previewRedeem this s amountIn
  let base := s.redeemBase
  let redeemBase ← checkedSub base amountIn.toNat
  let ledger ← s.ledger.payAll this receiver (tokens.zip amountsOut)
  return { s with
    redeemBase
    ledger
    events := s.events ++ [.Redeemed sender receiver amountIn.toNat base] }

def redeem (s : TribeRedeemerState) (sender receiver : Address) (amountIn : UInt256) :
    Except Revert TribeRedeemerState :=
  nonReentrant (fun s => redeemBody this s sender receiver amountIn) s

/-! ## Transactions -/

inductive Action : Type where
  | redeem (sender receiver : Address) (amountIn : UInt256)
  | token (sender : Address) (c : Ledger.TokenCall)
  deriving DecidableEq, Repr

/-- The redeemer neither sends the transaction nor receives what it pays. -/
def Action.External : Action → Prop
  | .redeem sender receiver _ => sender ≠ this ∧ receiver ≠ this
  | .token sender _ => sender ≠ this

def step (s : TribeRedeemerState) : Action → Except Revert TribeRedeemerState
  | .redeem sender receiver amountIn => redeem this s sender receiver amountIn
  | .token sender c => do
      let ledger ← s.ledger.perform sender c
      return { s with ledger }

/-- No call is under way, the output tokens are distinct and different from the
redeemed one, and the redeemer has approved nobody. -/
structure Ready (s : TribeRedeemerState) : Prop where
  idle : s._status = _NOT_ENTERED
  distinct : s.tokensReceived.Nodup
  different : s.redeemedToken ∉ s.tokensReceived
  unapproved : s.ledger.Unapproved this

theorem ready_construct {ledger : Ledger} {redeemedToken : Address}
    {tokensReceived : List Address} {redeemBase : Nat} (distinct : tokensReceived.Nodup)
    (different : redeemedToken ∉ tokensReceived) (unapproved : ledger.Unapproved this) :
    Ready this (construct ledger redeemedToken tokensReceived redeemBase) :=
  ⟨rfl, distinct, different, unapproved⟩

/-! ## What a redemption does -/

variable {this} {s s' : TribeRedeemerState} {sender receiver : Address} {amountIn : UInt256}

/-- What `amountIn` is worth of an output token. -/
def amountOut (this : Address) (s : TribeRedeemerState) (amountIn : UInt256) (token : Address) :
    Nat :=
  amountIn.toNat * s.ledger.balanceOf token this / s.redeemBase

/-- The conditions that `previewRedeem` puts on each output token. -/
def Previews (this : Address) (s : TribeRedeemerState) (amountIn : UInt256) (token : Address) :
    Prop :=
  s.ledger.balanceOf token this ≠ 0 ∧
    amountIn.toNat * s.ledger.balanceOf token this < 2 ^ 256 ∧ s.redeemBase ≠ 0

theorem previewRedeem_eq_ok_iff {out : List Address × List Nat} :
    previewRedeem this s amountIn = .ok out ↔
      (∀ token ∈ s.tokensReceived, Previews this s amountIn token) ∧
        (s.tokensReceived, s.tokensReceived.map (amountOut this s amountIn)) = out := by
  have each : ∀ token ∈ s.tokensReceived, ∀ b,
      (require (s.ledger.balanceOf token this ≠ 0) "ZERO_BALANCE" >>= fun _ =>
          checkedMul amountIn.toNat (s.ledger.balanceOf token this) >>= fun scaled =>
            checkedDiv scaled s.redeemBase) = .ok b ↔
        Previews this s amountIn token ∧ amountOut this s amountIn token = b := by
    intro token _ b
    simp only [bind_eq_ok_iff, require_eq_ok_iff, exists_const, checkedMul_eq_ok_iff,
      checkedDiv_eq_ok_iff]
    constructor
    · intro given
      rcases given with ⟨positive, scaled, ⟨fits, same⟩, nonzero, last⟩
      subst same
      exact ⟨⟨positive, fits, nonzero⟩, last⟩
    · intro given
      rcases given with ⟨⟨positive, fits, nonzero⟩, last⟩
      exact ⟨positive, _, ⟨fits, rfl⟩, nonzero, last⟩
  simp only [previewRedeem, tokensReceivedOnRedeem, bind_eq_ok_iff, pure_eq_ok_iff,
    mapM_eq_ok_iff each]
  constructor
  · intro given
    rcases given with ⟨outs, ⟨previews, same⟩, last⟩
    exact ⟨previews, same ▸ last⟩
  · intro given
    rcases given with ⟨previews, last⟩
    exact ⟨_, ⟨previews, rfl⟩, last⟩

/-- The payments of a redemption, one for each output token. -/
def payments (this : Address) (s : TribeRedeemerState) (amountIn : UInt256) :
    List (Address × Nat) :=
  s.tokensReceived.map fun token => (token, amountOut this s amountIn token)

/-- The state after the redeemed tokens were taken in. -/
def taken (s : TribeRedeemerState) (ledger : Ledger) : TribeRedeemerState :=
  { s with ledger }

theorem redeemBody_eq_ok_iff :
    redeemBody this s sender receiver amountIn = .ok s' ↔
      ∃ pulled, s.ledger.safeTransferFrom this s.redeemedToken sender this amountIn.toNat =
          .ok pulled ∧
        (∀ token ∈ s.tokensReceived, Previews this (taken s pulled) amountIn token) ∧
        amountIn.toNat ≤ s.redeemBase ∧
        ∃ paid, pulled.payAll this receiver (payments this (taken s pulled) amountIn) = .ok paid ∧
          { s with
            redeemBase := s.redeemBase - amountIn.toNat
            ledger := paid
            events := s.events ++ [.Redeemed sender receiver amountIn.toNat s.redeemBase] } =
          s' := by
  have zipped : ∀ s : TribeRedeemerState,
      s.tokensReceived.zip (s.tokensReceived.map (amountOut this s amountIn)) =
        payments this s amountIn :=
    fun s => List.map_prod_left_eq_zip.symm
  simp only [redeemBody, bind_eq_ok_iff, pure_eq_ok_iff, previewRedeem_eq_ok_iff,
    checkedSub_eq_ok_iff]
  constructor
  · intro given
    rcases given with ⟨pulled, pull, out, ⟨previews, same⟩, base, ⟨le, less⟩, paid, pay, last⟩
    subst same less
    refine ⟨pulled, pull, previews, le, paid, ?_, last⟩
    rw [← zipped]
    exact pay
  · intro given
    rcases given with ⟨pulled, pull, previews, le, paid, pay, last⟩
    rw [← zipped] at pay
    exact ⟨pulled, pull, _, ⟨previews, rfl⟩, _, ⟨le, rfl⟩, paid, pay, last⟩

theorem redeemBody_transparent (sender receiver : Address) (amountIn : UInt256) :
    Transparent fun s => redeemBody this s sender receiver amountIn := by
  intro s n s'
  simp only [redeemBody_eq_ok_iff]
  constructor
  · intro given
    rcases given with ⟨pulled, pull, previews, le, paid, pay, last⟩
    exact ⟨_, ⟨pulled, pull, previews, le, paid, pay, rfl⟩, last⟩
  · intro given
    rcases given with ⟨_, ⟨pulled, pull, previews, le, paid, pay, same⟩, last⟩
    subst same
    exact ⟨pulled, pull, previews, le, paid, pay, last⟩

theorem redeem_eq_body (idle : s._status = _NOT_ENTERED) :
    redeem this s sender receiver amountIn = .ok s' ↔
      redeemBody this s sender receiver amountIn = .ok s' :=
  nonReentrant_eq_ok_iff (redeemBody_transparent sender receiver amountIn) idle

/-- All redeemed tokens that redemptions have taken in. -/
def takenIn (this : Address) (s : TribeRedeemerState) : Nat :=
  s.ledger.total fun e => e.operator = this && e.token = s.redeemedToken && e.dst = this

/-- **A redemption**, from a ready state and between outside accounts. -/
structure Redemption (this : Address) (s s' : TribeRedeemerState) (sender receiver : Address)
    (amountIn : UInt256) : Prop where
  le : amountIn.toNat ≤ s.redeemBase
  positive : ∀ token ∈ s.tokensReceived, s.ledger.balanceOf token this ≠ 0 ∧ s.redeemBase ≠ 0
  redeemBase : s'.redeemBase = s.redeemBase - amountIn.toNat
  tokensReceived : s'.tokensReceived = s.tokensReceived
  redeemedToken : s'.redeemedToken = s.redeemedToken
  balance : ∀ token ∈ s.tokensReceived, s'.ledger.balanceOf token this +
    amountOut this s amountIn token = s.ledger.balanceOf token this
  transfers : s'.ledger.transfers = s.ledger.transfers ++
    ⟨this, s.redeemedToken, sender, this, amountIn.toNat⟩ ::
      s.tokensReceived.map fun token =>
        ⟨this, token, this, receiver, amountOut this s amountIn token⟩
  sent : ∀ token ∈ s.tokensReceived, s'.ledger.sent this token =
    s.ledger.sent this token + amountOut this s amountIn token
  takenIn : takenIn this s' = takenIn this s + amountIn.toNat
  events : s'.events = s.events ++ [.Redeemed sender receiver amountIn.toNat s.redeemBase]
  ready : Ready this s'

/-- Taking in the redeemed token leaves the output tokens alone. -/
theorem balanceOf_pulled (ready : Ready this s) {pulled : Ledger}
    (pull : s.ledger.safeTransferFrom this s.redeemedToken sender this amountIn.toNat =
      .ok pulled) {token : Address} (mem : token ∈ s.tokensReceived) (holder : Address) :
    pulled.balanceOf token holder = s.ledger.balanceOf token holder := by
  have other : token ≠ s.redeemedToken := fun same => ready.different (same ▸ mem)
  have moved := (Ledger.safeTransferFrom_moved pull).balance token holder
  simpa [other] using moved

theorem payments_pulled (ready : Ready this s) {pulled : Ledger}
    (pull : s.ledger.safeTransferFrom this s.redeemedToken sender this amountIn.toNat =
      .ok pulled) : payments this (taken s pulled) amountIn = payments this s amountIn := by
  apply List.map_congr_left
  intro token mem
  simp only [amountOut, taken, balanceOf_pulled ready pull mem]

theorem redemption_of_redeem (ready : Ready this s) (external : sender ≠ this ∧ receiver ≠ this)
    (succeeds : redeem this s sender receiver amountIn = .ok s') :
    Redemption this s s' sender receiver amountIn := by
  obtain ⟨pulled, pull, previews, le, ledger, pay, rfl⟩ :=
    redeemBody_eq_ok_iff.mp ((redeem_eq_body ready.idle).mp succeeds)
  rw [payments_pulled ready pull] at pay
  have moved := Ledger.safeTransferFrom_moved pull
  have paid := Ledger.payAll_paid pay
  have amounts := fun token => Ledger.amountOf_map ready.distinct (amountOut this s amountIn) token
  refine
    { le := le
      positive := fun token mem => ?_
      redeemBase := rfl
      tokensReceived := rfl
      redeemedToken := rfl
      balance := fun token mem => ?_
      transfers := ?_
      sent := fun token mem => ?_
      takenIn := ?_
      events := rfl
      ready := ⟨ready.idle, ready.distinct, ready.different,
        paid.unapproved (moved.unapproved ready.unapproved)⟩ }
  · obtain ⟨nonzero, -, base⟩ := previews token mem
    rw [taken, balanceOf_pulled ready pull mem] at nonzero
    exact ⟨nonzero, base⟩
  · have exact := paid.balance token this
    rw [if_pos rfl, if_neg external.2.symm, payments, amounts, if_pos mem,
      balanceOf_pulled ready pull mem, Nat.add_zero] at exact
    exact exact
  · simp [paid.transfers, moved.transfers, payments]
  · have first := moved.total_eq fun e => e.operator = this && e.token = token && e.src = this
    simp only [external.1, decide_false, Bool.and_false, Bool.false_eq_true, if_false,
      Nat.add_zero] at first
    rw [paid.sent, payments, amounts, if_pos mem, Ledger.sent, first]
    rfl
  · have first := moved.total_eq
      fun e => e.operator = this && e.token = s.redeemedToken && e.dst = this
    have last := paid.total_of_not
      (p := fun e => e.operator = this && e.token = s.redeemedToken && e.dst = this) fun e _ => by
        simp [external.2]
    simp only [takenIn, last, first]
    simp

/-- **No redemption fails** when the sender has the redeemed tokens, the base
covers the amount, and every output token has a balance and fits. -/
theorem redeem_succeeds (ready : Ready this s) (outside : receiver ≠ this)
    (holds : amountIn.toNat ≤ s.ledger.balanceOf s.redeemedToken sender)
    (approved : amountIn.toNat ≤ s.ledger.allowance s.redeemedToken sender this)
    (le : amountIn.toNat ≤ s.redeemBase)
    (previews : ∀ token ∈ s.tokensReceived, Previews this s amountIn token) :
    ∃ s', redeem this s sender receiver amountIn = .ok s' := by
  obtain ⟨pulled, pull⟩ := Ledger.safeTransferFrom_succeeds approved holds this
  have covered : ∀ token, Ledger.amountOf (payments this s amountIn) token ≤
      pulled.balanceOf token this := by
    intro token
    rw [payments, Ledger.amountOf_map ready.distinct]
    split
    · rename_i mem
      rw [balanceOf_pulled ready pull mem]
      apply Nat.div_le_of_le_mul
      exact Nat.mul_le_mul_right _ le
    · exact Nat.zero_le _
  obtain ⟨paid, pay⟩ := Ledger.payAll_succeeds outside covered
  refine ⟨_, (redeem_eq_body ready.idle).mpr (redeemBody_eq_ok_iff.mpr
    ⟨pulled, pull, fun token mem => ?_, le, paid, ?_, rfl⟩)⟩
  · have previews := previews token mem
    simp only [Previews, taken, balanceOf_pulled ready pull mem] at previews ⊢
    exact previews
  · rw [payments_pulled ready pull]
    exact pay

/-- **A token call by somebody else** can only bring the redeemer tokens. -/
structure Outside (this : Address) (s s' : TribeRedeemerState) : Prop where
  redeemBase : s'.redeemBase = s.redeemBase
  tokensReceived : s'.tokensReceived = s.tokensReceived
  redeemedToken : s'.redeemedToken = s.redeemedToken
  events : s'.events = s.events
  balance : ∀ token, s'.ledger.balanceOf token this + s.ledger.received this token =
    s.ledger.balanceOf token this + s'.ledger.received this token
  received_le : ∀ token, s.ledger.received this token ≤ s'.ledger.received this token
  calledBy : s'.ledger.calledBy this = s.ledger.calledBy this
  ready : Ready this s'

theorem outside_of_perform (ready : Ready this s) (external : sender ≠ this)
    {c : Ledger.TokenCall} {ledger : Ledger} (performed : s.ledger.perform sender c = .ok ledger) :
    Outside this s { s with ledger } := by
  have custody := Ledger.perform_custody ready.unapproved external performed
  exact ⟨rfl, rfl, rfl, rfl, custody.balance, custody.received_le,
    Ledger.perform_calledBy external performed,
    ⟨ready.idle, ready.distinct, ready.different, custody.unapproved⟩⟩

/-- What a successful transaction is. -/
theorem step_cases (ready : Ready this s) {a : Action} (external : a.External this)
    (succeeds : step this s a = .ok s') :
    (∃ sender receiver amountIn, Redemption this s s' sender receiver amountIn) ∨
      ∃ sender c, a = .token sender c ∧ s.ledger.perform sender c = .ok s'.ledger ∧
        Outside this s s' := by
  cases a with
  | redeem sender receiver amountIn =>
      exact .inl ⟨sender, receiver, amountIn, redemption_of_redeem ready external succeeds⟩
  | token sender c =>
      obtain ⟨ledger, performed, same⟩ := bind_eq_ok_iff.mp succeeds
      cases same
      exact .inr ⟨sender, c, rfl, performed, outside_of_perform ready external performed⟩

/-- An outside call leaves what was taken in as it was. -/
theorem Outside.takenIn (outside : Outside this s s') : takenIn this s' = takenIn this s := by
  have same := Ledger.total_calledBy_congr outside.calledBy
    fun e => e.token = s.redeemedToken && e.dst = this
  simpa only [TribeRedeemer.takenIn, outside.redeemedToken, Bool.and_assoc] using same

end TribeRedeemer

end FeiProtocol
