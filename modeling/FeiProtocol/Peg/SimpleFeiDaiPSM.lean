import FeiProtocol.Evm.Machine
import FeiProtocol.Fei.Fei
import FeiProtocol.Math.Wrapper

/-!
# `SimpleFeiDaiPSM`

The contract that mints FEI for DAI and takes FEI back for DAI, both one for one, and burns
the FEI it holds. Seen from outside it is a one-for-one wrapper: its collateral is the DAI it
holds, its claims the FEI that circulates outside it (`book`).

* `step_refines`: every successful transaction, of either contract, is one
  operation of that wrapper.
* `backing_run`: so the surplus of DAI over circulating FEI never falls, and when there was
  enough DAI to begin with, every holder can redeem and a burn leaves at
  least as much DAI as there is FEI.

A transaction is a call of the module, a call that somebody makes on FEI, or a call that
somebody makes on another token: donations of DAI are among these.
-/

namespace FeiProtocol

open Evm

inductive SimpleFeiDaiPSMEvent : Type where
  | Redeem (receiver : Address) (amountFeiIn amountAssetOut : Nat)
  | Mint (receiver : Address) (amountIn amountFeiOut : Nat)
  deriving DecidableEq, Repr

structure SimpleFeiDaiPSMState : Type where
  fei : FeiState
  /-- DAI and all tokens other than FEI -/
  ledger : Ledger
  /-- oldest first -/
  events : List SimpleFeiDaiPSMEvent

namespace SimpleFeiDaiPSM

def DAI : Address := 0x6B175474E89094C44Da98b954EedeAC495271d0F

variable (env : FeiEnv) (this : Address)

/-! ## The contract -/

def mint (s : SimpleFeiDaiPSMState) (msgSender receiver : Address)
    (amountIn minAmountOut : UInt256) : Except Revert (SimpleFeiDaiPSMState × UInt256) := do
  let amountFeiOut := amountIn
  require (amountFeiOut ≥ minAmountOut) "SimpleFeiDaiPSM: Mint not enough out"
  let ledger ← s.ledger.safeTransferFrom this DAI msgSender this amountIn.toNat
  let fei ← Fei.mint env s.fei this receiver amountFeiOut.toNat
  return ({ fei, ledger, events := s.events ++ [.Mint receiver amountIn.toNat amountIn.toNat] },
    amountFeiOut)

def redeem (s : SimpleFeiDaiPSMState) (msgSender receiver : Address)
    (amountFeiIn minAmountOut : UInt256) : Except Revert (SimpleFeiDaiPSMState × UInt256) := do
  let amountOut := amountFeiIn
  require (amountOut ≥ minAmountOut) "SimpleFeiDaiPSM: Redeem not enough out"
  let fei ← Fei.transferFrom env s.fei this msgSender this amountFeiIn.toNat
  let ledger ← s.ledger.safeTransfer this DAI receiver amountOut.toNat
  return ({ fei, ledger,
            events := s.events ++ [.Redeem receiver amountFeiIn.toNat amountFeiIn.toNat] },
    amountOut)

def getMintAmountOut (amountIn : UInt256) : UInt256 := amountIn

def getRedeemAmountOut (amountIn : UInt256) : UInt256 := amountIn

def balance (s : SimpleFeiDaiPSMState) : Nat := s.ledger.balanceOf DAI this

def resistantBalanceAndFei (s : SimpleFeiDaiPSMState) : Nat × Nat :=
  (s.ledger.balanceOf DAI this, Fei.balanceOf s.fei this)

def burnFeiHeld (s : SimpleFeiDaiPSMState) : Except Revert SimpleFeiDaiPSMState := do
  let feiBalance := Fei.balanceOf s.fei this
  if feiBalance ≠ 0 then
    let fei ← Fei.burn env s.fei this feiBalance
    return { s with fei }
  else return s

/-! ## Transactions -/

inductive Action : Type where
  | mint (sender receiver : Address) (amountIn minAmountOut : UInt256)
  | redeem (sender receiver : Address) (amountFeiIn minAmountOut : UInt256)
  | burnFeiHeld
  | fei (sender : Address) (c : Fei.Call)
  | token (sender : Address) (c : Ledger.TokenCall)
  deriving DecidableEq, Repr

/-- The module does not send the transaction. -/
def Action.External : Action → Prop
  | .mint sender _ _ _ => sender ≠ this
  | .redeem sender _ _ _ => sender ≠ this
  | .burnFeiHeld => True
  | .fei sender _ => sender ≠ this
  | .token sender _ => sender ≠ this

def step (s : SimpleFeiDaiPSMState) : Action → Except Revert SimpleFeiDaiPSMState
  | .mint sender receiver amountIn minAmountOut =>
      Prod.fst <$> mint env this s sender receiver amountIn minAmountOut
  | .redeem sender receiver amountFeiIn minAmountOut =>
      Prod.fst <$> redeem env this s sender receiver amountFeiIn minAmountOut
  | .burnFeiHeld => burnFeiHeld env this s
  | .fei sender c => do
      let fei ← Fei.call env s.fei sender c
      return { s with fei }
  | .token sender c => do
      let ledger ← s.ledger.perform sender c
      return { s with ledger }

/-- The module as a wrapper of DAI: circulating FEI are the claims. -/
def book (s : SimpleFeiDaiPSMState) : Wrapper.Book Nat where
  collateral := balance this s
  outstanding := Fei.circulating s.fei this

/-- FEI is a token without incentive contracts, and the module has approved nobody. -/
structure Ready (s : SimpleFeiDaiPSMState) : Prop where
  plain : Fei.Plain s.fei
  feiUnapproved : Fei.Unapproved s.fei this
  unapproved : s.ledger.Unapproved this

/-! ## What a transaction does -/

variable {env this} {s s' : SimpleFeiDaiPSMState} {sender receiver : Address}
  {amountIn amountFeiIn minAmountOut out : UInt256}

theorem toNat_le_maxUint256 (n : UInt256) : n.toNat ≤ maxUint256 :=
  Nat.le_pred_of_lt n.isLt

/-- A mint takes the DAI in before the FEI goes out. -/
structure Minted (env : FeiEnv) (this : Address) (s s' : SimpleFeiDaiPSMState)
    (sender receiver : Address) (amountIn : UInt256) : Prop where
  taken : Ledger.Moved s.ledger s'.ledger ⟨this, DAI, sender, this, amountIn.toNat⟩
  fits : s.fei.erc20.totalSupply + amountIn.toNat < 2 ^ 256
  erc20 : s'.fei.erc20 = s.fei.erc20.mint receiver amountIn.toNat
  incentiveContract : s'.fei.incentiveContract = s.fei.incentiveContract

theorem minted_of_mint (plain : Fei.Plain s.fei)
    (succeeds : mint env this s sender receiver amountIn minAmountOut = .ok (s', out)) :
    Minted env this s s' sender receiver amountIn ∧ out = getMintAmountOut amountIn := by
  simp only [mint, bind_eq_ok_iff, pure_eq_ok_iff, require_eq_ok_iff, exists_const] at succeeds
  obtain ⟨_, ledger, taken, fei, minted, same⟩ := succeeds
  obtain ⟨_, _, _, fits, created⟩ := (Fei.mint_eq_ok_iff plain).mp minted
  cases same
  subst created
  exact ⟨⟨Ledger.safeTransferFrom_moved taken, fits, rfl, rfl⟩, rfl⟩

/-- A redemption parks the FEI in the module and pays the DAI. -/
theorem redeem_eq_ok_iff :
    redeem env this s sender receiver amountFeiIn minAmountOut = .ok (s', out) ↔
      minAmountOut ≤ amountFeiIn ∧
        ∃ fei, Fei.transferFrom env s.fei this sender this amountFeiIn.toNat = .ok fei ∧
          ∃ ledger, s.ledger.safeTransfer this DAI receiver amountFeiIn.toNat = .ok ledger ∧
            { fei, ledger,
              events := s.events ++ [.Redeem receiver amountFeiIn.toNat amountFeiIn.toNat] } = s' ∧
            getRedeemAmountOut amountFeiIn = out := by
  simp only [redeem, bind_eq_ok_iff, pure_eq_ok_iff, require_eq_ok_iff, exists_const,
    Prod.mk.injEq, ge_iff_le, getRedeemAmountOut]

/-- What a redemption takes and pays. -/
structure Redeemed (this : Address) (s s' : SimpleFeiDaiPSMState) (sender receiver : Address)
    (amountFeiIn : UInt256) : Prop where
  paid : Ledger.Moved s.ledger s'.ledger ⟨this, DAI, this, receiver, amountFeiIn.toNat⟩
  covered : amountFeiIn.toNat ≤ s.fei.erc20.balanceOf sender
  erc20 : s'.fei.erc20 =
    (s.fei.erc20.spend sender this amountFeiIn.toNat).move sender this amountFeiIn.toNat
  incentiveContract : s'.fei.incentiveContract = s.fei.incentiveContract

theorem redeemed_of_redeem (plain : Fei.Plain s.fei)
    (succeeds : redeem env this s sender receiver amountFeiIn minAmountOut = .ok (s', out)) :
    Redeemed this s s' sender receiver amountFeiIn := by
  obtain ⟨_, fei, parked, ledger, paid, same, _⟩ := redeem_eq_ok_iff.mp succeeds
  have word := toNat_le_maxUint256 amountFeiIn
  obtain ⟨_, _, _, _, covered, moved⟩ := (Fei.transferFrom_eq_ok_iff plain word).mp parked
  subst moved
  subst same
  exact ⟨Ledger.safeTransfer_moved paid, covered, rfl, rfl⟩

/-- A burn destroys what FEI the module holds, possibly none. -/
structure FeiBurned (this : Address) (s s' : SimpleFeiDaiPSMState) : Prop where
  ledger : s'.ledger = s.ledger
  burned : Erc20.Burned s.fei.erc20 s'.fei.erc20 this (Fei.balanceOf s.fei this)
  incentiveContract : s'.fei.incentiveContract = s.fei.incentiveContract

theorem feiBurned_of_burnFeiHeld (plain : Fei.Plain s.fei)
    (succeeds : burnFeiHeld env this s = .ok s') : FeiBurned this s s' := by
  rw [burnFeiHeld] at succeeds
  split at succeeds
  · obtain ⟨fei, burned, same⟩ := bind_eq_ok_iff.mp succeeds
    obtain ⟨_, erc20, destroyed, last⟩ := (Fei.burn_eq_ok_iff plain).mp burned
    cases same
    subst last
    exact ⟨rfl, Erc20.burned_of_burn destroyed, rfl⟩
  · rename_i none
    cases succeeds
    rw [not_not] at none
    exact ⟨rfl, none ▸ Erc20.burned_zero _ _, rfl⟩

/-- The module can always burn what it holds. -/
theorem burnFeiHeld_succeeds (env : FeiEnv) (plain : Fei.Plain s.fei) (nonzero : this ≠ 0) :
    ∃ s', burnFeiHeld env this s = .ok s' := by
  rw [burnFeiHeld]
  by_cases held : Fei.balanceOf s.fei this ≠ 0
  · rw [if_pos held]
    have burned : Fei.burn env s.fei this (Fei.balanceOf s.fei this) = .ok _ :=
      (Fei.burn_eq_ok_iff plain).mpr
        ⟨nonzero, _, Erc20.burn_eq_ok_iff.mpr ⟨Nat.le_refl _, rfl⟩, rfl⟩
    exact ⟨_, bind_eq_ok_iff.mpr ⟨_, burned, rfl⟩⟩
  · rw [if_neg held]
    exact ⟨s, rfl⟩

/-! ## Refinement of the wrapper -/

theorem Minted.ready (minted : Minted env this s s' sender receiver amountIn)
    (ready : Ready this s) : Ready this s' := by
  refine ⟨⟨?_, ?_⟩, ?_, minted.taken.unapproved ready.unapproved⟩
  · rw [minted.incentiveContract]
    exact ready.plain.noIncentives
  · rw [minted.erc20]
    exact ready.plain.consistent.mint minted.fits
  · intro spender
    rw [Fei.allowance, minted.erc20]
    exact ready.feiUnapproved spender

theorem Minted.refines (minted : Minted env this s s' sender receiver amountIn)
    (ready : Ready this s) (other : sender ≠ this) :
    Wrapper.Step (book this s) (book this s') := by
  have collateral : balance this s' = balance this s + amountIn.toNat := by
    simpa [balance, other.symm] using minted.taken.balance DAI this
  have supply : Fei.totalSupply s'.fei = Fei.totalSupply s.fei + amountIn.toNat := by
    rw [Fei.totalSupply, minted.erc20]
    rfl
  have held : Fei.balanceOf s'.fei this =
      Fei.balanceOf s.fei this + if this = receiver then amountIn.toNat else 0 := by
    rw [Fei.balanceOf, minted.erc20]
    exact Erc20.mint_balanceOf this
  have room := ready.plain.balance_le this
  by_cases self : this = receiver
  · apply Wrapper.Step.donate amountIn.toNat collateral
    rw [if_pos self] at held
    simp only [book, Fei.circulating]
    omega
  · apply Wrapper.Step.wrap amountIn.toNat collateral
    rw [if_neg self] at held
    simp only [book, Fei.circulating]
    omega

theorem Redeemed.ready (redeemed : Redeemed this s s' sender receiver amountFeiIn)
    (ready : Ready this s) : Ready this s' := by
  refine ⟨⟨?_, ?_⟩, ?_, redeemed.paid.unapproved ready.unapproved⟩
  · rw [redeemed.incentiveContract]
    exact ready.plain.noIncentives
  · rw [redeemed.erc20]
    apply ready.plain.consistent.spend.move
    rw [Erc20.spend_balanceOf]
    exact redeemed.covered
  · intro spender
    have le := Erc20.spend_allowance_le s.fei.erc20 sender this this spender amountFeiIn.toNat
    have zero : s.fei.erc20.allowance this spender = 0 := ready.feiUnapproved spender
    rw [Fei.allowance, redeemed.erc20, Erc20.move_allowance]
    omega

/-- What a redemption does to the FEI balances. -/
theorem Redeemed.balanceOf (redeemed : Redeemed this s s' sender receiver amountFeiIn)
    (account : Address) :
    Fei.balanceOf s'.fei account + (if account = sender then amountFeiIn.toNat else 0) =
      Fei.balanceOf s.fei account + if account = this then amountFeiIn.toNat else 0 := by
  have covered : amountFeiIn.toNat ≤
      (s.fei.erc20.spend sender this amountFeiIn.toNat).balanceOf sender := by
    rw [Erc20.spend_balanceOf]
    exact redeemed.covered
  have exact := Erc20.move_balanceOf covered this account
  rwa [← redeemed.erc20, Erc20.spend_balanceOf] at exact

theorem Redeemed.refines (redeemed : Redeemed this s s' sender receiver amountFeiIn)
    (ready : Ready this s) (other : sender ≠ this) :
    Wrapper.Step (book this s) (book this s') := by
  have supply : Fei.totalSupply s'.fei = Fei.totalSupply s.fei := by
    rw [Fei.totalSupply, redeemed.erc20, Erc20.move_totalSupply, Erc20.spend_totalSupply]
    rfl
  have held : Fei.balanceOf s'.fei this = Fei.balanceOf s.fei this + amountFeiIn.toNat := by
    simpa [other.symm] using redeemed.balanceOf this
  -- both accounts are covered by one supply
  have room := ready.plain.consistent.balance_add_balance_le other
  have covered := redeemed.covered
  have outstanding : Fei.circulating s'.fei this + amountFeiIn.toNat =
      Fei.circulating s.fei this := by
    simp only [Fei.circulating, Fei.totalSupply, Fei.balanceOf] at supply held ⊢
    omega
  by_cases self : this = receiver
  · have collateral : balance this s' = balance this s := by
      have exact := redeemed.paid.balance DAI this
      simp only [← self] at exact
      exact Nat.add_right_cancel exact
    exact .forfeit _ collateral outstanding
  · have collateral : balance this s' + amountFeiIn.toNat = balance this s := by
      simpa [balance, self] using redeemed.paid.balance DAI this
    exact .unwrap _ collateral outstanding

theorem FeiBurned.ready (burned : FeiBurned this s s') (ready : Ready this s) :
    Ready this s' := by
  refine ⟨⟨?_, burned.burned.consistent ready.plain.consistent⟩, ?_, ?_⟩
  · rw [burned.incentiveContract]
    exact ready.plain.noIncentives
  · intro spender
    rw [Fei.allowance, burned.burned.allowance]
    exact ready.feiUnapproved spender
  · rw [burned.ledger]
    exact ready.unapproved

theorem FeiBurned.balance_eq (burned : FeiBurned this s s') :
    balance this s' = balance this s := by
  rw [balance, burned.ledger]
  rfl

/-- After a burn the whole supply circulates. -/
theorem FeiBurned.totalSupply (burned : FeiBurned this s s') :
    Fei.totalSupply s'.fei = Fei.circulating s.fei this :=
  burned.burned.supply

theorem FeiBurned.refines (burned : FeiBurned this s s') :
    Wrapper.Step (book this s) (book this s') := by
  apply Wrapper.Step.donate 0 burned.balance_eq
  have held := burned.burned.balance this
  have supply := burned.totalSupply
  rw [if_pos rfl] at held
  simp only [book, Fei.circulating, Fei.balanceOf] at held supply ⊢
  omega

/-- **Refinement.** A successful transaction is one operation of the wrapper. -/
theorem step_refines {a : Action}
    (onlyMinter : ∀ account, env.core.isMinter account → account = this) (ready : Ready this s)
    (external : a.External this) (succeeds : step env this s a = .ok s') :
    Ready this s' ∧ Wrapper.Step (book this s) (book this s') := by
  cases a with
  | mint sender receiver amountIn minAmountOut =>
      obtain ⟨⟨m, out⟩, called, same⟩ := map_eq_ok_iff.mp succeeds
      subst same
      have minted := (minted_of_mint ready.plain called).1
      exact ⟨minted.ready ready, minted.refines ready external⟩
  | redeem sender receiver amountFeiIn minAmountOut =>
      obtain ⟨⟨m, out⟩, called, same⟩ := map_eq_ok_iff.mp succeeds
      subst same
      have redeemed := redeemed_of_redeem ready.plain called
      exact ⟨redeemed.ready ready, redeemed.refines ready external⟩
  | burnFeiHeld =>
      have burned := feiBurned_of_burnFeiHeld ready.plain succeeds
      exact ⟨burned.ready ready, burned.refines⟩
  | fei sender c =>
      obtain ⟨fei, called, same⟩ := bind_eq_ok_iff.mp succeeds
      cases same
      have notMinter : ¬ env.core.isMinter sender := fun minter =>
        external (onlyMinter sender minter)
      have outside := Fei.call_outside ready.plain ready.feiUnapproved external notMinter called
      refine ⟨⟨outside.plain, outside.unapproved, ready.unapproved⟩, ?_⟩
      exact .forfeit _ rfl (Nat.add_sub_of_le outside.circulating_le)
  | token sender c =>
      obtain ⟨ledger, performed, same⟩ := bind_eq_ok_iff.mp succeeds
      cases same
      have custody := Ledger.perform_custody ready.unapproved external performed
      refine ⟨⟨ready.plain, ready.feiUnapproved, custody.unapproved⟩, ?_⟩
      have exact := custody.balance DAI
      have more := custody.received_le DAI
      apply Wrapper.Step.donate (ledger.received this DAI - s.ledger.received this DAI)
      · simp only [book, balance]
        omega
      · rfl

theorem run_refines {actions : List Action}
    (onlyMinter : ∀ account, env.core.isMinter account → account = this) (ready : Ready this s)
    (external : ∀ a ∈ actions, a.External this) :
    Ready this (run (step env this) s actions) ∧
      Wrapper.Run (book this s) (book this (run (step env this) s actions)) := by
  apply run_relation (I := Ready this) (R := fun s s' => Wrapper.Run (book this s) (book this s'))
    (P := fun _ a => a.External this)
  · intro s
    exact .refl
  · intro s t u first second
    exact first.trans second
  · intro s a s' ready external succeeds
    obtain ⟨kept, step⟩ := step_refines onlyMinter ready external succeeds
    exact ⟨kept, .single step⟩
  · exact ready
  · exact along_of_forall external

/-! ## Redemptions -/

/-- One redemption that a holder asks for. -/
structure Redemption : Type where
  sender : Address
  receiver : Address
  amountFeiIn : UInt256
  minAmountOut : UInt256
  deriving DecidableEq, Repr

def Redemption.action (r : Redemption) : Action :=
  .redeem r.sender r.receiver r.amountFeiIn r.minAmountOut

/-- A holder other than the module asks for no more than it gives. -/
def Redemption.Valid (this : Address) (r : Redemption) : Prop :=
  r.sender ≠ this ∧ r.sender ≠ 0 ∧ r.minAmountOut ≤ r.amountFeiIn

/-- What one account asks for in several redemptions. -/
def asked (rs : List Redemption) (account : Address) : Nat :=
  Ledger.amountOf (rs.map fun r => (r.sender, r.amountFeiIn.toNat)) account

/-- No account asks for more than it has, or than it lets the module take. -/
def Affordable (this : Address) (s : SimpleFeiDaiPSMState) (rs : List Redemption) : Prop :=
  ∀ account, asked rs account ≤ Fei.balanceOf s.fei account ∧
    asked rs account ≤ Fei.allowance s.fei account this

theorem redeem_succeeds (env : FeiEnv) (receiver : Address) (ready : Ready this s)
    (backed : Wrapper.Backed (book this s)) (nonzero : this ≠ 0) (other : sender ≠ this)
    (caller : sender ≠ 0) (enough : minAmountOut ≤ amountFeiIn)
    (covered : amountFeiIn.toNat ≤ Fei.balanceOf s.fei sender)
    (approved : amountFeiIn.toNat ≤ Fei.allowance s.fei sender this) :
    ∃ s', redeem env this s sender receiver amountFeiIn minAmountOut =
      .ok (s', getRedeemAmountOut amountFeiIn) := by
  have word := toNat_le_maxUint256 amountFeiIn
  have parked : Fei.transferFrom env s.fei this sender this amountFeiIn.toNat = .ok _ :=
    (Fei.transferFrom_eq_ok_iff ready.plain word).mpr
      ⟨approved, .inr ⟨caller, nonzero⟩, caller, nonzero, covered, rfl⟩
  -- what the holder has circulates, so there is DAI for it
  have held : amountFeiIn.toNat ≤ s.ledger.balanceOf DAI this :=
    calc amountFeiIn.toNat
        ≤ Fei.balanceOf s.fei sender := covered
      _ ≤ Fei.circulating s.fei this := ready.plain.balance_le_circulating other
      _ ≤ balance this s := backed
  obtain ⟨ledger, paid⟩ := Ledger.safeTransfer_succeeds held receiver
  exact ⟨_, redeem_eq_ok_iff.mpr ⟨enough, _, parked, ledger, paid, rfl, rfl⟩⟩

/-- A redemption uses up no allowance but its own. -/
theorem Redeemed.allowance (redeemed : Redeemed this s s' sender receiver amountFeiIn)
    (account : Address) :
    Fei.allowance s.fei account this - (if account = sender then amountFeiIn.toNat else 0) ≤
      Fei.allowance s'.fei account this := by
  rw [Fei.allowance, Fei.allowance, redeemed.erc20, Erc20.move_allowance]
  split
  · rename_i same
    rw [same]
    exact Erc20.le_spend_allowance _ _ _ _
  · rename_i different
    rw [Erc20.spend_allowance_of_ne fun h => different h.1]
    exact Nat.sub_le _ _

theorem Affordable.tail {r : Redemption} {rs : List Redemption}
    (affordable : Affordable this s (r :: rs))
    (redeemed : Redeemed this s s' r.sender receiver r.amountFeiIn) :
    Affordable this s' rs := by
  intro account
  obtain ⟨covered, approved⟩ := affordable account
  have balance := redeemed.balanceOf account
  have allowance := redeemed.allowance account
  simp only [asked, List.map_cons, Ledger.amountOf_cons, eq_comm (a := r.sender)]
    at covered approved ⊢
  constructor <;> split at balance <;> simp_all <;> omega

/-- What one account is paid in several redemptions. -/
def paidTo (rs : List Redemption) (account : Address) : Nat :=
  Ledger.amountOf (rs.map fun r => (r.receiver, r.amountFeiIn.toNat)) account

/-- All that is redeemed. -/
def redeemed (rs : List Redemption) : Nat := (rs.map fun r => r.amountFeiIn.toNat).sum

/-- What the redemptions take and pay: the module takes the FEI of everybody who redeems, and pays
as much DAI to the receivers. -/
structure Served (this : Address) (s s' : SimpleFeiDaiPSMState) (rs : List Redemption) : Prop where
  fei : ∀ account, Fei.balanceOf s'.fei account + asked rs account =
    Fei.balanceOf s.fei account + if account = this then redeemed rs else 0
  dai : ∀ account,
    s'.ledger.balanceOf DAI account + (if account = this then redeemed rs else 0) =
      s.ledger.balanceOf DAI account + paidTo rs account

theorem asked_cons (r : Redemption) (rs : List Redemption) (account : Address) :
    asked (r :: rs) account =
      (if account = r.sender then r.amountFeiIn.toNat else 0) + asked rs account := by
  simp only [asked, List.map_cons, Ledger.amountOf_cons, eq_comm (a := r.sender)]

theorem paidTo_cons (r : Redemption) (rs : List Redemption) (account : Address) :
    paidTo (r :: rs) account =
      (if account = r.receiver then r.amountFeiIn.toNat else 0) + paidTo rs account := by
  simp only [paidTo, List.map_cons, Ledger.amountOf_cons, eq_comm (a := r.receiver)]

theorem served_nil (this : Address) (s : SimpleFeiDaiPSMState) : Served this s s [] :=
  ⟨fun _ => congrArg _ (ite_self 0).symm, fun _ => congrArg _ (ite_self 0)⟩

theorem Redeemed.served {r : Redemption} {rs : List Redemption} {t : SimpleFeiDaiPSMState}
    (first : Redeemed this s s' r.sender r.receiver r.amountFeiIn) (rest : Served this s' t rs) :
    Served this s t (r :: rs) := by
  have whole : redeemed (r :: rs) = r.amountFeiIn.toNat + redeemed rs := rfl
  constructor
  · intro account
    have taken := first.balanceOf account
    have later := rest.fei account
    rw [asked_cons, whole]
    by_cases own : account = this
    · rw [if_pos own] at taken later ⊢
      omega
    · rw [if_neg own] at taken later ⊢
      omega
  · intro account
    have paid := first.paid.balance DAI account
    have later := rest.dai account
    simp only [true_and] at paid
    rw [paidTo_cons, whole]
    by_cases own : account = this
    · rw [if_pos own] at paid later ⊢
      omega
    · rw [if_neg own] at paid later ⊢
      omega

/-- **Redemptions.** A module with enough DAI serves every list of affordable
redemptions, in any order. -/
theorem redeemAll_succeeds (onlyMinter : ∀ account, env.core.isMinter account → account = this)
    (nonzero : this ≠ 0) {rs : List Redemption} (ready : Ready this s)
    (backed : Wrapper.Backed (book this s)) (valid : ∀ r ∈ rs, r.Valid this)
    (affordable : Affordable this s rs) :
    ∃ s', rs.foldlM (fun s r => step env this s r.action) s = .ok s' ∧ Served this s s' rs := by
  induction rs generalizing s with
  | nil => exact ⟨s, rfl, served_nil this s⟩
  | cons r rs ih =>
      obtain ⟨other, caller, enough⟩ := valid r List.mem_cons_self
      have own : r.amountFeiIn.toNat ≤ asked (r :: rs) r.sender := by
        rw [asked_cons, if_pos rfl]
        exact Nat.le_add_right _ _
      obtain ⟨covered, approved⟩ := affordable r.sender
      obtain ⟨s', succeeds⟩ := redeem_succeeds env r.receiver ready backed
        nonzero other caller enough (Nat.le_trans own covered) (Nat.le_trans own approved)
      have first : step env this s r.action = .ok s' := map_eq_ok_iff.mpr ⟨_, succeeds, rfl⟩
      have external : r.action.External this := other
      obtain ⟨kept, refined⟩ := step_refines onlyMinter ready external first
      have redeemed := redeemed_of_redeem ready.plain succeeds
      obtain ⟨last, rest, served⟩ := ih kept (backed.of_surplusLe refined.surplusLe)
        (fun r' mem => valid r' (List.mem_cons_of_mem _ mem)) (affordable.tail redeemed)
      refine ⟨last, ?_, redeemed.served served⟩
      rw [List.foldlM_cons, bind_eq_ok_iff]
      exact ⟨s', first, rest⟩

/-! ## The backing -/

/-- `D - (F - H)`: DAI held, less the FEI supply that the module does not hold. -/
def backing (this : Address) (s : SimpleFeiDaiPSMState) : Int :=
  balance this s - (Fei.totalSupply s.fei - Fei.balanceOf s.fei this)

theorem backing_eq (ready : Ready this s) :
    backing this s = ((book this s).collateral : Int) - (book this s).outstanding := by
  have room := ready.plain.balance_le this
  simp only [backing, book, Fei.circulating]
  omega

theorem backing_le_of_surplusLe (ready : Ready this s) (ready' : Ready this s')
    (better : Wrapper.SurplusLe (book this s) (book this s')) :
    backing this s ≤ backing this s' := by
  rw [backing_eq ready, backing_eq ready']
  unfold Wrapper.SurplusLe at better
  omega

theorem backed_of_backing (ready : Ready this s) (enough : 0 ≤ backing this s) :
    Wrapper.Backed (book this s) := by
  rw [backing_eq ready] at enough
  unfold Wrapper.Backed
  omega

/-- **Backing.** With the module as the only minter and no incentive contracts, the
surplus of DAI over the FEI outside the module never falls along a run. If it was
not negative at first, every reachable state serves every holder, in any order, with as
much DAI as FEI is given, and a burn leaves at least as much DAI as there is FEI. -/
theorem backing_run (onlyMinter : ∀ account, env.core.isMinter account → account = this)
    (nonzero : this ≠ 0) (ready : Ready this s) {actions : List Action}
    (external : ∀ a ∈ actions, a.External this) :
    (∀ later : List Action, (∀ a ∈ later, a.External this) →
      backing this (run (step env this) s actions) ≤
        backing this (run (step env this) s (actions ++ later))) ∧
    (0 ≤ backing this s →
      (∀ rs : List Redemption, (∀ r ∈ rs, r.Valid this) →
        Affordable this (run (step env this) s actions) rs →
        ∃ s', rs.foldlM (fun s r => step env this s r.action) (run (step env this) s actions) =
          .ok s' ∧ Served this (run (step env this) s actions) s' rs) ∧
      ∃ s', step env this (run (step env this) s actions) .burnFeiHeld = .ok s' ∧
        Fei.totalSupply s'.fei ≤ balance this s') := by
  obtain ⟨reached, refined⟩ := run_refines onlyMinter ready external
  constructor
  · intro later quiet
    rw [run_append]
    obtain ⟨kept, further⟩ := run_refines onlyMinter reached quiet
    exact backing_le_of_surplusLe reached kept further.surplusLe
  · intro enough
    have backed := refined.backed (backed_of_backing ready enough)
    constructor
    · intro rs valid affordable
      exact redeemAll_succeeds onlyMinter nonzero reached backed valid affordable
    · obtain ⟨s', succeeds⟩ := burnFeiHeld_succeeds env reached.plain nonzero
      have burned := feiBurned_of_burnFeiHeld reached.plain succeeds
      refine ⟨s', succeeds, ?_⟩
      rw [burned.totalSupply, burned.balance_eq]
      exact backed

end SimpleFeiDaiPSM

namespace SimpleFeiDaiPSM.Sample

def env : FeiEnv where
  core :=
    { isMinter := fun a => a = 0xAA
      isBurner := fun _ => false
      isPCVController := fun _ => false
      isGovernor := fun _ => false
      isGuardian := fun _ => false }
  super := .standard
  incentivize := fun _ s _ _ _ _ => .ok s

/-- Account 1 holds all 100 FEI, and lets the module take 60 of them. -/
def fei : FeiState where
  erc20 :=
    { balanceOf := fun a => if a = 1 then 100 else 0
      allowance := fun owner spender => if owner = 1 ∧ spender = 0xAA then 60 else 0
      totalSupply := 100
      unlimited := true }
  incentiveContract := fun _ => 0
  _paused := false
  events := []

/-- The module holds 100 DAI, account 2 has 50 and lets the module take them. -/
def ledger : Ledger where
  erc20 t :=
    { balanceOf := fun a =>
        if t = DAI then (if a = 0xAA then 100 else if a = 2 then 50 else 0) else 0
      allowance := fun owner spender => if owner = 2 ∧ spender = 0xAA then 50 else 0
      totalSupply := 150
      unlimited := false }
  transfers := []

def start : SimpleFeiDaiPSMState where
  fei := fei
  ledger := ledger
  events := []

theorem ready : Ready 0xAA start where
  plain :=
    { noIncentives := fun _ => rfl
      consistent := ⟨by simp [start, fei], by simp [start, fei]⟩ }
  feiUnapproved _ := rfl
  unapproved _ _ := rfl

/-- Account 2 mints 50 FEI for account 3; then account 1 sends 20 FEI to the module. -/
def actions : List Action := [.mint 2 3 50 50, .fei 1 (.transfer 0xAA 20)]

/-- Account 1 redeems 30 twice, for itself and for account 4. -/
def redemptions : List Redemption := [⟨1, 1, 30, 30⟩, ⟨1, 4, 30, 0⟩]

theorem affordable : Affordable 0xAA (run (step env 0xAA) start actions) redemptions := by
  intro account
  by_cases own : account = 1
  · subst own
    decide +kernel
  · have none : asked redemptions account = 0 := by
      simp only [redemptions, asked, List.map_cons, List.map_nil, Ledger.amountOf_cons,
        Ledger.amountOf_nil, if_neg (Ne.symm own)]
    rw [none]
    exact ⟨Nat.zero_le _, Nat.zero_le _⟩

end SimpleFeiDaiPSM.Sample

namespace SimpleFeiDaiPSM

/-- The redemptions pay account 4 its 30 DAI, and a burn leaves 150 DAI for 130 FEI. -/
theorem backing_run_sample :
    (∃ s', Sample.redemptions.foldlM (fun s r => step Sample.env 0xAA s r.action)
      (run (step Sample.env 0xAA) Sample.start Sample.actions) = .ok s' ∧
      s'.ledger.balanceOf DAI 4 = 30) ∧
    ∃ s', step Sample.env 0xAA (run (step Sample.env 0xAA) Sample.start Sample.actions)
      .burnFeiHeld = .ok s' ∧ Fei.totalSupply s'.fei ≤ balance 0xAA s' := by
  have onlyMinter : ∀ account, Sample.env.core.isMinter account → account = 0xAA := by
    intro account minter
    simpa [Sample.env] using minter
  have external : ∀ a ∈ Sample.actions, a.External 0xAA := by
    simp [Sample.actions, Action.External]
  obtain ⟨serves, burns⟩ := (backing_run onlyMinter (by decide) Sample.ready external).2
    (by decide +kernel)
  obtain ⟨s', succeeds, served⟩ := serves Sample.redemptions
    (by simp [Sample.redemptions, Redemption.Valid]) Sample.affordable
  exact ⟨⟨s', succeeds, served.dai 4⟩, burns⟩

end SimpleFeiDaiPSM

end FeiProtocol
