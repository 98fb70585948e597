import FeiProtocol.Evm.Supply
import FeiProtocol.Refs.CoreRef

/-!
# `Fei`

The stablecoin: a burnable ERC20 whose mint and `burnFrom` are reserved to roles, and
whose transfers call incentive contracts. The ERC20 it extends is a parameter
(`ERC20Burnable`), described by what each of its internal functions does to a
token whose balances add up.

Each function has an exact success condition on a token without incentive contracts
(`Plain`), and `call_outside` says what other accounts' calls leave of what
circulates outside a holder: never more.
-/

namespace FeiProtocol

open Evm

/-- The inherited token: its internal functions, and when they succeed with what. -/
structure ERC20Burnable : Type where
  _transfer : Erc20 → Address → Address → Nat → Except Revert Erc20
  _mint : Erc20 → Address → Nat → Except Revert Erc20
  _burn : Erc20 → Address → Nat → Except Revert Erc20
  _approve : Erc20 → Address → Address → Nat → Except Revert Erc20
  _spendAllowance : Erc20 → Address → Address → Nat → Except Revert Erc20
  transfer_iff : ∀ {t t' src dst amount}, t.Consistent →
    (_transfer t src dst amount = .ok t' ↔
      src ≠ 0 ∧ dst ≠ 0 ∧ t.transfer src dst amount = .ok t')
  mint_iff : ∀ {t t' account amount}, t.Consistent →
    (_mint t account amount = .ok t' ↔
      account ≠ 0 ∧ t.totalSupply + amount < 2 ^ 256 ∧ t.mint account amount = t')
  burn_iff : ∀ {t t' account amount}, t.Consistent →
    (_burn t account amount = .ok t' ↔ account ≠ 0 ∧ t.burn account amount = .ok t')
  approve_iff : ∀ {t t' owner spender amount},
    _approve t owner spender amount = .ok t' ↔
      owner ≠ 0 ∧ spender ≠ 0 ∧ t.approve owner spender amount = t'
  spendAllowance_iff : ∀ {t t' owner spender amount}, amount ≤ maxUint256 →
    (_spendAllowance t owner spender amount = .ok t' ↔
      amount ≤ t.allowance owner spender ∧
        (t.unlimited ∧ t.allowance owner spender = maxUint256 ∨ owner ≠ 0 ∧ spender ≠ 0) ∧
        t.spend owner spender amount = t')

/-- The inherited token with nothing beyond the documented checks. -/
def ERC20Burnable.standard : ERC20Burnable where
  _transfer t src dst amount := do
    require (src ≠ 0) "ERC20: transfer from the zero address"
    require (dst ≠ 0) "ERC20: transfer to the zero address"
    t.transfer src dst amount
  _mint t account amount := do
    require (account ≠ 0) "ERC20: mint to the zero address"
    let _totalSupply ← checkedAdd t.totalSupply amount
    return t.mint account amount
  _burn t account amount := do
    require (account ≠ 0) "ERC20: burn from the zero address"
    t.burn account amount
  _approve t owner spender amount := do
    require (owner ≠ 0) "ERC20: approve from the zero address"
    require (spender ≠ 0) "ERC20: approve to the zero address"
    return t.approve owner spender amount
  _spendAllowance t owner spender amount :=
    if t.unlimited ∧ t.allowance owner spender = maxUint256 then return t
    else do
      require (amount ≤ t.allowance owner spender) "ERC20: insufficient allowance"
      require (owner ≠ 0) "ERC20: approve from the zero address"
      require (spender ≠ 0) "ERC20: approve to the zero address"
      return t.approve owner spender (t.allowance owner spender - amount)
  transfer_iff _ := by
    simp only [bind_eq_ok_iff, require_eq_ok_iff, exists_const]
  mint_iff _ := by
    simp only [bind_eq_ok_iff, pure_eq_ok_iff, require_eq_ok_iff, exists_const,
      checkedAdd_eq_ok_iff, and_assoc, exists_and_left, exists_eq_left']
  burn_iff _ := by
    simp only [bind_eq_ok_iff, require_eq_ok_iff, exists_const]
  approve_iff := by
    simp only [bind_eq_ok_iff, pure_eq_ok_iff, require_eq_ok_iff, exists_const, implies_true]
  spendAllowance_iff word := by
    unfold Erc20.spend
    split
    · rename_i infinite
      simp only [pure_eq_ok_iff, infinite, true_or, true_and, word]
    · rename_i finite
      simp only [bind_eq_ok_iff, pure_eq_ok_iff, require_eq_ok_iff, exists_const, finite,
        false_or, and_assoc, Erc20.approve]

inductive FeiEvent : Type where
  | Minting (account minter : Address) (amount : Nat)
  | Burning (account burner : Address) (amount : Nat)
  deriving DecidableEq, Repr

structure FeiState : Type where
  /-- the inherited balances, allowances and supply -/
  erc20 : Erc20
  incentiveContract : Address → Address
  _paused : Bool
  /-- oldest first -/
  events : List FeiEvent

instance : Pausable FeiState where
  paused s := s._paused
  withPaused s b := { s with _paused := b }

/-- What `Fei` calls outside itself. -/
structure FeiEnv : Type where
  core : Core
  super : ERC20Burnable
  /-- `IIncentive(incentive).incentivize(sender, receiver, operator, amount)` -/
  incentivize : Address → FeiState → Address → Address → Address → Nat → Except Revert FeiState

namespace Fei

open CoreRef

variable (env : FeiEnv)

/-! ## The contract -/

def balanceOf (s : FeiState) (account : Address) : Nat := s.erc20.balanceOf account

def totalSupply (s : FeiState) : Nat := s.erc20.totalSupply

def allowance (s : FeiState) (owner spender : Address) : Nat := s.erc20.allowance owner spender

def mint (s : FeiState) (msgSender account : Address) (amount : Nat) : Except Revert FeiState := do
  onlyMinter env.core msgSender
  whenNotPaused s
  let erc20 ← env.super._mint s.erc20 account amount
  return { s with erc20, events := s.events ++ [.Minting account msgSender amount] }

def burn (s : FeiState) (msgSender : Address) (amount : Nat) : Except Revert FeiState := do
  let erc20 ← env.super._burn s.erc20 msgSender amount
  return { s with erc20, events := s.events ++ [.Burning msgSender msgSender amount] }

def burnFrom (s : FeiState) (msgSender account : Address) (amount : Nat) :
    Except Revert FeiState := do
  onlyBurner env.core msgSender
  whenNotPaused s
  let erc20 ← env.super._burn s.erc20 account amount
  return { s with erc20, events := s.events ++ [.Burning account msgSender amount] }

/-- Each incentive contract is looked up after the calls before it returned. -/
def _checkAndApplyIncentives (s : FeiState) (msgSender sender recipient : Address)
    (amount : Nat) : Except Revert FeiState := do
  let senderIncentive := s.incentiveContract sender
  let s ← if senderIncentive ≠ 0 then
    env.incentivize senderIncentive s sender recipient msgSender amount else .ok s
  let recipientIncentive := s.incentiveContract recipient
  let s ← if recipientIncentive ≠ 0 then
    env.incentivize recipientIncentive s sender recipient msgSender amount else .ok s
  let operatorIncentive := s.incentiveContract msgSender
  let s ← if msgSender ≠ sender ∧ msgSender ≠ recipient ∧ operatorIncentive ≠ 0 then
    env.incentivize operatorIncentive s sender recipient msgSender amount else .ok s
  let allIncentive := s.incentiveContract 0
  if allIncentive ≠ 0 then
    env.incentivize allIncentive s sender recipient msgSender amount else .ok s

def _transfer (s : FeiState) (msgSender sender recipient : Address) (amount : Nat) :
    Except Revert FeiState := do
  let erc20 ← env.super._transfer s.erc20 sender recipient amount
  _checkAndApplyIncentives env { s with erc20 } msgSender sender recipient amount

/-- The inherited `transfer`, over the overridden `_transfer`. -/
def transfer (s : FeiState) (msgSender receiver : Address) (amount : Nat) :
    Except Revert FeiState :=
  _transfer env s msgSender msgSender receiver amount

/-- The inherited `transferFrom`, over the overridden `_transfer`. -/
def transferFrom (s : FeiState) (msgSender src dst : Address) (amount : Nat) :
    Except Revert FeiState := do
  let erc20 ← env.super._spendAllowance s.erc20 src msgSender amount
  _transfer env { s with erc20 } msgSender src dst amount

/-- The inherited `approve`. -/
def approve (s : FeiState) (msgSender spender : Address) (amount : Nat) :
    Except Revert FeiState := do
  let erc20 ← env.super._approve s.erc20 msgSender spender amount
  return { s with erc20 }

/-- A call that an account makes on the token. -/
inductive Call : Type where
  | mint (account : Address) (amount : UInt256)
  | burn (amount : UInt256)
  | burnFrom (account : Address) (amount : UInt256)
  | transfer (receiver : Address) (amount : UInt256)
  | transferFrom (src dst : Address) (amount : UInt256)
  | approve (spender : Address) (amount : UInt256)
  | pause
  | unpause
  deriving DecidableEq, Repr

def call (s : FeiState) (msgSender : Address) : Call → Except Revert FeiState
  | .mint account amount => mint env s msgSender account amount.toNat
  | .burn amount => burn env s msgSender amount.toNat
  | .burnFrom account amount => burnFrom env s msgSender account amount.toNat
  | .transfer receiver amount => transfer env s msgSender receiver amount.toNat
  | .transferFrom src dst amount => transferFrom env s msgSender src dst amount.toNat
  | .approve spender amount => approve env s msgSender spender amount.toNat
  | .pause => pause env.core s msgSender
  | .unpause => unpause env.core s msgSender

/-! ## Success conditions -/

/-- No incentive contracts, and balances that add up. -/
structure Plain (s : FeiState) : Prop where
  noIncentives : ∀ account, s.incentiveContract account = 0
  consistent : s.erc20.Consistent

variable {env} {s s' : FeiState} {msgSender src dst account spender holder : Address}
  {amount : Nat}

theorem mint_eq_ok_iff (plain : Plain s) : mint env s msgSender account amount = .ok s' ↔
    env.core.isMinter msgSender ∧ s._paused = false ∧ account ≠ 0 ∧
      s.erc20.totalSupply + amount < 2 ^ 256 ∧
      { s with
        erc20 := s.erc20.mint account amount
        events := s.events ++ [.Minting account msgSender amount] } = s' := by
  simp only [mint, bind_eq_ok_iff, pure_eq_ok_iff, onlyMinter_eq_ok_iff, whenNotPaused_eq_ok_iff,
    exists_const, env.super.mint_iff plain.consistent, and_assoc, exists_and_left,
    exists_eq_left', Pausable.paused]

theorem burn_eq_ok_iff (plain : Plain s) : burn env s msgSender amount = .ok s' ↔
    msgSender ≠ 0 ∧ ∃ erc20, s.erc20.burn msgSender amount = .ok erc20 ∧
      { s with erc20, events := s.events ++ [.Burning msgSender msgSender amount] } = s' := by
  simp only [burn, bind_eq_ok_iff, pure_eq_ok_iff, env.super.burn_iff plain.consistent,
    and_assoc, exists_and_left]

theorem burnFrom_eq_ok_iff (plain : Plain s) : burnFrom env s msgSender account amount = .ok s' ↔
    env.core.isBurner msgSender ∧ s._paused = false ∧ account ≠ 0 ∧
      ∃ erc20, s.erc20.burn account amount = .ok erc20 ∧
        { s with erc20, events := s.events ++ [.Burning account msgSender amount] } = s' := by
  simp only [burnFrom, bind_eq_ok_iff, pure_eq_ok_iff, onlyBurner_eq_ok_iff,
    whenNotPaused_eq_ok_iff, exists_const, env.super.burn_iff plain.consistent, and_assoc,
    exists_and_left, Pausable.paused]

theorem _checkAndApplyIncentives_of_none (none : ∀ account, s.incentiveContract account = 0) :
    _checkAndApplyIncentives env s msgSender src dst amount = .ok s := by
  simp [_checkAndApplyIncentives, none, bind, Except.bind]

theorem _transfer_eq_ok_iff (plain : Plain s) :
    _transfer env s msgSender src dst amount = .ok s' ↔
      src ≠ 0 ∧ dst ≠ 0 ∧ amount ≤ s.erc20.balanceOf src ∧
        { s with erc20 := s.erc20.move src dst amount } = s' := by
  have none : ∀ erc20, _checkAndApplyIncentives env { s with erc20 } msgSender src dst amount =
      .ok { s with erc20 } := fun _ => _checkAndApplyIncentives_of_none plain.noIncentives
  simp only [_transfer, bind_eq_ok_iff, none, env.super.transfer_iff plain.consistent,
    Erc20.transfer_eq_ok_iff, and_assoc, exists_and_left, exists_eq_left', Except.ok.injEq]

theorem Plain.spend (plain : Plain s) :
    Plain { s with erc20 := s.erc20.spend src spender amount } :=
  ⟨plain.noIncentives, plain.consistent.spend⟩

theorem transferFrom_eq_ok_iff (plain : Plain s) (word : amount ≤ maxUint256) :
    transferFrom env s msgSender src dst amount = .ok s' ↔
      amount ≤ s.erc20.allowance src msgSender ∧
        (s.erc20.unlimited ∧ s.erc20.allowance src msgSender = maxUint256 ∨
          src ≠ 0 ∧ msgSender ≠ 0) ∧
        src ≠ 0 ∧ dst ≠ 0 ∧ amount ≤ s.erc20.balanceOf src ∧
        { s with erc20 := (s.erc20.spend src msgSender amount).move src dst amount } = s' := by
  simp only [transferFrom, bind_eq_ok_iff, env.super.spendAllowance_iff word, and_assoc,
    exists_and_left, exists_eq_left', _transfer_eq_ok_iff plain.spend, Erc20.spend_balanceOf]

theorem approve_eq_ok_iff : approve env s msgSender spender amount = .ok s' ↔
    msgSender ≠ 0 ∧ spender ≠ 0 ∧
      { s with erc20 := s.erc20.approve msgSender spender amount } = s' := by
  simp only [approve, bind_eq_ok_iff, pure_eq_ok_iff, env.super.approve_iff, and_assoc,
    exists_and_left, exists_eq_left']

/-! ## What other accounts' calls do -/

/-- `holder` has approved nobody. -/
def Unapproved (s : FeiState) (holder : Address) : Prop :=
  ∀ spender, allowance s holder spender = 0

/-- The supply outside `holder`. -/
def circulating (s : FeiState) (holder : Address) : Nat :=
  totalSupply s - balanceOf s holder

/-- What a call leaves as it must be around `holder`, when it creates no tokens. -/
structure Outside (holder : Address) (s s' : FeiState) : Prop where
  plain : Plain s'
  unapproved : Unapproved s' holder
  circulating_le : circulating s' holder ≤ circulating s holder

theorem Plain.balance_le (plain : Plain s) (account : Address) :
    balanceOf s account ≤ totalSupply s :=
  plain.consistent.balance_le account

/-- What another account holds circulates. -/
theorem Plain.balance_le_circulating (plain : Plain s) (other : account ≠ holder) :
    balanceOf s account ≤ circulating s holder :=
  Nat.le_sub_of_add_le (plain.consistent.balance_add_balance_le other)

/-- A transfer that the holder does not pay for leaves no more in circulation. -/
theorem moved_outside {erc20 : Erc20} (plain : Plain { s with erc20 })
    (balances : erc20.balanceOf = s.erc20.balanceOf)
    (supply : erc20.totalSupply = s.erc20.totalSupply)
    (allowances : ∀ spender, erc20.allowance holder spender = 0)
    (covered : amount ≤ erc20.balanceOf src) (free : src = holder → amount = 0) :
    Outside holder s { s with erc20 := erc20.move src dst amount } := by
  refine ⟨⟨plain.noIncentives, plain.consistent.move covered⟩, allowances, ?_⟩
  have exact := Erc20.move_balanceOf covered dst holder
  rw [balances] at exact
  simp only [circulating, totalSupply, balanceOf, Erc20.move_totalSupply, supply]
  apply Nat.sub_le_sub_left
  by_cases source : src = holder
  · simp only [free source, ite_self] at exact ⊢
    omega
  · rw [if_neg (Ne.symm source)] at exact
    omega

theorem burned_outside {erc20 : Erc20} {events : List FeiEvent} (plain : Plain s)
    (none : Unapproved s holder) (burned : Erc20.Burned s.erc20 erc20 account amount) :
    Outside holder s { s with erc20, events } := by
  refine ⟨⟨plain.noIncentives, burned.consistent plain.consistent⟩, ?_, ?_⟩
  · intro spender
    simpa only [allowance, burned.allowance] using none spender
  · have exact := burned.balance holder
    have supply := burned.supply_add plain.consistent
    have room := (burned.consistent plain.consistent).balance_le holder
    simp only [circulating, totalSupply, balanceOf]
    split at exact <;> omega

/-- **Other accounts.** A call by neither a minter nor the holder, which has approved
nobody, never increases what circulates outside the holder. -/
theorem call_outside {c : Call} (plain : Plain s) (none : Unapproved s holder)
    (other : msgSender ≠ holder) (notMinter : ¬ env.core.isMinter msgSender)
    (succeeds : call env s msgSender c = .ok s') : Outside holder s s' := by
  cases c with
  | mint account amount =>
      exact absurd ((mint_eq_ok_iff plain).mp succeeds).1 notMinter
  | burn amount =>
      obtain ⟨_, erc20, burned, same⟩ := (burn_eq_ok_iff plain).mp succeeds
      subst same
      exact burned_outside plain none (Erc20.burned_of_burn burned)
  | burnFrom account amount =>
      obtain ⟨_, _, _, erc20, burned, same⟩ := (burnFrom_eq_ok_iff plain).mp succeeds
      subst same
      exact burned_outside plain none (Erc20.burned_of_burn burned)
  | transfer receiver amount =>
      obtain ⟨_, _, covered, same⟩ := (_transfer_eq_ok_iff plain).mp succeeds
      subst same
      exact moved_outside plain rfl rfl none covered fun source => absurd source other
  | transferFrom src dst amount =>
      have word : amount.toNat ≤ maxUint256 := Nat.le_pred_of_lt amount.isLt
      obtain ⟨approved, _, _, _, covered, same⟩ := (transferFrom_eq_ok_iff plain word).mp succeeds
      subst same
      apply moved_outside plain.spend
      · exact Erc20.spend_balanceOf _ _ _ _
      · exact Erc20.spend_totalSupply _ _ _ _
      · intro spender
        have le := Erc20.spend_allowance_le s.erc20 src msgSender holder spender amount.toNat
        have zero : s.erc20.allowance holder spender = 0 := none spender
        omega
      · rw [Erc20.spend_balanceOf]
        exact covered
      · intro source
        have zero : s.erc20.allowance holder msgSender = 0 := none msgSender
        rw [source] at approved
        omega
  | approve spender amount =>
      obtain ⟨_, _, same⟩ := approve_eq_ok_iff.mp succeeds
      subst same
      refine ⟨⟨plain.noIncentives, plain.consistent.approve⟩, ?_, Nat.le_refl _⟩
      intro spender'
      have entry : ¬ (holder = msgSender ∧ spender' = spender) := fun h => other h.1.symm
      simpa [allowance, Erc20.approve, update₂_of_ne _ _ entry] using none spender'
  | pause =>
      have same := pause_eq succeeds
      subst same
      exact ⟨⟨plain.noIncentives, plain.consistent⟩, none, Nat.le_refl _⟩
  | unpause =>
      have same := unpause_eq succeeds
      subst same
      exact ⟨⟨plain.noIncentives, plain.consistent⟩, none, Nat.le_refl _⟩

end Fei

end FeiProtocol
