import FeiProtocol.Evm.Execution
import Mathlib.Algebra.BigOperators.Group.List.Basic
import Mathlib.Algebra.BigOperators.Pi
import Mathlib.Algebra.BigOperators.Ring.Finset
import Mathlib.Data.Fintype.BigOperators
import Mathlib.Data.FinEnum

/-!
# Exact-transfer ERC20 tokens

An ERC20 without callbacks and without transfer fees: a transfer moves exactly
the amount asked for, and fails exactly on insufficient balance or allowance.
Many tokens also refuse address 0, which is an account like any other here.
Whether an approval of the maximal value is spent is a parameter of the token
(`unlimited`), since deployed tokens differ on it.

A `Ledger` is all tokens together with the history of transfers, each with the
account that called the token. `Ledger.received`, `Ledger.sent` and
`Ledger.pulled` read totals off that history.

Nothing here mentions a contract.
-/

namespace Evm

/-- The state of one token. -/
structure Erc20 : Type where
  balanceOf : Address → Nat
  /-- The amount an owner lets a spender move. -/
  allowance : Address → Address → Nat
  totalSupply : Nat
  /-- An approval of the maximal value is never spent. -/
  unlimited : Bool

namespace Erc20

/-- Debit one account and credit another. -/
def move (t : Erc20) (src dst : Address) (amount : Nat) : Erc20 :=
  let debited := Function.update t.balanceOf src (t.balanceOf src - amount)
  { t with balanceOf := Function.update debited dst (debited dst + amount) }

/-- Use up part of an allowance. -/
def spend (t : Erc20) (owner spender : Address) (amount : Nat) : Erc20 :=
  if t.unlimited ∧ t.allowance owner spender = maxUint256 then t
  else { t with
    allowance := update₂ t.allowance owner spender (t.allowance owner spender - amount) }

def transfer (t : Erc20) (sender dst : Address) (amount : Nat) : Except Revert Erc20 := do
  require (amount ≤ t.balanceOf sender) "ERC20: transfer amount exceeds balance"
  return t.move sender dst amount

def transferFrom (t : Erc20) (spender src dst : Address) (amount : Nat) :
    Except Revert Erc20 := do
  require (amount ≤ t.allowance src spender) "ERC20: insufficient allowance"
  require (amount ≤ t.balanceOf src) "ERC20: transfer amount exceeds balance"
  return (t.spend src spender amount).move src dst amount

def approve (t : Erc20) (owner spender : Address) (amount : Nat) : Erc20 :=
  { t with allowance := update₂ t.allowance owner spender amount }

def mint (t : Erc20) (dst : Address) (amount : Nat) : Erc20 :=
  { t with
    balanceOf := Function.update t.balanceOf dst (t.balanceOf dst + amount)
    totalSupply := t.totalSupply + amount }

def burn (t : Erc20) (src : Address) (amount : Nat) : Except Revert Erc20 := do
  require (amount ≤ t.balanceOf src) "ERC20: burn amount exceeds balance"
  return { t with
    balanceOf := Function.update t.balanceOf src (t.balanceOf src - amount)
    totalSupply := t.totalSupply - amount }

theorem transfer_eq_ok_iff {t t' : Erc20} {sender dst : Address} {amount : Nat} :
    t.transfer sender dst amount = .ok t' ↔
      amount ≤ t.balanceOf sender ∧ t.move sender dst amount = t' := by
  simp only [transfer, bind_eq_ok_iff, pure_eq_ok_iff, require_eq_ok_iff, exists_const]

theorem transferFrom_eq_ok_iff {t t' : Erc20} {spender src dst : Address} {amount : Nat} :
    t.transferFrom spender src dst amount = .ok t' ↔
      amount ≤ t.allowance src spender ∧ amount ≤ t.balanceOf src ∧
        (t.spend src spender amount).move src dst amount = t' := by
  simp only [transferFrom, bind_eq_ok_iff, pure_eq_ok_iff, require_eq_ok_iff, exists_const]

theorem burn_eq_ok_iff {t t' : Erc20} {src : Address} {amount : Nat} :
    t.burn src amount = .ok t' ↔ amount ≤ t.balanceOf src ∧
      { t with
        balanceOf := Function.update t.balanceOf src (t.balanceOf src - amount)
        totalSupply := t.totalSupply - amount } = t' := by
  simp only [burn, bind_eq_ok_iff, pure_eq_ok_iff, require_eq_ok_iff, exists_const]

@[simp]
theorem spend_balanceOf (t : Erc20) (owner spender : Address) (amount : Nat) :
    (t.spend owner spender amount).balanceOf = t.balanceOf := by
  unfold spend
  split <;> rfl

@[simp]
theorem spend_totalSupply (t : Erc20) (owner spender : Address) (amount : Nat) :
    (t.spend owner spender amount).totalSupply = t.totalSupply := by
  unfold spend
  split <;> rfl

/-- Spending touches one entry of the allowances. -/
theorem spend_allowance_of_ne {t : Erc20} {owner spender owner' spender' : Address} {amount : Nat}
    (other : ¬ (owner' = owner ∧ spender' = spender)) :
    (t.spend owner spender amount).allowance owner' spender' = t.allowance owner' spender' := by
  unfold spend
  split
  · rfl
  · exact update₂_of_ne _ _ other

theorem spend_allowance_le (t : Erc20) (owner spender owner' spender' : Address) (amount : Nat) :
    (t.spend owner spender amount).allowance owner' spender' ≤ t.allowance owner' spender' := by
  unfold spend
  split
  · rfl
  · simp only [update₂_apply]
    split
    · rename_i h; rw [h.1, h.2]; exact Nat.sub_le _ _
    · rfl

/-- At least the unspent part of an allowance is left. -/
theorem le_spend_allowance (t : Erc20) (owner spender : Address) (amount : Nat) :
    t.allowance owner spender - amount ≤
      (t.spend owner spender amount).allowance owner spender := by
  unfold spend
  split
  · exact Nat.sub_le _ _
  · simp

@[simp]
theorem move_allowance (t : Erc20) (src dst : Address) (amount : Nat) :
    (t.move src dst amount).allowance = t.allowance := rfl

@[simp]
theorem move_totalSupply (t : Erc20) (src dst : Address) (amount : Nat) :
    (t.move src dst amount).totalSupply = t.totalSupply := rfl

/-- **Exact transfer**: what leaves the source is what reaches the destination,
also when the two are one account. -/
theorem move_balanceOf {t : Erc20} {src : Address} {amount : Nat}
    (covered : amount ≤ t.balanceOf src) (dst account : Address) :
    (t.move src dst amount).balanceOf account + (if account = src then amount else 0) =
      t.balanceOf account + (if account = dst then amount else 0) := by
  simp only [move, Function.update_apply]
  by_cases hsrc : account = src <;> by_cases hdst : account = dst <;> simp_all

end Erc20

/-! ## All tokens and their history -/

/-- One transfer, with the account that called the token. -/
structure Transfer : Type where
  operator : Address
  token : Address
  src : Address
  dst : Address
  amount : Nat
  deriving DecidableEq, Repr

/-- The tokens by address, and the transfers so far, oldest first. -/
structure Ledger : Type where
  erc20 : Address → Erc20
  transfers : List Transfer

namespace Ledger

def balanceOf (w : Ledger) (token holder : Address) : Nat :=
  (w.erc20 token).balanceOf holder

def allowance (w : Ledger) (token owner spender : Address) : Nat :=
  (w.erc20 token).allowance owner spender

/-- The ledger after the transfer `e`, which left its token as `t`. -/
def record (w : Ledger) (e : Transfer) (t : Erc20) : Ledger :=
  { erc20 := Function.update w.erc20 e.token t, transfers := w.transfers ++ [e] }

/-- `IERC20(token).safeTransfer(dst, amount)` called by `operator`. -/
def safeTransfer (w : Ledger) (operator token dst : Address) (amount : Nat) :
    Except Revert Ledger := do
  let t ← (w.erc20 token).transfer operator dst amount
  return w.record ⟨operator, token, operator, dst, amount⟩ t

/-- `IERC20(token).safeTransferFrom(src, dst, amount)` called by `operator`. -/
def safeTransferFrom (w : Ledger) (operator token src dst : Address) (amount : Nat) :
    Except Revert Ledger := do
  let t ← (w.erc20 token).transferFrom operator src dst amount
  return w.record ⟨operator, token, src, dst, amount⟩ t

/-- `w'` is `w` after exactly the transfer `e`. -/
structure Moved (w w' : Ledger) (e : Transfer) : Prop where
  covered : e.amount ≤ w.balanceOf e.token e.src
  balance : ∀ token holder,
    w'.balanceOf token holder + (if token = e.token ∧ holder = e.src then e.amount else 0) =
      w.balanceOf token holder + (if token = e.token ∧ holder = e.dst then e.amount else 0)
  allowance_le : ∀ token owner spender,
    w'.allowance token owner spender ≤ w.allowance token owner spender
  transfers : w'.transfers = w.transfers ++ [e]

theorem moved_record {w : Ledger} {e : Transfer} {t : Erc20}
    (covered : e.amount ≤ w.balanceOf e.token e.src)
    (balances : t.balanceOf = (w.erc20 e.token).balanceOf)
    (allowances : ∀ owner spender,
      t.allowance owner spender ≤ (w.erc20 e.token).allowance owner spender) :
    Moved w (w.record e (t.move e.src e.dst e.amount)) e := by
  refine ⟨covered, fun token holder => ?_, fun token owner spender => ?_, rfl⟩
  · by_cases same : token = e.token
    · subst same
      have covered' : e.amount ≤ t.balanceOf e.src := by rw [balances]; exact covered
      have exact := Erc20.move_balanceOf covered' e.dst holder
      simpa [balanceOf, record, balances] using exact
    · simp [balanceOf, record, same]
  · by_cases same : token = e.token
    · subst same
      simpa [allowance, record] using allowances owner spender
    · simp [allowance, record, same]

theorem safeTransfer_eq_ok_iff {w w' : Ledger} {operator token dst : Address} {amount : Nat} :
    w.safeTransfer operator token dst amount = .ok w' ↔
      amount ≤ w.balanceOf token operator ∧
        w.record ⟨operator, token, operator, dst, amount⟩
          ((w.erc20 token).move operator dst amount) = w' := by
  simp only [safeTransfer, bind_eq_ok_iff, pure_eq_ok_iff, Erc20.transfer_eq_ok_iff,
    and_assoc, balanceOf]
  constructor
  · intro h
    rcases h with ⟨t, covered, rfl, rfl⟩
    exact ⟨covered, rfl⟩
  · intro h
    rcases h with ⟨covered, rfl⟩
    exact ⟨_, covered, rfl, rfl⟩

theorem safeTransferFrom_eq_ok_iff {w w' : Ledger} {operator token src dst : Address}
    {amount : Nat} :
    w.safeTransferFrom operator token src dst amount = .ok w' ↔
      amount ≤ w.allowance token src operator ∧ amount ≤ w.balanceOf token src ∧
        w.record ⟨operator, token, src, dst, amount⟩
          (((w.erc20 token).spend src operator amount).move src dst amount) = w' := by
  simp only [safeTransferFrom, bind_eq_ok_iff, pure_eq_ok_iff, Erc20.transferFrom_eq_ok_iff,
    balanceOf, allowance]
  constructor
  · intro h
    rcases h with ⟨t, ⟨approved, covered, rfl⟩, rfl⟩
    exact ⟨approved, covered, rfl⟩
  · intro h
    rcases h with ⟨approved, covered, rfl⟩
    exact ⟨_, ⟨approved, covered, rfl⟩, rfl⟩

theorem safeTransfer_succeeds {w : Ledger} {operator token : Address} {amount : Nat}
    (covered : amount ≤ w.balanceOf token operator) (dst : Address) :
    ∃ w', w.safeTransfer operator token dst amount = .ok w' :=
  ⟨_, safeTransfer_eq_ok_iff.mpr ⟨covered, rfl⟩⟩

theorem safeTransferFrom_succeeds {w : Ledger} {operator token src : Address} {amount : Nat}
    (approved : amount ≤ w.allowance token src operator)
    (covered : amount ≤ w.balanceOf token src) (dst : Address) :
    ∃ w', w.safeTransferFrom operator token src dst amount = .ok w' :=
  ⟨_, safeTransferFrom_eq_ok_iff.mpr ⟨approved, covered, rfl⟩⟩

theorem safeTransfer_moved {w w' : Ledger} {operator token dst : Address} {amount : Nat}
    (succeeds : w.safeTransfer operator token dst amount = .ok w') :
    Moved w w' ⟨operator, token, operator, dst, amount⟩ := by
  obtain ⟨covered, rfl⟩ := safeTransfer_eq_ok_iff.mp succeeds
  exact moved_record (e := ⟨operator, token, operator, dst, amount⟩) covered rfl
    fun _ _ => Nat.le_refl _

theorem safeTransferFrom_moved {w w' : Ledger} {operator token src dst : Address} {amount : Nat}
    (succeeds : w.safeTransferFrom operator token src dst amount = .ok w') :
    Moved w w' ⟨operator, token, src, dst, amount⟩ := by
  obtain ⟨-, covered, rfl⟩ := safeTransferFrom_eq_ok_iff.mp succeeds
  exact moved_record (e := ⟨operator, token, src, dst, amount⟩) covered
    (Erc20.spend_balanceOf _ _ _ _) fun owner spender => Erc20.spend_allowance_le _ _ _ _ _ _

/-- A transfer called by the holder spends no allowance. -/
theorem safeTransfer_allowance {w w' : Ledger} {operator token dst : Address} {amount : Nat}
    (succeeds : w.safeTransfer operator token dst amount = .ok w')
    (token' owner spender : Address) :
    w'.allowance token' owner spender = w.allowance token' owner spender := by
  obtain ⟨-, rfl⟩ := safeTransfer_eq_ok_iff.mp succeeds
  by_cases same : token' = token
  · subst same; simp [allowance, record]
  · simp [allowance, record, same]

/-- A transfer on an owner's behalf leaves the unspent part of that allowance,
and every other allowance as it was. -/
theorem safeTransferFrom_allowance {w w' : Ledger} {operator token src dst : Address}
    {amount : Nat} (succeeds : w.safeTransferFrom operator token src dst amount = .ok w')
    (token' owner spender : Address) :
    w.allowance token' owner spender -
        (if token' = token ∧ owner = src ∧ spender = operator then amount else 0) ≤
      w'.allowance token' owner spender := by
  obtain ⟨-, -, rfl⟩ := safeTransferFrom_eq_ok_iff.mp succeeds
  by_cases same : token' = token
  · subst same
    by_cases entry : owner = src ∧ spender = operator
    · obtain ⟨rfl, rfl⟩ := entry
      simpa [allowance, record] using Erc20.le_spend_allowance _ _ _ _
    · simp [allowance, record, entry, Erc20.spend_allowance_of_ne entry]
  · simp [allowance, record, same]

/-- `holder` has approved nobody, for any token. -/
def Unapproved (w : Ledger) (holder : Address) : Prop :=
  ∀ token spender, w.allowance token holder spender = 0

theorem Moved.unapproved {w w' : Ledger} {e : Transfer} {holder : Address}
    (moved : Moved w w' e) (none : w.Unapproved holder) : w'.Unapproved holder := by
  intro token spender
  have le := moved.allowance_le token holder spender
  rw [none token spender] at le
  exact Nat.le_zero.mp le

/-! ### Paying several tokens -/

/-- A loop of `safeTransfer`s to one receiver. -/
def payAll (w : Ledger) (operator dst : Address) (es : List (Address × Nat)) :
    Except Revert Ledger :=
  es.foldlM (fun w e => w.safeTransfer operator e.1 dst e.2) w

/-- The amount of `token` in a list of payments. -/
def amountOf (es : List (Address × Nat)) (token : Address) : Nat :=
  ((es.filter fun e => e.1 = token).map Prod.snd).sum

@[simp]
theorem amountOf_nil (token : Address) : amountOf [] token = 0 := rfl

@[simp]
theorem amountOf_cons (e : Address × Nat) (es : List (Address × Nat)) (token : Address) :
    amountOf (e :: es) token = (if e.1 = token then e.2 else 0) + amountOf es token := by
  rcases eq_or_ne e.1 token with same | other
  · simp [amountOf, same]
  · simp [amountOf, other]

/-- With one payment for each of several tokens, the amount is that payment. -/
theorem amountOf_map {tokens : List Address} (distinct : tokens.Nodup) (f : Address → Nat)
    (token : Address) :
    amountOf (tokens.map fun t => (t, f t)) token = if token ∈ tokens then f token else 0 := by
  induction tokens with
  | nil => rfl
  | cons t tokens ih =>
      obtain ⟨new, distinct⟩ := List.nodup_cons.mp distinct
      rw [List.map_cons, amountOf_cons, ih distinct]
      rcases eq_or_ne t token with rfl | other
      · simp [new]
      · simp [other, other.symm]

/-- `w'` is `w` after `operator` paid the listed amounts to `dst`. -/
structure Paid (w w' : Ledger) (operator dst : Address) (es : List (Address × Nat)) : Prop where
  balance : ∀ token holder,
    w'.balanceOf token holder + (if holder = operator then amountOf es token else 0) =
      w.balanceOf token holder + (if holder = dst then amountOf es token else 0)
  allowance_le : ∀ token owner spender,
    w'.allowance token owner spender ≤ w.allowance token owner spender
  transfers : w'.transfers =
    w.transfers ++ es.map fun e => ⟨operator, e.1, operator, dst, e.2⟩

theorem payAll_paid {w w' : Ledger} {operator dst : Address} {es : List (Address × Nat)}
    (succeeds : w.payAll operator dst es = .ok w') : Paid w w' operator dst es := by
  induction es generalizing w with
  | nil =>
      rw [payAll, List.foldlM_nil, pure_eq_ok_iff] at succeeds
      subst succeeds
      exact ⟨by simp, fun _ _ _ => Nat.le_refl _, by simp⟩
  | cons e es ih =>
      rw [payAll, List.foldlM_cons, bind_eq_ok_iff] at succeeds
      obtain ⟨m, head, tail⟩ := succeeds
      have moved := safeTransfer_moved head
      have rest := ih tail
      refine ⟨fun token holder => ?_, fun token owner spender => ?_, ?_⟩
      · have first := moved.balance token holder
        have later := rest.balance token holder
        simp only [amountOf_cons]
        rcases eq_or_ne e.1 token with rfl | other
        · simp only [true_and, if_true] at first ⊢
          have sum : ∀ (p : Prop) [Decidable p], (if p then e.2 + amountOf es e.1 else 0) =
              (if p then e.2 else 0) + if p then amountOf es e.1 else 0 := by
            intro p _
            split <;> rfl
          rw [sum, sum]
          omega
        · simp only [other, other.symm, false_and, if_false, Nat.zero_add, Nat.add_zero]
            at first ⊢
          omega
      · exact Nat.le_trans (rest.allowance_le token owner spender)
          (moved.allowance_le token owner spender)
      · rw [rest.transfers, moved.transfers]
        simp

theorem payAll_succeeds {w : Ledger} {operator dst : Address} (other : dst ≠ operator)
    {es : List (Address × Nat)}
    (covered : ∀ token, amountOf es token ≤ w.balanceOf token operator) :
    ∃ w', w.payAll operator dst es = .ok w' := by
  induction es generalizing w with
  | nil => exact ⟨w, rfl⟩
  | cons e es ih =>
      have enough := covered e.1
      rw [amountOf_cons, if_pos rfl] at enough
      obtain ⟨m, head⟩ := safeTransfer_succeeds
        (Nat.le_trans (Nat.le_add_right _ _) enough) dst
      have moved := safeTransfer_moved head
      obtain ⟨w', tail⟩ := ih (w := m) fun token => by
        have exact := moved.balance token operator
        have room := covered token
        simp only [amountOf_cons] at room
        rcases eq_or_ne e.1 token with rfl | different
        · simp [other.symm] at exact room
          omega
        · simp [different, different.symm] at exact room
          omega
      refine ⟨w', ?_⟩
      rw [payAll, List.foldlM_cons, bind_eq_ok_iff]
      exact ⟨m, head, tail⟩

theorem Paid.unapproved {w w' : Ledger} {operator dst holder : Address}
    {es : List (Address × Nat)} (paid : Paid w w' operator dst es)
    (none : w.Unapproved holder) : w'.Unapproved holder := by
  intro token spender
  have le := paid.allowance_le token holder spender
  rw [none token spender] at le
  exact Nat.le_zero.mp le

/-! ### Totals of the history -/

/-- The total amount of the recorded transfers that satisfy `p`. -/
def total (w : Ledger) (p : Transfer → Bool) : Nat :=
  ((w.transfers.filter p).map Transfer.amount).sum

/-- What other accounts' calls have brought to `holder`. -/
def received (w : Ledger) (holder token : Address) : Nat :=
  w.total fun e => e.operator ≠ holder && e.token = token && e.dst = holder

/-- What `holder`'s own calls have sent from it. -/
def sent (w : Ledger) (holder token : Address) : Nat :=
  w.total fun e => e.operator = holder && e.token = token && e.src = holder

/-- What `holder`'s own calls have pulled to it from `src`. -/
def pulled (w : Ledger) (holder token src : Address) : Nat :=
  w.total fun e => e.operator = holder && e.token = token && e.src = src && e.dst = holder

/-- The transfers that `holder` called for. -/
def calledBy (w : Ledger) (holder : Address) : List Transfer :=
  w.transfers.filter fun e => e.operator = holder

theorem filter_calledBy (w : Ledger) (holder : Address) (p : Transfer → Bool) :
    (w.calledBy holder).filter p = w.transfers.filter fun e => e.operator = holder && p e := by
  rw [calledBy, List.filter_filter]
  exact List.filter_congr fun e _ => Bool.and_comm _ _

/-- The totals of an account's own calls depend on those calls only. -/
theorem total_calledBy_congr {w w' : Ledger} {holder : Address}
    (same : w'.calledBy holder = w.calledBy holder) (p : Transfer → Bool) :
    w'.total (fun e => e.operator = holder && p e) =
      w.total fun e => e.operator = holder && p e := by
  rw [total, total, ← filter_calledBy, ← filter_calledBy, same]

theorem pulled_congr {w w' : Ledger} {holder : Address}
    (same : w'.calledBy holder = w.calledBy holder) (token src : Address) :
    w'.pulled holder token src = w.pulled holder token src := by
  simpa only [pulled, Bool.and_assoc] using total_calledBy_congr same
    fun e => e.token = token && (e.src = src && e.dst = holder)

theorem sent_congr {w w' : Ledger} {holder : Address}
    (same : w'.calledBy holder = w.calledBy holder) (token : Address) :
    w'.sent holder token = w.sent holder token := by
  simpa only [sent, Bool.and_assoc] using total_calledBy_congr same
    fun e => e.token = token && e.src = holder

theorem Moved.total_eq {w w' : Ledger} {e : Transfer} (moved : Moved w w' e)
    (p : Transfer → Bool) : w'.total p = w.total p + if p e then e.amount else 0 := by
  simp only [total, moved.transfers, List.filter_append, List.map_append, List.sum_append]
  by_cases h : p e <;> simp [h]

theorem Paid.total_of_not {w w' : Ledger} {operator dst : Address} {es : List (Address × Nat)}
    (paid : Paid w w' operator dst es) {p : Transfer → Bool}
    (none : ∀ e ∈ es, p ⟨operator, e.1, operator, dst, e.2⟩ = false) :
    w'.total p = w.total p := by
  have skipped : (es.map fun e => (⟨operator, e.1, operator, dst, e.2⟩ : Transfer)).filter p =
      [] := by
    rw [List.filter_eq_nil_iff]
    intro x mem
    obtain ⟨e, here, same⟩ := List.mem_map.mp mem
    rw [← same, none e here]
    exact Bool.false_ne_true
  rw [total, paid.transfers, List.filter_append, skipped, List.append_nil, total]

theorem Paid.sent {w w' : Ledger} {operator dst : Address} {es : List (Address × Nat)}
    (paid : Paid w w' operator dst es) (token : Address) :
    w'.sent operator token = w.sent operator token + amountOf es token := by
  have each : ∀ es : List (Address × Nat),
      (((es.map fun e => (⟨operator, e.1, operator, dst, e.2⟩ : Transfer)).filter
        fun e => e.operator = operator && e.token = token && e.src = operator).map
          Transfer.amount).sum = amountOf es token := by
    intro es
    induction es with
    | nil => rfl
    | cons e es ih =>
        rw [amountOf_cons, ← ih]
        rcases eq_or_ne e.1 token with same | other
        · simp [same]
        · simp [other]
  rw [Ledger.sent, total, paid.transfers, List.filter_append, List.map_append, List.sum_append,
    each]
  rfl

/-! ### What other accounts do -/

/-- A call that an account makes on a token directly. -/
inductive TokenCall : Type where
  | transfer (token dst : Address) (amount : Nat)
  | transferFrom (token src dst : Address) (amount : Nat)
  | approve (token spender : Address) (amount : Nat)
  | mint (token dst : Address) (amount : Nat)
  | burn (token : Address) (amount : Nat)
  deriving DecidableEq, Repr

/-- A token call by `actor`. A mint is recorded as coming from the zero address. -/
def perform (w : Ledger) (actor : Address) : TokenCall → Except Revert Ledger
  | .transfer token dst amount => w.safeTransfer actor token dst amount
  | .transferFrom token src dst amount => w.safeTransferFrom actor token src dst amount
  | .approve token spender amount =>
      .ok { w with erc20 :=
        Function.update w.erc20 token ((w.erc20 token).approve actor spender amount) }
  | .mint token dst amount =>
      .ok (w.record ⟨actor, token, 0, dst, amount⟩ ((w.erc20 token).mint dst amount))
  | .burn token amount => do
      let t ← (w.erc20 token).burn actor amount
      return { w with erc20 := Function.update w.erc20 token t }

/-- A token call adds at most one transfer, called by its actor. -/
theorem perform_calledBy {w w' : Ledger} {actor holder : Address} {c : TokenCall}
    (other : actor ≠ holder) (succeeds : w.perform actor c = .ok w') :
    w'.calledBy holder = w.calledBy holder := by
  cases c with
  | transfer token dst amount =>
      simp [calledBy, (safeTransfer_moved succeeds).transfers, List.filter_append, other]
  | transferFrom token src dst amount =>
      simp [calledBy, (safeTransferFrom_moved succeeds).transfers, List.filter_append, other]
  | approve token spender amount =>
      cases succeeds
      rfl
  | mint token dst amount =>
      cases succeeds
      simp [calledBy, record, List.filter_append, other]
  | burn token amount =>
      obtain ⟨t, -, same⟩ := bind_eq_ok_iff.mp succeeds
      cases same
      rfl

/-- The call brings `holder` an amount of `token`. -/
def TokenCall.Credits (token holder : Address) : TokenCall → Prop
  | .transfer t dst _ => t = token ∧ dst = holder
  | .transferFrom t _ dst _ => t = token ∧ dst = holder
  | .mint t dst _ => t = token ∧ dst = holder
  | _ => False

theorem perform_received {w w' : Ledger} {actor holder token : Address} {c : TokenCall}
    (quiet : ¬ c.Credits token holder) (succeeds : w.perform actor c = .ok w') :
    w'.received holder token = w.received holder token := by
  cases c with
  | transfer t dst amount =>
      have none : (t = token && dst = holder) = false := by simpa [TokenCall.Credits] using quiet
      have grows := (safeTransfer_moved succeeds).total_eq
        fun e => e.operator ≠ holder && e.token = token && e.dst = holder
      simpa [received, Bool.and_assoc, none] using grows
  | transferFrom t src dst amount =>
      have none : (t = token && dst = holder) = false := by simpa [TokenCall.Credits] using quiet
      have grows := (safeTransferFrom_moved succeeds).total_eq
        fun e => e.operator ≠ holder && e.token = token && e.dst = holder
      simpa [received, Bool.and_assoc, none] using grows
  | approve t spender amount =>
      cases succeeds
      rfl
  | mint t dst amount =>
      have none : (t = token && dst = holder) = false := by simpa [TokenCall.Credits] using quiet
      cases succeeds
      simp [received, total, record, List.filter_append, Bool.and_assoc, none]
  | burn t amount =>
      obtain ⟨t', -, same⟩ := bind_eq_ok_iff.mp succeeds
      cases same
      rfl

/-- What another account's token call can do to `holder`, which has approved
nobody: bring it tokens, and nothing else. -/
structure Custody (w w' : Ledger) (holder : Address) : Prop where
  unapproved : w'.Unapproved holder
  balance : ∀ token, w'.balanceOf token holder + w.received holder token =
    w.balanceOf token holder + w'.received holder token
  received_le : ∀ token, w.received holder token ≤ w'.received holder token

theorem Moved.custody {w w' : Ledger} {e : Transfer} {holder : Address}
    (moved : Moved w w' e) (none : w.Unapproved holder) (other : e.operator ≠ holder)
    (free : e.src = holder → e.amount = 0) : Custody w w' holder := by
  have grows : ∀ token, w'.received holder token = w.received holder token +
      if e.token = token ∧ e.dst = holder then e.amount else 0 := by
    intro token
    simpa [received, other] using moved.total_eq
      (fun e => e.operator ≠ holder && e.token = token && e.dst = holder)
  refine ⟨moved.unapproved none, fun token => ?_, fun token => ?_⟩
  · have exact := moved.balance token holder
    rw [grows token]
    simp only [eq_comm (a := token), eq_comm (a := holder)] at exact
    by_cases source : e.src = holder
    · simp [free source] at exact ⊢
      omega
    · simp only [source, and_false, if_false] at exact
      omega
  · rw [grows token]
    exact Nat.le_add_right _ _

/-- A change of one token's state that gives `holder` the `credit` that is recorded. -/
theorem custody_of_update {w w' : Ledger} {holder token : Address} {t : Erc20} (credit : Nat)
    (none : w.Unapproved holder) (erc20 : w'.erc20 = Function.update w.erc20 token t)
    (allowance : ∀ spender, t.allowance holder spender = 0)
    (balance : t.balanceOf holder = (w.erc20 token).balanceOf holder + credit)
    (received : ∀ token', w'.received holder token' =
      w.received holder token' + if token' = token then credit else 0) :
    Custody w w' holder := by
  refine ⟨fun token' spender => ?_, fun token' => ?_, fun token' => ?_⟩
  · rw [Ledger.allowance, erc20]
    by_cases same : token' = token
    · rw [same, Function.update_self]
      exact allowance spender
    · rw [Function.update_of_ne same]
      exact none token' spender
  · rw [Ledger.balanceOf, Ledger.balanceOf, erc20, received token']
    by_cases same : token' = token
    · rw [same, Function.update_self, balance, if_pos rfl]
      omega
    · rw [Function.update_of_ne same, if_neg same, Nat.add_zero]
  · rw [received token']
    exact Nat.le_add_right _ _

/-- **Custody.** An account that has approved nobody keeps what it has, whatever
token calls other accounts make. -/
theorem perform_custody {w w' : Ledger} {actor holder : Address} {c : TokenCall}
    (none : w.Unapproved holder) (other : actor ≠ holder)
    (succeeds : w.perform actor c = .ok w') : Custody w w' holder := by
  cases c with
  | transfer token dst amount =>
      exact (safeTransfer_moved succeeds).custody none other fun source => absurd source other
  | transferFrom token src dst amount =>
      apply (safeTransferFrom_moved succeeds).custody none other
      intro source
      have source : src = holder := source
      have approved := (safeTransferFrom_eq_ok_iff.mp succeeds).1
      rw [source, none token actor] at approved
      exact Nat.le_zero.mp approved
  | approve token spender amount =>
      cases succeeds
      apply custody_of_update 0 none rfl
      · intro spender'
        have entry : ¬ (holder = actor ∧ spender' = spender) := fun h => other h.1.symm
        simp only [Erc20.approve, update₂_of_ne _ _ entry]
        exact none token spender'
      · rfl
      · intro token'
        rw [ite_self]
        rfl
  | mint token dst amount =>
      cases succeeds
      apply custody_of_update (if holder = dst then amount else 0) none rfl
      · exact none token
      · simp only [Erc20.mint, Function.update_apply]
        split
        · rename_i same
          rw [same]
        · rfl
      · intro token'
        simp only [received, total, record, List.filter_append, List.map_append, List.sum_append]
        by_cases same : token = token'
        · by_cases receives : dst = holder <;> simp [other, same, receives, Ne.symm, eq_comm]
        · simp [same, Ne.symm same]
  | burn token amount =>
      simp only [perform, bind_eq_ok_iff, pure_eq_ok_iff] at succeeds
      obtain ⟨t, burned, same⟩ := succeeds
      obtain ⟨_, left⟩ := Erc20.burn_eq_ok_iff.mp burned
      subst same
      subst left
      apply custody_of_update 0 none rfl
      · exact none token
      · exact Function.update_of_ne (Ne.symm other) _ _
      · intro token'
        rw [ite_self]
        rfl

end Ledger

end Evm
