import FeiProtocol.Evm.Loop
import FeiProtocol.Evm.Machine
import FeiProtocol.Math.Listings
import FeiProtocol.Refs.CoreRef
import Mathlib.Algebra.Order.BigOperators.Group.List
import Mathlib.Algebra.Order.Group.Nat

/-!
# `NamedStaticPCVDepositWrapper`

A list of deposits that are reported by hand, with their USD and FEI totals kept beside it.
Deposits are added, edited in place, and removed by moving the last one into the gap.

* `Totalled`: the kept totals are the sums over the list.
* `editDeposit_eq_ok_iff`, `removeDeposit_eq_ok_iff`: where the totals are right, an edit fails
  only if a new total overflows, and a removal not at all.
* `totals_eq_sums`: so they are in every state of every run.
-/

namespace FeiProtocol

open Evm

/-- The source's struct to store info on each PCV deposit. -/
structure DepositInfo : Type where
  depositName : String
  /-- USD equivalent in this deposit, not including FEI value -/
  usdAmount : UInt256
  /-- amount of FEI in this deposit -/
  feiAmount : UInt256
  underlyingTokenAmount : UInt256
  underlyingToken : Address
  deriving DecidableEq, Repr

inductive NamedDepositEvent : Type where
  | BalanceUpdate (oldBalance newBalance oldFEIBalance newFEIBalance : Nat)
  | DepositRemoved (index : Nat)
  | DepositAdded (index : Nat) (depositName : String)
  | DepositChanged (index : Nat) (depositName : String)
  deriving DecidableEq, Repr

structure NamedStaticPCVDepositWrapperState : Type where
  pcvDeposits : List DepositInfo
  balance : Nat
  feiReportBalance : Nat
  CONTRACT_ADMIN_ROLE : Bytes32
  /-- oldest first -/
  events : List NamedDepositEvent
  deriving DecidableEq, Repr

structure NamedStaticPCVDepositWrapperEnv : Type where
  core : Core
  access : AccessControl
  /-- the hash of its name -/
  ORACLE_ADMIN_ROLE : Bytes32

namespace NamedStaticPCVDepositWrapper

open CoreRef

variable (env : NamedStaticPCVDepositWrapperEnv) (s : NamedStaticPCVDepositWrapperState)

/-! ## The contract -/

def _addDeposit (newPCVDeposit : DepositInfo) :
    Except Revert NamedStaticPCVDepositWrapperState := do
  require (0 < newPCVDeposit.feiAmount.toNat ∨ 0 < newPCVDeposit.usdAmount.toNat)
    "NamedStaticPCVDepositWrapper: must supply either fei or usd amount"
  let oldBalance := s.balance
  let oldFEIBalance := s.feiReportBalance
  let balance ← checkedAdd s.balance newPCVDeposit.usdAmount.toNat
  let feiReportBalance ← checkedAdd s.feiReportBalance newPCVDeposit.feiAmount.toNat
  let pcvDeposits := s.pcvDeposits ++ [newPCVDeposit]
  return { s with
    pcvDeposits, balance, feiReportBalance
    events := s.events ++ [.DepositAdded (pcvDeposits.length - 1) newPCVDeposit.depositName,
      .BalanceUpdate oldBalance balance oldFEIBalance feiReportBalance] }

def _editDeposit (index : Nat) (depositName : String)
    (usdAmount feiAmount underlyingTokenAmount : UInt256) (underlyingToken : Address) :
    Except Revert NamedStaticPCVDepositWrapperState := do
  require (index < s.pcvDeposits.length)
    "NamedStaticPCVDepositWrapper: cannot edit index out of bounds"
  let updatePCVDeposit ← element s.pcvDeposits index
  let oldBalance := s.balance
  let oldFEIBalance := s.feiReportBalance
  let otherBalance ← checkedSub oldBalance updatePCVDeposit.usdAmount.toNat
  let newBalance ← checkedAdd otherBalance usdAmount.toNat
  let otherFeiBalance ← checkedSub oldFEIBalance updatePCVDeposit.feiAmount.toNat
  let newFeiReportBalance ← checkedAdd otherFeiBalance feiAmount.toNat
  return { s with
    pcvDeposits := s.pcvDeposits.set index
      { depositName, usdAmount, feiAmount, underlyingTokenAmount, underlyingToken }
    balance := newBalance
    feiReportBalance := newFeiReportBalance
    events := s.events ++ [.DepositChanged index depositName,
      .BalanceUpdate oldBalance newBalance oldFEIBalance newFeiReportBalance] }

/-- The last deposit takes the place of the one at `index`. -/
def moveLast (pcvDeposits : List DepositInfo) (index lastIndex : Nat) :
    Except Revert (List DepositInfo) :=
  if lastIndex ≠ index then do
    let lastvalue ← element pcvDeposits lastIndex
    return pcvDeposits.set index lastvalue
  else return pcvDeposits

def _removeDeposit (index : Nat) : Except Revert NamedStaticPCVDepositWrapperState := do
  require (index < s.pcvDeposits.length)
    "NamedStaticPCVDepositWrapper: cannot remove index out of bounds"
  let pcvDepositToRemove ← element s.pcvDeposits index
  let depositBalance := pcvDepositToRemove.usdAmount.toNat
  let feiDepositBalance := pcvDepositToRemove.feiAmount.toNat
  let oldBalance := s.balance
  let oldFeiReportBalance := s.feiReportBalance
  let lastIndex ← checkedSub s.pcvDeposits.length 1
  let pcvDeposits ← moveLast s.pcvDeposits index lastIndex
  let balance ← checkedSub s.balance depositBalance
  let feiReportBalance ← checkedSub s.feiReportBalance feiDepositBalance
  return { s with
    pcvDeposits := pcvDeposits.dropLast
    balance, feiReportBalance
    events := s.events ++
      [.BalanceUpdate oldBalance balance oldFeiReportBalance feiReportBalance,
        .DepositRemoved index] }

def construct (newPCVDeposits : List DepositInfo) :
    Except Revert NamedStaticPCVDepositWrapperState :=
  newPCVDeposits.foldlM _addDeposit ⟨[], 0, 0, env.ORACLE_ADMIN_ROLE, []⟩

def addDeposit (msgSender : Address) (newPCVDeposit : DepositInfo) :
    Except Revert NamedStaticPCVDepositWrapperState := do
  onlyGovernorOrAdmin env.core env.access s.CONTRACT_ADMIN_ROLE msgSender
  _addDeposit s newPCVDeposit

def bulkAddDeposits (msgSender : Address) (newPCVDeposits : List DepositInfo) :
    Except Revert NamedStaticPCVDepositWrapperState := do
  onlyGovernorOrAdmin env.core env.access s.CONTRACT_ADMIN_ROLE msgSender
  newPCVDeposits.foldlM _addDeposit s

def removeDeposit (msgSender : Address) (index : Nat) :
    Except Revert NamedStaticPCVDepositWrapperState := do
  isGovernorOrGuardianOrAdmin env.core env.access s.CONTRACT_ADMIN_ROLE msgSender
  _removeDeposit s index

def editDeposit (msgSender : Address) (index : Nat)
    (usdAmount feiAmount underlyingTokenAmount : UInt256) (depositName : String)
    (underlying : Address) : Except Revert NamedStaticPCVDepositWrapperState := do
  onlyGovernorOrAdmin env.core env.access s.CONTRACT_ADMIN_ROLE msgSender
  _editDeposit s index depositName usdAmount feiAmount underlyingTokenAmount underlying

def setContractAdminRole (msgSender : Address) (newContractAdminRole : Bytes32) :
    Except Revert NamedStaticPCVDepositWrapperState := do
  onlyGovernor env.core msgSender
  return { s with CONTRACT_ADMIN_ROLE := newContractAdminRole }

def resistantBalanceAndFei : Nat × Nat := (s.balance, s.feiReportBalance)

/-! ## Transactions -/

inductive Action : Type where
  | addDeposit (sender : Address) (newPCVDeposit : DepositInfo)
  | bulkAddDeposits (sender : Address) (newPCVDeposits : List DepositInfo)
  | removeDeposit (sender : Address) (index : UInt256)
  | editDeposit (sender : Address) (index usdAmount feiAmount underlyingTokenAmount : UInt256)
      (depositName : String) (underlying : Address)
  | setContractAdminRole (sender : Address) (newContractAdminRole : Bytes32)
  deriving DecidableEq, Repr

def step : Action → Except Revert NamedStaticPCVDepositWrapperState
  | .addDeposit sender newPCVDeposit => addDeposit env s sender newPCVDeposit
  | .bulkAddDeposits sender newPCVDeposits => bulkAddDeposits env s sender newPCVDeposits
  | .removeDeposit sender index => removeDeposit env s sender index.toNat
  | .editDeposit sender index usdAmount feiAmount underlyingTokenAmount depositName underlying =>
      editDeposit env s sender index.toNat usdAmount feiAmount underlyingTokenAmount depositName
        underlying
  | .setContractAdminRole sender newContractAdminRole =>
      setContractAdminRole env s sender newContractAdminRole

/-! ## Totals -/

def usdTotal (deposits : List DepositInfo) : Nat :=
  (deposits.map fun d => d.usdAmount.toNat).sum

def feiTotal (deposits : List DepositInfo) : Nat :=
  (deposits.map fun d => d.feiAmount.toNat).sum

/-- The kept totals are those of the list, and fit a word. -/
structure Totalled (s : NamedStaticPCVDepositWrapperState) : Prop where
  balance : s.balance = usdTotal s.pcvDeposits
  feiReportBalance : s.feiReportBalance = feiTotal s.pcvDeposits
  balance_lt : s.balance < 2 ^ 256
  feiReportBalance_lt : s.feiReportBalance < 2 ^ 256

variable {env s} {s' : NamedStaticPCVDepositWrapperState} {deposits : List DepositInfo}
  {sender : Address} {index : Nat}

theorem totals_perm {deposits' : List DepositInfo} (perm : deposits.Perm deposits') :
    usdTotal deposits = usdTotal deposits' ∧ feiTotal deposits = feiTotal deposits' :=
  ⟨(perm.map _).sum_eq, (perm.map _).sum_eq⟩

/-- No subtraction of a deposit from the totals underflows. -/
theorem Totalled.le (totalled : Totalled s) {d : DepositInfo} (mem : d ∈ s.pcvDeposits) :
    d.usdAmount.toNat ≤ s.balance ∧ d.feiAmount.toNat ≤ s.feiReportBalance := by
  rw [totalled.balance, totalled.feiReportBalance]
  exact ⟨List.le_sum_of_mem (List.mem_map_of_mem mem), List.le_sum_of_mem (List.mem_map_of_mem mem)⟩

theorem totalled_of_addDeposit {d : DepositInfo} (totalled : Totalled s)
    (succeeds : _addDeposit s d = .ok s') : Totalled s' := by
  simp only [_addDeposit, bind_eq_ok_iff, pure_eq_ok_iff, checkedAdd_eq_ok_iff] at succeeds
  obtain ⟨_, _, _, ⟨fits, usd⟩, _, ⟨fits', fei⟩, same⟩ := succeeds
  subst usd
  subst fei
  subst same
  refine ⟨?_, ?_, fits, fits'⟩
  · simp [usdTotal, totalled.balance]
  · simp [feiTotal, totalled.feiReportBalance]

/-- The state after entry `index` became `d`. -/
def edited (s : NamedStaticPCVDepositWrapperState) (index : Nat) (d : DepositInfo) :
    NamedStaticPCVDepositWrapperState :=
  let pcvDeposits := s.pcvDeposits.set index d
  { s with
    pcvDeposits
    balance := usdTotal pcvDeposits
    feiReportBalance := feiTotal pcvDeposits
    events := s.events ++ [.DepositChanged index d.depositName,
      .BalanceUpdate s.balance (usdTotal pcvDeposits) s.feiReportBalance
        (feiTotal pcvDeposits)] }

/-- An edit fails only if a new total overflows. -/
theorem editDeposit_eq_ok_iff (totalled : Totalled s) {d : DepositInfo} :
    _editDeposit s index d.depositName d.usdAmount d.feiAmount d.underlyingTokenAmount
        d.underlyingToken = .ok s' ↔
      index < s.pcvDeposits.length ∧ usdTotal (s.pcvDeposits.set index d) < 2 ^ 256 ∧
        feiTotal (s.pcvDeposits.set index d) < 2 ^ 256 ∧ edited s index d = s' := by
  simp only [_editDeposit, bind_eq_ok_iff, pure_eq_ok_iff, require_eq_ok_iff,
    element_eq_ok_iff, checkedSub_eq_ok_iff, checkedAdd_eq_ok_iff]
  by_cases inside : index < s.pcvDeposits.length
  · have usd := Listings.sum_set (fun d : DepositInfo => d.usdAmount.toNat) inside d
    have fei := Listings.sum_set (fun d : DepositInfo => d.feiAmount.toNat) inside d
    obtain ⟨usdLe, feiLe⟩ := totalled.le (List.getElem_mem inside)
    have balance := totalled.balance
    have feiReportBalance := totalled.feiReportBalance
    have usdTotal_eq : s.balance - s.pcvDeposits[index].usdAmount.toNat + d.usdAmount.toNat =
        usdTotal (s.pcvDeposits.set index d) := by
      unfold usdTotal at balance ⊢
      omega
    have feiTotal_eq : s.feiReportBalance - s.pcvDeposits[index].feiAmount.toNat +
        d.feiAmount.toNat = feiTotal (s.pcvDeposits.set index d) := by
      unfold feiTotal at feiReportBalance ⊢
      omega
    constructor
    · intro given
      rcases given with ⟨_, _, old, found, _, ⟨_, other⟩, _, ⟨fits, usd'⟩, _, ⟨_, other'⟩, _,
        ⟨fits', fei'⟩, same⟩
      rw [List.getElem?_eq_getElem inside, Option.some.injEq] at found
      subst found
      subst other
      subst other'
      subst usd'
      subst fei'
      rw [usdTotal_eq] at fits same
      rw [feiTotal_eq] at fits' same
      exact ⟨inside, fits, fits', same⟩
    · intro given
      rcases given with ⟨_, fits, fits', same⟩
      exact ⟨(), inside, _, List.getElem?_eq_getElem inside, _, ⟨usdLe, rfl⟩, _,
        ⟨usdTotal_eq.symm ▸ fits, usdTotal_eq⟩, _, ⟨feiLe, rfl⟩, _,
        ⟨feiTotal_eq.symm ▸ fits', feiTotal_eq⟩, same⟩
  · constructor
    · intro given
      rcases given with ⟨_, inside', _⟩
      exact absurd inside' inside
    · intro given
      rcases given with ⟨inside', _⟩
      exact absurd inside' inside

/-- The deposits without the one at `index`. -/
def without (deposits : List DepositInfo) (index : Nat) : List DepositInfo :=
  match deposits[deposits.length - 1]? with
  | some lastvalue => Listings.fillGap deposits index lastvalue
  | none => deposits

theorem exists_last (inside : index < deposits.length) :
    ∃ last, deposits[deposits.length - 1]? = some last :=
  ⟨_, List.getElem?_eq_getElem (Nat.sub_one_lt_of_lt inside)⟩

theorem without_perm (inside : index < deposits.length) :
    (without deposits index).Perm (deposits.eraseIdx index) := by
  obtain ⟨last, isLast⟩ := exists_last inside
  rw [without, isLast]
  exact Listings.fillGap_perm inside isLast

theorem exists_moveLast (inside : index < deposits.length) :
    ∃ moved, moveLast deposits index (deposits.length - 1) = .ok moved ∧
      moved.dropLast = without deposits index := by
  obtain ⟨last, isLast⟩ := exists_last inside
  simp only [moveLast, without, isLast, element_eq_ok_iff.mpr isLast, Listings.fillGap]
  split
  · exact ⟨_, rfl, rfl⟩
  · exact ⟨_, rfl, rfl⟩

/-- The state after entry `index` was removed. -/
def removed (s : NamedStaticPCVDepositWrapperState) (index : Nat) :
    NamedStaticPCVDepositWrapperState :=
  let pcvDeposits := without s.pcvDeposits index
  { s with
    pcvDeposits
    balance := usdTotal pcvDeposits
    feiReportBalance := feiTotal pcvDeposits
    events := s.events ++
      [.BalanceUpdate s.balance (usdTotal pcvDeposits) s.feiReportBalance (feiTotal pcvDeposits),
        .DepositRemoved index] }

/-- A removal of an existing entry does not fail. -/
theorem removeDeposit_eq_ok_iff (totalled : Totalled s) :
    _removeDeposit s index = .ok s' ↔ index < s.pcvDeposits.length ∧ removed s index = s' := by
  simp only [_removeDeposit, bind_eq_ok_iff, pure_eq_ok_iff, require_eq_ok_iff,
    element_eq_ok_iff, checkedSub_eq_ok_iff]
  by_cases inside : index < s.pcvDeposits.length
  · obtain ⟨usdLe, feiLe⟩ := totalled.le (List.getElem_mem inside)
    obtain ⟨moved, moves, list⟩ := exists_moveLast inside
    obtain ⟨usdPerm, feiPerm⟩ := totals_perm (without_perm inside)
    have usd := Listings.sum_eraseIdx (fun d : DepositInfo => d.usdAmount.toNat) inside
    have fei := Listings.sum_eraseIdx (fun d : DepositInfo => d.feiAmount.toNat) inside
    have balance := totalled.balance
    have feiReportBalance := totalled.feiReportBalance
    have usdTotal_eq : s.balance - s.pcvDeposits[index].usdAmount.toNat =
        usdTotal (without s.pcvDeposits index) := by
      rw [usdPerm]
      unfold usdTotal at balance ⊢
      omega
    have feiTotal_eq : s.feiReportBalance - s.pcvDeposits[index].feiAmount.toNat =
        feiTotal (without s.pcvDeposits index) := by
      rw [feiPerm]
      unfold feiTotal at feiReportBalance ⊢
      omega
    constructor
    · intro given
      rcases given with ⟨_, _, old, found, _, ⟨_, last⟩, moved', moves', _, ⟨_, usd'⟩, _, ⟨_, fei'⟩,
        same⟩
      rw [List.getElem?_eq_getElem inside, Option.some.injEq] at found
      subst found
      subst last
      rw [moves, Except.ok.injEq] at moves'
      subst moves'
      rw [usdTotal_eq] at usd'
      rw [feiTotal_eq] at fei'
      subst usd'
      subst fei'
      rw [list] at same
      exact ⟨inside, same⟩
    · intro given
      rcases given with ⟨_, same⟩
      refine ⟨(), inside, _, List.getElem?_eq_getElem inside, _, ⟨by omega, rfl⟩, moved, moves, _,
        ⟨usdLe, usdTotal_eq⟩, _, ⟨feiLe, feiTotal_eq⟩, ?_⟩
      rw [list]
      exact same
  · constructor
    · intro given
      rcases given with ⟨_, inside', _⟩
      exact absurd inside' inside
    · intro given
      rcases given with ⟨inside', _⟩
      exact absurd inside' inside

theorem totalled_of_construct {newPCVDeposits : List DepositInfo}
    (deployed : construct env newPCVDeposits = .ok s) : Totalled s :=
  foldlM_invariant (fun totalled _ adds => totalled_of_addDeposit totalled adds)
    ⟨rfl, rfl, Nat.two_pow_pos 256, Nat.two_pow_pos 256⟩ deployed

theorem totalled_of_step {a : Action} (totalled : Totalled s) (succeeds : step env s a = .ok s') :
    Totalled s' := by
  cases a with
  | addDeposit sender newPCVDeposit =>
      obtain ⟨_, _, adds⟩ := bind_eq_ok_iff.mp succeeds
      exact totalled_of_addDeposit totalled adds
  | bulkAddDeposits sender newPCVDeposits =>
      obtain ⟨_, _, adds⟩ := bind_eq_ok_iff.mp succeeds
      exact foldlM_invariant (fun totalled _ adds => totalled_of_addDeposit totalled adds)
        totalled adds
  | removeDeposit sender index =>
      obtain ⟨_, _, removes⟩ := bind_eq_ok_iff.mp succeeds
      obtain ⟨inside, same⟩ := (removeDeposit_eq_ok_iff totalled).mp removes
      obtain ⟨usd, fei⟩ := totals_perm (without_perm inside)
      have whole := Listings.sum_eraseIdx (fun d : DepositInfo => d.usdAmount.toNat) inside
      have whole' := Listings.sum_eraseIdx (fun d : DepositInfo => d.feiAmount.toNat) inside
      have balance := totalled.balance
      have feiReportBalance := totalled.feiReportBalance
      have fits := totalled.balance_lt
      have fits' := totalled.feiReportBalance_lt
      subst same
      refine ⟨rfl, rfl, ?_, ?_⟩
      · simp only [removed, usd]
        unfold usdTotal at balance ⊢
        omega
      · simp only [removed, fei]
        unfold feiTotal at feiReportBalance ⊢
        omega
  | editDeposit sender index usdAmount feiAmount underlyingTokenAmount depositName underlying =>
      obtain ⟨_, _, edits⟩ := bind_eq_ok_iff.mp succeeds
      obtain ⟨_, fits, fits', same⟩ := (editDeposit_eq_ok_iff totalled (d := ⟨depositName,
        usdAmount, feiAmount, underlyingTokenAmount, underlying⟩)).mp edits
      subst same
      exact ⟨rfl, rfl, fits, fits'⟩
  | setContractAdminRole sender newContractAdminRole =>
      obtain ⟨_, _, same⟩ := bind_eq_ok_iff.mp succeeds
      cases same
      exact ⟨totalled.balance, totalled.feiReportBalance, totalled.balance_lt,
        totalled.feiReportBalance_lt⟩

/-! ## Every run -/

/-- **Totals.** In every state the totals are the sums over the list and cover each of its
entries. A removal takes out its entry and no other, and fails for an existing entry only without
the role. An edit fails besides only if a new total overflows. -/
theorem totals_eq_sums {newPCVDeposits : List DepositInfo}
    (deployed : construct env newPCVDeposits = .ok s) {actions : List Action}
    (reached : run (step env) s actions = s') :
    resistantBalanceAndFei s' = (usdTotal s'.pcvDeposits, feiTotal s'.pcvDeposits) ∧
    (∀ d ∈ s'.pcvDeposits,
      d.usdAmount.toNat ≤ s'.balance ∧ d.feiAmount.toNat ≤ s'.feiReportBalance) ∧
    (∀ sender (index : UInt256) t, step env s' (.removeDeposit sender index) = .ok t →
      index.toNat < s'.pcvDeposits.length ∧
        t.pcvDeposits.Perm (s'.pcvDeposits.eraseIdx index.toNat)) ∧
    (∀ sender (index : UInt256), (env.core.isGovernor sender || env.core.isGuardian sender ||
        env.access.hasRole s'.CONTRACT_ADMIN_ROLE sender) = true →
      index.toNat < s'.pcvDeposits.length →
      ∃ t, step env s' (.removeDeposit sender index) = .ok t) ∧
    ∀ sender (index usdAmount feiAmount underlyingTokenAmount : UInt256) depositName underlying,
      (env.core.isGovernor sender || env.access.hasRole s'.CONTRACT_ADMIN_ROLE sender) = true →
      index.toNat < s'.pcvDeposits.length →
      let pcvDeposits := s'.pcvDeposits.set index.toNat
        ⟨depositName, usdAmount, feiAmount, underlyingTokenAmount, underlying⟩
      usdTotal pcvDeposits < 2 ^ 256 → feiTotal pcvDeposits < 2 ^ 256 →
      ∃ t, step env s' (.editDeposit sender index usdAmount feiAmount underlyingTokenAmount
        depositName underlying) = .ok t ∧ t.pcvDeposits = pcvDeposits := by
  have totalled : Totalled s' := reached ▸ run_invariant
    (fun totalled _ succeeds => totalled_of_step totalled succeeds)
    (totalled_of_construct deployed) fun a _ => trivial
  refine ⟨Prod.ext totalled.balance totalled.feiReportBalance, fun d mem => totalled.le mem,
    ?_, ?_, ?_⟩
  · intro sender index t removes
    obtain ⟨_, _, removes⟩ := bind_eq_ok_iff.mp removes
    obtain ⟨inside, same⟩ := (removeDeposit_eq_ok_iff totalled).mp removes
    subst same
    exact ⟨inside, without_perm inside⟩
  · intro sender index authorised inside
    refine ⟨removed s' index.toNat, bind_eq_ok_iff.mpr ⟨(), ?_, ?_⟩⟩
    · exact require_eq_ok_iff.mpr authorised
    · exact (removeDeposit_eq_ok_iff totalled).mpr ⟨inside, rfl⟩
  · intro sender index usdAmount feiAmount underlyingTokenAmount depositName underlying
      authorised inside pcvDeposits fits fits'
    refine ⟨edited s' index.toNat ⟨depositName, usdAmount, feiAmount, underlyingTokenAmount,
      underlying⟩, bind_eq_ok_iff.mpr ⟨(), ?_, ?_⟩, rfl⟩
    · exact require_eq_ok_iff.mpr authorised
    · exact (editDeposit_eq_ok_iff totalled).mpr ⟨inside, fits, fits', rfl⟩

end NamedStaticPCVDepositWrapper

namespace NamedStaticPCVDepositWrapper.Sample

/-- Account 9 governs and account 8 guards. -/
def env : NamedStaticPCVDepositWrapperEnv where
  core := ⟨fun _ => false, fun _ => false, fun _ => false, fun a => a = 9, fun a => a = 8⟩
  access := ⟨fun _ _ => false, ⟨1, 2, 3, 4⟩⟩
  ORACLE_ADMIN_ROLE := 5

def deposit (depositName : String) (usdAmount feiAmount : UInt256) : DepositInfo where
  depositName
  usdAmount
  feiAmount
  underlyingTokenAmount := 1
  underlyingToken := 0xAB

/-- The guardian removes the first of four deposits, after the third was edited. -/
def history : List Action :=
  [.bulkAddDeposits 9 [deposit "c" 30 3, deposit "d" 40 0], .editDeposit 9 2 35 0 1 "e" 0xAB,
    .addDeposit 7 (deposit "f" 1 1), .removeDeposit 8 0]

theorem totals_eq_sums_sample : ∃ s s', construct env [deposit "a" 10 1, deposit "b" 20 2] = .ok s ∧
    run (step env) s history = s' ∧ resistantBalanceAndFei s' = (95, 2) ∧
    ∃ t, step env s' (.removeDeposit 9 2) = .ok t := by
  obtain ⟨s, deploys⟩ := exists_ok_of_isOk
    (x := construct env [deposit "a" 10 1, deposit "b" 20 2]) (by decide)
  have reached : run (step env) s history = run (step env) s history := rfl
  obtain ⟨totals, _, _, removes, _⟩ := totals_eq_sums deploys reached
  have final : (construct env [deposit "a" 10 1, deposit "b" 20 2]).map
      (fun s => (run (step env) s history).pcvDeposits) =
    .ok [deposit "d" 40 0, deposit "b" 20 2, deposit "e" 35 0] := by decide
  rw [deploys] at final
  have list : (run (step env) s history).pcvDeposits =
    [deposit "d" 40 0, deposit "b" 20 2, deposit "e" 35 0] := Except.ok.inj final
  rw [list] at totals removes
  exact ⟨s, _, deploys, rfl, totals.trans (by decide),
    removes 9 2 rfl (by decide)⟩

end NamedStaticPCVDepositWrapper.Sample

end FeiProtocol
