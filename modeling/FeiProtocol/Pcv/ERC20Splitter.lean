import FeiProtocol.Evm.Ledger
import FeiProtocol.Evm.Loop
import FeiProtocol.Evm.Machine
import FeiProtocol.Math.FloorDiv
import FeiProtocol.Math.Listings
import FeiProtocol.Refs.Constants
import FeiProtocol.Refs.CoreRef

/-!
# `ERC20Splitter`

Splits the whole balance of a token among a list of deposits by ratios in basis points. The
ratios are checked when they are set, to add up to the whole; the loop that pays rounds each
share down.

* `Paid`: what the loop has done after some of the entries.
* `allocate_pays`: what a deposit gets, that the balance covers every transfer of the loop, and
  how little stays behind; the allocation of every reachable state is one that it is about.
-/

namespace FeiProtocol

open Evm

inductive SplitterEvent : Type where
  | AllocationUpdate (oldPCVDeposits : List Address) (oldRatios : List UInt256)
      (newPCVDeposits : List Address) (newRatios : List UInt256)
  | Allocate (caller : Address) (amount : Nat)
  deriving DecidableEq, Repr

/-- The allocation of `PCVSplitter`, and the token. -/
structure ERC20SplitterState : Type where
  ratios : List UInt256
  pcvDeposits : List Address
  token : Address
  CONTRACT_ADMIN_ROLE : Bytes32
  _paused : Bool
  /-- the token's own state -/
  erc20 : Erc20
  /-- oldest first -/
  events : List SplitterEvent

instance : Pausable ERC20SplitterState where
  paused s := s._paused
  withPaused s b := { s with _paused := b }

/-- A token whose transfers, where they succeed, move what they are asked to. -/
structure ExactToken : Type where
  transfer : Erc20 → Address → Address → Nat → Except Revert Erc20
  exact : ∀ {t t' src dst amount}, transfer t src dst amount = .ok t' →
    t.transfer src dst amount = .ok t'

structure ERC20SplitterEnv : Type where
  core : Core
  access : AccessControl
  erc20 : ExactToken
  this : Address

namespace PCVSplitter

open Constants CoreRef

variable (env : ERC20SplitterEnv) (s : ERC20SplitterState)

/-! ## The splitter that it extends -/

def checkAllocation (_pcvDeposits : List Address) (_ratios : List UInt256) :
    Except Revert Unit := do
  require (_pcvDeposits.length = _ratios.length)
    "PCVSplitter: PCV Deposits and ratios are different lengths"
  let total ← _ratios.foldlM (fun total ratio => checkedAdd total ratio.toNat) 0
  require (total = BASIS_POINTS_GRANULARITY) "PCVSplitter: ratios do not total 100%"

def _setAllocation (_pcvDeposits : List Address) (_ratios : List UInt256) :
    Except Revert ERC20SplitterState := do
  let _oldPCVDeposits := s.pcvDeposits
  let _oldRatios := s.ratios
  checkAllocation _pcvDeposits _ratios
  return { s with
    pcvDeposits := _pcvDeposits
    ratios := _ratios
    events := s.events ++
      [.AllocationUpdate _oldPCVDeposits _oldRatios _pcvDeposits _ratios] }

def setAllocation (msgSender : Address) (_allocations : List Address) (_ratios : List UInt256) :
    Except Revert ERC20SplitterState := do
  onlyGovernorOrAdmin env.core env.access s.CONTRACT_ADMIN_ROLE msgSender
  _setAllocation s _allocations _ratios

/-- The override of `ERC20Splitter` -/
def _allocateSingle (amount : Nat) (pcvDeposit : Address) :
    Except Revert ERC20SplitterState := do
  let erc20 ← env.erc20.transfer s.erc20 env.this pcvDeposit amount
  return { s with erc20 }

/-- One iteration of the loop of `_allocate` -/
def allocateEntry (total : Nat) (s : ERC20SplitterState) (i : Nat) :
    Except Revert ERC20SplitterState := do
  let ratio ← element s.ratios i
  let scaled ← checkedMul total ratio.toNat
  let amount ← checkedDiv scaled BASIS_POINTS_GRANULARITY
  let pcvDeposit ← element s.pcvDeposits i
  _allocateSingle env s amount pcvDeposit

def _allocate (msgSender : Address) (total : Nat) : Except Revert ERC20SplitterState := do
  let s ← (List.range s.ratios.length).foldlM (allocateEntry env total) s
  return { s with events := s.events ++ [.Allocate msgSender total] }

end PCVSplitter

namespace ERC20Splitter

open Constants CoreRef PCVSplitter

variable (env : ERC20SplitterEnv) (s : ERC20SplitterState)

/-! ## The contract -/

def construct (erc20 : Erc20) (_token : Address) (_pcvDeposits : List Address)
    (_ratios : List UInt256) : Except Revert ERC20SplitterState := do
  let s : ERC20SplitterState := ⟨[], [], 0, env.access.roles.GOVERNOR, false, erc20, []⟩
  let s ← _setAllocation s _pcvDeposits _ratios
  return { s with token := _token }

def allocate (msgSender : Address) : Except Revert ERC20SplitterState := do
  whenNotPaused s
  _allocate env s msgSender (s.erc20.balanceOf env.this)

def setContractAdminRole (msgSender : Address) (newContractAdminRole : Bytes32) :
    Except Revert ERC20SplitterState := do
  onlyGovernor env.core msgSender
  return { s with CONTRACT_ADMIN_ROLE := newContractAdminRole }

/-! ## Transactions -/

/-- `erc20` is what others' calls make of the token. -/
inductive Action : Type where
  | allocate (sender : Address)
  | setAllocation (sender : Address) (_allocations : List Address) (_ratios : List UInt256)
  | setContractAdminRole (sender : Address) (newContractAdminRole : Bytes32)
  | pause (sender : Address)
  | unpause (sender : Address)
  | erc20 (erc20 : Erc20)

def step : Action → Except Revert ERC20SplitterState
  | .allocate sender => allocate env s sender
  | .setAllocation sender _allocations _ratios => setAllocation env s sender _allocations _ratios
  | .setContractAdminRole sender newContractAdminRole =>
      setContractAdminRole env s sender newContractAdminRole
  | .pause sender => pause env.core s sender
  | .unpause sender => unpause env.core s sender
  | .erc20 erc20 => .ok { s with erc20 }

/-! ## Shares -/

/-- The ratio of entry `i`, none beyond the last. -/
def ratioAt (ratios : List UInt256) (i : Nat) : Nat := (ratios.map BitVec.toNat).getD i 0

/-- The share of entry `i`, rounded down. -/
def share (ratios : List UInt256) (total i : Nat) : Nat :=
  total * ratioAt ratios i / BASIS_POINTS_GRANULARITY

/-- The shares of the first `k` entries that name `account`. -/
def paidTo (s : ERC20SplitterState) (total k : Nat) (account : Address) : Nat :=
  ∑ i ∈ Finset.range k,
    if s.pcvDeposits[i]? = some account then share s.ratios total i else 0

variable {env s} {s' m m' : ERC20SplitterState} {sender : Address} {total k : Nat}

theorem checkAllocation_eq_ok_iff {_pcvDeposits : List Address} {_ratios : List UInt256}
    {u : Unit} : checkAllocation _pcvDeposits _ratios = .ok u ↔
      _pcvDeposits.length = _ratios.length ∧
        (_ratios.map BitVec.toNat).sum = BASIS_POINTS_GRANULARITY := by
  have adds : ∀ total, _ratios.foldlM (fun total ratio => checkedAdd total ratio.toNat) 0 =
      .ok total ↔ (_ratios.map BitVec.toNat).sum < 2 ^ 256 ∧
        (_ratios.map BitVec.toNat).sum = total := by
    intro total
    rw [foldlM_accumulate (P := fun _ => True) (· < 2 ^ 256) (fun n ratio => n + ratio.toNat)
      (fun n ratio n' _ => by rw [checkedAdd_eq_ok_iff, true_and])
      (fun n ratio fits => Nat.lt_of_le_of_lt (Nat.le_add_right _ _) fits)
      (Nat.two_pow_pos 256), List.sum_eq_foldl, List.foldl_map]
    simp only [implies_true, true_and]
  simp only [checkAllocation, bind_eq_ok_iff, require_eq_ok_iff, adds, exists_const]
  constructor
  · intro given
    rcases given with ⟨lengths, _, ⟨_, same⟩, whole⟩
    exact ⟨lengths, same.trans whole⟩
  · intro given
    rcases given with ⟨lengths, whole⟩
    exact ⟨lengths, _, ⟨whole ▸ by decide, rfl⟩, whole⟩

/-- What the loop has done after `k` entries. -/
structure Paid (env : ERC20SplitterEnv) (s : ERC20SplitterState) (total k : Nat)
    (m : ERC20SplitterState) : Prop where
  frame : m = { s with erc20 := m.erc20 }
  left : m.erc20.balanceOf env.this + ∑ i ∈ Finset.range k, share s.ratios total i =
    s.erc20.balanceOf env.this
  others : ∀ account, account ≠ env.this →
    m.erc20.balanceOf account = s.erc20.balanceOf account + paidTo s total k account

theorem paid_zero : Paid env s total 0 s :=
  ⟨rfl, rfl, fun _ _ => rfl⟩

/-- One more entry. -/
theorem Paid.next (paid : Paid env s total k m) (elsewhere : ∀ d ∈ s.pcvDeposits, d ≠ env.this)
    (succeeds : allocateEntry env total m k = .ok m') : Paid env s total (k + 1) m' := by
  simp only [allocateEntry, _allocateSingle, bind_eq_ok_iff, pure_eq_ok_iff, element_eq_ok_iff,
    checkedMul_eq_ok_iff, checkedDiv_eq_ok_iff] at succeeds
  obtain ⟨ratio, found, _, ⟨_, scaled⟩, amount, ⟨_, rounded⟩, pcvDeposit, listed, erc20, transfers,
    same⟩ := succeeds
  have frame := paid.frame
  rw [frame] at found listed
  subst scaled
  have value : ratioAt s.ratios k = ratio.toNat := by
    simp [ratioAt, List.getD_eq_getElem?_getD, found]
  have amount_eq : share s.ratios total k = amount := by rw [share, value, rounded]
  obtain ⟨covered, moves⟩ := Erc20.transfer_eq_ok_iff.mp (env.erc20.exact transfers)
  have other := elsewhere pcvDeposit (List.mem_of_getElem? listed)
  subst same
  subst moves
  have balances := fun account => Erc20.move_balanceOf covered pcvDeposit account
  refine ⟨?_, ?_, fun account notThis => ?_⟩
  · rw [frame]
  · have here := balances env.this
    rw [if_pos rfl, if_neg other.symm] at here
    have left := paid.left
    rw [Finset.sum_range_succ, amount_eq]
    dsimp only at here ⊢
    omega
  · have here := balances account
    rw [if_neg notThis] at here
    have before := paid.others account notThis
    rw [paidTo, Finset.sum_range_succ, ← paidTo, listed, amount_eq]
    simp only [Option.some.injEq, eq_comm (a := pcvDeposit)]
    omega

theorem sum_ratioAt (accepted : checkAllocation s.pcvDeposits s.ratios = .ok ()) :
    ∑ i ∈ Finset.range s.ratios.length, ratioAt s.ratios i = BASIS_POINTS_GRANULARITY := by
  have entries := Listings.sum_getD (s.ratios.map BitVec.toNat)
  rw [List.length_map] at entries
  exact entries.trans (checkAllocation_eq_ok_iff.mp accepted).2

/-- The shares, each rounded down, make up the total but for less than one unit for each cut. -/
theorem sum_share (accepted : checkAllocation s.pcvDeposits s.ratios = .ok ()) (total : Nat) :
    ∑ i ∈ Finset.range s.ratios.length, share s.ratios total i ≤ total ∧
      total ≤ ∑ i ∈ Finset.range s.ratios.length, share s.ratios total i +
        (s.ratios.length - 1) := by
  let parts := (List.range s.ratios.length).map fun i => total * ratioAt s.ratios i
  have whole : parts.sum = total * BASIS_POINTS_GRANULARITY := by
    rw [← sum_ratioAt accepted, Finset.mul_sum]
    rfl
  have rounded : (parts.map (· / BASIS_POINTS_GRANULARITY)).sum =
      ∑ i ∈ Finset.range s.ratios.length, share s.ratios total i := by
    rw [List.map_map]
    rfl
  have lower := FloorDiv.sum_div_le parts BASIS_POINTS_GRANULARITY
  have upper := FloorDiv.div_sum_le parts BASIS_POINTS_GRANULARITY
  rw [whole, rounded, Nat.mul_div_cancel _ (by decide)] at lower upper
  refine ⟨lower, ?_⟩
  have length : parts.length = s.ratios.length := by simp [parts]
  rwa [length] at upper

/-- The balance covers the next transfer. -/
theorem Paid.covered (paid : Paid env s (s.erc20.balanceOf env.this) k m)
    (accepted : checkAllocation s.pcvDeposits s.ratios = .ok ()) (more : k < s.ratios.length) :
    share s.ratios (s.erc20.balanceOf env.this) k ≤ m.erc20.balanceOf env.this := by
  have first := Finset.sum_le_sum_of_subset
    (f := fun i => share s.ratios (s.erc20.balanceOf env.this) i)
    (Finset.range_subset_range.mpr (Nat.succ_le_of_lt more))
  have all := (sum_share accepted (s.erc20.balanceOf env.this)).1
  have left := paid.left
  rw [Finset.sum_range_succ] at first
  omega

/-- The token accepts every transfer from the splitter to a deposit that the balance covers. -/
def Accepts (env : ERC20SplitterEnv) (s : ERC20SplitterState) : Prop :=
  ∀ t d amount, d ∈ s.pcvDeposits → amount ≤ t.balanceOf env.this →
    ∃ t', env.erc20.transfer t env.this d amount = .ok t'

theorem Paid.next_succeeds (paid : Paid env s (s.erc20.balanceOf env.this) k m)
    (accepted : checkAllocation s.pcvDeposits s.ratios = .ok ())
    (fits : BASIS_POINTS_GRANULARITY * s.erc20.balanceOf env.this < 2 ^ 256)
    (accepts : Accepts env s) (more : k < s.ratios.length) :
    ∃ m', allocateEntry env (s.erc20.balanceOf env.this) m k = .ok m' := by
  obtain ⟨lengths, _⟩ := checkAllocation_eq_ok_iff.mp accepted
  have found : s.ratios[k]? = some s.ratios[k] := List.getElem?_eq_getElem more
  have more' : k < s.pcvDeposits.length := lengths ▸ more
  have listed : s.pcvDeposits[k]? = some s.pcvDeposits[k] := List.getElem?_eq_getElem more'
  have value : ratioAt s.ratios k = s.ratios[k].toNat := by
    simp [ratioAt, List.getD_eq_getElem?_getD, found]
  have part : ratioAt s.ratios k ≤ BASIS_POINTS_GRANULARITY := by
    rw [← sum_ratioAt accepted]
    exact Finset.single_le_sum (fun _ _ => Nat.zero_le _) (Finset.mem_range.mpr more)
  have scales : s.erc20.balanceOf env.this * s.ratios[k].toNat < 2 ^ 256 := by
    rw [← value]
    refine Nat.lt_of_le_of_lt ?_ fits
    rw [Nat.mul_comm]
    exact Nat.mul_le_mul_right _ part
  have covered := paid.covered accepted more
  rw [share, value] at covered
  obtain ⟨t', transfers⟩ := accepts m.erc20 _ _ (List.getElem_mem _) covered
  have frame := paid.frame
  simp only [allocateEntry, _allocateSingle, bind_eq_ok_iff, pure_eq_ok_iff, element_eq_ok_iff,
    checkedMul_eq_ok_iff, checkedDiv_eq_ok_iff]
  rw [frame]
  exact ⟨_, _, found, _, ⟨scales, rfl⟩, _, ⟨by decide, rfl⟩, _, listed, t', transfers, rfl⟩

/-! ## Reachable allocations -/

theorem accepted_of_setAllocation {_pcvDeposits : List Address} {_ratios : List UInt256}
    (succeeds : _setAllocation s _pcvDeposits _ratios = .ok s') :
    checkAllocation s'.pcvDeposits s'.ratios = .ok () := by
  obtain ⟨_, accepted, same⟩ := bind_eq_ok_iff.mp succeeds
  cases same
  exact accepted

/-- A payment leaves the allocation alone. -/
theorem allocation_of_allocateEntry {i : Nat} (succeeds : allocateEntry env total s i = .ok s') :
    s'.pcvDeposits = s.pcvDeposits ∧ s'.ratios = s.ratios := by
  simp only [allocateEntry, _allocateSingle, bind_eq_ok_iff, pure_eq_ok_iff] at succeeds
  obtain ⟨_, _, _, _, _, _, _, _, _, _, same⟩ := succeeds
  subst same
  exact ⟨rfl, rfl⟩

theorem accepted_of_step {a : Action}
    (accepted : checkAllocation s.pcvDeposits s.ratios = .ok ())
    (succeeds : step env s a = .ok s') : checkAllocation s'.pcvDeposits s'.ratios = .ok () := by
  cases a with
  | allocate sender =>
      simp only [step, allocate, _allocate, bind_eq_ok_iff, pure_eq_ok_iff] at succeeds
      obtain ⟨_, _, m, loops, same⟩ := succeeds
      subst same
      refine foldlM_invariant
        (I := fun m => checkAllocation m.pcvDeposits m.ratios = .ok ()) ?_ accepted loops
      intro m i m' accepted _ entry
      obtain ⟨deposits, ratios⟩ := allocation_of_allocateEntry entry
      rw [deposits, ratios]
      exact accepted
  | setAllocation sender _allocations _ratios =>
      obtain ⟨_, _, sets⟩ := bind_eq_ok_iff.mp succeeds
      exact accepted_of_setAllocation sets
  | setContractAdminRole sender newContractAdminRole =>
      obtain ⟨_, _, same⟩ := bind_eq_ok_iff.mp succeeds
      cases same
      exact accepted
  | pause sender =>
      rw [pause_eq succeeds]
      exact accepted
  | unpause sender =>
      rw [unpause_eq succeeds]
      exact accepted
  | erc20 erc20 =>
      cases succeeds
      exact accepted

theorem accepted_of_run {erc20 : Erc20} {_token : Address} {_pcvDeposits : List Address}
    {_ratios : List UInt256}
    (deployed : construct env erc20 _token _pcvDeposits _ratios = .ok s) (actions : List Action) :
    checkAllocation (run (step env) s actions).pcvDeposits (run (step env) s actions).ratios =
      .ok () := by
  have accepted : checkAllocation s.pcvDeposits s.ratios = .ok () := by
    obtain ⟨m, sets, same⟩ := bind_eq_ok_iff.mp deployed
    have accepted := accepted_of_setAllocation sets
    cases same
    exact accepted
  exact run_invariant (I := fun t => checkAllocation t.pcvDeposits t.ratios = .ok ())
    (A := fun _ => True) (fun accepted _ succeeds => accepted_of_step accepted succeeds)
    accepted fun _ _ => trivial

/-! ## What an allocation pays -/

/-- **Allocation.** The balance covers every transfer of the loop. An allocation gives each account
the shares of the entries that name it and leaves less than one unit for each entry. It fails only
where the contract is paused, the balance is too large to scale, or the token refuses. Every
allocation that is reached from a deployment has passed the check. -/
theorem allocate_pays (accepted : checkAllocation s.pcvDeposits s.ratios = .ok ())
    (elsewhere : ∀ d ∈ s.pcvDeposits, d ≠ env.this) :
    let balance := s.erc20.balanceOf env.this
    (∀ k m, k < s.ratios.length →
      (List.range k).foldlM (allocateEntry env balance) s = .ok m →
      share s.ratios balance k ≤ m.erc20.balanceOf env.this) ∧
    (∀ sender s', allocate env s sender = .ok s' →
      (∀ account, account ≠ env.this → s'.erc20.balanceOf account =
        s.erc20.balanceOf account + paidTo s balance s.ratios.length account) ∧
      s'.erc20.balanceOf env.this < s.ratios.length) ∧
    (s._paused = false → BASIS_POINTS_GRANULARITY * balance < 2 ^ 256 → Accepts env s →
      ∀ sender, ∃ s', allocate env s sender = .ok s') ∧
    ∀ erc20 _token _pcvDeposits _ratios s₀ actions,
      construct env erc20 _token _pcvDeposits _ratios = .ok s₀ →
      checkAllocation (run (step env) s₀ actions).pcvDeposits (run (step env) s₀ actions).ratios =
        .ok () := by
  intro balance
  have nonempty : 0 < s.ratios.length := by
    have whole := sum_ratioAt accepted
    by_contra none
    rw [Nat.eq_zero_of_not_pos none, Finset.sum_range_zero] at whole
    exact absurd whole (by decide)
  refine ⟨?_, ?_, ?_, fun _ _ _ _ _ actions deployed => accepted_of_run deployed actions⟩
  · intro k m more loops
    have paid : Paid env s balance k m :=
      foldlM_range_invariant (fun _ paid entry => paid.next elsewhere entry) paid_zero loops
    exact paid.covered accepted more
  · intro sender s' succeeds
    simp only [allocate, _allocate, bind_eq_ok_iff, pure_eq_ok_iff] at succeeds
    obtain ⟨_, _, m, loops, same⟩ := succeeds
    subst same
    have paid : Paid env s balance s.ratios.length m :=
      foldlM_range_invariant (fun _ paid entry => paid.next elsewhere entry) paid_zero loops
    have left := paid.left
    have kept := (sum_share accepted balance).2
    exact ⟨paid.others, by dsimp only at left ⊢; omega⟩
  · intro unpaused fits accepts sender
    have loop : ∃ m, (List.range s.ratios.length).foldlM (allocateEntry env balance) s = .ok m ∧
        Paid env s balance s.ratios.length m :=
      foldlM_range_total (I := fun k m => Paid env s balance k m)
        (fun more paid => by
          obtain ⟨m', entry⟩ := paid.next_succeeds accepted fits accepts more
          exact ⟨m', entry, paid.next elsewhere entry⟩) paid_zero
    obtain ⟨m, loops, _⟩ := loop
    refine ⟨{ m with events := m.events ++ [.Allocate sender balance] },
      bind_eq_ok_iff.mpr ⟨(), whenNotPaused_eq_ok_iff.mpr unpaused, ?_⟩⟩
    exact bind_eq_ok_iff.mpr ⟨m, loops, rfl⟩

end ERC20Splitter

namespace ERC20Splitter.Sample

/-- A token that is never sent to the zero address. -/
def env : ERC20SplitterEnv where
  core := ⟨fun _ => false, fun _ => false, fun _ => false, fun a => a = 9, fun _ => false⟩
  access := ⟨fun _ _ => false, ⟨1, 2, 3, 4⟩⟩
  erc20 :=
    { transfer := fun t src dst amount => do
        require (dst ≠ 0) "ERC20: transfer to the zero address"
        t.transfer src dst amount
      exact := fun succeeds => by
        obtain ⟨_, _, moves⟩ := bind_eq_ok_iff.mp succeeds
        exact moves }
  this := 0xEE

/-- A balance of 101 for three entries, two of which name one deposit. -/
def start : ERC20SplitterState where
  ratios := [3333, 3333, 3334]
  pcvDeposits := [0xA1, 0xA2, 0xA1]
  token := 0xAB
  CONTRACT_ADMIN_ROLE := 1
  _paused := false
  erc20 :=
    { balanceOf := fun a => if a = 0xEE then 101 else 0
      allowance := fun _ _ => 0
      totalSupply := 101
      unlimited := false }
  events := []

theorem allocate_pays_sample : ∃ s', allocate env start 7 = .ok s' ∧
    s'.erc20.balanceOf 0xA1 = 66 ∧ s'.erc20.balanceOf 0xA2 = 33 ∧
    s'.erc20.balanceOf 0xEE < 3 := by
  have elsewhere : ∀ d ∈ start.pcvDeposits, d ≠ env.this := by simp [start, env]
  obtain ⟨_, pays, succeeds, _⟩ := @allocate_pays env start rfl elsewhere
  have accepts : Accepts env start := by
    intro t d amount mem covered
    have nonzero : ∀ d ∈ start.pcvDeposits, d ≠ 0 := by simp [start]
    exact ⟨_, bind_eq_ok_iff.mpr ⟨(), require_eq_ok_iff.mpr (nonzero d mem),
      Erc20.transfer_eq_ok_iff.mpr ⟨covered, rfl⟩⟩⟩
  obtain ⟨s', allocates⟩ := succeeds rfl (by decide) accepts 7
  obtain ⟨receives, left⟩ := pays 7 s' allocates
  exact ⟨s', allocates, receives 0xA1 (by decide), receives 0xA2 (by decide), left⟩

end ERC20Splitter.Sample

end FeiProtocol
