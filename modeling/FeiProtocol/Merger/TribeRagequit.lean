import FeiProtocol.Cryptography
import FeiProtocol.Evm.Ledger
import FeiProtocol.Evm.Machine
import FeiProtocol.Fei.Fei

/-!
# `TRIBERagequit`

In a window of time, and once both parties have accepted the merger, holders exchange TRIBE for
FEI, up to an amount that a Merkle tree allots to them, at a rate that the guardian sets once.

* `accounted_run`: what is taken from a user is at most an amount that the user has proven, and
  what is paid is at most the rate of what is taken.
* `uniform_iff`: every exchange of a run is paid at one nonzero rate exactly if none is made
  before the rate is set.

TRIBE is an exact-transfer token of the ledger, FEI the modelled token.
-/

namespace FeiProtocol

open Evm

namespace MerkleProof

variable (keccak256 : Bytes → Bytes32)

def processProof (proof : List Bytes32) (leaf : Bytes32) : Bytes32 :=
  proof.foldl (_hashPair keccak256) leaf

def verify (proof : List Bytes32) (root leaf : Bytes32) : Bool :=
  processProof keccak256 proof leaf = root

end MerkleProof

inductive RagequitEvent : Type where
  | Accept (dao : Address)
  | Enabled (caller : Address)
  | Exchange (account : Address) (amountIn amountOut : Nat)
  deriving DecidableEq, Repr

structure MergerBaseState : Type where
  rgtAccepted : Bool
  tribeAccepted : Bool
  tribeRariDAO : Address
  bothPartiesAccepted : Bool
  /-- `Timelock(payable(rgtTimelock)).admin()` -/
  rgtTimelockAdmin : Address
  /-- oldest first -/
  events : List RagequitEvent

structure TRIBERagequitState : Type extends MergerBaseState where
  intrinsicValueExchangeRateBase : Nat
  rageQuitStart : Nat
  rageQuitEnd : Nat
  claimed : Address → Nat
  merkleRoot : Bytes32
  ledger : Ledger
  fei : FeiState
  /-- the timestamp of the current block -/
  timestamp : Nat

structure TRIBERagequitEnv : Type where
  keccak256 : Bytes → Bytes32
  fei : FeiEnv
  this : Address

/-! ## `MergerBase` -/

namespace MergerBase

def scalar : Nat := 10 ^ 9

def rgtTimelock : Address := 0x8ace03Fc45139fDDba944c6A4082b604041d19FC

def tribeTimelock : Address := 0xd51dbA7a94e1adEa403553A8235C302cEbF41a3c

def tribe : Address := 0xc7283b66Eb1EB5FB86327f08e1B5816b0720212B

variable (s : MergerBaseState) (msgSender : Address)

def rgtAccept : Except Revert MergerBaseState := do
  require (msgSender = rgtTimelock) "Only rari timelock"
  return { s with rgtAccepted := true, events := s.events ++ [.Accept rgtTimelock] }

def tribeAccept : Except Revert MergerBaseState := do
  require (msgSender = tribeTimelock) "Only tribe timelock"
  return { s with tribeAccepted := true, events := s.events ++ [.Accept tribeTimelock] }

def setBothPartiesAccepted : Except Revert MergerBaseState := do
  require (s.bothPartiesAccepted = false) "already set"
  require (s.rgtTimelockAdmin = s.tribeRariDAO) "admin not accepted"
  require (s.tribeAccepted = true) "Tribe DAO not yet accepted"
  require (s.rgtAccepted = true) "Rari DAO not yet accepted"
  return { s with bothPartiesAccepted := true, events := s.events ++ [.Enabled msgSender] }

end MergerBase

namespace TRIBERagequit

open MergerBase

/-! ## The contract -/

def coreAddress : Address := 0x8d5ED43dCa8C2F7dFB20CF7b53CC7E593635d7b9

def guardian : Address := 0xB8f482539F2d3Ae2C9ea6076894df36D1f632775

def rewardsDripper : Address := 0x3Fe0EAD3500e767F0F8bC2d3B5AF7755B1b21A6a

/-- `ledger`, `fei`, `rgtTimelockAdmin` and `timestamp` are as the deployment finds them. -/
def construct (ledger : Ledger) (fei : FeiState) (rgtTimelockAdmin : Address) (timestamp : Nat)
    (root : Bytes32) (_rageQuitStart _rageQuitEnd : UInt256) (tribeRariDAO : Address) :
    Except Revert TRIBERagequitState := do
  let window ← checkedSub _rageQuitEnd.toNat _rageQuitStart.toNat
  require (window > 24 * 60 * 60) "need at least 24h ragequit window"
  return { rgtAccepted := false
           tribeAccepted := false
           tribeRariDAO
           bothPartiesAccepted := false
           rgtTimelockAdmin
           events := []
           intrinsicValueExchangeRateBase := 0
           rageQuitStart := _rageQuitStart.toNat
           rageQuitEnd := _rageQuitEnd.toNat
           claimed := fun _ => 0
           merkleRoot := root
           ledger
           fei
           timestamp }

variable (env : TRIBERagequitEnv) (s : TRIBERagequitState) (msgSender : Address)

def verifyClaim (claimer : Address) (totalMerkleAmount : UInt256) (merkleProof : List Bytes32) :
    Bool :=
  let leaf := env.keccak256 (packAddress claimer ++ packWord totalMerkleAmount)
  MerkleProof.verify env.keccak256 merkleProof s.merkleRoot leaf

def ngmi (amount totalMerkleAmount : UInt256) (merkleProof : List Bytes32) :
    Except Revert TRIBERagequitState := do
  require (s.bothPartiesAccepted = true) "Proposals are not both passed"
  require (s.timestamp > s.rageQuitStart ∧ s.timestamp < s.rageQuitEnd) "outside ragequit window"
  require (verifyClaim env s msgSender totalMerkleAmount merkleProof = true) "invalid proof"
  let limit ← checkedAdd (s.claimed msgSender) amount.toNat
  require (limit ≤ totalMerkleAmount.toNat) "exceeds ragequit limit"
  let claimed := Function.update s.claimed msgSender limit
  let product ← checkedMul amount.toNat s.intrinsicValueExchangeRateBase
  let feiOut := product / scalar
  let ledger ← s.ledger.safeTransferFrom env.this tribe msgSender coreAddress amount.toNat
  let fei ← Fei.mint env.fei s.fei env.this msgSender feiOut
  return { s with
    claimed
    ledger
    fei
    events := s.events ++ [.Exchange msgSender amount.toNat feiOut] }

def getCirculatingTribe : Except Revert Nat := do
  let outside ← checkedSub (s.ledger.erc20 tribe).totalSupply (s.ledger.balanceOf tribe coreAddress)
  checkedSub outside (s.ledger.balanceOf tribe rewardsDripper)

def exchangeRate (protocolEquity : UInt256) : Except Revert Nat := do
  let scaled ← checkedMul scalar protocolEquity.toNat
  let circulating ← getCirculatingTribe s
  checkedDiv scaled circulating

def setExchangeRate (protocolEquity : UInt256) : Except Revert TRIBERagequitState := do
  require (s.intrinsicValueExchangeRateBase = 0) "already set"
  require (msgSender = guardian) "guardian"
  let intrinsicValueExchangeRateBase ← exchangeRate s protocolEquity
  return { s with intrinsicValueExchangeRateBase }

/-! ## Transactions -/

/-- A call of the contract, of one of the tokens, or of the Rari timelock, or time that passes. -/
inductive Action : Type where
  | ngmi (msgSender : Address) (amount totalMerkleAmount : UInt256) (merkleProof : List Bytes32)
  | setExchangeRate (msgSender : Address) (protocolEquity : UInt256)
  | rgtAccept (msgSender : Address)
  | tribeAccept (msgSender : Address)
  | setBothPartiesAccepted (msgSender : Address)
  | token (actor : Address) (call : Ledger.TokenCall)
  | fei (actor : Address) (call : Fei.Call)
  | rgtTimelockAdmin (admin : Address)
  | elapse (seconds : Nat)

def step : Action → Except Revert TRIBERagequitState
  | .ngmi msgSender amount totalMerkleAmount merkleProof =>
      ngmi env s msgSender amount totalMerkleAmount merkleProof
  | .setExchangeRate msgSender protocolEquity => setExchangeRate s msgSender protocolEquity
  | .rgtAccept msgSender => do
      let base ← rgtAccept s.toMergerBaseState msgSender
      return { s with toMergerBaseState := base }
  | .tribeAccept msgSender => do
      let base ← tribeAccept s.toMergerBaseState msgSender
      return { s with toMergerBaseState := base }
  | .setBothPartiesAccepted msgSender => do
      let base ← setBothPartiesAccepted s.toMergerBaseState msgSender
      return { s with toMergerBaseState := base }
  | .token actor call => do
      let ledger ← s.ledger.perform actor call
      return { s with ledger }
  | .fei actor call => do
      let fei ← Fei.call env.fei s.fei actor call
      return { s with fei }
  | .rgtTimelockAdmin admin => .ok { s with rgtTimelockAdmin := admin }
  | .elapse seconds => .ok { s with timestamp := s.timestamp + seconds }

/-- The contract calls TRIBE in `ngmi` only. -/
def Action.Regular (this : Address) : Action → Prop
  | .token actor _ => actor ≠ this
  | _ => True

/-! ## Steps -/

/-- TRIBE that the contract has taken from a user. -/
def taken (this u : Address) : Nat :=
  s.ledger.total fun e => e.operator = this && (e.token = tribe && e.src = u)

/-- The amount of an exchange of a user. -/
def amountOut (u : Address) : RagequitEvent → Nat
  | .Exchange account _ amountOut => if account = u then amountOut else 0
  | _ => 0

/-- FEI that has been paid to a user. -/
def paid (u : Address) : Nat := (s.events.map (amountOut u)).sum

variable {env s} {s' : TRIBERagequitState} {u : Address} {amount totalMerkleAmount : UInt256}
  {merkleProof : List Bytes32} {actions : List Action}

theorem ngmi_eq_ok_iff :
    ngmi env s u amount totalMerkleAmount merkleProof = .ok s' ↔
      s.bothPartiesAccepted = true ∧ (s.rageQuitStart < s.timestamp ∧ s.timestamp < s.rageQuitEnd) ∧
      verifyClaim env s u totalMerkleAmount merkleProof = true ∧
      s.claimed u + amount.toNat ≤ totalMerkleAmount.toNat ∧
      amount.toNat * s.intrinsicValueExchangeRateBase < 2 ^ 256 ∧
      ∃ ledger fei,
        s.ledger.safeTransferFrom env.this tribe u coreAddress amount.toNat = .ok ledger ∧
        Fei.mint env.fei s.fei env.this u
          (amount.toNat * s.intrinsicValueExchangeRateBase / scalar) = .ok fei ∧
        s' = { s with
          claimed := Function.update s.claimed u (s.claimed u + amount.toNat)
          ledger
          fei
          events := s.events ++ [.Exchange u amount.toNat
            (amount.toNat * s.intrinsicValueExchangeRateBase / scalar)] } := by
  have narrow := totalMerkleAmount.isLt
  simp only [ngmi, bind_eq_ok_iff, require_eq_ok_iff, checkedAdd_eq_ok_iff, checkedMul_eq_ok_iff,
    pure_eq_ok_iff]
  constructor
  · intro given
    rcases given with ⟨_, accepted, _, window, _, proven, _, ⟨_, same⟩, _, limit, _, ⟨fits, same'⟩,
      ledger, pays, fei, mints, result⟩
    subst same
    subst same'
    exact ⟨accepted, window, proven, limit, fits, ledger, fei, pays, mints, result.symm⟩
  · intro given
    rcases given with ⟨accepted, window, proven, limit, fits, ledger, fei, pays, mints, result⟩
    exact ⟨(), accepted, (), window, (), proven, _, ⟨by omega, rfl⟩, (), limit, _, ⟨fits, rfl⟩,
      ledger, pays, fei, mints, result.symm⟩

/-- What is neither an exchange nor the setting of the rate leaves as it is. -/
structure Quiet (this : Address) (s s' : TRIBERagequitState) : Prop where
  rate : s'.intrinsicValueExchangeRateBase = s.intrinsicValueExchangeRateBase
  claimed : s'.claimed = s.claimed
  merkleRoot : s'.merkleRoot = s.merkleRoot
  rageQuitStart : s'.rageQuitStart = s.rageQuitStart
  rageQuitEnd : s'.rageQuitEnd = s.rageQuitEnd
  paid : ∀ u, paid s' u = paid s u
  taken : ∀ u, taken s' this u = taken s this u
  gate : (s.bothPartiesAccepted = true → s.rgtAccepted = true ∧ s.tribeAccepted = true) →
    s'.bothPartiesAccepted = true → s'.rgtAccepted = true ∧ s'.tribeAccepted = true

theorem paid_of_events {e : RagequitEvent} (events : s'.events = s.events ++ [e]) (u : Address) :
    paid s' u = paid s u + amountOut u e := by
  simp only [paid, events, List.map_append, List.sum_append, List.map_cons, List.map_nil,
    List.sum_singleton]

theorem paid_same {e : RagequitEvent} (silent : ∀ u, amountOut u e = 0)
    (events : s'.events = s.events ++ [e]) (u : Address) : paid s' u = paid s u := by
  rw [paid_of_events events, silent, Nat.add_zero]

/-- What a transaction can do. -/
theorem step_cases {a : Action} (regular : a.Regular env.this)
    (succeeds : step env s a = .ok s') :
    (∃ u amount totalMerkleAmount merkleProof,
      a = .ngmi u amount totalMerkleAmount merkleProof ∧
      ngmi env s u amount totalMerkleAmount merkleProof = .ok s') ∨
    (∃ protocolEquity rate, a = .setExchangeRate guardian protocolEquity ∧
      s.intrinsicValueExchangeRateBase = 0 ∧ exchangeRate s protocolEquity = .ok rate ∧
      s' = { s with intrinsicValueExchangeRateBase := rate }) ∨
    Quiet env.this s s' := by
  cases a with
  | ngmi msgSender amount totalMerkleAmount merkleProof =>
      exact .inl ⟨_, _, _, _, rfl, succeeds⟩
  | setExchangeRate msgSender protocolEquity =>
      simp only [step, setExchangeRate, bind_eq_ok_iff, require_eq_ok_iff, pure_eq_ok_iff]
        at succeeds
      obtain ⟨_, unset, _, sender, rate, computes, same⟩ := succeeds
      subst sender
      exact .inr (.inl ⟨protocolEquity, rate, rfl, unset, computes, same.symm⟩)
  | rgtAccept msgSender =>
      simp only [step, rgtAccept, bind_eq_ok_iff, require_eq_ok_iff, pure_eq_ok_iff] at succeeds
      obtain ⟨base, ⟨_, _, accepts⟩, same⟩ := succeeds
      subst accepts
      subst same
      exact .inr (.inr ⟨rfl, rfl, rfl, rfl, rfl, paid_same (fun _ => rfl) rfl, fun _ => rfl,
        fun gate both => ⟨rfl, (gate both).2⟩⟩)
  | tribeAccept msgSender =>
      simp only [step, tribeAccept, bind_eq_ok_iff, require_eq_ok_iff, pure_eq_ok_iff] at succeeds
      obtain ⟨base, ⟨_, _, accepts⟩, same⟩ := succeeds
      subst accepts
      subst same
      exact .inr (.inr ⟨rfl, rfl, rfl, rfl, rfl, paid_same (fun _ => rfl) rfl, fun _ => rfl,
        fun gate both => ⟨(gate both).1, rfl⟩⟩)
  | setBothPartiesAccepted msgSender =>
      simp only [step, setBothPartiesAccepted, bind_eq_ok_iff, require_eq_ok_iff, pure_eq_ok_iff]
        at succeeds
      obtain ⟨base, ⟨_, _, _, _, _, tribe, _, rgt, accepts⟩, same⟩ := succeeds
      subst accepts
      subst same
      exact .inr (.inr ⟨rfl, rfl, rfl, rfl, rfl, paid_same (fun _ => rfl) rfl, fun _ => rfl,
        fun _ _ => ⟨rgt, tribe⟩⟩)
  | token actor call =>
      obtain ⟨ledger, performs, same⟩ := bind_eq_ok_iff.mp succeeds
      cases same
      have kept := Ledger.perform_calledBy regular performs
      exact .inr (.inr ⟨rfl, rfl, rfl, rfl, rfl, fun _ => rfl,
        fun u => Ledger.total_calledBy_congr kept fun e => e.token = tribe && e.src = u,
        fun gate => gate⟩)
  | fei actor call =>
      obtain ⟨fei, _, same⟩ := bind_eq_ok_iff.mp succeeds
      cases same
      exact .inr (.inr ⟨rfl, rfl, rfl, rfl, rfl, fun _ => rfl, fun _ => rfl, fun gate => gate⟩)
  | rgtTimelockAdmin admin =>
      cases succeeds
      exact .inr (.inr ⟨rfl, rfl, rfl, rfl, rfl, fun _ => rfl, fun _ => rfl, fun gate => gate⟩)
  | elapse seconds =>
      cases succeeds
      exact .inr (.inr ⟨rfl, rfl, rfl, rfl, rfl, fun _ => rfl, fun _ => rfl, fun gate => gate⟩)

/-! ## Accounts -/

/-- What has been taken and paid, and who has accepted. -/
structure Books (this : Address) (s₀ s : TRIBERagequitState) : Prop where
  taken : ∀ u, taken s this u = taken s₀ this u + s.claimed u
  paid : ∀ u, paid s u ≤ s.claimed u * s.intrinsicValueExchangeRateBase / scalar
  gate : s.bothPartiesAccepted = true → s.rgtAccepted = true ∧ s.tribeAccepted = true
  merkleRoot : s.merkleRoot = s₀.merkleRoot
  rageQuitStart : s.rageQuitStart = s₀.rageQuitStart
  rageQuitEnd : s.rageQuitEnd = s₀.rageQuitEnd

variable {s₀ : TRIBERagequitState}

theorem taken_of_transfer {ledger : Ledger} {n : Nat}
    (pays : s.ledger.safeTransferFrom env.this tribe u coreAddress n = .ok ledger) (v : Address) :
    ledger.total (fun e => e.operator = env.this && (e.token = tribe && e.src = v)) =
      taken s env.this v + if u = v then n else 0 := by
  rw [(Ledger.safeTransferFrom_moved pays).total_eq, taken]
  simp

theorem books_of_ngmi (books : Books env.this s₀ s)
    (succeeds : ngmi env s u amount totalMerkleAmount merkleProof = .ok s') :
    Books env.this s₀ s' := by
  obtain ⟨accepted, _, _, _, _, ledger, fei, pays, _, same⟩ := ngmi_eq_ok_iff.mp succeeds
  have events := congrArg (fun t : TRIBERagequitState => t.events) same
  refine ⟨fun v => ?_, fun v => ?_, fun both => ?_, ?_, ?_, ?_⟩
  · have before := books.taken v
    have added := taken_of_transfer pays v
    rw [same, taken]
    simp only [added, before, Function.update_apply]
    by_cases other : v = u
    · rw [if_pos other.symm, if_pos other, other]
      omega
    · rw [if_neg (Ne.symm other), if_neg other, Nat.add_zero]
  · have before := books.paid v
    rw [paid_of_events events v]
    rw [same]
    simp only [amountOut, Function.update_apply]
    by_cases other : v = u
    · rw [if_pos other.symm, if_pos other]
      subst other
      rw [Nat.add_mul]
      exact Nat.le_trans (Nat.add_le_add_right before _) Nat.div_add_div_le_add_div
    · rw [if_neg (Ne.symm other), if_neg other]
      exact before
  · rw [same]
    exact books.gate accepted
  · rw [same]
    exact books.merkleRoot
  · rw [same]
    exact books.rageQuitStart
  · rw [same]
    exact books.rageQuitEnd

theorem books_of_step {a : Action} (books : Books env.this s₀ s) (regular : a.Regular env.this)
    (succeeds : step env s a = .ok s') : Books env.this s₀ s' := by
  rcases step_cases regular succeeds with ⟨u, amount, total, proof, _, exchanges⟩ |
    ⟨equity, rate, _, unset, _, same⟩ | quiet
  · exact books_of_ngmi books exchanges
  · subst same
    refine { books with paid := fun u => ?_ }
    have before := books.paid u
    rw [unset, Nat.mul_zero, Nat.zero_div] at before
    exact Nat.le_trans before (Nat.zero_le _)
  · refine ⟨fun u => ?_, fun u => ?_, quiet.gate books.gate, ?_, ?_, ?_⟩
    · rw [quiet.taken, quiet.claimed, books.taken]
    · rw [quiet.paid, quiet.claimed, quiet.rate]
      exact books.paid u
    · rw [quiet.merkleRoot, books.merkleRoot]
    · rw [quiet.rageQuitStart, books.rageQuitStart]
    · rw [quiet.rageQuitEnd, books.rageQuitEnd]

theorem books_of_construct {ledger : Ledger} {fei : FeiState} {rgtTimelockAdmin : Address}
    {timestamp : Nat} {root : Bytes32} {_rageQuitStart _rageQuitEnd : UInt256}
    {tribeRariDAO : Address} (this : Address)
    (deploys : construct ledger fei rgtTimelockAdmin timestamp root _rageQuitStart _rageQuitEnd
      tribeRariDAO = .ok s₀) : Books this s₀ s₀ ∧ s₀.claimed = fun _ => 0 := by
  simp only [construct, bind_eq_ok_iff, pure_eq_ok_iff] at deploys
  obtain ⟨_, _, _, _, same⟩ := deploys
  subst same
  exact ⟨⟨fun _ => rfl, fun _ => Nat.zero_le _, fun accepted => absurd accepted Bool.false_ne_true,
    rfl, rfl, rfl⟩, rfl⟩

theorem books_run (books : Books env.this s₀ s) (regular : ∀ a ∈ actions, a.Regular env.this) :
    Books env.this s₀ (run (step env) s actions) :=
  run_invariant (fun books regular succeeds => books_of_step books regular succeeds) books regular

/-! ## Exchanges -/

/-- In a run, a user exchanges TRIBE in state `s`, with `s'` as the result. -/
structure Exchanged (env : TRIBERagequitEnv) (s₀ : TRIBERagequitState) (actions : List Action)
    (u : Address) (amount totalMerkleAmount : UInt256) (merkleProof : List Bytes32)
    (s s' : TRIBERagequitState) : Prop where
  place : ∃ before after, s = run (step env) s₀ before ∧
    actions = before ++ .ngmi u amount totalMerkleAmount merkleProof :: after
  succeeds : step env s (.ngmi u amount totalMerkleAmount merkleProof) = .ok s'

/-- An exchange stays one when the run goes on. -/
theorem Exchanged.append (exchanged : Exchanged env s₀ actions u amount totalMerkleAmount
      merkleProof s s') (more : List Action) :
    Exchanged env s₀ (actions ++ more) u amount totalMerkleAmount merkleProof s s' := by
  obtain ⟨before, after, same, place⟩ := exchanged.place
  refine ⟨⟨before, after ++ more, same, ?_⟩, exchanged.succeeds⟩
  rw [place, List.append_assoc, List.cons_append]

/-- **Limits.** What is claimed from a user is nothing more, or at most an amount that the user has
proven in an exchange. -/
theorem limited_run (s₀ : TRIBERagequitState) (regular : ∀ a ∈ actions, a.Regular env.this)
    (u : Address) :
    (run (step env) s₀ actions).claimed u = s₀.claimed u ∨
      ∃ amount totalMerkleAmount merkleProof s s',
        Exchanged env s₀ actions u amount totalMerkleAmount merkleProof s s' ∧
        (run (step env) s₀ actions).claimed u ≤ totalMerkleAmount.toNat := by
  induction actions using List.reverseRecOn with
  | nil => exact .inl rfl
  | append_singleton actions a ih =>
      have earlier := ih fun b mem => regular b (List.mem_append_left _ mem)
      have last := regular a (List.mem_append_right _ List.mem_cons_self)
      -- an exchange of another user, or none, leaves what is claimed
      have kept : (run (step env) s₀ (actions ++ [a])).claimed u =
          (run (step env) s₀ actions).claimed u →
          (run (step env) s₀ (actions ++ [a])).claimed u = s₀.claimed u ∨
            ∃ amount totalMerkleAmount merkleProof s s',
              Exchanged env s₀ (actions ++ [a]) u amount totalMerkleAmount merkleProof s s' ∧
              (run (step env) s₀ (actions ++ [a])).claimed u ≤ totalMerkleAmount.toNat := by
        intro same
        rw [same]
        rcases earlier with none | ⟨amount, total, proof, s, s', exchanged, le⟩
        · exact .inl none
        · exact .inr ⟨amount, total, proof, s, s', exchanged.append [a], le⟩
      rw [run_append, run_cons, run_nil] at kept ⊢
      rcases commit_cases (step env) (run (step env) s₀ actions) a with same | succeeds
      · exact kept (congrArg (fun t : TRIBERagequitState => t.claimed u) same)
      · rcases step_cases last succeeds with ⟨v, amount, total, proof, called, exchanges⟩ |
          ⟨equity, rate, _, _, _, same⟩ | quiet
        · obtain ⟨_, _, _, limit, _, _, _, _, _, same⟩ := ngmi_eq_ok_iff.mp exchanges
          have claimed := congrArg (fun t : TRIBERagequitState => t.claimed u) same
          by_cases other : u = v
          · subst other
            subst called
            refine .inr ⟨amount, total, proof, _, _, ⟨⟨actions, [], rfl, rfl⟩, succeeds⟩, ?_⟩
            rw [claimed]
            simpa only [Function.update_self] using limit
          · apply kept
            rw [claimed]
            simp only [Function.update_of_ne other]
        · have claimed := congrArg (fun t : TRIBERagequitState => t.claimed u) same
          exact kept claimed
        · exact kept (congrFun quiet.claimed u)

/-- Once it is set, the rate stays. -/
theorem rate_run (regular : ∀ a ∈ actions, a.Regular env.this)
    (set : s.intrinsicValueExchangeRateBase ≠ 0) :
    (run (step env) s actions).intrinsicValueExchangeRateBase =
      s.intrinsicValueExchangeRateBase := by
  refine run_invariant (I := fun t : TRIBERagequitState =>
    t.intrinsicValueExchangeRateBase = s.intrinsicValueExchangeRateBase) ?_ rfl regular
  intro t a t' same regular succeeds
  rcases step_cases regular succeeds with ⟨u, amount, total, proof, _, exchanges⟩ |
    ⟨equity, rate, _, unset, _, _⟩ | quiet
  · obtain ⟨_, _, _, _, _, _, _, _, _, same'⟩ := ngmi_eq_ok_iff.mp exchanges
    rw [same']
    exact same
  · exact absurd (same.symm.trans unset) set
  · exact quiet.rate.trans same

/-- The rate at which the exchanges of a run are made is the same for all, is not zero, and is what
each of them is paid at. -/
def Uniform (env : TRIBERagequitEnv) (s₀ : TRIBERagequitState) (actions : List Action) : Prop :=
  ∃ rate, rate ≠ 0 ∧ ∀ u amount totalMerkleAmount merkleProof s s',
    Exchanged env s₀ actions u amount totalMerkleAmount merkleProof s s' →
      s.intrinsicValueExchangeRateBase = rate ∧
      s'.events = s.events ++ [.Exchange u amount.toNat (amount.toNat * rate / scalar)] ∧
      Fei.mint env.fei s.fei env.this u (amount.toNat * rate / scalar) = .ok s'.fei

/-- No exchange of a run is made while the rate is zero. -/
def RateSet (env : TRIBERagequitEnv) (s₀ : TRIBERagequitState) (actions : List Action) : Prop :=
  ∀ u amount totalMerkleAmount merkleProof s s',
    Exchanged env s₀ actions u amount totalMerkleAmount merkleProof s s' →
      s.intrinsicValueExchangeRateBase ≠ 0

/-- **One rate.** The exchanges of a run have one rate exactly if none is made while it is zero. -/
theorem uniform_iff_rateSet (regular : ∀ a ∈ actions, a.Regular env.this) :
    Uniform env s₀ actions ↔ RateSet env s₀ actions := by
  constructor
  · rintro ⟨rate, nonzero, uniform⟩ u amount total proof s s' exchanged
    rw [(uniform u amount total proof s s' exchanged).1]
    exact nonzero
  · intro set
    -- the last rate is the rate of every exchange, if there is one
    have last : ∀ u amount total proof s s',
        Exchanged env s₀ actions u amount total proof s s' →
          (run (step env) s₀ actions).intrinsicValueExchangeRateBase =
            s.intrinsicValueExchangeRateBase := by
      intro u amount total proof s s' exchanged
      have nonzero := set u amount total proof s s' exchanged
      obtain ⟨before, after, same, place⟩ := exchanged.place
      rw [place, run_append, ← same]
      exact rate_run (fun a mem => regular a (place ▸ List.mem_append_right _ mem)) nonzero
    refine ⟨if (run (step env) s₀ actions).intrinsicValueExchangeRateBase = 0 then 1
      else (run (step env) s₀ actions).intrinsicValueExchangeRateBase, ?_, ?_⟩
    · split
      · exact Nat.one_ne_zero
      · assumption
    · intro u amount total proof s s' exchanged
      have nonzero := set u amount total proof s s' exchanged
      have same := last u amount total proof s s' exchanged
      rw [if_neg (same ▸ nonzero), same]
      obtain ⟨_, _, _, _, _, _, _, _, mints, result⟩ := ngmi_eq_ok_iff.mp exchanged.succeeds
      rw [result]
      exact ⟨rfl, rfl, mints⟩

/-- A nonzero rate that is set before any exchange. -/
theorem rateSet_of_early {first rest : List Action}
    (regular : ∀ a ∈ first ++ rest, a.Regular env.this)
    (none : ∀ u amount totalMerkleAmount merkleProof,
      .ngmi u amount totalMerkleAmount merkleProof ∉ first)
    (set : (run (step env) s₀ first).intrinsicValueExchangeRateBase ≠ 0) :
    RateSet env s₀ (first ++ rest) := by
  intro u amount total proof s s' exchanged
  obtain ⟨before, after, same, place⟩ := exchanged.place
  rcases List.append_eq_append_iff.mp place with ⟨more, later, split⟩ | ⟨more, earlier, split⟩
  · have inside : ∀ a ∈ more, a.Regular env.this := by
      intro a mem
      rw [split] at regular
      exact regular a (List.mem_append_right _ (List.mem_append_left _ mem))
    rw [same, later, run_append, rate_run inside set]
    exact set
  · cases more with
    | nil =>
        rw [List.append_nil] at earlier
        rw [same, ← earlier]
        exact set
    | cons a more =>
        obtain ⟨here, _⟩ := List.cons.inj split
        refine absurd ?_ (none u amount total proof)
        rw [earlier, here]
        exact List.mem_append_right _ List.mem_cons_self

/-- What holds of every run. -/
structure Accounted (env : TRIBERagequitEnv) (s₀ : TRIBERagequitState) (actions : List Action) :
    Prop where
  /-- nothing is taken from a user, or at most an amount that the user has proven -/
  limited : ∀ u, taken (run (step env) s₀ actions) env.this u = taken s₀ env.this u ∨
    ∃ amount totalMerkleAmount merkleProof s s',
      Exchanged env s₀ actions u amount totalMerkleAmount merkleProof s s' ∧
      verifyClaim env s₀ u totalMerkleAmount merkleProof = true ∧
      taken (run (step env) s₀ actions) env.this u ≤
        taken s₀ env.this u + totalMerkleAmount.toNat
  /-- exchanges are made when both parties have accepted, and inside the window -/
  gated : ∀ u amount totalMerkleAmount merkleProof s s',
    Exchanged env s₀ actions u amount totalMerkleAmount merkleProof s s' →
      s.bothPartiesAccepted = true ∧ s.rgtAccepted = true ∧ s.tribeAccepted = true ∧
      s₀.rageQuitStart < s.timestamp ∧ s.timestamp < s₀.rageQuitEnd
  /-- all that is paid to a user is at most what one exchange pays for all that is taken -/
  whole : ∀ u n, taken (run (step env) s₀ actions) env.this u = taken s₀ env.this u + n →
    paid (run (step env) s₀ actions) u ≤
      n * (run (step env) s₀ actions).intrinsicValueExchangeRateBase / scalar

theorem accounted_run {ledger : Ledger} {fei : FeiState} {rgtTimelockAdmin : Address}
    {timestamp : Nat} {root : Bytes32} {_rageQuitStart _rageQuitEnd : UInt256}
    {tribeRariDAO : Address}
    (deploys : construct ledger fei rgtTimelockAdmin timestamp root _rageQuitStart _rageQuitEnd
      tribeRariDAO = .ok s₀) (regular : ∀ a ∈ actions, a.Regular env.this) :
    Accounted env s₀ actions := by
  obtain ⟨start, unclaimed⟩ := books_of_construct env.this deploys
  have books := books_run start regular
  have early : ∀ {before after : List Action} {a : Action}, actions = before ++ a :: after →
      Books env.this s₀ (run (step env) s₀ before) := by
    intro before after a place
    exact books_run start fun a mem => regular a (place ▸ List.mem_append_left _ mem)
  refine ⟨fun u => ?_, fun u amount total proof s s' exchanged => ?_, fun u n same => ?_⟩
  · rcases limited_run s₀ regular u with none | ⟨amount, total, proof, s, s', exchanged, le⟩
    · refine .inl ?_
      rw [books.taken, none, unclaimed, Nat.add_zero]
    · obtain ⟨before, after, same, place⟩ := exchanged.place
      obtain ⟨_, _, proven, _⟩ := ngmi_eq_ok_iff.mp exchanged.succeeds
      have root := (early place).merkleRoot
      rw [← same] at root
      refine .inr ⟨amount, total, proof, s, s', exchanged, ?_, ?_⟩
      · rw [verifyClaim, ← root]
        exact proven
      · rw [books.taken]
        exact Nat.add_le_add_left le _
  · obtain ⟨before, after, same, place⟩ := exchanged.place
    obtain ⟨accepted, ⟨after, before⟩, _⟩ := ngmi_eq_ok_iff.mp exchanged.succeeds
    have books := early place
    rw [← same] at books
    obtain ⟨rgt, tribe⟩ := books.gate accepted
    rw [← books.rageQuitStart, ← books.rageQuitEnd]
    exact ⟨accepted, rgt, tribe, after, before⟩
  · rw [books.taken] at same
    rw [← Nat.add_left_cancel same]
    exact books.paid u

/-- **Ragequit.** In every run, no more is taken from a user than the user has proven, nothing is
exchanged outside the window or before both parties have accepted, and exchanges in parts pay no
more than one. All exchanges have one nonzero rate exactly if none is made before the rate is
set. -/
theorem ragequit_iff {ledger : Ledger} {fei : FeiState} {rgtTimelockAdmin : Address}
    {timestamp : Nat} {root : Bytes32} {_rageQuitStart _rageQuitEnd : UInt256}
    {tribeRariDAO : Address}
    (deploys : construct ledger fei rgtTimelockAdmin timestamp root _rageQuitStart _rageQuitEnd
      tribeRariDAO = .ok s₀) (regular : ∀ a ∈ actions, a.Regular env.this) :
    Accounted env s₀ actions ∧ (Uniform env s₀ actions ↔ RateSet env s₀ actions) :=
  ⟨accounted_run deploys regular, uniform_iff_rateSet regular⟩

end TRIBERagequit

namespace TRIBERagequit.Sample

open MergerBase

/-- The contract at `0xEE` may mint FEI. -/
def core : Core where
  isMinter a := a = 0xEE
  isBurner _ := false
  isPCVController _ := false
  isGovernor _ := false
  isGuardian _ := false

/-- A stand-in for the hash: of a claim, the amount. -/
def keccak256 (b : Bytes) : Bytes32 := BitVec.ofNat 256 ((b.getLast?.getD 0).toNat)

def env : TRIBERagequitEnv where
  keccak256
  fei := { core, super := .standard, incentivize := fun _ s _ _ _ _ => .ok s }
  this := 0xEE

def noTokens : Erc20 where
  balanceOf _ := 0
  allowance _ _ := 0
  totalSupply := 0
  unlimited := false

/-- The user 7 has 200 of 1000 TRIBE, and has approved the contract for them. -/
def ledger : Ledger where
  erc20 _ := { noTokens with
    balanceOf := fun a => if a = 7 then 200 else 0
    allowance := fun a b => if a = 7 ∧ b = 0xEE then 200 else 0
    totalSupply := 1000 }
  transfers := []

def fei : FeiState where
  erc20 := noTokens
  incentiveContract _ := 0
  _paused := false
  events := []

/-- The tree has one leaf, which allots 200 TRIBE. -/
def start : TRIBERagequitState where
  rgtAccepted := false
  tribeAccepted := false
  tribeRariDAO := 0xDA
  bothPartiesAccepted := false
  rgtTimelockAdmin := 0xDA
  events := []
  intrinsicValueExchangeRateBase := 0
  rageQuitStart := 1000
  rageQuitEnd := 101000
  claimed _ := 0
  merkleRoot := 200
  ledger
  fei
  timestamp := 500

theorem deploys : construct ledger fei 0xDA 500 200 1000 101000 0xDA = .ok start := rfl

/-- Both parties accept, and the window opens. -/
def opening : List Action :=
  [.rgtAccept rgtTimelock, .tribeAccept tribeTimelock, .setBothPartiesAccepted 7, .elapse 1000]

def exchange (amount : UInt256) : Action := .ngmi 7 amount 200 []

def setting : Action := .setExchangeRate guardian 500

/-- The rate is set after an exchange, or before. -/
def late : List Action := opening ++ [exchange 100, setting, exchange 100]

def early : List Action := (opening ++ [setting]) ++ [exchange 100, exchange 100]

theorem late_regular : ∀ a ∈ late, a.Regular env.this := by
  simp [late, opening, exchange, setting, Action.Regular]

theorem early_regular : ∀ a ∈ early, a.Regular env.this := by
  simp [early, opening, exchange, setting, Action.Regular]

/-- The first exchange of `late`. -/
theorem unpaid : Exchanged env start late 7 100 200 [] (run (step env) start opening)
    (run (step env) start (opening ++ [exchange 100])) where
  place := ⟨opening, _, rfl, rfl⟩
  succeeds := rfl

end TRIBERagequit.Sample

namespace TRIBERagequit

open Sample in
/-- A user gives up TRIBE for no FEI before the rate is set, and less than half of it after. -/
theorem ragequit_counterexample :
    construct ledger fei 0xDA 500 200 1000 101000 0xDA = .ok start ∧
    (∀ a ∈ late, a.Regular env.this) ∧ ¬ Uniform env start late ∧
    (run (step env) start late).events.drop 3 = [.Exchange 7 100 0, .Exchange 7 100 55] := by
  refine ⟨deploys, late_regular, ?_, rfl⟩
  intro given
  rcases given with ⟨rate, nonzero, uniform⟩
  have same := (uniform 7 100 200 [] _ _ unpaid).1
  exact nonzero (same.symm.trans rfl)

open Sample in
theorem ragequit_iff_sample : Accounted env start early ∧ Uniform env start early := by
  obtain ⟨accounted, uniform⟩ := ragequit_iff deploys early_regular
  refine ⟨accounted, uniform.mpr (rateSet_of_early early_regular ?_ ?_)⟩
  · simp [opening, setting]
  · decide +kernel

end TRIBERagequit

end FeiProtocol
