import FeiProtocol.Evm.Reserves
import FeiProtocol.Fei.FeiCirculation
import FeiProtocol.Peg.PsmContracts

/-!
# What a transaction of a stability module does

Each kind of transaction with what it does to the tokens that the module holds, to the FEI
that circulates outside it, to the rate limit and to the events.

* `step_transition`: these are all transactions.
* `Transition.booked`: the events account for the tokens.
-/

namespace FeiProtocol

open Evm

/-! ## What an event accounts for -/

namespace PsmEvent

@[simp]
def tokensTaken : PsmEvent → Nat
  | .Mint _ amountIn _ => amountIn
  | _ => 0

@[simp]
def tokensRedeemed : PsmEvent → Nat
  | .Redeem _ _ amountAssetOut => amountAssetOut
  | _ => 0

@[simp]
def allocated : PsmEvent → Nat
  | .AllocateSurplus _ amount => amount
  | _ => 0

/-- What was withdrawn of one token. -/
@[simp]
def withdrawn (token : Address) : PsmEvent → Nat
  | .WithdrawERC20 _ withdrawn _ amount => if withdrawn = token then amount else 0
  | _ => 0

@[simp]
def feiTaken : PsmEvent → Nat
  | .Redeem _ amountFeiIn _ => amountFeiIn
  | _ => 0

@[simp]
def feiPaid : PsmEvent → Nat
  | .Mint _ _ amountFeiOut => amountFeiOut
  | _ => 0

end PsmEvent

namespace Psm

open CoreRef ReentrancyGuard

variable {W : Type} {env : PsmEnv W} {s s' : PsmState W} {sender receiver : Address}

/-- The total of a quantity over some events. -/
def volume (quantity : PsmEvent → Nat) (events : List PsmEvent) : Nat :=
  (events.map quantity).sum

@[simp]
theorem volume_nil (quantity : PsmEvent → Nat) : volume quantity [] = 0 := rfl

@[simp]
theorem volume_append (quantity : PsmEvent → Nat) (es fs : List PsmEvent) :
    volume quantity (es ++ fs) = volume quantity es + volume quantity fs := by
  simp [volume]

@[simp]
theorem volume_singleton (quantity : PsmEvent → Nat) (e : PsmEvent) :
    volume quantity [e] = quantity e := by
  simp [volume]

/-- FEI is a token without incentive contracts, and the module has approved nobody. -/
structure Ready (env : PsmEnv W) (s : PsmState W) : Prop where
  plain : Fei.Plain s.fei
  feiUnapproved : Fei.Unapproved s.fei env.this
  unapproved : s.ledger.Unapproved env.this

/-- What happened to the tokens around the module. -/
structure Moved (env : PsmEnv W) (s s' : PsmState W) (taken paid feiTaken feiPaid minted : Nat) :
    Prop where
  tokens : Ledger.Retains env.this env.underlyingToken s.ledger s'.ledger taken paid
  fei : Fei.Circulates env.this s.fei s'.fei feiPaid feiTaken minted

section Moved

variable {s'' : PsmState W} {taken paid feiTaken feiPaid minted taken' paid' feiTaken' feiPaid'
  minted' : Nat}

theorem Moved.refl (ready : Ready env s) : Moved env s s 0 0 0 0 0 :=
  ⟨.refl ready.unapproved, .refl ready.plain ready.feiUnapproved⟩

theorem Moved.trans (first : Moved env s s' taken paid feiTaken feiPaid minted)
    (second : Moved env s' s'' taken' paid' feiTaken' feiPaid' minted') :
    Moved env s s'' (taken + taken') (paid + paid') (feiTaken + feiTaken') (feiPaid + feiPaid')
      (minted + minted') :=
  ⟨first.tokens.trans second.tokens, first.fei.trans second.fei⟩

theorem Moved.ready (moved : Moved env s s' taken paid feiTaken feiPaid minted) :
    Ready env s' :=
  ⟨moved.fei.plain, moved.fei.unapproved, moved.tokens.unapproved⟩

/-- Nothing happened to the tokens. -/
theorem Moved.of_eq (ready : Ready env s) (fei : s'.fei = s.fei) (ledger : s'.ledger = s.ledger) :
    Moved env s s' 0 0 0 0 0 := by
  refine ⟨?_, ?_⟩
  · rw [ledger]
    exact .refl ready.unapproved
  · rw [fei]
    exact .refl ready.plain ready.feiUnapproved

theorem Moved.balance_le (moved : Moved env s s' taken paid feiTaken feiPaid minted) :
    balance env s + taken ≤ balance env s' + paid :=
  moved.tokens.balance_le

end Moved

/-! ## Other accounts -/

theorem perform_moved {a : TokenAction} (ready : Ready env s) (external : a.sender ≠ env.this)
    (succeeds : perform env s a = .ok s') : Moved env s s' 0 0 0 0 0 := by
  cases a with
  | fei sender c =>
      obtain ⟨fei, called, same⟩ := bind_eq_ok_iff.mp succeeds
      cases same
      exact ⟨.refl ready.unapproved,
        Fei.call_circulates ready.plain ready.feiUnapproved external called⟩
  | token sender c =>
      obtain ⟨ledger, performed, same⟩ := bind_eq_ok_iff.mp succeeds
      cases same
      exact ⟨.of_perform ready.unapproved external performed,
        .refl ready.plain ready.feiUnapproved⟩

/-- What a transaction leaves alone besides the tokens. -/
structure SameModule (s s' : PsmState W) : Prop where
  rateLimited : s'.toRateLimited = s.toRateLimited
  bounds : s'.toPriceBoundPSM = s.toPriceBoundPSM
  reservesThreshold : s'.reservesThreshold = s.reservesThreshold
  timestamp : s'.timestamp = s.timestamp
  events : s'.events = s.events

theorem SameModule.refl (s : PsmState W) : SameModule s s := ⟨rfl, rfl, rfl, rfl, rfl⟩

theorem SameModule.trans {s'' : PsmState W} (first : SameModule s s')
    (second : SameModule s' s'') : SameModule s s'' :=
  ⟨second.rateLimited.trans first.rateLimited, second.bounds.trans first.bounds,
    second.reservesThreshold.trans first.reservesThreshold,
    second.timestamp.trans first.timestamp, second.events.trans first.events⟩

theorem perform_sameModule {a : TokenAction} (succeeds : perform env s a = .ok s') :
    SameModule s s' := by
  cases a with
  | fei sender c =>
      obtain ⟨fei, _, same⟩ := bind_eq_ok_iff.mp succeeds
      cases same
      exact ⟨rfl, rfl, rfl, rfl, rfl⟩
  | token sender c =>
      obtain ⟨ledger, _, same⟩ := bind_eq_ok_iff.mp succeeds
      cases same
      exact ⟨rfl, rfl, rfl, rfl, rfl⟩

/-- The calls that a surplus target makes when it is told of a deposit. -/
theorem performAll {calls : List TokenAction} (ready : Ready env s)
    (external : ∀ a ∈ calls, a.sender ≠ env.this)
    (succeeds : calls.foldlM (perform env) s = .ok s') :
    Moved env s s' 0 0 0 0 0 ∧ SameModule s s' := by
  induction calls generalizing s with
  | nil =>
      cases succeeds
      exact ⟨.refl ready, .refl _⟩
  | cons a calls ih =>
      rw [List.foldlM_cons] at succeeds
      obtain ⟨m, first, rest⟩ := bind_eq_ok_iff.mp succeeds
      have moved := perform_moved ready (external a List.mem_cons_self) first
      obtain ⟨later, same⟩ :=
        ih moved.ready (fun b mem => external b (List.mem_cons_of_mem _ mem)) rest
      exact ⟨moved.trans later, (perform_sameModule first).trans same⟩

/-- Surplus targets, where they are called, act for themselves. -/
def TargetsExternal (env : PsmEnv W) : Prop :=
  env.contract = .PegStabilityModule → ∀ {w fei ledger target w' calls},
    env.deposit w fei ledger target = .ok (w', calls) → ∀ a ∈ calls, a.sender ≠ env.this

/-! ## The entry points -/

/-- A redemption takes the FEI in and pays the quote. -/
structure Redeems (env : PsmEnv W) (s s' : PsmState W) (receiver : Address)
    (amountFeiIn amountOut : Nat) : Prop where
  quoted : ∃ world, env.update s.world s.oracle = .ok world ∧
    _getRedeemAmountOut env { s with world } amountFeiIn = .ok amountOut
  moved : Moved env s s' 0 amountOut amountFeiIn 0 0
  rateLimited : s'.toRateLimited = s.toRateLimited
  timestamp : s'.timestamp = s.timestamp
  events : s'.events = s.events ++ [.Redeem receiver amountFeiIn amountOut]

theorem redeems_of_redeem {amountFeiIn minAmountOut : UInt256} (ready : Ready env s)
    (other : sender ≠ env.this)
    (succeeds : redeem env s sender receiver amountFeiIn minAmountOut = .ok s') :
    ∃ amountOut, Redeems env s s' receiver amountFeiIn.toNat amountOut := by
  obtain ⟨_, m, body, guarded⟩ := nonReentrant_inversion.mp succeeds
  simp only [_redeem, updateOracle, _transfer, bind_eq_ok_iff, pure_eq_ok_iff] at body
  obtain ⟨_, _, _, _, _, ⟨world, update, updated⟩, amountOut, quote, _, _, fei, taken, _,
    ⟨ledger, paid, moved⟩, same⟩ := body
  subst updated
  subst moved
  subst same
  subst guarded
  have word : amountFeiIn.toNat ≤ maxUint256 := Nat.le_pred_of_lt amountFeiIn.isLt
  have tokens := @Ledger.Retains.of_transfer _ _ env.this env.underlyingToken _ _ _
    ready.unapproved paid
  rw [if_pos rfl] at tokens
  exact ⟨amountOut, ⟨world, update, quote⟩,
    ⟨tokens, Fei.transferFrom_circulates ready.plain ready.feiUnapproved other word taken⟩,
    rfl, rfl, rfl⟩

/-- A mint takes the tokens in and pays the quote, the last part of it from the rate limit. -/
structure Mints (env : PsmEnv W) (s s' : PsmState W) (receiver : Address)
    (amountIn amountFeiOut minted : Nat) : Prop where
  quoted : ∃ world, env.update s.world s.oracle = .ok world ∧
    _getMintAmountOut env { s with world } amountIn = .ok amountFeiOut
  moved : Moved env s s' amountIn 0 0 amountFeiOut minted
  drawn : minted = 0 ∧ s'.toRateLimited = s.toRateLimited ∨
    ∃ asked, RateLimited.Depleted s.toRateLimited s'.toRateLimited s.timestamp asked minted
  timestamp : s'.timestamp = s.timestamp
  events : s'.events = s.events ++ [.Mint receiver amountIn amountFeiOut]

/-- What `_mintFei` creates is drawn from the rate limit, and no more than was asked for. -/
theorem mintFei_circulates {amount : Nat} (plain : Fei.Plain s.fei)
    (none : Fei.Unapproved s.fei env.this) (whole : s.doPartialAction = false)
    (succeeds : _mintFei env s receiver amount = .ok s') :
    Fei.Circulates env.this s.fei s'.fei amount 0 amount ∧
      RateLimited.Depleted s.toRateLimited s'.toRateLimited s.timestamp amount amount ∧
      ∃ rateLimited fei, s' = { s with toRateLimited := rateLimited, fei } := by
  obtain ⟨⟨r, used⟩, depletes, rest⟩ := bind_eq_ok_iff.mp succeeds
  have depleted := RateLimited.depleted_of_depleteBuffer depletes
  have all := depleted.whole whole
  subst all
  dsimp only at rest
  split at rest
  · obtain ⟨fei, minted, same⟩ := bind_eq_ok_iff.mp rest
    cases same
    exact ⟨Fei.mint_circulates plain none minted, depleted, r, fei, rfl⟩
  · rename_i nothing
    rw [not_not] at nothing
    cases rest
    subst nothing
    exact ⟨.refl plain none, depleted, r, s.fei, rfl⟩

theorem mints_of_mint {amountIn minAmountOut : UInt256} (ready : Ready env s)
    (whole : s.doPartialAction = false) (other : sender ≠ env.this)
    (succeeds : mint env s sender receiver amountIn minAmountOut = .ok s') :
    ∃ amountFeiOut minted, Mints env s s' receiver amountIn.toNat amountFeiOut minted := by
  obtain ⟨_, m, body, guarded⟩ := nonReentrant_inversion.mp succeeds
  simp only [_mint, updateOracle, bind_eq_ok_iff, pure_eq_ok_iff, checkedSub_eq_ok_iff] at body
  obtain ⟨_, _, _, _, _, ⟨world, update, updated⟩, amountFeiOut, quote, _, _, ledger, taken,
    minted, ⟨covered, rest⟩, fei, sent, t, creation, same⟩ := body
  subst updated
  subst same
  subst guarded
  have tokens := Ledger.Retains.of_transferFrom ready.unapproved other taken
  have transferred := Fei.transfer_circulates ready.plain ready.feiUnapproved sent
  refine ⟨amountFeiOut, minted, ?_⟩
  split at creation
  · obtain ⟨created, depleted, r, fei', same⟩ :=
      mintFei_circulates (s := { s with _status := _ENTERED, world, ledger, fei })
        transferred.plain transferred.unapproved whole creation
    subst same
    have both := transferred.trans created
    rw [show min (feiBalance env _) amountFeiOut + minted = amountFeiOut from by omega,
      Nat.zero_add, Nat.zero_add] at both
    exact ⟨⟨world, update, quote⟩, ⟨tokens, both⟩, .inr ⟨_, depleted⟩, rfl, rfl⟩
  · rename_i nothing
    cases creation
    have none : minted = 0 := by omega
    subst none
    rw [show min (feiBalance env _) amountFeiOut = amountFeiOut from by omega] at transferred
    exact ⟨⟨world, update, quote⟩, ⟨tokens, transferred⟩, .inl ⟨rfl, rfl⟩, rfl, rfl⟩

/-- An allocation sends away what there is above the threshold. -/
structure Allocates (env : PsmEnv W) (s s' : PsmState W) (caller : Address) (amount : Nat) :
    Prop where
  surplus : balance env s = s.reservesThreshold + amount
  moved : Moved env s s' 0 amount 0 0 0
  rateLimited : s'.toRateLimited = s.toRateLimited
  timestamp : s'.timestamp = s.timestamp
  events : s'.events = s.events ++ [.AllocateSurplus caller amount]

theorem reservesSurplus_eq_ok_iff {surplus : Int} : reservesSurplus env s = .ok surplus ↔
    balance env s < 2 ^ 255 ∧ s.reservesThreshold < 2 ^ 255 ∧
      (balance env s : Int) - s.reservesThreshold = surplus := by
  simp only [reservesSurplus, bind_eq_ok_iff, toInt256_eq_ok_iff, checkedIntSub_eq_ok_iff,
    and_assoc, exists_and_left, exists_eq_left']
  constructor
  · intro given
    rcases given with ⟨held, threshold, _, _, same⟩
    exact ⟨held, threshold, same⟩
  · intro given
    rcases given with ⟨held, threshold, same⟩
    exact ⟨held, threshold, by omega, by omega, same⟩

theorem allocates_of_allocate {caller : Address} {surplus : Int} {amount : Nat}
    (targets : TargetsExternal env) (ready : Ready env s)
    (read : reservesSurplus env s = .ok surplus) (positive : surplus > 0)
    (cast : Evm.toUint256 surplus = .ok amount)
    (succeeds : _allocate env s caller amount = .ok s') : Allocates env s s' caller amount := by
  obtain ⟨_, _, value⟩ := reservesSurplus_eq_ok_iff.mp read
  obtain ⟨_, same⟩ := toUint256_eq_ok_iff.mp cast
  have surplus : balance env s = s.reservesThreshold + amount := by omega
  obtain ⟨t, sent, called⟩ := bind_eq_ok_iff.mp succeeds
  obtain ⟨ledger, transferred, left⟩ := bind_eq_ok_iff.mp sent
  obtain ⟨u, told, last⟩ := bind_eq_ok_iff.mp called
  cases left
  cases last
  have tokens := @Ledger.Retains.of_transfer _ _ env.this env.underlyingToken _ _ _
    ready.unapproved transferred
  rw [if_pos rfl] at tokens
  have paid : Moved env s { s with ledger } 0 amount 0 0 0 :=
    ⟨tokens, .refl ready.plain ready.feiUnapproved⟩
  cases named : env.contract with
  | PegStabilityModule =>
      rw [named] at told
      obtain ⟨⟨world, calls⟩, deposited, performed⟩ := bind_eq_ok_iff.mp told
      obtain ⟨moved, same⟩ := performAll (s := { s with ledger, world })
        ⟨ready.plain, ready.feiUnapproved, tokens.unapproved⟩ (targets named deposited) performed
      have both := paid.trans ⟨moved.tokens, moved.fei⟩
      exact ⟨surplus, ⟨both.tokens, both.fei⟩, same.rateLimited, same.timestamp,
        congrArg (· ++ _) same.events⟩
  | PriceBoundPSM | FixedPricePSM =>
      rw [named] at told
      cases told
      exact ⟨surplus, ⟨paid.tokens, paid.fei⟩, rfl, rfl, rfl⟩

theorem allocates_of_allocateSurplus (targets : TargetsExternal env) (ready : Ready env s)
    (succeeds : allocateSurplus env s sender = .ok s') :
    ∃ amount, Allocates env s s' sender amount := by
  simp only [allocateSurplus, bind_eq_ok_iff, require_eq_ok_iff, exists_const] at succeeds
  obtain ⟨surplus, read, positive, amount, cast, allocates⟩ := succeeds
  exact ⟨amount, allocates_of_allocate targets ready read positive cast allocates⟩

/-- A deposit allocates the surplus, if there is one. -/
theorem allocates_of_deposit (targets : TargetsExternal env) (ready : Ready env s)
    (succeeds : deposit env s sender = .ok s') :
    s' = s ∧ balance env s ≤ s.reservesThreshold ∨ ∃ amount, Allocates env s s' sender amount := by
  obtain ⟨surplus, read, rest⟩ := bind_eq_ok_iff.mp succeeds
  split at rest
  · rename_i positive
    obtain ⟨amount, cast, allocates⟩ := bind_eq_ok_iff.mp rest
    exact .inr ⟨amount, allocates_of_allocate targets ready read positive cast allocates⟩
  · cases rest
    obtain ⟨_, _, value⟩ := reservesSurplus_eq_ok_iff.mp read
    exact .inl ⟨rfl, by omega⟩

/-- A withdrawal sends away some token, by order of a PCV controller. -/
structure Withdraws (env : PsmEnv W) (s s' : PsmState W) (caller token receiver : Address)
    (amount : Nat) : Prop where
  controller : env.token.core.isPCVController caller = true
  moved : Moved env s s' 0 (if token = env.underlyingToken then amount else 0) 0
    (if token = env.fei then amount else 0) 0
  rateLimited : s'.toRateLimited = s.toRateLimited
  timestamp : s'.timestamp = s.timestamp
  events : s'.events = s.events ++ [.WithdrawERC20 caller token receiver amount]

theorem withdraws_of_withdrawERC20 {token : Address} {amount : UInt256} (ready : Ready env s)
    (succeeds : withdrawERC20 env s sender token receiver amount = .ok s') :
    Withdraws env s s' sender token receiver amount.toNat := by
  obtain ⟨_, allowed, sends⟩ := bind_eq_ok_iff.mp succeeds
  have controller := require_eq_ok_iff.mp allowed
  obtain ⟨t, sent, last⟩ := bind_eq_ok_iff.mp sends
  cases last
  split at sent
  · rename_i isFei
    obtain ⟨fei, transferred, left⟩ := bind_eq_ok_iff.mp sent
    cases left
    refine ⟨controller, ⟨?_, ?_⟩, rfl, rfl, rfl⟩
    · rw [if_neg (isFei ▸ env.underlyingToken_ne.symm)]
      exact .refl ready.unapproved
    · rw [if_pos isFei]
      exact Fei.transfer_circulates ready.plain ready.feiUnapproved transferred
  · rename_i another
    obtain ⟨ledger, transferred, left⟩ := bind_eq_ok_iff.mp sent
    cases left
    refine ⟨controller, ⟨.of_transfer ready.unapproved transferred, ?_⟩, rfl, rfl, rfl⟩
    rw [if_neg another]
    exact .refl ready.plain ready.feiUnapproved

/-! ## All transactions -/

/-- The module sends no transaction, and no token call. -/
def Action.External (this : Address) : Action W → Prop
  | .mint sender _ _ _ => sender ≠ this
  | .redeem sender _ _ _ => sender ≠ this
  | .tokens a => a.sender ≠ this
  | _ => True

/-- What a transaction leaves alone that does not call a token or touch the rate limit. -/
structure Quiet (s s' : PsmState W) : Prop where
  fei : s'.fei = s.fei
  ledger : s'.ledger = s.ledger
  rateLimited : s'.toRateLimited = s.toRateLimited
  later : s.timestamp ≤ s'.timestamp
  events : s'.events = s.events

theorem admin_quiet {c : AdminCall} (succeeds : admin env s sender c = .ok s') : Quiet s s' := by
  have quiet : ∀ {t : PsmState W}, t.fei = s.fei → t.ledger = s.ledger →
      t.toRateLimited = s.toRateLimited → t.timestamp = s.timestamp → t.events = s.events →
      Quiet s t :=
    fun fei ledger rate time events => ⟨fei, ledger, rate, Nat.le_of_eq time.symm, events⟩
  cases c with
  | pause =>
      have same := pause_eq succeeds
      subst same
      exact quiet rfl rfl rfl rfl rfl
  | unpause =>
      have same := unpause_eq succeeds
      subst same
      exact quiet rfl rfl rfl rfl rfl
  | pauseRedeem | unpauseRedeem | pauseMint | unpauseMint | setOracle newOracle
  | setDoInvert newDoInvert | setDecimalsNormalizer newDecimalsNormalizer
  | setBackupOracle newBackupOracle | setContractAdminRole newContractAdminRole =>
      obtain ⟨_, _, same⟩ := bind_eq_ok_iff.mp succeeds
      cases same
      exact quiet rfl rfl rfl rfl rfl
  -- these check the new value too
  | setMintFee newFee | setRedeemFee newFee | setReservesThreshold newReservesThreshold
  | setSurplusTarget newTarget =>
      obtain ⟨_, _, checks⟩ := bind_eq_ok_iff.mp succeeds
      obtain ⟨_, _, same⟩ := bind_eq_ok_iff.mp checks
      cases same
      exact quiet rfl rfl rfl rfl rfl
  -- and these compare it with the other bound
  | setOracleFloorBasisPoints newBasisPoints | setOracleCeilingBasisPoints newBasisPoints =>
      obtain ⟨_, _, rest⟩ := bind_eq_ok_iff.mp succeeds
      obtain ⟨_, _, checks⟩ := bind_eq_ok_iff.mp rest
      obtain ⟨_, _, checks⟩ := bind_eq_ok_iff.mp checks
      obtain ⟨_, _, checks⟩ := bind_eq_ok_iff.mp checks
      obtain ⟨_, _, checks⟩ := bind_eq_ok_iff.mp checks
      obtain ⟨_, _, same⟩ := bind_eq_ok_iff.mp checks
      cases same
      exact quiet rfl rfl rfl rfl rfl

/-- Everything a step can do to the reserves, to FEI and to the buffer. -/
inductive Transition (env : PsmEnv W) (s s' : PsmState W) : Prop where
  | redeems (receiver : Address) (amountFeiIn amountOut : Nat)
    (redeems : Redeems env s s' receiver amountFeiIn amountOut)
  | mints (receiver : Address) (amountIn amountFeiOut minted : Nat)
    (mints : Mints env s s' receiver amountIn amountFeiOut minted)
  | allocates (caller : Address) (amount : Nat) (allocates : Allocates env s s' caller amount)
  | withdraws (caller token receiver : Address) (amount : Nat)
    (withdraws : Withdraws env s s' caller token receiver amount)
  | relimited (cap rate : Nat) (slow : s.rateLimitPerSecond ≤ s.MAX_RATE_LIMIT_PER_SECOND →
      rate ≤ s.MAX_RATE_LIMIT_PER_SECOND)
    (relimited : RateLimited.Relimited s.toRateLimited s'.toRateLimited s.timestamp cap rate)
    (fei : s'.fei = s.fei) (ledger : s'.ledger = s.ledger) (timestamp : s'.timestamp = s.timestamp)
    (events : s'.events = s.events)
  | called (moved : Moved env s s' 0 0 0 0 0) (same : SameModule s s')
  | quiet (quiet : Quiet s s')

theorem step_transition {a : Action W} (targets : TargetsExternal env) (ready : Ready env s)
    (whole : s.doPartialAction = false) (external : a.External env.this)
    (succeeds : step env s a = .ok s') : Transition env s s' := by
  cases a with
  | mint sender receiver amountIn minAmountOut =>
      obtain ⟨amountFeiOut, minted, mints⟩ := mints_of_mint ready whole external succeeds
      exact .mints receiver _ amountFeiOut minted mints
  | redeem sender receiver amountFeiIn minAmountOut =>
      obtain ⟨amountOut, redeems⟩ := redeems_of_redeem ready external succeeds
      exact .redeems receiver _ amountOut redeems
  | allocateSurplus sender =>
      obtain ⟨amount, allocates⟩ := allocates_of_allocateSurplus targets ready succeeds
      exact .allocates sender amount allocates
  | deposit sender =>
      rcases allocates_of_deposit targets ready succeeds with ⟨same, _⟩ | ⟨amount, allocates⟩
      · subst same
        exact .quiet ⟨rfl, rfl, rfl, Nat.le_refl _, rfl⟩
      · exact .allocates sender amount allocates
  | withdraw sender receiver amount =>
      exact .withdraws sender _ receiver _ (withdraws_of_withdrawERC20 ready succeeds)
  | withdrawERC20 sender token receiver amount =>
      exact .withdraws sender token receiver _ (withdraws_of_withdrawERC20 ready succeeds)
  | setRateLimitPerSecond sender newRateLimitPerSecond =>
      obtain ⟨r, called, same⟩ := bind_eq_ok_iff.mp succeeds
      cases same
      refine .relimited _ _ (fun _ => ?_) (RateLimited.setRateLimitPerSecond_relimited called)
        rfl rfl rfl rfl
      simp only [RateLimited.setRateLimitPerSecond, bind_eq_ok_iff, require_eq_ok_iff] at called
      obtain ⟨_, _, _, slow, _⟩ := called
      exact slow
  | setBufferCap sender newBufferCap =>
      obtain ⟨r, called, same⟩ := bind_eq_ok_iff.mp succeeds
      cases same
      exact .relimited _ _ id (RateLimited.setBufferCap_relimited called) rfl rfl rfl rfl
  | admin sender c => exact .quiet (admin_quiet succeeds)
  | updateOracle =>
      obtain ⟨world, _, same⟩ := bind_eq_ok_iff.mp succeeds
      cases same
      exact .quiet ⟨rfl, rfl, rfl, Nat.le_refl _, rfl⟩
  | tokens a =>
      exact .called (perform_moved ready external succeeds) (perform_sameModule succeeds)
  | outside world =>
      cases succeeds
      exact .quiet ⟨rfl, rfl, rfl, Nat.le_refl _, rfl⟩
  | elapse seconds =>
      cases succeeds
      exact .quiet ⟨rfl, rfl, rfl, Nat.le_add_right _ _, rfl⟩

/-! ## The books -/

/-- Everything that leaves the module by its own calls. -/
def tokensPaid (env : PsmEnv W) (e : PsmEvent) : Nat :=
  e.tokensRedeemed + e.allocated + e.withdrawn env.underlyingToken

def feiPaidOut (env : PsmEnv W) (e : PsmEvent) : Nat :=
  e.feiPaid + e.withdrawn env.fei

theorem volume_add (f g : PsmEvent → Nat) (events : List PsmEvent) :
    volume (fun e => f e + g e) events = volume f events + volume g events :=
  List.sum_map_add

theorem volume_tokensPaid (env : PsmEnv W) (events : List PsmEvent) :
    volume (tokensPaid env) events = volume PsmEvent.tokensRedeemed events +
      volume PsmEvent.allocated events +
        volume (PsmEvent.withdrawn env.underlyingToken) events := by
  rw [← volume_add, ← volume_add]
  rfl

theorem volume_feiPaidOut (env : PsmEnv W) (events : List PsmEvent) :
    volume (feiPaidOut env) events = volume PsmEvent.feiPaid events +
      volume (PsmEvent.withdrawn env.fei) events := by
  rw [← volume_add]
  rfl

/-- The events of a transaction, or of several, account for the tokens. -/
structure Booked (env : PsmEnv W) (s s' : PsmState W) (added : List PsmEvent) (minted : Nat) :
    Prop where
  events : s'.events = s.events ++ added
  moved : Moved env s s' (volume PsmEvent.tokensTaken added) (volume (tokensPaid env) added)
    (volume PsmEvent.feiTaken added) (volume (feiPaidOut env) added) minted

theorem Booked.refl (ready : Ready env s) : Booked env s s [] 0 :=
  ⟨(List.append_nil _).symm, .refl ready⟩

theorem Booked.trans {s'' : PsmState W} {added added' : List PsmEvent} {minted minted' : Nat}
    (first : Booked env s s' added minted) (second : Booked env s' s'' added' minted') :
    Booked env s s'' (added ++ added') (minted + minted') := by
  refine ⟨?_, ?_⟩
  · rw [second.events, first.events, List.append_assoc]
  · simpa only [volume_append] using first.moved.trans second.moved

theorem Booked.eq_of_events {added new : List PsmEvent} {minted : Nat}
    (booked : Booked env s s' added minted) (events : s'.events = s.events ++ new) :
    added = new :=
  List.append_cancel_left (booked.events.symm.trans events)

theorem Booked.eq_nil {added : List PsmEvent} {minted : Nat}
    (booked : Booked env s s' added minted) (events : s'.events = s.events) : added = [] := by
  apply booked.eq_of_events
  rw [events, List.append_nil]

theorem Transition.booked (transition : Transition env s s') (ready : Ready env s) :
    ∃ added minted, Booked env s s' added minted := by
  cases transition with
  | redeems receiver amountFeiIn amountOut redeems =>
      exact ⟨_, 0, redeems.events, by
        simpa [tokensPaid, feiPaidOut] using redeems.moved⟩
  | mints receiver amountIn amountFeiOut minted mints =>
      exact ⟨_, minted, mints.events, by
        simpa [tokensPaid, feiPaidOut] using mints.moved⟩
  | allocates caller amount allocates =>
      exact ⟨_, 0, allocates.events, by
        simpa [tokensPaid, feiPaidOut] using allocates.moved⟩
  | withdraws caller token receiver amount withdraws =>
      exact ⟨_, 0, withdraws.events, by
        simpa [tokensPaid, feiPaidOut] using withdraws.moved⟩
  | relimited cap rate slow relimited fei ledger timestamp events =>
      exact ⟨[], 0, by rw [events, List.append_nil], .of_eq ready fei ledger⟩
  | called moved same => exact ⟨[], 0, by rw [same.events, List.append_nil], moved⟩
  | quiet quiet =>
      exact ⟨[], 0, by rw [quiet.events, List.append_nil], .of_eq ready quiet.fei quiet.ledger⟩

/-! ## Deployment -/

/-- What holds of the module from its deployment on. -/
structure Sound (env : PsmEnv W) (s : PsmState W) : Prop where
  ready : Ready env s
  whole : s.doPartialAction = false
  max : s.MAX_RATE_LIMIT_PER_SECOND = MAX_FEI_LIMIT_PER_SECOND.toNat
  slow : s.rateLimitPerSecond ≤ s.MAX_RATE_LIMIT_PER_SECOND

theorem Sound.of_rateLimited (sound : Sound env s) (ready : Ready env s')
    (same : s'.toRateLimited = s.toRateLimited) : Sound env s' := by
  refine ⟨ready, ?_, ?_, ?_⟩
  · rw [same]
    exact sound.whole
  · rw [same]
    exact sound.max
  · rw [same]
    exact sound.slow

theorem Transition.sound (transition : Transition env s s') (sound : Sound env s) :
    Sound env s' := by
  obtain ⟨added, minted, booked⟩ := transition.booked sound.ready
  have ready := booked.moved.ready
  cases transition with
  | redeems receiver amountFeiIn amountOut redeems =>
      exact sound.of_rateLimited ready redeems.rateLimited
  | mints receiver amountIn amountFeiOut minted mints =>
      rcases mints.drawn with ⟨_, same⟩ | ⟨asked, depleted⟩
      · exact sound.of_rateLimited ready same
      · have rate : s'.rateLimitPerSecond = s.rateLimitPerSecond :=
          congrArg TokenBucket.rate depleted.bucket
        refine ⟨ready, depleted.doPartialAction.trans sound.whole,
          depleted.max.trans sound.max, ?_⟩
        rw [rate, depleted.max]
        exact sound.slow
  | allocates caller amount allocates =>
      exact sound.of_rateLimited ready allocates.rateLimited
  | withdraws caller token receiver amount withdraws =>
      exact sound.of_rateLimited ready withdraws.rateLimited
  | relimited cap rate slow relimited fei ledger timestamp events =>
      have rate' : s'.rateLimitPerSecond = rate := congrArg TokenBucket.rate relimited.bucket
      refine ⟨ready, relimited.doPartialAction.trans sound.whole,
        relimited.max.trans sound.max, ?_⟩
      rw [rate', relimited.max]
      exact slow sound.slow
  | called moved same => exact sound.of_rateLimited ready same.rateLimited
  | quiet quiet => exact sound.of_rateLimited ready quiet.rateLimited

/-- The constructor ran, around tokens that are ready for the module. -/
structure Deployed (env : PsmEnv W) (s₀ : PsmState W) : Prop where
  deploys : ∃ world timestamp args,
    construct env s₀.fei s₀.ledger world timestamp args = .ok s₀
  ready : Ready env s₀
  targets : TargetsExternal env

theorem constructed_rateLimited {timestamp : Nat} {rate cap : UInt256} {r : RateLimited}
    (constructs : RateLimited.construct timestamp MAX_FEI_LIMIT_PER_SECOND rate cap false = .ok r) :
    r.doPartialAction = false ∧
      r.MAX_RATE_LIMIT_PER_SECOND = MAX_FEI_LIMIT_PER_SECOND.toNat ∧
      r.rateLimitPerSecond ≤ r.MAX_RATE_LIMIT_PER_SECOND := by
  simp only [RateLimited.construct, bind_eq_ok_iff, pure_eq_ok_iff, require_eq_ok_iff]
    at constructs
  obtain ⟨_, _, _, slow, same⟩ := constructs
  subst same
  exact ⟨rfl, rfl, slow⟩

theorem Deployed.sound {s₀ : PsmState W} (deployed : Deployed env s₀) :
    Sound env s₀ ∧ s₀.events = [] := by
  obtain ⟨world, timestamp, args, deploys⟩ := deployed.deploys
  simp only [construct, bind_eq_ok_iff, _setReservesThreshold, _setMintFee, _setRedeemFee,
    _setSurplusTarget, pure_eq_ok_iff] at deploys
  obtain ⟨r, limited, oracleRef, _, _, ⟨_, _, threshold⟩, _, ⟨_, _, mintFee⟩, _,
    ⟨_, _, redeemFee⟩, _, ⟨_, _, target⟩, last⟩ := deploys
  subst threshold
  subst mintFee
  subst redeemFee
  subst target
  have same : s₀.toRateLimited = r ∧ s₀.events = [] := by
    cases named : env.contract with
    | PegStabilityModule =>
        rw [named] at last
        have last := pure_eq_ok_iff.mp last
        rw [← last]
        exact ⟨rfl, rfl⟩
    | PriceBoundPSM | FixedPricePSM =>
        rw [named] at last
        simp only [_setCeilingBasisPoints, _setFloorBasisPoints, bind_eq_ok_iff,
          pure_eq_ok_iff] at last
        obtain ⟨_, ⟨_, _, _, _, _, _, _, _, ceiling⟩, _, _, _, _, _, _, _, _, floor⟩ := last
        subst ceiling
        rw [← floor]
        exact ⟨rfl, rfl⟩
  obtain ⟨whole, max, slow⟩ := constructed_rateLimited limited
  rw [← same.1] at whole max slow
  exact ⟨⟨deployed.ready, whole, max, slow⟩, same.2⟩

theorem Deployed.run_sound {s₀ : PsmState W} (deployed : Deployed env s₀)
    {history : List (Action W)} (external : ∀ a ∈ history, a.External env.this) :
    Sound env (run (step env) s₀ history) := by
  apply run_invariant (I := Sound env) (A := fun a => a.External env.this)
  · intro s a s' sound external succeeds
    exact (step_transition deployed.targets sound.ready sound.whole external succeeds).sound sound
  · exact deployed.sound.1
  · exact external

end Psm

namespace Psm.Sample

/-- The module is `0xBB`, account 1 governs, account 3 controls PCV and account 8 mints FEI
elsewhere. The world is what the oracle says. The target moves 7 tokens on to account 31. -/
def env (contract : PsmContract) : PsmEnv (Decimal.D256 × Bool) where
  contract := contract
  access := ⟨fun _ _ => false, ⟨1, 2, 3, 4⟩⟩
  token :=
    { core := ⟨fun a => a = 0xBB ∨ a = 8, fun _ => false, fun a => a = 3, fun a => a = 1,
        fun _ => false⟩
      super := .standard
      incentivize := fun _ s _ _ _ _ => .ok s }
  fei := 0xFE
  underlyingToken := 20
  underlyingToken_ne := by decide
  this := 0xBB
  update w _ := .ok w
  read w _ := .ok w
  deposit w _ _ _ := .ok (w, [.token 30 (.transfer 20 31 7)])

def fei : FeiState where
  erc20 :=
    { balanceOf := fun _ => 0, allowance := fun _ _ => 0, totalSupply := 0, unlimited := true }
  incentiveContract := fun _ => 0
  _paused := false
  events := []

/-- Account 6 has 1000 tokens and lets the module take them. -/
def ledger : Ledger where
  erc20 := fun _ =>
    { balanceOf := fun a => if a = 6 then 1000 else 0
      allowance := fun owner spender => if owner = 6 ∧ spender = 0xBB then 1000 else 0
      totalSupply := 1000
      unlimited := false }
  transfers := []

/-- Bounds of 98 and 102 cents, no fees, a threshold of 100 and a buffer of 300. -/
def args : ConstructorArgs :=
  ⟨9800, 10200, ⟨40, 0, 0, false⟩, 0, 0, 100, 2, 300, 30⟩

def start (contract : PsmContract) (price : Nat) : PsmState (Decimal.D256 × Bool) where
  MAX_RATE_LIMIT_PER_SECOND := MAX_FEI_LIMIT_PER_SECOND.toNat
  rateLimitPerSecond := 2
  lastBufferUsedTime := 1000
  bufferCap := 300
  doPartialAction := false
  bufferStored := 300
  oracle := 40
  backupOracle := 0
  decimalsNormalizer := 0
  doInvert := false
  mintFeeBasisPoints := 0
  redeemFeeBasisPoints := 0
  floor := if contract = .PegStabilityModule then 0 else 9800
  ceiling := if contract = .PegStabilityModule then 0 else 10200
  reservesThreshold := 100
  surplusTarget := 30
  redeemPaused := false
  mintPaused := false
  CONTRACT_ADMIN_ROLE := 3
  _paused := false
  _status := 1
  fei := fei
  ledger := ledger
  world := (⟨price⟩, true)
  timestamp := 1000
  events := []

theorem targets (contract : PsmContract) : TargetsExternal (env contract) := by
  intro _ w fei ledger target w' calls told a mem
  cases told
  rw [List.mem_singleton.mp mem]
  exact (by decide : (30 : Address) ≠ 0xBB)

theorem ceiling_set (s : PsmState (Decimal.D256 × Bool)) (unset : s.floor = 0) :
    _setCeilingBasisPoints s 10200 = .ok { s with ceiling := 10200 } := by
  rw [_setCeilingBasisPoints, unset]
  rfl

theorem floor_set (s : PsmState (Decimal.D256 × Bool)) (set : s.ceiling = 10200) :
    _setFloorBasisPoints s 9800 = .ok { s with floor := 9800 } := by
  rw [_setFloorBasisPoints, set]
  rfl

theorem deployed (contract : PsmContract) (price : Nat) :
    Deployed (env contract) (start contract price) where
  deploys := by
    refine ⟨(⟨price⟩, true), 1000, args, ?_⟩
    cases contract with
    | PegStabilityModule => rfl
    | PriceBoundPSM | FixedPricePSM =>
        simp only [construct, bind_eq_ok_iff]
        exact ⟨_, rfl, _, rfl, _, rfl, _, rfl, _, rfl, _, rfl,
          bind_eq_ok_iff.mpr ⟨_, ceiling_set _ rfl, floor_set _ rfl⟩⟩
  ready :=
    { plain := ⟨fun _ => rfl, ⟨by simp [start, fei], by simp [start, fei]⟩⟩
      feiUnapproved := fun _ => rfl
      unapproved := fun _ _ => rfl }
  targets := targets contract

end Psm.Sample

end FeiProtocol
