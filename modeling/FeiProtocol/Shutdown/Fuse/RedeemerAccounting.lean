import FeiProtocol.Math.FloorDiv
import FeiProtocol.Shutdown.Fuse.RedeemerSteps

/-!
# Redemption accounting over whole runs

`Books` is the redeemer's accounting invariant: what is redeemed stays within
what is claimed, claims are proved by a signed user, and the contract's own
token calls are exactly the exchanges its `Redeemed` events report. Each body
keeps it (`books_kept`), so every reachable state has it (`Reachable.books`),
and what a user is paid in total follows by rounding:

* `reachable_accounts`: the accounts of every user and cToken add up.
-/

namespace FeiProtocol

open Evm ReentrancyGuard MultiMerkleRedeemer RedeemerEvent

namespace RariMerkleRedeemer

variable {env : RedeemerEnv} {s s' : RedeemerState} {sender u c : Address}

/-- Some proof passes the Merkle check of `_claim` for `u` and `amount`. -/
def Provable (env : RedeemerEnv) (s : RedeemerState) (u c : Address) (amount : UInt256) : Prop :=
  ∃ merkleProof, MerkleProof.verifyCalldata env.keccak256 merkleProof (s.merkleRoots c)
    (leafHash env u amount) = true

/-- The accounting invariant. -/
structure Books (env : RedeemerEnv) (s : RedeemerState) : Prop where
  capped : ∀ u c, s.redemptions u c ≤ s.claims u c
  proved : ∀ u c, 0 < s.claims u c → ∃ amount : UInt256, amount.toNat = s.claims u c ∧
    Provable env s u c amount ∧ .Claimed u c amount.toNat ∈ s.events
  signed : ∀ u c, 0 < s.claims u c → s.userSignatures u ≠ []
  pulled : ∀ u c, s.ledger.pulled env.this c u = s.redemptions u c
  amounts : ∀ u c, (redeemedAmounts s.events u c).sum = s.redemptions u c
  paid : ∀ u c, paidAmounts s.events u c =
    (redeemedAmounts s.events u c).map fun a => s.cTokenExchangeRates c * a / 10 ^ 18
  calls : s.ledger.calledBy env.this = s.events.flatMap (exchange env.this s.baseToken)

theorem Fresh.books (fresh : Fresh s) (unrecorded : s.ledger.transfers = []) : Books env s where
  capped u c := by rw [fresh.redemptions, fresh.claims]
  proved u c claimed := by rw [fresh.claims] at claimed; cases claimed
  signed u c claimed := by rw [fresh.claims] at claimed; cases claimed
  pulled u c := by simp [Ledger.pulled, Ledger.total, unrecorded, fresh.redemptions]
  amounts u c := by simp [redeemedAmounts, fresh.events, fresh.redemptions]
  paid u c := by simp [paidAmounts, redeemedAmounts, fresh.events]
  calls := by simp [Ledger.calledBy, unrecorded, fresh.events]

theorem Books.sign {signature : Bytes} (books : Books env s)
    (one : _sign env s sender signature = .ok s') : Books env s' := by
  have signs := signed_of_sign one
  obtain ⟨found, rfl⟩ := _sign_eq_ok_iff.mp one
  refine ⟨books.capped, fun u c claimed => ?_, fun u c claimed => ?_, books.pulled, ?_, ?_, ?_⟩
  · obtain ⟨amount, same, proved, event⟩ := books.proved u c claimed
    exact ⟨amount, same, proved, List.mem_append_left _ event⟩
  · rcases eq_or_ne u sender with rfl | other
    · exact signs
    · simpa only [Function.update_of_ne other] using books.signed u c claimed
  · simpa using books.amounts
  · simpa using books.paid
  · simpa [exchange] using books.calls

theorem Books.claim {amount : UInt256} {merkleProof : List Bytes32} (books : Books env s)
    (signed : s.userSignatures sender ≠ [])
    (one : _claim env s sender c amount merkleProof = .ok s') : Books env s' := by
  obtain ⟨unclaimed, verified, rfl⟩ := _claim_eq_ok_iff.mp one
  refine ⟨fun u d => ?_, fun u d claimed => ?_, fun u d claimed => ?_, books.pulled, ?_, ?_, ?_⟩
  · rcases Classical.em (u = sender ∧ d = c) with ⟨rfl, rfl⟩ | other
    · have none := books.capped u d
      simp only [update₂_self]
      omega
    · simpa only [update₂_of_ne _ _ other] using books.capped u d
  · rcases Classical.em (u = sender ∧ d = c) with ⟨rfl, rfl⟩ | other
    · refine ⟨amount, by simp, ⟨merkleProof, verified⟩, ?_⟩
      exact List.mem_append_right _ List.mem_cons_self
    · simp only [update₂_of_ne _ _ other] at claimed ⊢
      obtain ⟨amount', same, proved, event⟩ := books.proved u d claimed
      exact ⟨amount', same, proved, List.mem_append_left _ event⟩
  · rcases Classical.em (u = sender ∧ d = c) with ⟨rfl, rfl⟩ | other
    · exact signed
    · simp only [update₂_of_ne _ _ other] at claimed
      exact books.signed u d claimed
  · simpa using books.amounts
  · simpa using books.paid
  · simpa [exchange] using books.calls

/-- A redemption pulls the redeemed cTokens from the sender, and nothing else. -/
theorem Exchanges.pulled {amount : UInt256} {ledger : Ledger} (outside : sender ≠ env.this)
    (moves : Exchanges env s sender c amount ledger) (u d : Address) :
    ledger.pulled env.this d u =
      s.ledger.pulled env.this d u + if u = sender ∧ d = c then amount.toNat else 0 := by
  obtain ⟨-, pulled, pull, pay⟩ := moves
  have first := (Ledger.safeTransferFrom_moved pull).total_eq
    fun e => e.operator = env.this && e.token = d && e.src = u && e.dst = env.this
  have second := (Ledger.safeTransfer_moved pay).total_eq
    fun e => e.operator = env.this && e.token = d && e.src = u && e.dst = env.this
  -- the payment goes to the sender, which is not the redeemer
  simp only [outside, decide_false, Bool.and_false, Bool.false_eq_true, if_false,
    Nat.add_zero] at second
  rw [Ledger.pulled, second, first]
  rcases Classical.em (u = sender ∧ d = c) with ⟨rfl, rfl⟩ | other
  · simp [Ledger.pulled]
  · have other' : ¬ (c = d ∧ sender = u) := fun h => other ⟨h.2.symm, h.1.symm⟩
    simp [Ledger.pulled, other, other']

/-- The token calls of a redemption are the exchange that its event reports. -/
theorem Exchanges.calledBy {amount : UInt256} {ledger : Ledger}
    (moves : Exchanges env s sender c amount ledger) :
    ledger.calledBy env.this = s.ledger.calledBy env.this ++
      exchange env.this s.baseToken
        (.Redeemed sender c amount.toNat (payout s c amount)) := by
  obtain ⟨-, pulled, pull, pay⟩ := moves
  have first := (Ledger.safeTransferFrom_moved pull).transfers
  have second := (Ledger.safeTransfer_moved pay).transfers
  simp [Ledger.calledBy, second, first, List.filter_append, exchange]

theorem Books.redeem {amount : UInt256} (books : Books env s) (outside : sender ≠ env.this)
    (one : _redeem env s sender c amount = .ok s') : Books env s' := by
  obtain ⟨check, ledger, moves, rfl⟩ := _redeem_eq_ok_iff.mp one
  have moves : Exchanges env s sender c amount ledger := moves
  refine ⟨fun u d => ?_, fun u d claimed => ?_, books.signed, fun u d => ?_, fun u d => ?_,
    fun u d => ?_, ?_⟩
  · simp only [exchanged, counted, update₂_apply]
    split
    · rename_i same
      rw [same.1, same.2]
      exact check.capped
    · exact books.capped u d
  · obtain ⟨amount', same, proved, event⟩ := books.proved u d claimed
    exact ⟨amount', same, proved, List.mem_append_left _ event⟩
  · simp only [exchanged, counted, update₂_apply]
    rw [moves.pulled outside, books.pulled]
    split
    · rename_i same
      rw [same.1, same.2]
    · rfl
  · have before := books.amounts u d
    simp only [exchanged, counted, update₂_apply, redeemedAmounts_redeemed]
    rcases Classical.em (sender = u ∧ c = d) with ⟨rfl, rfl⟩ | other
    · simp [before]
    · have other' : ¬ (u = sender ∧ d = c) := fun h => other ⟨h.1.symm, h.2.symm⟩
      simp [other, other', before]
  · have before := books.paid u d
    simp only [exchanged, counted, redeemedAmounts_redeemed, paidAmounts_redeemed]
    rcases Classical.em (sender = u ∧ c = d) with ⟨rfl, rfl⟩ | other
    · simp [before, payout]
    · simp [other, before]
  · simp only [exchanged, counted, List.flatMap_append, ← books.calls, moves.calledBy]
    simp [payout]

theorem Books.token {call : Ledger.TokenCall} {ledger : Ledger} (books : Books env s)
    (outside : sender ≠ env.this) (performed : s.ledger.perform sender call = .ok ledger) :
    Books env { s with ledger := ledger } := by
  have same := Ledger.perform_calledBy outside performed
  exact
    { books with
      pulled := fun u c => (Ledger.pulled_congr same c u).trans (books.pulled u c)
      calls := same.trans books.calls }

theorem books_kept (outside : sender ≠ env.this) :
    Kept env sender fun s => Sane env s ∧ Books env s :=
  .ofSane (fun _ books one => books.sign one)
    (fun _ books signed one => books.claim signed one)
    (fun _ books _ one => books.redeem outside one)

theorem Reachable.books (reach : Reachable env s) : Books env s :=
  (reach.induction (fun _ outside => books_kept outside)
    (fun outside books performed => books.token outside performed)
    fun deployed => deployed.fresh.books deployed.unrecorded).2

/-! ## Accounts -/

/-- What `u` redeemed of `c` and was paid for it, in a state of the redeemer. -/
structure Accounts (env : RedeemerEnv) (s : RedeemerState) (u c : Address) : Prop where
  capped : s.redemptions u c ≤ s.claims u c
  /-- the claim passed the Merkle check, and its event says so -/
  proved : 0 < s.claims u c → ∃ amount : UInt256, amount.toNat = s.claims u c ∧
    Provable env s u c amount ∧ .Claimed u c amount.toNat ∈ s.events
  signed : 0 < s.claims u c →
    ECDSA.recover env.toPrecompiles (MESSAGE_HASH env) (s.userSignatures u) = .ok u
  unsigned : s.userSignatures 0 = []
  /-- the cTokens taken from `u` are those counted as redeemed -/
  pulled : s.ledger.pulled env.this c u = s.redemptions u c
  /-- the redeemer's token calls are the exchanges of its `Redeemed` events -/
  calls : s.ledger.calledBy env.this = s.events.flatMap (exchange env.this s.baseToken)
  amounts : (redeemedAmounts s.events u c).sum = s.redemptions u c
  /-- each redemption was paid at the rate, rounded down -/
  paid : paidAmounts s.events u c =
    (redeemedAmounts s.events u c).map fun a => s.cTokenExchangeRates c * a / 10 ^ 18
  paid_le : (paidAmounts s.events u c).sum ≤
    s.cTokenExchangeRates c * s.redemptions u c / 10 ^ 18
  le_paid : s.cTokenExchangeRates c * s.redemptions u c / 10 ^ 18 ≤
    (paidAmounts s.events u c).sum + ((redeemedAmounts s.events u c).length - 1)

/-- Rounding, with the rate taken out of the sum. -/
theorem scaled_sum (rate : Nat) (amounts : List Nat) :
    (amounts.map (rate * ·)).sum = rate * amounts.sum := by
  simpa using List.sum_map_mul_left amounts id rate

/-- **Accounting.** In every reachable state the accounts of every user and
cToken add up, whatever the entry points, senders and batches that led there. -/
theorem reachable_accounts (reach : Reachable env s) (u c : Address) : Accounts env s u c := by
  have books := reach.books
  have sane := reach.sane
  have parts : paidAmounts s.events u c =
      ((redeemedAmounts s.events u c).map (s.cTokenExchangeRates c * ·)).map (· / 10 ^ 18) := by
    rw [books.paid, List.map_map]
    rfl
  have whole := scaled_sum (s.cTokenExchangeRates c) (redeemedAmounts s.events u c)
  rw [books.amounts] at whole
  refine
    { capped := books.capped u c
      proved := books.proved u c
      signed := fun claimed => sane.signed u (books.signed u c claimed)
      unsigned := sane.zero
      pulled := books.pulled u c
      calls := books.calls
      amounts := books.amounts u c
      paid := books.paid u c
      paid_le := ?_
      le_paid := ?_ }
  · rw [parts, ← whole]
    exact FloorDiv.sum_div_le _ _
  · have short := FloorDiv.div_sum_le
      ((redeemedAmounts s.events u c).map (s.cTokenExchangeRates c * ·)) (10 ^ 18)
    rw [whole, List.length_map] at short
    rw [parts]
    exact short

end RariMerkleRedeemer

namespace RariMerkleRedeemer.Sample

/-- User 1 redeems 33 and 67 of the 100 cTokens that it claimed, for 82 and 167. -/
def redeems : List Action :=
  claims100 ++ [.redeemer 1 (.redeem 10 33), .redeemer 1 (.redeem 10 67)]

def redeemed : RedeemerState := run (step env) start redeems

theorem redeemed_reachable : Reachable env redeemed := by
  have later : ∀ a ∈ [Action.redeemer 1 (.redeem 10 33), .redeemer 1 (.redeem 10 67)],
      Action.External env a := by simp [Action.External, Action.sender, env]
  refine ⟨_, _, deployed, fun a mem => ?_, rfl⟩
  exact (List.mem_append.mp mem).elim (claims100_external a) (later a)

end RariMerkleRedeemer.Sample

namespace RariMerkleRedeemer

/-- Rounding costs user 1 one of 250. -/
theorem reachable_accounts_redeemed :
    Accounts Sample.env Sample.redeemed 1 10 ∧ Sample.redeemed.claims 1 10 = 100 ∧
      Sample.redeemed.redemptions 1 10 = 100 ∧
      paidAmounts Sample.redeemed.events 1 10 = [82, 167] :=
  ⟨reachable_accounts Sample.redeemed_reachable 1 10, by decide +kernel, by decide +kernel,
    by decide +kernel⟩

end RariMerkleRedeemer

end FeiProtocol
