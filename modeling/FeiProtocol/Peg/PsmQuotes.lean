import FeiProtocol.Math.Exchange
import FeiProtocol.Peg.NonCustodialPSM
import FeiProtocol.Peg.PegStabilityModule

/-!
# Quotes of the stability modules

Whatever the order of the roundings, a quote is an exchange that rounds down, at the price of the
oracle or at one for one.

* `mintQuote`, `redeemQuote`: the quotes as functions of the price and the fee.
* `NoProfit`: what makes a pair of quotes safe.
* `no_profit`: the three pairs are.
-/

namespace FeiProtocol

open Evm Decimal Exchange

/-! ## Quotes as exchanges -/

/-- The FEI for an amount at a price, less a fee in basis points. -/
def mintQuote (price fee x : Nat) : Nat := price * x * (10000 - fee) / 10000 / BASE

/-- The tokens for an amount of FEI at a price, less a fee in basis points. -/
def redeemQuote (price fee x : Nat) : Nat := x * (10000 - fee) / 10000 * BASE * BASE / price / BASE

theorem less_fee_le (n fee : Nat) : n * (10000 - fee) / 10000 ≤ n :=
  Nat.div_le_of_le_mul (by
    rw [Nat.mul_comm]
    exact Nat.mul_le_mul_right n (Nat.sub_le 10000 fee))

theorem mintQuote_within (price fee : Nat) : Within (mintQuote price fee) price BASE := by
  intro x
  calc mintQuote price fee x * BASE
    _ ≤ price * x * (10000 - fee) / 10000 := Nat.div_mul_le_self _ _
    _ ≤ price * x := less_fee_le _ _
    _ = x * price := Nat.mul_comm _ _

theorem redeemQuote_eq (price fee x : Nat) :
    redeemQuote price fee x = x * (10000 - fee) / 10000 * BASE / price := by
  unfold redeemQuote
  rw [Nat.div_div_eq_div_mul, Nat.mul_comm price BASE, ← Nat.div_div_eq_div_mul,
    Nat.mul_div_cancel _ (by decide : 0 < BASE)]

theorem redeemQuote_within (price fee : Nat) : Within (redeemQuote price fee) BASE price := by
  intro x
  rw [redeemQuote_eq]
  calc x * (10000 - fee) / 10000 * BASE / price * price
    _ ≤ x * (10000 - fee) / 10000 * BASE := Nat.div_mul_le_self _ _
    _ ≤ x * BASE := Nat.mul_le_mul_right _ (less_fee_le _ _)

theorem mintQuote_superadditive (price fee : Nat) : Superadditive (mintQuote price fee) :=
  (superadditive_div BASE).comp ((superadditive_div 10000).comp
    ((superadditive_mul_right (10000 - fee)).comp (superadditive_mul price)))

theorem redeemQuote_superadditive (price fee : Nat) : Superadditive (redeemQuote price fee) :=
  (superadditive_div BASE).comp ((superadditive_div price).comp
    ((superadditive_mul_right BASE).comp ((superadditive_mul_right BASE).comp
      ((superadditive_div 10000).comp (superadditive_mul_right (10000 - fee))))))

/-! ## The modules -/

/-- Nothing is gained by minting and redeeming in any order, or by doing either in parts. The
states are those in which the calls are made, all with the same quotes. -/
structure NoProfit {σ : Type} (Quoted : σ → Prop)
    (mintOut redeemOut : σ → Nat → Except Revert Nat) :
    Prop where
  mint_redeem : ∀ {s s' x y z}, Quoted s → Quoted s' → mintOut s x = .ok y →
    redeemOut s' y = .ok z → z ≤ x
  redeem_mint : ∀ {s s' x y z}, Quoted s → Quoted s' → redeemOut s x = .ok y →
    mintOut s' y = .ok z → z ≤ x
  mint_parts : ∀ {s s' t x y a b c}, Quoted s → Quoted s' → Quoted t → mintOut s x = .ok a →
    mintOut s' y = .ok b → mintOut t (x + y) = .ok c → a + b ≤ c
  redeem_parts : ∀ {s s' t x y a b c}, Quoted s → Quoted s' → Quoted t → redeemOut s x = .ok a →
    redeemOut s' y = .ok b → redeemOut t (x + y) = .ok c → a + b ≤ c

/-- Quotes that are exchanges. -/
theorem NoProfit.of_exchanges {σ : Type} {Quoted : σ → Prop}
    {mintOut redeemOut : σ → Nat → Except Revert Nat} {mint redeem : Nat → Nat} {p q : Nat}
    (mints : ∀ {s x y}, Quoted s → mintOut s x = .ok y → 0 < q ∧ mint x = y)
    (redeems : ∀ {s x y}, Quoted s → redeemOut s x = .ok y → 0 < p ∧ redeem x = y)
    (mintWithin : Within mint p q) (redeemWithin : Within redeem q p)
    (mintParts : Superadditive mint) (redeemParts : Superadditive redeem) :
    NoProfit Quoted mintOut redeemOut where
  mint_redeem quoted quoted' first second := by
    obtain ⟨_, rfl⟩ := mints quoted first
    obtain ⟨positive, rfl⟩ := redeems quoted' second
    exact mintWithin.roundTrip redeemWithin positive _
  redeem_mint quoted quoted' first second := by
    obtain ⟨_, rfl⟩ := redeems quoted first
    obtain ⟨positive, rfl⟩ := mints quoted' second
    exact redeemWithin.roundTrip mintWithin positive _
  mint_parts quoted quoted' whole first second third := by
    obtain ⟨_, rfl⟩ := mints quoted first
    obtain ⟨_, rfl⟩ := mints quoted' second
    obtain ⟨_, rfl⟩ := mints whole third
    exact mintParts _ _
  redeem_parts quoted quoted' whole first second third := by
    obtain ⟨_, rfl⟩ := redeems quoted first
    obtain ⟨_, rfl⟩ := redeems quoted' second
    obtain ⟨_, rfl⟩ := redeems whole third
    exact redeemParts _ _

/-- A quote reads the price, has it checked and computes. -/
theorem steps_of_quote {read : Except Revert D256} {check : D256 → Except Revert Unit}
    {steps : D256 → Except Revert Nat} {price : D256} {y : Nat} (reads : read = .ok price)
    (out : (do
      let price ← read
      check price
      steps price) = .ok y) : steps price = .ok y := by
  obtain ⟨_, reads', out⟩ := bind_eq_ok_iff.mp out
  obtain ⟨_, _, out⟩ := bind_eq_ok_iff.mp out
  cases reads.symm.trans reads'
  exact out

/-- The computation of a mint after the price has been read. -/
theorem mint_of_steps {price : D256} {fee x y : Nat}
    (steps : (do
      let adjustedAmountIn ← price.mulUint x
      let lessFee ← checkedSub 10000 fee
      let scaled ← adjustedAmountIn.mulUint lessFee
      let amountFeiOut ← scaled.divUint 10000
      return amountFeiOut.asUint256 : Except Revert Nat) = .ok y) :
    mintQuote price.value fee x = y := by
  simp only [D256.mulUint, D256.divUint, bind_eq_ok_iff, map_eq_ok_iff, pure_eq_ok_iff,
    checkedMul_eq_ok_iff, checkedSub_eq_ok_iff, checkedDiv_eq_ok_iff] at steps
  obtain ⟨_, ⟨_, ⟨_, rfl⟩, rfl⟩, _, ⟨_, rfl⟩, _, ⟨_, ⟨_, rfl⟩, rfl⟩, _, ⟨_, ⟨_, rfl⟩, rfl⟩,
    value⟩ :=
    steps
  exact value

/-- The computation of a redemption after the price has been read. -/
theorem redeem_of_steps {price : D256} {fee x y : Nat}
    (steps : (do
      let lessFee ← checkedSub 10000 fee
      let scaled ← checkedMul x lessFee
      let adjusted ← checkedDiv scaled 10000
      let adjustedAmountIn ← Decimal.ofUint adjusted
      let amountTokenOut ← adjustedAmountIn.div price
      return amountTokenOut.asUint256 : Except Revert Nat) = .ok y) :
    0 < price.value ∧ redeemQuote price.value fee x = y := by
  simp only [Decimal.ofUint, D256.div, getPartial, bind_eq_ok_iff, map_eq_ok_iff, pure_eq_ok_iff,
    checkedMul_eq_ok_iff, checkedSub_eq_ok_iff, checkedDiv_eq_ok_iff] at steps
  obtain ⟨_, ⟨_, rfl⟩, _, ⟨_, rfl⟩, _, ⟨_, rfl⟩, _, ⟨_, ⟨_, rfl⟩, rfl⟩, _,
    ⟨_, ⟨_, ⟨_, rfl⟩, nonzero, rfl⟩, rfl⟩, value⟩ := steps
  exact ⟨Nat.pos_of_ne_zero nonzero, value⟩

/-- A call of a quote of `PegStabilityModule`, with the answers of the oracles and the hook. -/
structure QuoteCall : Type where
  read : Address → Except Revert (D256 × Bool)
  psm : PegStabilityModule
  _validatePriceRange : D256 → Except Revert Unit

/-- A call of a quote of `FixedPricePSM`. -/
structure FixedQuoteCall : Type where
  read : Address → Except Revert (D256 × Bool)
  psm : PriceBoundPSM

/-- **No profit.** At an unchanged price and with unchanged fees, no round trip and no split of
an amount gains anything. -/
theorem no_profit {W : Type} (env : NonCustodialPSMEnv W) (price : D256) (mintFee redeemFee : Nat) :
    NoProfit (fun s : NonCustodialPSMState W => s.toOracleRef.readOracle (env.read s.world) =
        .ok price ∧ s.mintFeeBasisPoints = mintFee ∧ s.redeemFeeBasisPoints = redeemFee)
      (NonCustodialPSM._getMintAmountOut env) (NonCustodialPSM._getRedeemAmountOut env) ∧
    NoProfit (fun c : QuoteCall => c.psm.readOracle c.read = .ok price ∧
        c.psm.mintFeeBasisPoints = mintFee ∧ c.psm.redeemFeeBasisPoints = redeemFee)
      (fun c => PegStabilityModule._getMintAmountOut c.read c.psm c._validatePriceRange)
      (fun c => PegStabilityModule._getRedeemAmountOut c.read c.psm c._validatePriceRange) ∧
    NoProfit (fun c : FixedQuoteCall => c.psm.readOracle c.read = .ok price ∧
        c.psm.mintFeeBasisPoints = mintFee ∧ c.psm.redeemFeeBasisPoints = redeemFee)
      (fun c => FixedPricePSM._getMintAmountOut c.read c.psm)
      (fun c => FixedPricePSM._getRedeemAmountOut c.read c.psm) := by
  have base : 0 < BASE := by decide
  refine ⟨?_, ?_, ?_⟩
  · refine .of_exchanges (fun quoted out => ?_) (fun quoted out => ?_)
      (mintQuote_within price.value mintFee) (redeemQuote_within price.value redeemFee)
      (mintQuote_superadditive _ _) (redeemQuote_superadditive _ _)
    · have steps := steps_of_quote quoted.1 out
      exact ⟨base, quoted.2.1 ▸ mint_of_steps steps⟩
    · have steps := steps_of_quote quoted.1 out
      exact quoted.2.2 ▸ redeem_of_steps steps
  · refine .of_exchanges (fun quoted out => ?_) (fun quoted out => ?_)
      (mintQuote_within price.value mintFee) (redeemQuote_within price.value redeemFee)
      (mintQuote_superadditive _ _) (redeemQuote_superadditive _ _)
    · have steps := steps_of_quote quoted.1 out
      exact ⟨base, quoted.2.1 ▸ mint_of_steps steps⟩
    · have steps := steps_of_quote quoted.1 out
      exact quoted.2.2 ▸ redeem_of_steps steps
  · refine .of_exchanges (fun quoted out => ?_) (fun quoted out => ?_)
      (mintQuote_within BASE mintFee) (mintQuote_within BASE redeemFee)
      (mintQuote_superadditive _ _) (mintQuote_superadditive _ _)
    · obtain ⟨_, _, out⟩ := bind_eq_ok_iff.mp out
      obtain ⟨_, _, out⟩ := bind_eq_ok_iff.mp out
      exact ⟨base, quoted.2.1 ▸ mint_of_steps out⟩
    · obtain ⟨_, _, out⟩ := bind_eq_ok_iff.mp out
      obtain ⟨_, _, out⟩ := bind_eq_ok_iff.mp out
      exact ⟨base, quoted.2.2 ▸ mint_of_steps out⟩

end FeiProtocol
