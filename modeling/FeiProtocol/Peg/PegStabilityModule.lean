import FeiProtocol.Refs.Constants
import FeiProtocol.Refs.OracleRef

/-!
# Quotes of `PegStabilityModule`, `PriceBoundPSM` and `FixedPricePSM`

What a stability module pays for an amount: `PegStabilityModule` reads the oracle, `PriceBoundPSM`
adds bounds to the price, and `FixedPricePSM` checks the price and then pays one for one. Each takes
its fee in basis points.
-/

namespace FeiProtocol

open Evm

/-- The part of a stability module's storage that its quotes read. -/
structure PegStabilityModule : Type extends OracleRef where
  mintFeeBasisPoints : Nat
  redeemFeeBasisPoints : Nat
  deriving DecidableEq, Repr

structure PriceBoundPSM : Type extends PegStabilityModule where
  floor : Nat
  ceiling : Nat
  deriving DecidableEq, Repr

namespace PegStabilityModule

open Constants Decimal

variable (read : Address → Except Revert (D256 × Bool)) (s : PegStabilityModule)
  (_validatePriceRange : D256 → Except Revert Unit)

/-- `_validatePriceRange` is a hook. -/
def _getMintAmountOut (amountIn : Nat) : Except Revert Nat := do
  let price ← s.readOracle read
  _validatePriceRange price
  let adjustedAmountIn ← price.mulUint amountIn
  let lessFee ← checkedSub BASIS_POINTS_GRANULARITY s.mintFeeBasisPoints
  let scaled ← adjustedAmountIn.mulUint lessFee
  let amountFeiOut ← scaled.divUint BASIS_POINTS_GRANULARITY
  return amountFeiOut.asUint256

def _getRedeemAmountOut (amountFeiIn : Nat) : Except Revert Nat := do
  let price ← s.readOracle read
  _validatePriceRange price
  let lessFee ← checkedSub BASIS_POINTS_GRANULARITY s.redeemFeeBasisPoints
  let scaled ← checkedMul amountFeiIn lessFee
  let adjusted ← checkedDiv scaled BASIS_POINTS_GRANULARITY
  let adjustedAmountIn ← Decimal.ofUint adjusted
  let amountTokenOut ← adjustedAmountIn.div price
  return amountTokenOut.asUint256

end PegStabilityModule

namespace PriceBoundPSM

open Constants Decimal PegStabilityModule

variable (read : Address → Except Revert (D256 × Bool)) (s : PriceBoundPSM)

def _validPrice (price : D256) : Except Revert Bool := do
  let lower ← Decimal.ratio s.floor BASIS_POINTS_GRANULARITY
  if price.greaterThan lower then
    let upper ← Decimal.ratio s.ceiling BASIS_POINTS_GRANULARITY
    return price.lessThan upper
  else return false

def _validatePriceRange (price : D256) : Except Revert Unit := do
  let valid ← s._validPrice price
  require (valid = true) "PegStabilityModule: price out of bounds"

end PriceBoundPSM

namespace FixedPricePSM

open Constants Decimal PegStabilityModule

variable (read : Address → Except Revert (D256 × Bool)) (s : PriceBoundPSM)

/-- One for one, less a fee. -/
def lessFeeOut (amountIn feeBasisPoints : Nat) : Except Revert Nat := do
  let price ← s.readOracle read
  s._validatePriceRange price
  let adjusted ← Decimal.one.mulUint amountIn
  let lessFee ← checkedSub BASIS_POINTS_GRANULARITY feeBasisPoints
  let scaled ← adjusted.mulUint lessFee
  let amountOut ← scaled.divUint BASIS_POINTS_GRANULARITY
  return amountOut.asUint256

def _getMintAmountOut (amountIn : Nat) : Except Revert Nat :=
  lessFeeOut read s amountIn s.mintFeeBasisPoints

def _getRedeemAmountOut (amountFeiIn : Nat) : Except Revert Nat :=
  lessFeeOut read s amountFeiIn s.redeemFeeBasisPoints

end FixedPricePSM

end FeiProtocol
