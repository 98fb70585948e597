import FeiProtocol.Evm.Execution

/-!
# `Decimal`

Fixed-point numbers with 18 decimal places. Products and quotients round down, and revert
where the word overflows.
-/

namespace FeiProtocol

open Evm

namespace Decimal

def BASE : Nat := 10 ^ 18

structure D256 : Type where
  value : Nat
  deriving DecidableEq, Repr

def getPartial (target numerator denominator : Nat) : Except Revert Nat := do
  let product ← checkedMul target numerator
  checkedDiv product denominator

def one : D256 := ⟨BASE⟩

/-- `Decimal.from` -/
def ofUint (a : Nat) : Except Revert D256 := D256.mk <$> checkedMul a BASE

def ratio (a b : Nat) : Except Revert D256 := D256.mk <$> getPartial a BASE b

namespace D256

variable (self : D256)

/-- `mul` by an integer -/
def mulUint (b : Nat) : Except Revert D256 := D256.mk <$> checkedMul self.value b

/-- `div` by an integer -/
def divUint (b : Nat) : Except Revert D256 := D256.mk <$> checkedDiv self.value b

def div (b : D256) : Except Revert D256 := D256.mk <$> getPartial self.value BASE b.value

def greaterThan (b : D256) : Bool := self.value > b.value

def lessThan (b : D256) : Bool := self.value < b.value

def lessThanOrEqualTo (b : D256) : Bool := self.value ≤ b.value

def asUint256 : Nat := self.value / BASE

end D256

end Decimal

end FeiProtocol
