import FeiProtocol.External.Decimal
import FeiProtocol.Refs.CoreRef

/-!
# `OracleRef`

A price oracle with a backup, read with the decimals of the token it prices. The oracles
themselves are other contracts: `read` is what they answer.
-/

namespace FeiProtocol

open Evm

structure OracleRef : Type where
  oracle : Address
  backupOracle : Address
  decimalsNormalizer : Int
  doInvert : Bool
  deriving DecidableEq, Repr

namespace OracleRef

open CoreRef Decimal

variable (core : Core) (access : AccessControl) (o : OracleRef)

/-- Negation of an `int256`. -/
def checkedNeg (n : Int) : Except Revert Int :=
  if n = -2 ^ 255 then .error (.panic 0x11) else .ok (-n)

/-- `SafeCast.toUint256` -/
def toUint256 (n : Int) : Except Revert Nat := do
  require (0 ≤ n) "SafeCast: value must be positive"
  return n.toNat

def invert (price : D256) : Except Revert D256 := Decimal.one.div price

def readOracle (read : Address → Except Revert (D256 × Bool)) : Except Revert D256 := do
  let (_peg, valid) ← read o.oracle
  let (_peg, valid) ← (if valid = false ∧ o.backupOracle ≠ 0 then read o.backupOracle
    else .ok (_peg, valid))
  require (valid = true) "OracleRef: oracle invalid"
  let _peg ← (if o.doInvert then invert _peg else .ok _peg)
  if o.decimalsNormalizer < 0 then
    let exponent ← checkedNeg o.decimalsNormalizer >>= toUint256
    let scalingFactor ← checked (10 ^ exponent)
    _peg.divUint scalingFactor
  else
    let exponent ← toUint256 o.decimalsNormalizer
    let scalingFactor ← checked (10 ^ exponent)
    _peg.mulUint scalingFactor

def _setOracle (newOracle : Address) : Except Revert OracleRef := do
  require (newOracle ≠ 0) "OracleRef: zero address"
  return { o with oracle := newOracle }

def _setDoInvert (newDoInvert : Bool) : Except Revert OracleRef := do
  let oldDoInvert := o.doInvert
  let o := { o with doInvert := newDoInvert }
  if oldDoInvert ≠ newDoInvert then
    let decimalsNormalizer ← checkedNeg o.decimalsNormalizer
    return { o with decimalsNormalizer }
  else return o

def construct (_oracle _backupOracle : Address) (_decimalsNormalizer : BitVec 256)
    (_doInvert : Bool) : Except Revert OracleRef := do
  let o ← _setOracle ⟨0, 0, 0, false⟩ _oracle
  let o := if _backupOracle ≠ 0 ∧ _backupOracle ≠ _oracle then
    { o with backupOracle := _backupOracle } else o
  let o ← o._setDoInvert _doInvert
  return { o with decimalsNormalizer := _decimalsNormalizer.toInt }

def setOracle (msgSender newOracle : Address) : Except Revert OracleRef := do
  onlyGovernor core msgSender
  o._setOracle newOracle

def setDoInvert (msgSender : Address) (newDoInvert : Bool) : Except Revert OracleRef := do
  onlyGovernor core msgSender
  o._setDoInvert newDoInvert

def setDecimalsNormalizer (msgSender : Address) (newDecimalsNormalizer : BitVec 256) :
    Except Revert OracleRef := do
  onlyGovernor core msgSender
  return { o with decimalsNormalizer := newDecimalsNormalizer.toInt }

def setBackupOracle (CONTRACT_ADMIN_ROLE : Bytes32) (msgSender newBackupOracle : Address) :
    Except Revert OracleRef := do
  onlyGovernorOrAdmin core access CONTRACT_ADMIN_ROLE msgSender
  return { o with backupOracle := newBackupOracle }

end OracleRef

end FeiProtocol
