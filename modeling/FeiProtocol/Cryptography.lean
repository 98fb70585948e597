import FeiProtocol.Evm.Execution
import Mathlib.Data.List.Basic

/-!
# ECDSA recovery and Merkle proofs

The two library functions the redeemer's checks rest on, as the flattened
redeemer has them: `ECDSA.recover` on 65-byte and 64-byte signatures, and
`MerkleProof.verifyCalldata`. The hash function and the signature recovery
precompile are parameters; nothing is assumed of either here.
-/

namespace FeiProtocol

open Evm

/-- The two primitives of the chain that the contracts call. -/
structure Precompiles : Type where
  keccak256 : Bytes → Bytes32
  /-- hash, `v`, `r`, `s`; the zero address when there is no signer -/
  ecrecover : Bytes32 → Nat → Bytes32 → Bytes32 → Address

/-- The hash of a text, as type hashes are made. -/
def Precompiles.hashText (P : Precompiles) (text : String) : Bytes32 :=
  P.keccak256 text.toUTF8.toList

/-! ## ECDSA -/

namespace ECDSA

inductive RecoverError : Type where
  | NoError
  | InvalidSignature
  | InvalidSignatureLength
  | InvalidSignatureS
  | InvalidSignatureV
  deriving DecidableEq, Repr

def _throwError : RecoverError → Except Revert Unit
  | .NoError => .ok ()
  | .InvalidSignature => .error (.reason "ECDSA: invalid signature")
  | .InvalidSignatureLength => .error (.reason "ECDSA: invalid signature length")
  | .InvalidSignatureS => .error (.reason "ECDSA: invalid signature 's' value")
  | .InvalidSignatureV => .error (.reason "ECDSA: invalid signature 'v' value")

/-- The 32-byte word at a byte offset, as `mload` reads it. -/
def wordAt (b : Bytes) (offset : Nat) : Bytes32 :=
  BitVec.ofNat 256 (((b.drop offset).take 32).foldl (fun acc x => acc * 256 + x.toNat) 0)

/-- `tryRecover(hash, v, r, s)`. -/
def tryRecoverVRS (P : Precompiles) (hash : Bytes32) (v : Nat) (r s : Bytes32) :
    Address × RecoverError :=
  if s.toNat > 0x7FFFFFFFFFFFFFFFFFFFFFFFFFFFFFFF5D576E7357A4501DDFE92F46681B20A0 then
    (0, .InvalidSignatureS)
  else if v ≠ 27 ∧ v ≠ 28 then
    (0, .InvalidSignatureV)
  else
    let signer := P.ecrecover hash v r s
    if signer = 0 then (0, .InvalidSignature) else (signer, .NoError)

/-- `tryRecover(hash, r, vs)`: the short form carries `v` in the top bit of `s`. -/
def tryRecoverShort (P : Precompiles) (hash r vs : Bytes32) : Address × RecoverError :=
  tryRecoverVRS P hash (vs.toNat / 2 ^ 255 + 27) r (BitVec.ofNat 256 (vs.toNat % 2 ^ 255))

/-- With the short form of 64 bytes, as in the flattened production copy of the redeemer; the
version of OpenZeppelin that `package.json` names refuses all lengths but 65. -/
def tryRecover (P : Precompiles) (hash : Bytes32) (signature : Bytes) : Address × RecoverError :=
  if signature.length = 65 then
    tryRecoverVRS P hash (signature.getD 64 0).toNat (wordAt signature 0) (wordAt signature 32)
  else if signature.length = 64 then
    tryRecoverShort P hash (wordAt signature 0) (wordAt signature 32)
  else
    (0, .InvalidSignatureLength)

def recover (P : Precompiles) (hash : Bytes32) (signature : Bytes) : Except Revert Address := do
  let (recovered, error) := tryRecover P hash signature
  _throwError error
  return recovered

/-- `toEthSignedMessageHash(bytes s)`. -/
def toEthSignedMessageHash (P : Precompiles) (s : String) : Bytes32 :=
  P.keccak256 (("\x19Ethereum Signed Message:\n" ++ toString s.utf8ByteSize ++ s).toUTF8.toList)

theorem throwError_eq_ok_iff {error : RecoverError} {u : Unit} :
    _throwError error = .ok u ↔ error = .NoError := by
  cases error <;> simp [_throwError]

theorem recover_eq_ok_iff {P : Precompiles} {hash : Bytes32} {signature : Bytes} {a : Address} :
    recover P hash signature = .ok a ↔ tryRecover P hash signature = (a, .NoError) := by
  simp only [recover]
  rcases tryRecover P hash signature with ⟨recovered, error⟩
  simp only [bind_eq_ok_iff, pure_eq_ok_iff, throwError_eq_ok_iff, exists_const, Prod.mk.injEq,
    and_comm]

theorem ne_zero_of_tryRecoverVRS {P : Precompiles} {hash r s : Bytes32} {v : Nat} {a : Address}
    (found : tryRecoverVRS P hash v r s = (a, .NoError)) : a ≠ 0 := by
  unfold tryRecoverVRS at found
  split at found
  · cases found
  · split at found
    · cases found
    · dsimp only at found
      split at found
      · cases found
      · rename_i signer
        cases found
        exact signer

/-- No signature recovers to the zero address. -/
theorem ne_zero_of_recover {P : Precompiles} {hash : Bytes32} {signature : Bytes} {a : Address}
    (found : recover P hash signature = .ok a) : a ≠ 0 := by
  rw [recover_eq_ok_iff] at found
  unfold tryRecover at found
  split at found
  · exact ne_zero_of_tryRecoverVRS found
  · split at found
    · exact ne_zero_of_tryRecoverVRS found
    · cases found

/-- Only 65-byte and 64-byte signatures recover. -/
theorem length_of_recover {P : Precompiles} {hash : Bytes32} {signature : Bytes} {a : Address}
    (found : recover P hash signature = .ok a) :
    signature.length = 65 ∨ signature.length = 64 := by
  rw [recover_eq_ok_iff] at found
  unfold tryRecover at found
  split at found
  · exact .inl ‹_›
  · split at found
    · exact .inr ‹_›
    · cases found

/-- Nothing recovers from the empty string. -/
theorem ne_nil_of_recover {P : Precompiles} {hash : Bytes32} {signature : Bytes} {a : Address}
    (found : recover P hash signature = .ok a) : signature ≠ [] := by
  intro empty
  rcases length_of_recover found with length | length
  · rw [empty] at length
    cases length
  · rw [empty] at length
    cases length

end ECDSA

/-! ## Merkle proofs -/

namespace MerkleProof

variable (keccak256 : Bytes → Bytes32)

def _efficientHash (a b : Bytes32) : Bytes32 :=
  keccak256 (packWord a ++ packWord b)

def _hashPair (a b : Bytes32) : Bytes32 :=
  if a.toNat < b.toNat then _efficientHash keccak256 a b else _efficientHash keccak256 b a

def processProofCalldata (proof : List Bytes32) (leaf : Bytes32) : Bytes32 :=
  proof.foldl (_hashPair keccak256) leaf

def verifyCalldata (proof : List Bytes32) (root leaf : Bytes32) : Bool :=
  processProofCalldata keccak256 proof leaf = root

theorem verifyCalldata_iff {proof : List Bytes32} {root leaf : Bytes32} :
    verifyCalldata keccak256 proof root leaf = true ↔
      proof.foldl (_hashPair keccak256) leaf = root :=
  decide_eq_true_iff

end MerkleProof

end FeiProtocol
