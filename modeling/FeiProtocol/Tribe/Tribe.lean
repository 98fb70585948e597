import FeiProtocol.Cryptography
import FeiProtocol.Evm.Loop
import FeiProtocol.Evm.Machine
import FeiProtocol.Evm.TypedData

/-!
# `Tribe`

The governance token: balances of 96 bits, whose holders delegate their votes, and for each
delegate a record of checkpoints that `getPriorVotes` searches.

The functions are in the order of the source. `getPriorVotes` has a `while` loop, so it takes
the number of iterations that are allowed and yields nothing when they are not enough.
-/

namespace FeiProtocol

open Evm

/-- A checkpoint for marking number of votes from a given block -/
structure Checkpoint : Type where
  fromBlock : Nat
  votes : Nat
  deriving DecidableEq, Repr

inductive TribeEvent : Type where
  | MinterChanged (minter newMinter : Address)
  | DelegateChanged (delegator fromDelegate toDelegate : Address)
  | DelegateVotesChanged (delegatee : Address) (previousBalance newBalance : Nat)
  | Transfer (src dst : Address) (amount : Nat)
  | Approval (owner spender : Address) (amount : Nat)
  deriving DecidableEq, Repr

structure TribeState : Type where
  totalSupply : Nat
  minter : Address
  allowances : Address → Address → Nat
  balances : Address → Nat
  delegates : Address → Address
  checkpoints : Address → Nat → Checkpoint
  numCheckpoints : Address → Nat
  nonces : Address → Nat
  /-- `block.number` -/
  blockNumber : Nat
  /-- `block.timestamp` -/
  timestamp : Nat
  /-- oldest first -/
  events : List TribeEvent

structure TribeEnv : Type where
  precompiles : Precompiles
  this : Address
  chainId : Nat

namespace Tribe

variable (env : TribeEnv) (s : TribeState)

/-! ## Arithmetic -/

def safe32 (n : Nat) (errorMessage : String) : Except Revert Nat := do
  require (n < 2 ^ 32) errorMessage
  return n

def safe96 (n : Nat) (errorMessage : String) : Except Revert Nat := do
  require (n < 2 ^ 96) errorMessage
  return n

/-- The compiler's own check of a sum of `bits` bits. -/
def checkedWidth (bits n : Nat) : Except Revert Nat :=
  if n < 2 ^ bits then .ok n else .error (.panic 0x11)

def add96 (a b : Nat) (errorMessage : String) : Except Revert Nat := do
  let c ← checkedWidth 96 (a + b)
  require (c ≥ a) errorMessage
  return c

def sub96 (a b : Nat) (errorMessage : String) : Except Revert Nat := do
  require (b ≤ a) errorMessage
  checkedSub a b

/-! ## Votes -/

def getCurrentVotes (account : Address) : Nat :=
  let nCheckpoints := s.numCheckpoints account
  if nCheckpoints > 0 then (s.checkpoints account (nCheckpoints - 1)).votes else 0

/-- The body of the loop in `getPriorVotes`, with `lower` and `upper`. -/
def narrow (checkpoints : Nat → Checkpoint) (blockNumber : Nat) (bounds : Nat × Nat) :
    Except Revert ((Nat × Nat) ⊕ Nat) :=
  let (lower, upper) := bounds
  if upper > lower then do
    let gap ← checkedSub upper lower
    let center ← checkedSub upper (gap / 2) -- ceil, avoiding overflow
    let cp := checkpoints center
    if cp.fromBlock = blockNumber then return .inr cp.votes
    else if cp.fromBlock < blockNumber then return .inl (center, upper)
    else do
      let upper ← checkedSub center 1
      return .inl (lower, upper)
  else return .inr (checkpoints lower).votes

/-- At most `fuel` iterations of its loop are allowed. -/
def getPriorVotes (fuel : Nat) (account : Address) (blockNumber : Nat) :
    Option (Except Revert Nat) :=
  if ¬ blockNumber < s.blockNumber then some (.error (.reason "Tribe: not yet determined"))
  else
    let nCheckpoints := s.numCheckpoints account
    let checkpoints := s.checkpoints account
    if nCheckpoints = 0 then some (.ok 0)
    -- First check most recent balance
    else if (checkpoints (nCheckpoints - 1)).fromBlock ≤ blockNumber then
      some (.ok (checkpoints (nCheckpoints - 1)).votes)
    -- Next check implicit zero balance
    else if (checkpoints 0).fromBlock > blockNumber then some (.ok 0)
    else whileM (narrow checkpoints blockNumber) fuel (0, nCheckpoints - 1)

def _writeCheckpoint (delegatee : Address) (nCheckpoints oldVotes newVotes : Nat) :
    Except Revert TribeState := do
  let blockNumber ← safe32 s.blockNumber "Tribe: block number exceeds 32 bits"
  let last := s.checkpoints delegatee (nCheckpoints - 1)
  let s ← (if nCheckpoints > 0 ∧ last.fromBlock = blockNumber then
      .ok { s with
        checkpoints :=
          update₂ s.checkpoints delegatee (nCheckpoints - 1) { last with votes := newVotes } }
    else do
      let numCheckpoints ← checkedWidth 32 (nCheckpoints + 1)
      return { s with
        checkpoints :=
          update₂ s.checkpoints delegatee nCheckpoints ⟨blockNumber, newVotes⟩
        numCheckpoints := Function.update s.numCheckpoints delegatee numCheckpoints })
  return { s with events := s.events ++ [.DelegateVotesChanged delegatee oldVotes newVotes] }

/-- The two halves of `_moveDelegates` differ in the change to the votes. -/
def writeVotes (rep : Address) (change : Nat → Except Revert Nat) : Except Revert TribeState :=
  if rep ≠ 0 then do
    let repNum := s.numCheckpoints rep
    let repOld := getCurrentVotes s rep
    let repNew ← change repOld
    _writeCheckpoint s rep repNum repOld repNew
  else return s

def _moveDelegates (srcRep dstRep : Address) (amount : Nat) : Except Revert TribeState :=
  if srcRep ≠ dstRep ∧ amount > 0 then do
    let s ← writeVotes s srcRep fun srcRepOld =>
      sub96 srcRepOld amount "Tribe: vote amount underflows"
    writeVotes s dstRep fun dstRepOld => add96 dstRepOld amount "Tribe: vote amount overflows"
  else return s

def _delegate (delegator delegatee : Address) : Except Revert TribeState := do
  let currentDelegate := s.delegates delegator
  let delegatorBalance := s.balances delegator
  let s := { s with
    delegates := Function.update s.delegates delegator delegatee
    events := s.events ++ [.DelegateChanged delegator currentDelegate delegatee] }
  _moveDelegates s currentDelegate delegatee delegatorBalance

def _transferTokens (src dst : Address) (amount : Nat) : Except Revert TribeState := do
  require (src ≠ 0) "Tribe: cannot transfer from the zero address"
  require (dst ≠ 0) "Tribe: cannot transfer to the zero address"
  let balance ← sub96 (s.balances src) amount "Tribe: transfer amount exceeds balance"
  let s := { s with balances := Function.update s.balances src balance }
  let balance ← add96 (s.balances dst) amount "Tribe: transfer amount overflows"
  let s := { s with
    balances := Function.update s.balances dst balance
    events := s.events ++ [.Transfer src dst amount] }
  _moveDelegates s (s.delegates src) (s.delegates dst) amount

/-! ## The token -/

/-- 1 billion Tribe -/
def initialSupply : Nat := 1000000000 * 10 ^ 18

/-- The constructor, in the block after block `parent`. -/
def constructed (account minter_ : Address) (parent timestamp : Nat) : TribeState where
  totalSupply := initialSupply
  minter := minter_
  allowances _ _ := 0
  balances := Function.update (fun _ => 0) account (initialSupply % 2 ^ 96)
  delegates _ := 0
  checkpoints _ _ := ⟨0, 0⟩
  numCheckpoints _ := 0
  nonces _ := 0
  blockNumber := parent + 1
  timestamp
  events := [.Transfer 0 account initialSupply, .MinterChanged 0 minter_]

def setMinter (msgSender minter_ : Address) : Except Revert TribeState := do
  require (msgSender = s.minter) "Tribe: only the minter can change the minter address"
  return { s with
    minter := minter_
    events := s.events ++ [.MinterChanged s.minter minter_] }

def mint (msgSender dst : Address) (rawAmount : Nat) : Except Revert TribeState := do
  require (msgSender = s.minter) "Tribe: only the minter can mint"
  require (dst ≠ 0) "Tribe: cannot transfer to the zero address"
  let amount ← safe96 rawAmount "Tribe: amount exceeds 96 bits"
  let safeSupply ← safe96 s.totalSupply "Tribe: totalSupply exceeds 96 bits"
  let totalSupply ← add96 safeSupply amount "Tribe: totalSupply exceeds 96 bits"
  let balance ← add96 (s.balances dst) amount "Tribe: transfer amount overflows"
  let s := { s with
    totalSupply
    balances := Function.update s.balances dst balance
    events := s.events ++ [.Transfer 0 dst amount] }
  _moveDelegates s 0 (s.delegates dst) amount

/-- An approved amount, where 2^256-1 means infinite. -/
def approvedAmount (rawAmount : Nat) : Except Revert Nat :=
  if rawAmount = maxUint256 then return 2 ^ 96 - 1
  else safe96 rawAmount "Tribe: amount exceeds 96 bits"

def approve (msgSender spender : Address) (rawAmount : Nat) : Except Revert TribeState := do
  let amount ← approvedAmount rawAmount
  return { s with
    allowances := update₂ s.allowances msgSender spender amount
    events := s.events ++ [.Approval msgSender spender amount] }

/-! ### Signatures -/

def DOMAIN_TYPEHASH : Bytes32 :=
  env.precompiles.hashText "EIP712Domain(string name,uint256 chainId,address verifyingContract)"

def DELEGATION_TYPEHASH : Bytes32 :=
  env.precompiles.hashText "Delegation(address delegatee,uint256 nonce,uint256 expiry)"

def PERMIT_TYPEHASH : Bytes32 :=
  env.precompiles.hashText
    "Permit(address owner,address spender,uint256 value,uint256 nonce,uint256 deadline)"

/-- The words that the domain separator hashes. -/
def domain : List (BitVec 256) :=
  [DOMAIN_TYPEHASH env, env.precompiles.hashText "Tribe", BitVec.ofNat 256 env.chainId,
    wordOfAddress env.this]

/-- The words that `permit` hashes for the signed struct. -/
def permitWords (owner spender : Address) (rawAmount : UInt256) (nonce : Nat)
    (deadline : UInt256) : List (BitVec 256) :=
  [PERMIT_TYPEHASH env, wordOfAddress owner, wordOfAddress spender, rawAmount,
    BitVec.ofNat 256 nonce, deadline]

/-- Those that `delegateBySig` does. -/
def delegationWords (delegatee : Address) (nonce expiry : UInt256) : List (BitVec 256) :=
  [DELEGATION_TYPEHASH env, wordOfAddress delegatee, nonce, expiry]

/-- Who signed the words, by the recovery. -/
def signatory (words : List (BitVec 256)) (v : BitVec 8) (r sig : Bytes32) : Address :=
  env.precompiles.ecrecover (Message.digest env.precompiles.keccak256 ⟨domain env, words⟩)
    v.toNat r sig

def permit (owner spender : Address) (rawAmount deadline : UInt256) (v : BitVec 8)
    (r sig : Bytes32) : Except Revert TribeState := do
  let amount ← approvedAmount rawAmount.toNat
  let nonce := s.nonces owner
  let next ← checkedAdd nonce 1
  let words := permitWords env owner spender rawAmount nonce deadline
  let signatory := signatory env words v r sig
  require (signatory ≠ 0) "Tribe: invalid signature"
  require (signatory = owner) "Tribe: unauthorized"
  require (s.timestamp ≤ deadline.toNat) "Tribe: signature expired"
  return { s with
    nonces := Function.update s.nonces owner next
    allowances := update₂ s.allowances owner spender amount
    events := s.events ++ [.Approval owner spender amount] }

/-! ### Transfers and delegations -/

def transfer (msgSender dst : Address) (rawAmount : Nat) : Except Revert TribeState := do
  let amount ← safe96 rawAmount "Tribe: amount exceeds 96 bits"
  _transferTokens s msgSender dst amount

def transferFrom (msgSender src dst : Address) (rawAmount : Nat) : Except Revert TribeState := do
  let spender := msgSender
  let spenderAllowance := s.allowances src spender
  let amount ← safe96 rawAmount "Tribe: amount exceeds 96 bits"
  let s ← (if spender ≠ src ∧ spenderAllowance ≠ 2 ^ 96 - 1 then do
      let newAllowance ←
        sub96 spenderAllowance amount "Tribe: transfer amount exceeds spender allowance"
      return { s with
        allowances := update₂ s.allowances src spender newAllowance
        events := s.events ++ [.Approval src spender newAllowance] }
    else .ok s)
  _transferTokens s src dst amount

def delegate (msgSender delegatee : Address) : Except Revert TribeState :=
  _delegate s msgSender delegatee

def delegateBySig (delegatee : Address) (nonce expiry : UInt256) (v : BitVec 8)
    (r sig : Bytes32) : Except Revert TribeState := do
  let signatory := signatory env (delegationWords env delegatee nonce expiry) v r sig
  require (signatory ≠ 0) "Tribe: invalid signature"
  let next ← checkedAdd (s.nonces signatory) 1
  require (nonce.toNat = s.nonces signatory) "Tribe: invalid nonce"
  let s := { s with nonces := Function.update s.nonces signatory next }
  require (s.timestamp ≤ expiry.toNat) "Tribe: signature expired"
  _delegate s signatory delegatee

/-! ## Transactions -/

/-- `mine` is the passing of blocks. -/
inductive Action : Type where
  | setMinter (sender minter_ : Address)
  | mint (sender dst : Address) (rawAmount : UInt256)
  | approve (sender spender : Address) (rawAmount : UInt256)
  | permit (owner spender : Address) (rawAmount deadline : UInt256) (v : BitVec 8)
      (r sig : Bytes32)
  | transfer (sender dst : Address) (rawAmount : UInt256)
  | transferFrom (sender src dst : Address) (rawAmount : UInt256)
  | delegate (sender delegatee : Address)
  | delegateBySig (delegatee : Address) (nonce expiry : UInt256) (v : BitVec 8) (r sig : Bytes32)
  | mine (blocks seconds : Nat)
  deriving DecidableEq, Repr

def step : Action → Except Revert TribeState
  | .setMinter sender minter_ => setMinter s sender minter_
  | .mint sender dst rawAmount => mint s sender dst rawAmount.toNat
  | .approve sender spender rawAmount => approve s sender spender rawAmount.toNat
  | .permit owner spender rawAmount deadline v r sig =>
      permit env s owner spender rawAmount deadline v r sig
  | .transfer sender dst rawAmount => transfer s sender dst rawAmount.toNat
  | .transferFrom sender src dst rawAmount => transferFrom s sender src dst rawAmount.toNat
  | .delegate sender delegatee => delegate s sender delegatee
  | .delegateBySig delegatee nonce expiry v r sig =>
      delegateBySig env s delegatee nonce expiry v r sig
  | .mine blocks seconds =>
      .ok { s with blockNumber := s.blockNumber + blocks, timestamp := s.timestamp + seconds }

end Tribe

end FeiProtocol
