import FeiProtocol.Evm.Loop
import FeiProtocol.Evm.Machine
import FeiProtocol.Shutdown.Fuse.MultiMerkleRedeemer

/-!
# `RariMerkleRedeemer`

The contract's functions, in the order of the source. Each takes the state and
`msg.sender` and either returns the new state or reverts. `_multiRedeem` is the
source's second implementation of `_redeem`: one loop that checks and counts,
and one that moves the tokens.

`step` is one transaction: a call of an entry point, or a call that somebody
makes on a token directly. `External` says that the redeemer itself is not the
one who sends it.
-/

namespace FeiProtocol

open Evm ReentrancyGuard MultiMerkleRedeemer

namespace RariMerkleRedeemer

variable (env : RedeemerEnv)

/-! ## Constructor -/

def _configureExchangeRates (s : RedeemerState) (_cTokens : List Address)
    (_exchangeRates : List Nat) : Except Revert RedeemerState := do
  require (_cTokens.length = 27) "Must provide exactly 27 exchange rates."
  require (_cTokens.length = _exchangeRates.length)
    "Exchange rates must be provided for each cToken"
  (_cTokens.zip _exchangeRates).foldlM (fun s (cToken, rate) => do
    require (rate > 10 ^ 10)
      "Exchange rate must be greater than 1e10. Did you forget to multiply by 1e18?"
    return { s with cTokenExchangeRates := Function.update s.cTokenExchangeRates cToken rate }) s

def _configureMerkleRoots (s : RedeemerState) (_cTokens : List Address)
    (_roots : List Bytes32) : Except Revert RedeemerState := do
  require (_cTokens.length = 27) "Must provide exactly 27 merkle roots"
  require (_cTokens.length = _roots.length) "Merkle roots must be provided for each cToken"
  (_cTokens.zip _roots).foldlM (fun s (cToken, root) => do
    require (root ≠ 0) "Merkle root must be non-zero"
    return { s with merkleRoots := Function.update s.merkleRoots cToken root }) s

def _configureBaseToken (s : RedeemerState) (_baseToken : Address) :
    Except Revert RedeemerState := do
  require (_baseToken ≠ 0) "Base token must be non-zero"
  return { s with baseToken := _baseToken }

/-- The storage before the constructor's body, over the tokens as they are. -/
def blank (ledger : Ledger) : RedeemerState where
  baseToken := 0
  merkleRoots _ := 0
  cTokenExchangeRates _ := 0
  userSignatures _ := []
  redemptions _ _ := 0
  claims _ _ := 0
  _status := _NOT_ENTERED
  ledger := ledger
  events := []

/-- `constructor(token, cTokens, rates, roots)`. -/
def construct (ledger : Ledger) (token : Address) (cTokens : List Address) (rates : List Nat)
    (roots : List Bytes32) : Except Revert RedeemerState := do
  let s ← _configureExchangeRates (blank ledger) cTokens rates
  let s ← _configureMerkleRoots s cTokens roots
  _configureBaseToken s token

/-! ## Modifiers -/

def hasSigned (s : RedeemerState) (sender : Address) : Except Revert Unit :=
  require (env.keccak256 (s.userSignatures sender) ≠ env.keccak256 (s.userSignatures 0))
    "User has not signed."

def hasNotSigned (s : RedeemerState) (sender : Address) : Except Revert Unit :=
  require (env.keccak256 (s.userSignatures sender) = env.keccak256 (s.userSignatures 0))
    "User has already signed"

/-! ## Internal functions -/

def previewRedeem (s : RedeemerState) (cToken : Address) (amount : Nat) : Except Revert Nat := do
  let scaled ← checkedMul (s.cTokenExchangeRates cToken) amount
  return scaled / 10 ^ 18

def _sign (s : RedeemerState) (sender : Address) (_signature : Bytes) :
    Except Revert RedeemerState := do
  let recovered ← ECDSA.recover env.toPrecompiles (MESSAGE_HASH env) _signature
  require (recovered = sender) "Signature not valid"
  return { s with
    userSignatures := Function.update s.userSignatures sender _signature
    events := s.events ++ [.Signed sender _signature] }

/-- `keccak256(abi.encodePacked(msg.sender, _amount))`. -/
def leafHash (sender : Address) (_amount : UInt256) : Bytes32 :=
  env.keccak256 (packAddress sender ++ packWord _amount)

def _claim (s : RedeemerState) (sender _cToken : Address) (_amount : UInt256)
    (_merkleProof : List Bytes32) : Except Revert RedeemerState := do
  require (s.claims sender _cToken = 0) "User has already claimed for this cToken."
  require (MerkleProof.verifyCalldata env.keccak256 _merkleProof (s.merkleRoots _cToken)
    (leafHash env sender _amount)) "Merkle proof not valid."
  return { s with
    claims := update₂ s.claims sender _cToken _amount.toNat
    events := s.events ++ [.Claimed sender _cToken _amount.toNat] }

def _multiClaim (s : RedeemerState) (sender : Address) (_cTokens : List Address)
    (_amounts : List UInt256) (_merkleProofs : List (List Bytes32)) :
    Except Revert RedeemerState := do
  require (_cTokens.length = _amounts.length) "Number of cTokens and amounts must match"
  require (_cTokens.length = _merkleProofs.length) "Number of cTokens and merkle proofs must match"
  (_cTokens.zip (_amounts.zip _merkleProofs)).foldlM
    (fun s (cToken, amount, merkleProof) => _claim env s sender cToken amount merkleProof) s

def _redeem (s : RedeemerState) (sender cToken : Address) (cTokenAmount : UInt256) :
    Except Revert RedeemerState := do
  require (cTokenAmount.toNat ≠ 0) "Invalid amount"
  let redeemed ← checkedAdd (s.redemptions sender cToken) cTokenAmount.toNat
  require (redeemed ≤ s.claims sender cToken) "Amount exceeds available remaining claim."
  let s := { s with redemptions := update₂ s.redemptions sender cToken redeemed }
  let baseTokenAmountReceived ← previewRedeem s cToken cTokenAmount.toNat
  let ledger ← s.ledger.safeTransferFrom env.this cToken sender env.this cTokenAmount.toNat
  let ledger ← ledger.safeTransfer env.this s.baseToken sender baseTokenAmountReceived
  return { s with
    ledger
    events := s.events ++ [.Redeemed sender cToken cTokenAmount.toNat baseTokenAmountReceived] }

/-- The body of `_multiRedeem`'s first loop: checks, and the redeemed amount. -/
def _multiRedeemCheck (sender : Address) (s : RedeemerState) :
    Address × UInt256 → Except Revert RedeemerState
  | (cToken, cTokenAmount) => do
    require (cToken ≠ 0) "Invalid cToken address"
    require (cTokenAmount.toNat ≠ 0) "Invalid amount"
    let redeemed ← checkedAdd (s.redemptions sender cToken) cTokenAmount.toNat
    require (redeemed ≤ s.claims sender cToken) "Amount exceeds available remaining claim."
    return { s with redemptions := update₂ s.redemptions sender cToken redeemed }

/-- The body of `_multiRedeem`'s second loop: the interactions. -/
def _multiRedeemInteract (sender : Address) (s : RedeemerState) :
    Address × UInt256 → Except Revert RedeemerState
  | (cToken, cTokenAmount) => do
    let baseTokenAmountReceived ← previewRedeem s cToken cTokenAmount.toNat
    let ledger ← s.ledger.safeTransferFrom env.this cToken sender env.this cTokenAmount.toNat
    let ledger ← ledger.safeTransfer env.this s.baseToken sender baseTokenAmountReceived
    return { s with
      ledger
      events := s.events ++ [.Redeemed sender cToken cTokenAmount.toNat baseTokenAmountReceived] }

def _multiRedeem (s : RedeemerState) (sender : Address) (cTokens : List Address)
    (cTokenAmounts : List UInt256) : Except Revert RedeemerState := do
  require (cTokens.length = cTokenAmounts.length) "Length of cTokens and amounts must match."
  let s ← (cTokens.zip cTokenAmounts).foldlM (_multiRedeemCheck sender) s
  (cTokens.zip cTokenAmounts).foldlM (_multiRedeemInteract env sender) s

/-! ## Entry points -/

def sign (s : RedeemerState) (sender : Address) (signature : Bytes) :
    Except Revert RedeemerState := do
  hasNotSigned env s sender
  nonReentrant (fun s => _sign env s sender signature) s

def claim (s : RedeemerState) (sender _cToken : Address) (_amount : UInt256)
    (_merkleProof : List Bytes32) : Except Revert RedeemerState := do
  hasSigned env s sender
  nonReentrant (fun s => _claim env s sender _cToken _amount _merkleProof) s

def multiClaim (s : RedeemerState) (sender : Address) (_cTokens : List Address)
    (_amounts : List UInt256) (_merkleProofs : List (List Bytes32)) :
    Except Revert RedeemerState := do
  hasSigned env s sender
  nonReentrant (fun s => _multiClaim env s sender _cTokens _amounts _merkleProofs) s

def redeem (s : RedeemerState) (sender cToken : Address) (cTokenAmount : UInt256) :
    Except Revert RedeemerState := do
  hasSigned env s sender
  nonReentrant (fun s => _redeem env s sender cToken cTokenAmount) s

def multiRedeem (s : RedeemerState) (sender : Address) (cTokens : List Address)
    (cTokenAmounts : List UInt256) : Except Revert RedeemerState := do
  hasSigned env s sender
  nonReentrant (fun s => _multiRedeem env s sender cTokens cTokenAmounts) s

/-- Unlike the other two functions that sign, this one carries no `hasNotSigned`. -/
def signAndClaim (s : RedeemerState) (sender : Address) (signature : Bytes)
    (cTokens : List Address) (amounts : List UInt256) (merkleProofs : List (List Bytes32)) :
    Except Revert RedeemerState :=
  nonReentrant (fun s => do
    let s ← _sign env s sender signature
    _multiClaim env s sender cTokens amounts merkleProofs) s

def claimAndRedeem (s : RedeemerState) (sender : Address) (cTokens : List Address)
    (amounts : List UInt256) (merkleProofs : List (List Bytes32)) :
    Except Revert RedeemerState := do
  hasSigned env s sender
  nonReentrant (fun s => do
    let s ← _multiClaim env s sender cTokens amounts merkleProofs
    _multiRedeem env s sender cTokens amounts) s

def signAndClaimAndRedeem (s : RedeemerState) (sender : Address) (signature : Bytes)
    (cTokens : List Address) (amountsToClaim amountsToRedeem : List UInt256)
    (merkleProofs : List (List Bytes32)) : Except Revert RedeemerState := do
  hasNotSigned env s sender
  nonReentrant (fun s => do
    let s ← _sign env s sender signature
    let s ← _multiClaim env s sender cTokens amountsToClaim merkleProofs
    _multiRedeem env s sender cTokens amountsToRedeem) s

/-! ## Transactions -/

/-- A call of an entry point, with its calldata. -/
inductive Call : Type where
  | sign (signature : Bytes)
  | claim (cToken : Address) (amount : UInt256) (merkleProof : List Bytes32)
  | multiClaim (cTokens : List Address) (amounts : List UInt256)
      (merkleProofs : List (List Bytes32))
  | redeem (cToken : Address) (cTokenAmount : UInt256)
  | multiRedeem (cTokens : List Address) (cTokenAmounts : List UInt256)
  | signAndClaim (signature : Bytes) (cTokens : List Address) (amounts : List UInt256)
      (merkleProofs : List (List Bytes32))
  | claimAndRedeem (cTokens : List Address) (amounts : List UInt256)
      (merkleProofs : List (List Bytes32))
  | signAndClaimAndRedeem (signature : Bytes) (cTokens : List Address)
      (amountsToClaim amountsToRedeem : List UInt256) (merkleProofs : List (List Bytes32))
  deriving DecidableEq, Repr

def dispatch (s : RedeemerState) (sender : Address) : Call → Except Revert RedeemerState
  | .sign signature => sign env s sender signature
  | .claim cToken amount merkleProof => claim env s sender cToken amount merkleProof
  | .multiClaim cTokens amounts merkleProofs =>
      multiClaim env s sender cTokens amounts merkleProofs
  | .redeem cToken cTokenAmount => redeem env s sender cToken cTokenAmount
  | .multiRedeem cTokens cTokenAmounts => multiRedeem env s sender cTokens cTokenAmounts
  | .signAndClaim signature cTokens amounts merkleProofs =>
      signAndClaim env s sender signature cTokens amounts merkleProofs
  | .claimAndRedeem cTokens amounts merkleProofs =>
      claimAndRedeem env s sender cTokens amounts merkleProofs
  | .signAndClaimAndRedeem signature cTokens amountsToClaim amountsToRedeem merkleProofs =>
      signAndClaimAndRedeem env s sender signature cTokens amountsToClaim amountsToRedeem
        merkleProofs

/-- A transaction: a call of the redeemer, or of a token. -/
inductive Action : Type where
  | redeemer (sender : Address) (c : Call)
  | token (sender : Address) (c : Ledger.TokenCall)
  deriving DecidableEq, Repr

def Action.sender : Action → Address
  | .redeemer sender _ => sender
  | .token sender _ => sender

/-- The redeemer sends no transaction: its code calls tokens only in `_redeem`
and `_multiRedeem`, and never calls itself. -/
def Action.External (a : Action) : Prop := a.sender ≠ env.this

def step (s : RedeemerState) : Action → Except Revert RedeemerState
  | .redeemer sender c => dispatch env s sender c
  | .token sender c => do
      let ledger ← s.ledger.perform sender c
      return { s with ledger }

/-- The deployed contract after any sequence of transactions. The ledger at
deployment is arbitrary, except that nothing is recorded yet and that the new
address has approved nobody. -/
structure Deployed (s₀ : RedeemerState) : Prop where
  constructed : ∃ ledger token cTokens rates roots,
    construct ledger token cTokens rates roots = .ok s₀
  unrecorded : s₀.ledger.transfers = []
  unapproved : s₀.ledger.Unapproved env.this

/-- The states that transactions lead to. -/
def Reachable (s : RedeemerState) : Prop :=
  ∃ s₀ actions, Deployed env s₀ ∧ (∀ a ∈ actions, Action.External env a) ∧
    s = run (step env) s₀ actions

end RariMerkleRedeemer

end FeiProtocol
