import FeiProtocol.Cryptography
import FeiProtocol.Evm.Ledger
import FeiProtocol.Evm.ReentrancyGuard

/-!
# The storage of the Merkle redeemer

`MultiMerkleRedeemer` declares the storage, the events and the signed message;
`RariMerkleRedeemer` (next module) implements its functions. A state here is the
contract's storage together with the tokens it calls and the events it emitted.
-/

namespace FeiProtocol

open Evm

/-- What a redeemer's code runs in: its own address and the chain's primitives. -/
structure RedeemerEnv : Type extends Precompiles where
  /-- `address(this)` -/
  this : Address

/-- The events of `MultiMerkleRedeemer`. -/
inductive RedeemerEvent : Type where
  | Signed (signer : Address) (signature : Bytes)
  | Claimed (claimant cToken : Address) (claimAmount : Nat)
  | Redeemed (recipient cToken : Address) (cTokenAmount baseTokenAmount : Nat)
  deriving DecidableEq, Repr

structure RedeemerState : Type where
  /-- the token that is exchanged for cTokens -/
  baseToken : Address
  merkleRoots : Address → Bytes32
  cTokenExchangeRates : Address → Nat
  userSignatures : Address → Bytes
  /-- by user, then cToken -/
  redemptions : Address → Address → Nat
  /-- by user, then cToken -/
  claims : Address → Address → Nat
  /-- the reentrancy guard's word -/
  _status : Nat
  ledger : Ledger
  /-- oldest first -/
  events : List RedeemerEvent

instance : ReentrancyGuard RedeemerState where
  status s := s._status
  withStatus s n := { s with _status := n }
  status_withStatus _ _ := rfl
  withStatus_withStatus _ _ _ := rfl
  withStatus_status _ := rfl

namespace MultiMerkleRedeemer

def MESSAGE : String := "Sample message, please update."

def MESSAGE_HASH (env : RedeemerEnv) : Bytes32 :=
  ECDSA.toEthSignedMessageHash env.toPrecompiles MESSAGE

end MultiMerkleRedeemer

/-! ## Reading the event log -/

namespace RedeemerEvent

/-- How often `Signed` was emitted for `u`. -/
def signedCount (events : List RedeemerEvent) (u : Address) : Nat :=
  events.countP fun
    | .Signed signer _ => signer = u
    | _ => false

/-- How often `Claimed` was emitted for `u` and `c`. -/
def claimedCount (events : List RedeemerEvent) (u c : Address) : Nat :=
  events.countP fun
    | .Claimed claimant cToken _ => claimant = u ∧ cToken = c
    | _ => false

/-- The cToken amounts of `u`'s successive redemptions of `c`. -/
def redeemedAmounts (events : List RedeemerEvent) (u c : Address) : List Nat :=
  events.filterMap fun
    | .Redeemed recipient cToken cTokenAmount _ =>
        if recipient = u ∧ cToken = c then some cTokenAmount else none
    | _ => none

/-- The base token amounts paid out in `u`'s successive redemptions of `c`. -/
def paidAmounts (events : List RedeemerEvent) (u c : Address) : List Nat :=
  events.filterMap fun
    | .Redeemed recipient cToken _ baseTokenAmount =>
        if recipient = u ∧ cToken = c then some baseTokenAmount else none
    | _ => none

/-- The two token transfers that one `Redeemed` event stands for. -/
def exchange (this baseToken : Address) : RedeemerEvent → List Transfer
  | .Redeemed u c a b => [⟨this, c, u, this, a⟩, ⟨this, baseToken, this, u, b⟩]
  | _ => []

section Append

variable {events : List RedeemerEvent} {u c r t : Address} {a b : Nat} {signature : Bytes}

@[simp]
theorem signedCount_signed : signedCount (events ++ [.Signed r signature]) u =
    signedCount events u + if r = u then 1 else 0 := by
  simp [signedCount, List.countP_append]

@[simp]
theorem signedCount_claimed :
    signedCount (events ++ [.Claimed r t a]) u = signedCount events u := by
  simp [signedCount, List.countP_append]

@[simp]
theorem signedCount_redeemed :
    signedCount (events ++ [.Redeemed r t a b]) u = signedCount events u := by
  simp [signedCount, List.countP_append]

@[simp]
theorem claimedCount_signed :
    claimedCount (events ++ [.Signed r signature]) u c = claimedCount events u c := by
  simp [claimedCount, List.countP_append]

@[simp]
theorem claimedCount_claimed : claimedCount (events ++ [.Claimed r t a]) u c =
    claimedCount events u c + if r = u ∧ t = c then 1 else 0 := by
  simp [claimedCount, List.countP_append]

@[simp]
theorem claimedCount_redeemed :
    claimedCount (events ++ [.Redeemed r t a b]) u c = claimedCount events u c := by
  simp [claimedCount, List.countP_append]

@[simp]
theorem redeemedAmounts_signed :
    redeemedAmounts (events ++ [.Signed r signature]) u c = redeemedAmounts events u c := by
  simp [redeemedAmounts]

@[simp]
theorem redeemedAmounts_claimed :
    redeemedAmounts (events ++ [.Claimed r t a]) u c = redeemedAmounts events u c := by
  simp [redeemedAmounts]

@[simp]
theorem redeemedAmounts_redeemed : redeemedAmounts (events ++ [.Redeemed r t a b]) u c =
    redeemedAmounts events u c ++ if r = u ∧ t = c then [a] else [] := by
  simp only [redeemedAmounts, List.filterMap_append]
  split <;> simp_all

@[simp]
theorem paidAmounts_signed :
    paidAmounts (events ++ [.Signed r signature]) u c = paidAmounts events u c := by
  simp [paidAmounts]

@[simp]
theorem paidAmounts_claimed :
    paidAmounts (events ++ [.Claimed r t a]) u c = paidAmounts events u c := by
  simp [paidAmounts]

@[simp]
theorem paidAmounts_redeemed : paidAmounts (events ++ [.Redeemed r t a b]) u c =
    paidAmounts events u c ++ if r = u ∧ t = c then [b] else [] := by
  simp only [paidAmounts, List.filterMap_append]
  split <;> simp_all

end Append

end RedeemerEvent

end FeiProtocol
