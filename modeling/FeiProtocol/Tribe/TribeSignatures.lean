import FeiProtocol.Fei.FeiToken
import FeiProtocol.Tribe.TribeSteps

/-!
# The signatures of TRIBE

Holders of TRIBE sign approvals and delegations, under one nonce for both. The messages name the
token and the chain, so that they are not those of FEI either.

* `signatures_used_once`: an accepted signature is never accepted again, by either token.
-/

namespace FeiProtocol

open Evm

namespace Tribe

variable {env : TribeEnv} {s s' : TribeState} {a rep srcRep dstRep src dst sender : Address}
  {amount : Nat}

/-! ## What moves of votes leave alone -/

/-- The nonces and the allowances are as they were. -/
structure Aside (s s' : TribeState) : Prop where
  nonces : s'.nonces = s.nonces
  allowances : s'.allowances = s.allowances

theorem Aside.refl (s : TribeState) : Aside s s := ⟨rfl, rfl⟩

theorem Aside.trans {t : TribeState} (first : Aside s s') (second : Aside s' t) : Aside s t :=
  ⟨second.nonces.trans first.nonces, second.allowances.trans first.allowances⟩

theorem aside_of_writeVotes {change : Nat → Except Revert Nat}
    (succeeds : writeVotes s rep change = .ok s') : Aside s s' := by
  rcases wrote_of_writeVotes succeeds with ⟨_, same⟩ | ⟨_, votes, k, _, _, same⟩
  · exact same ▸ .refl s
  · exact same ▸ ⟨rfl, rfl⟩

theorem aside_of_moveDelegates (succeeds : _moveDelegates s srcRep dstRep amount = .ok s') :
    Aside s s' := by
  unfold _moveDelegates at succeeds
  split at succeeds
  · obtain ⟨m, first, second⟩ := bind_eq_ok_iff.mp succeeds
    exact (aside_of_writeVotes first).trans (aside_of_writeVotes second)
  · cases succeeds
    exact .refl s

theorem aside_of_transferTokens (succeeds : _transferTokens s src dst amount = .ok s') :
    Aside s s' := by
  obtain ⟨_, _, _, _, moves⟩ := transferTokens_eq_ok_iff.mp succeeds
  have aside := aside_of_moveDelegates moves
  exact ⟨aside.nonces, aside.allowances⟩

theorem aside_of_delegate (succeeds : _delegate s a dst = .ok s') : Aside s s' := by
  rw [delegate_eq] at succeeds
  have aside := aside_of_moveDelegates succeeds
  exact ⟨aside.nonces, aside.allowances⟩

theorem aside_of_mint (succeeds : Tribe.mint s sender dst amount = .ok s') : Aside s s' := by
  obtain ⟨_, _, _, _, _, _, moves⟩ := mint_eq_ok_iff.mp succeeds
  have aside := aside_of_moveDelegates moves
  exact ⟨aside.nonces, aside.allowances⟩

/-- A transfer by a spender: its allowance first. -/
theorem spent_of_transferFrom {rawAmount : Nat}
    (succeeds : transferFrom s sender src dst rawAmount = .ok s') :
    ∃ t, _transferTokens t src dst rawAmount = .ok s' ∧ t.balances = s.balances ∧
      t.nonces = s.nonces ∧
      (sender ≠ src ∧ s.allowances src sender ≠ 2 ^ 96 - 1 ∧
          rawAmount ≤ s.allowances src sender ∧
          t.allowances =
            update₂ s.allowances src sender (s.allowances src sender - rawAmount) ∨
        (sender = src ∨ s.allowances src sender = 2 ^ 96 - 1) ∧ t = s) := by
  simp only [transferFrom, bind_eq_ok_iff, safe96_eq_ok_iff] at succeeds
  obtain ⟨amount, ⟨_, value⟩, t, spends, transfers⟩ := succeeds
  subst value
  split at spends
  · rename_i finite
    simp only [bind_eq_ok_iff, pure_eq_ok_iff, sub96_eq_ok_iff] at spends
    obtain ⟨_, ⟨enough, left⟩, same⟩ := spends
    subst left
    subst same
    exact ⟨_, transfers, rfl, rfl, .inl ⟨finite.1, finite.2, enough, rfl⟩⟩
  · rename_i infinite
    cases spends
    refine ⟨s, transfers, rfl, rfl, .inr ⟨?_, rfl⟩⟩
    by_cases own : sender = src
    · exact .inl own
    · exact .inr (not_not.mp fun other => infinite ⟨own, other⟩)

/-! ## Signatures -/

/-- What a transaction has a holder sign. -/
def message (env : TribeEnv) (s : TribeState) : Action → Option Signed
  | .permit owner spender rawAmount deadline _ _ _ =>
      some ⟨owner, s.nonces owner,
        ⟨domain env, permitWords env owner spender rawAmount (s.nonces owner) deadline⟩⟩
  | .delegateBySig delegatee nonce expiry v r sig =>
      some ⟨signatory env (delegationWords env delegatee nonce expiry) v r sig, nonce.toNat,
        ⟨domain env, delegationWords env delegatee nonce expiry⟩⟩
  | _ => none

variable {owner spender delegatee : Address} {rawAmount deadline nonce expiry : UInt256}
  {v : BitVec 8} {r sig : Bytes32}

/-- What a successful permit has checked, and what it does. -/
theorem permitted_of_permit
    (succeeds : permit env s owner spender rawAmount deadline v r sig = .ok s') :
    s.nonces owner + 1 < 2 ^ 256 ∧ owner ≠ 0 ∧
    signatory env (permitWords env owner spender rawAmount (s.nonces owner) deadline) v r sig =
      owner ∧
    ∃ amount, approvedAmount rawAmount.toNat = .ok amount ∧ s' = { s with
      nonces := Function.update s.nonces owner (s.nonces owner + 1)
      allowances := update₂ s.allowances owner spender amount
      events := s.events ++ [.Approval owner spender amount] } := by
  simp only [permit, bind_eq_ok_iff, pure_eq_ok_iff, require_eq_ok_iff, exists_const,
    checkedAdd_eq_ok_iff] at succeeds
  obtain ⟨amount, approved, _, ⟨counts, next⟩, some, signed, _, same⟩ := succeeds
  subst next
  exact ⟨counts, signed ▸ some, signed, amount, approved, same.symm⟩

/-- What a successful delegation by signature has checked, and what it does. -/
theorem delegated_of_delegateBySig
    (succeeds : delegateBySig env s delegatee nonce expiry v r sig = .ok s') :
    let delegator := signatory env (delegationWords env delegatee nonce expiry) v r sig
    delegator ≠ 0 ∧ nonce.toNat = s.nonces delegator ∧
      _delegate { s with nonces := Function.update s.nonces delegator (s.nonces delegator + 1) }
        delegator delegatee = .ok s' := by
  simp only [delegateBySig, bind_eq_ok_iff, require_eq_ok_iff, exists_const,
    checkedAdd_eq_ok_iff] at succeeds
  obtain ⟨some, _, ⟨_, next⟩, current, _, delegates⟩ := succeeds
  subst next
  exact ⟨some, current, delegates⟩

/-- Nothing but a signature changes a nonce. -/
theorem nonces_of_step {act : Action} (succeeds : step env s act = .ok s')
    (silent : message env s act = none) : s'.nonces = s.nonces := by
  cases act with
  | setMinter sender minter_ =>
      simp only [step, setMinter, bind_eq_ok_iff, pure_eq_ok_iff] at succeeds
      obtain ⟨_, _, same⟩ := succeeds
      exact same ▸ rfl
  | mint sender dst rawAmount => exact (aside_of_mint succeeds).nonces
  | approve sender spender rawAmount =>
      simp only [step, approve, bind_eq_ok_iff, pure_eq_ok_iff] at succeeds
      obtain ⟨_, _, same⟩ := succeeds
      exact same ▸ rfl
  | permit owner spender rawAmount deadline v r sig => cases silent
  | transfer sender dst rawAmount =>
      obtain ⟨_, _, transfers⟩ := bind_eq_ok_iff.mp succeeds
      exact (aside_of_transferTokens transfers).nonces
  | transferFrom sender src dst rawAmount =>
      obtain ⟨t, transfers, _, nonces, _⟩ := spent_of_transferFrom succeeds
      exact (aside_of_transferTokens transfers).nonces.trans nonces
  | delegate sender delegatee => exact (aside_of_delegate succeeds).nonces
  | delegateBySig delegatee nonce expiry v r sig => cases silent
  | mine blocks seconds =>
      cases succeeds
      rfl

theorem discipline : Nonces.Discipline (step env) (message env) Signed.signer Signed.nonce
    TribeState.nonces where
  silent := nonces_of_step
  uses := by
    intro s act s' m succeeds accepted
    cases act with
    | permit owner spender rawAmount deadline v r sig =>
        cases accepted
        obtain ⟨_, _, _, _, _, same⟩ := permitted_of_permit succeeds
        exact ⟨rfl, same ▸ rfl⟩
    | delegateBySig delegatee nonce expiry v r sig =>
        cases accepted
        obtain ⟨_, current, delegates⟩ := delegated_of_delegateBySig succeeds
        exact ⟨current, (aside_of_delegate delegates).nonces⟩
    | setMinter sender minter_ => cases accepted
    | mint sender dst rawAmount => cases accepted
    | approve sender spender rawAmount => cases accepted
    | transfer sender dst rawAmount => cases accepted
    | transferFrom sender src dst rawAmount => cases accepted
    | delegate sender delegatee => cases accepted
    | mine blocks seconds => cases accepted

/-- What is known of an accepted message: it is of this token and has its nonce, and its signer's
signature of it was shown. -/
structure Genuine (env : TribeEnv) (m : Signed) : Prop where
  domain : m.message.domain = domain env
  words : (∃ spender rawAmount deadline,
      m.message.words = permitWords env m.signer spender rawAmount m.nonce deadline) ∨
    ∃ delegatee expiry,
      m.message.words = delegationWords env delegatee (BitVec.ofNat 256 m.nonce) expiry
  small : m.nonce < 2 ^ 256
  signed : m.signer ≠ 0 ∧ ∃ v r sig, env.precompiles.ecrecover
    (m.message.digest env.precompiles.keccak256) v r sig = m.signer

theorem genuine_of_accepted {as : List Action} {m : Signed}
    (mem : m ∈ Nonces.accepted (step env) (message env) s as) : Genuine env m := by
  refine Nonces.forall_accepted (A := fun _ => True) (I := fun _ => True) ?_ trivial
    (fun _ _ => trivial) m mem
  intro s act s' _ _ succeeds
  refine ⟨trivial, fun m accepted => ?_⟩
  cases act with
  | permit owner spender rawAmount deadline v r sig =>
      cases accepted
      obtain ⟨counts, some, signed, _⟩ := permitted_of_permit succeeds
      exact ⟨rfl, .inl ⟨spender, rawAmount, deadline, rfl⟩, Nat.lt_of_succ_lt counts, some,
        v.toNat, r, sig, signed⟩
  | delegateBySig delegatee nonce expiry v r sig =>
      cases accepted
      obtain ⟨some, _, _⟩ := delegated_of_delegateBySig succeeds
      refine ⟨rfl, .inr ⟨delegatee, expiry, ?_⟩, nonce.isLt, some, v.toNat, r, sig, rfl⟩
      rw [BitVec.ofNat_toNat, BitVec.setWidth_eq]
  | setMinter sender minter_ => cases accepted
  | mint sender dst rawAmount => cases accepted
  | approve sender spender rawAmount => cases accepted
  | transfer sender dst rawAmount => cases accepted
  | transferFrom sender src dst rawAmount => cases accepted
  | delegate sender delegatee => cases accepted
  | mine blocks seconds => cases accepted

/-- The nonce is one of the words that are signed, at a place that their number tells. -/
theorem Genuine.nonce_eq {m m' : Signed} (genuine : Genuine env m) (genuine' : Genuine env m')
    (same : m.message = m'.message) : m.nonce = m'.nonce := by
  rcases genuine.words with ⟨_, _, _, words⟩ | ⟨_, _, words⟩
  · rcases genuine'.words with ⟨_, _, _, words'⟩ | ⟨_, _, words'⟩
    · rw [same, words'] at words
      simp only [permitWords, List.cons.injEq] at words
      exact (ofNat_inj genuine'.small genuine.small words.2.2.2.2.1).symm
    · have lengths := congrArg List.length (words.symm.trans (same ▸ words'))
      cases lengths
  · rcases genuine'.words with ⟨_, _, _, words'⟩ | ⟨_, _, words'⟩
    · have lengths := congrArg List.length (words.symm.trans (same ▸ words'))
      cases lengths
    · rw [same, words'] at words
      simp only [delegationWords, List.cons.injEq] at words
      exact (ofNat_inj genuine'.small genuine.small words.2.2.1).symm

/-- The messages of FEI name another domain: it has five words, and this one four. -/
theorem collide_of_fei {fei : FeiEnv} {this : Address} {chainId : Nat} {m m' : Signed}
    (theirs : FeiToken.Genuine ⟨fei, env.precompiles, this, chainId⟩ m) (ours : Genuine env m')
    (digest : m.message.digest env.precompiles.keccak256 =
      m'.message.digest env.precompiles.keccak256) :
    Message.Collide env.precompiles.keccak256 m.message m'.message := by
  refine (Message.eq_or_collides digest).resolve_left fun same => ?_
  have domains := theirs.domain
  rw [same, ours.domain] at domains
  have lengths := congrArg List.length domains
  cases lengths

/-- **Signatures are used once.** In every run, the approvals and delegations that a holder signed
are accepted with consecutive nonces; each was signed by it; no two of one holder have the same
digest, unless the hash collides on what was hashed for them; and no permit that FEI accepts in a
run of its own has the digest of any of them, unless it collides there. -/
theorem signatures_used_once (s : TribeState) (as : List Action) (fei : FeiEnv) (this : Address)
    (chainId : Nat) (unlimited : Bool) (timestamp : Nat) (bs : List FeiToken.Action) :
    let signed := Nonces.accepted (step env) (message env) s as
    let feiEnv : FeiTokenEnv := ⟨fei, env.precompiles, this, chainId⟩
    let permits := Nonces.accepted (FeiToken.step feiEnv) (FeiToken.message feiEnv)
      (FeiToken.construct feiEnv unlimited timestamp) bs
    (∀ holder, (Nonces.ofSigner Signed.signer holder signed).map Signed.nonce =
      List.range' (s.nonces holder) ((run (step env) s as).nonces holder - s.nonces holder)) ∧
    (∀ m ∈ signed, m.signer ≠ 0 ∧ ∃ v r sig, env.precompiles.ecrecover
      (m.message.digest env.precompiles.keccak256) v r sig = m.signer) ∧
    (signed.Pairwise fun m m' => m.signer = m'.signer →
      m.message.digest env.precompiles.keccak256 = m'.message.digest env.precompiles.keccak256 →
      Message.Collide env.precompiles.keccak256 m.message m'.message) ∧
    ∀ m ∈ permits, ∀ m' ∈ signed,
      m.message.digest env.precompiles.keccak256 = m'.message.digest env.precompiles.keccak256 →
      Message.Collide env.precompiles.keccak256 m.message m'.message := by
  refine ⟨fun holder => (discipline.numbers_eq holder s as).1,
    fun m mem => (genuine_of_accepted mem).signed, ?_, ?_⟩
  · refine (discipline.pairwise s as).imp_of_mem fun {m m'} mem mem' distinct signer digest => ?_
    refine (Message.eq_or_collides digest).resolve_left fun same => distinct ⟨signer, ?_⟩
    exact (genuine_of_accepted mem).nonce_eq (genuine_of_accepted mem') same
  · intro m mem m' mem' digest
    exact collide_of_fei (FeiToken.genuine_of_accepted rfl mem) (genuine_of_accepted mem') digest

end Tribe

end FeiProtocol
