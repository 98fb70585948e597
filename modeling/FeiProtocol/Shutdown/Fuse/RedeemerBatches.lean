import FeiProtocol.Shutdown.Fuse.RedeemerSteps

/-!
# The batched entry points refine the single ones

`Call.singles` is the sequence of single calls that a batched call stands for:
`sign`, if it signs at all, then `claim` for each index, then `redeem` for each
index. The batched call and that sequence succeed alike, and end in the same
state, events and token balances included (`batch_eq_ok_iff_singles`).
-/

namespace FeiProtocol

open Evm ReentrancyGuard MultiMerkleRedeemer

namespace RariMerkleRedeemer

variable {env : RedeemerEnv} {s s' : RedeemerState} {sender : Address}

/-- The single calls that a call stands for, in order. -/
def Call.singles (c : Call) : List Call :=
  (c.signature?.map Call.sign).toList ++ c.claims.map (fun e => .claim e.1 e.2.1 e.2.2) ++
    c.redemptions.map fun e => .redeem e.1 e.2

/-- One call after another, all by one sender; the sequence fails with the first
call that reverts. -/
def dispatchEach (env : RedeemerEnv) (sender : Address) (s : RedeemerState) (cs : List Call) :
    Except Revert RedeemerState :=
  cs.foldlM (fun s c => dispatch env s sender c) s

/-- A call that signs is made by a sender that has not signed, and any other
call by one that has, as the two modifiers test it. -/
def Call.Turn (env : RedeemerEnv) (s : RedeemerState) (sender : Address) (c : Call) : Prop :=
  match c.signature? with
  | some signature => hasNotSigned env s sender = .ok () ∧ ToldApart env signature
  | none => hasSigned env s sender = .ok ()

/-! ## Single calls -/

theorem sign_eq_ok_iff (idle : s._status = _NOT_ENTERED) {signature : Bytes} :
    dispatch env s sender (.sign signature) = .ok s' ↔
      hasNotSigned env s sender = .ok () ∧ _sign env s sender signature = .ok s' := by
  rw [dispatch_eq_ok_iff idle]
  simp [Call.WellFormed, Call.Opens, Call.claims, Call.redemptions]

theorem claim_eq_ok_iff (idle : s._status = _NOT_ENTERED) {cToken : Address} {amount : UInt256}
    {merkleProof : List Bytes32} :
    dispatch env s sender (.claim cToken amount merkleProof) = .ok s' ↔
      hasSigned env s sender = .ok () ∧
        _claim env s sender cToken amount merkleProof = .ok s' := by
  rw [dispatch_eq_ok_iff idle]
  simp [Call.WellFormed, Call.Opens, Call.claims, Call.redemptions]

theorem redeem_eq_ok_iff (idle : s._status = _NOT_ENTERED) {cToken : Address}
    {amount : UInt256} :
    dispatch env s sender (.redeem cToken amount) = .ok s' ↔
      hasSigned env s sender = .ok () ∧ _redeem env s sender cToken amount = .ok s' := by
  rw [dispatch_eq_ok_iff idle]
  simp [Call.WellFormed, Call.Opens, Call.claims, Call.redemptions]

/-- Outside of a call, with the sender signed: what every single claim and
redemption finds and leaves. -/
def Signed (env : RedeemerEnv) (sender : Address) (s : RedeemerState) : Prop :=
  s._status = _NOT_ENTERED ∧ hasSigned env s sender = .ok ()

theorem Signed.claim {cToken : Address} {amount : UInt256} {merkleProof : List Bytes32}
    (signed : Signed env sender s) (one : _claim env s sender cToken amount merkleProof = .ok s') :
    Signed env sender s' := by
  obtain ⟨-, -, rfl⟩ := _claim_eq_ok_iff.mp one
  exact signed

theorem Signed.redeem {cToken : Address} {amount : UInt256} (signed : Signed env sender s)
    (one : _redeem env s sender cToken amount = .ok s') : Signed env sender s' := by
  obtain ⟨-, ledger, -, rfl⟩ := _redeem_eq_ok_iff.mp one
  exact signed

theorem claims_singly (signed : Signed env sender s)
    (es : List (Address × UInt256 × List Bytes32)) :
    dispatchEach env sender s (es.map fun e => .claim e.1 e.2.1 e.2.2) = .ok s' ↔
      claimEach env sender s es = .ok s' := by
  rw [dispatchEach, List.foldlM_map]
  have agree : ∀ {s s'} {e : Address × UInt256 × List Bytes32}, Signed env sender s →
      (dispatch env s sender (.claim e.1 e.2.1 e.2.2) = .ok s' ↔
        _claim env s sender e.1 e.2.1 e.2.2 = .ok s') := by
    intro s s' e signed
    rw [claim_eq_ok_iff signed.1]
    exact and_iff_right signed.2
  refine foldlM_ok_congr (I := Signed env sender) (fun signed _ => agree signed) ?_ signed
  intro s e s' signed _ one
  exact signed.claim ((agree signed).mp one)

theorem redeems_singly (signed : Signed env sender s) (es : List (Address × UInt256)) :
    dispatchEach env sender s (es.map fun e => .redeem e.1 e.2) = .ok s' ↔
      redeemEach env sender s es = .ok s' := by
  rw [dispatchEach, List.foldlM_map]
  have agree : ∀ {s s'} {e : Address × UInt256}, Signed env sender s →
      (dispatch env s sender (.redeem e.1 e.2) = .ok s' ↔
        _redeem env s sender e.1 e.2 = .ok s') := by
    intro s s' e signed
    rw [redeem_eq_ok_iff signed.1]
    exact and_iff_right signed.2
  refine foldlM_ok_congr (I := Signed env sender) (fun signed _ => agree signed) ?_ signed
  intro s e s' signed _ one
  exact signed.redeem ((agree signed).mp one)

theorem Signed.claimEach {es : List (Address × UInt256 × List Bytes32)}
    (signed : Signed env sender s) (claims : claimEach env sender s es = .ok s') :
    Signed env sender s' :=
  foldlM_invariant (I := Signed env sender) (fun signed _ one => signed.claim one) signed claims

/-! ## Openings -/

/-- A signature that is told from the empty string passes `hasSigned`. -/
theorem signed_of_sign_of_toldApart (sane : Sane env s) {signature : Bytes}
    (apart : ToldApart env signature) (one : _sign env s sender signature = .ok s') :
    Signed env sender s' := by
  have zero := ((sane_kept env sender).sign sane one).zero
  obtain ⟨found, same⟩ := _sign_eq_ok_iff.mp one
  subst same
  refine ⟨sane.idle, ?_⟩
  rw [hasSigned, require_eq_ok_iff, zero]
  simpa using apart (ECDSA.ne_nil_of_recover found)

theorem Signed.opens (sane : Sane env s) {c : Call} (turn : c.Turn env s sender)
    (opens : c.Opens env s sender s') : Signed env sender s' := by
  rcases opens_cases opens with ⟨signature, submits, signs⟩ | ⟨_, check, same⟩
  · rw [Call.Turn, submits] at turn
    exact signed_of_sign_of_toldApart sane turn.2 signs
  · rw [same]
    exact ⟨sane.idle, check⟩

/-- The opening of a call is its single `sign`, if it has one. -/
theorem opens_iff_singly (sane : Sane env s) {c : Call} (turn : c.Turn env s sender) :
    c.Opens env s sender s' ↔
      dispatchEach env sender s (c.signature?.map Call.sign).toList = .ok s' := by
  have signs : ∀ {signature}, hasNotSigned env s sender = .ok () →
      (_sign env s sender signature = .ok s' ↔
        dispatchEach env sender s [.sign signature] = .ok s') := by
    intro signature unsigned
    simp only [dispatchEach, foldlM_cons_eq_ok_iff, foldlM_nil_eq_ok_iff,
      sign_eq_ok_iff sane.idle, and_iff_right unsigned, exists_eq_right]
  have checks : hasSigned env s sender = .ok () →
      ((hasSigned env s sender = .ok () ∧ s = s') ↔ dispatchEach env sender s [] = .ok s') := by
    intro signed
    simp only [dispatchEach, foldlM_nil_eq_ok_iff, and_iff_right signed]
  cases c with
  | sign signature => exact (and_iff_right turn.1).trans (signs turn.1)
  | signAndClaim signature cTokens amounts merkleProofs => exact signs turn.1
  | signAndClaimAndRedeem signature cTokens toClaim toRedeem merkleProofs =>
      exact (and_iff_right turn.1).trans (signs turn.1)
  | claim | multiClaim | redeem | multiRedeem | claimAndRedeem => exact checks turn

/-- **Batches refine single calls.** In every reachable state a call succeeds
exactly when the single calls that it stands for all succeed, and both end in
the same state. -/
theorem batch_eq_ok_iff_singles (reach : Reachable env s) {c : Call}
    (wellFormed : c.WellFormed) (turn : c.Turn env s sender) :
    dispatch env s sender c = .ok s' ↔ dispatchEach env sender s c.singles = .ok s' := by
  have sane := reach.sane
  have splits : dispatchEach env sender s c.singles = .ok s' ↔
      ∃ k, (∃ m, dispatchEach env sender s (c.signature?.map Call.sign).toList = .ok m ∧
        dispatchEach env sender m (c.claims.map fun e => .claim e.1 e.2.1 e.2.2) = .ok k) ∧
        dispatchEach env sender k (c.redemptions.map fun e => .redeem e.1 e.2) = .ok s' := by
    simp only [dispatchEach, Call.singles, foldlM_append_eq_ok_iff]
  rw [dispatch_eq_ok_iff sane.idle, splits, and_iff_right wellFormed]
  constructor
  · intro given
    rcases given with ⟨m, opens, k, claims, redeems⟩
    have signed := Signed.opens sane turn opens
    exact ⟨k, ⟨m, (opens_iff_singly sane turn).mp opens, (claims_singly signed _).mpr claims⟩,
      (redeems_singly (signed.claimEach claims) _).mpr redeems⟩
  · intro given
    rcases given with ⟨k, ⟨m, first, claims⟩, redeems⟩
    have opens := (opens_iff_singly sane turn).mpr first
    have signed := Signed.opens sane turn opens
    have claims := (claims_singly signed _).mp claims
    exact ⟨m, opens, k, claims, (redeems_singly (signed.claimEach claims) _).mp redeems⟩

/-- User 1 redeems the same cToken twice in one call, or in two. -/
theorem batch_eq_ok_iff_singles_duplicates :
    ∃ s', dispatch Sample.env Sample.claimed 1 (.multiRedeem [10, 10] [40, 60]) = .ok s' ∧
      dispatchEach Sample.env 1 Sample.claimed [.redeem 10 40, .redeem 10 60] = .ok s' := by
  obtain ⟨s', batch⟩ := exists_ok_of_isOk
    (x := dispatch Sample.env Sample.claimed 1 (.multiRedeem [10, 10] [40, 60])) (by decide +kernel)
  refine ⟨s', batch, ?_⟩
  exact (batch_eq_ok_iff_singles Sample.claimed_reachable (by simp [Call.WellFormed])
    (by simp only [Call.Turn, Call.signature?]; rfl)).mp batch

end RariMerkleRedeemer

end FeiProtocol
