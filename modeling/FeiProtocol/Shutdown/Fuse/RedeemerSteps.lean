import FeiProtocol.Shutdown.Fuse.RariMerkleRedeemer

/-!
# Every entry point is a sequence of signs, claims and redemptions

The eight entry points share three bodies, `_sign`, `_claim` and `_redeem`. This
module says once what each body does when it succeeds, and reduces every entry
point to them:

* `_multiRedeem_eq_ok_iff`: the two loops of `_multiRedeem` succeed exactly when
  redeeming one element after another does, with the same final state, apart
  from the extra check on the zero address.
* `dispatch_eq_ok_iff`: a call succeeds exactly when its opening, its claims and
  its redemptions do, one after another.
* `run_induction`, `Reachable.induction`: what the three bodies and outside token
  calls keep holds along every run, and in every reachable state.

`Sample` is a small deployment on which runs can be evaluated.
-/

namespace FeiProtocol

open Evm ReentrancyGuard MultiMerkleRedeemer

namespace RariMerkleRedeemer

variable {env : RedeemerEnv} {s s' : RedeemerState} {sender cToken : Address}

/-! ## What the bodies do -/

theorem _sign_eq_ok_iff {signature : Bytes} :
    _sign env s sender signature = .ok s' ↔
      ECDSA.recover env.toPrecompiles (MESSAGE_HASH env) signature = .ok sender ∧
      { s with
        userSignatures := Function.update s.userSignatures sender signature
        events := s.events ++ [.Signed sender signature] } = s' := by
  simp only [_sign, bind_eq_ok_iff, pure_eq_ok_iff, require_eq_ok_iff, exists_const]
  constructor
  · intro h
    rcases h with ⟨recovered, found, rfl, rfl⟩
    exact ⟨found, rfl⟩
  · intro h
    rcases h with ⟨found, rfl⟩
    exact ⟨sender, found, rfl, rfl⟩

theorem _claim_eq_ok_iff {amount : UInt256} {merkleProof : List Bytes32} :
    _claim env s sender cToken amount merkleProof = .ok s' ↔
      s.claims sender cToken = 0 ∧
      MerkleProof.verifyCalldata env.keccak256 merkleProof (s.merkleRoots cToken)
        (leafHash env sender amount) = true ∧
      { s with
        claims := update₂ s.claims sender cToken amount.toNat
        events := s.events ++ [.Claimed sender cToken amount.toNat] } = s' := by
  simp only [_claim, bind_eq_ok_iff, pure_eq_ok_iff, require_eq_ok_iff, exists_const]

theorem previewRedeem_eq_ok_iff {amount out : Nat} :
    previewRedeem s cToken amount = .ok out ↔
      s.cTokenExchangeRates cToken * amount < 2 ^ 256 ∧
      s.cTokenExchangeRates cToken * amount / 10 ^ 18 = out := by
  simp only [previewRedeem, bind_eq_ok_iff, pure_eq_ok_iff, checkedMul_eq_ok_iff]
  constructor
  · intro h
    rcases h with ⟨scaled, ⟨fits, rfl⟩, rfl⟩
    exact ⟨fits, rfl⟩
  · intro h
    rcases h with ⟨fits, rfl⟩
    exact ⟨_, ⟨fits, rfl⟩, rfl⟩

/-- The checks of a redemption, in both implementations. -/
structure Redeemable (s : RedeemerState) (sender cToken : Address) (amount : UInt256) :
    Prop where
  positive : amount.toNat ≠ 0
  fits : s.redemptions sender cToken + amount.toNat < 2 ^ 256
  capped : s.redemptions sender cToken + amount.toNat ≤ s.claims sender cToken

/-- What a redemption pays in base tokens. -/
def payout (s : RedeemerState) (cToken : Address) (amount : UInt256) : Nat :=
  s.cTokenExchangeRates cToken * amount.toNat / 10 ^ 18

/-- The token movements of a redemption: the cTokens in, the base tokens out. -/
def Exchanges (env : RedeemerEnv) (s : RedeemerState) (sender cToken : Address)
    (amount : UInt256) (out : Ledger) : Prop :=
  s.cTokenExchangeRates cToken * amount.toNat < 2 ^ 256 ∧
  ∃ pulled,
    s.ledger.safeTransferFrom env.this cToken sender env.this amount.toNat = .ok pulled ∧
    pulled.safeTransfer env.this s.baseToken sender (payout s cToken amount) = .ok out

/-- The state after `amount` is counted as redeemed. -/
def counted (s : RedeemerState) (sender cToken : Address) (amount : UInt256) : RedeemerState :=
  { s with redemptions :=
      update₂ s.redemptions sender cToken (s.redemptions sender cToken + amount.toNat) }

/-- The state after the tokens have moved to `ledger`. -/
def exchanged (s : RedeemerState) (sender cToken : Address) (amount : UInt256)
    (ledger : Ledger) : RedeemerState :=
  { s with
    ledger
    events := s.events ++ [.Redeemed sender cToken amount.toNat (payout s cToken amount)] }

theorem _multiRedeemCheck_eq_ok_iff {amount : UInt256} :
    _multiRedeemCheck sender s (cToken, amount) = .ok s' ↔
      cToken ≠ 0 ∧ Redeemable s sender cToken amount ∧ counted s sender cToken amount = s' := by
  simp only [_multiRedeemCheck, bind_eq_ok_iff, pure_eq_ok_iff, require_eq_ok_iff, exists_const,
    checkedAdd_eq_ok_iff]
  constructor
  · intro h
    rcases h with ⟨valid, positive, redeemed, ⟨fits, rfl⟩, capped, rfl⟩
    exact ⟨valid, ⟨positive, fits, capped⟩, rfl⟩
  · intro h
    rcases h with ⟨valid, ⟨positive, fits, capped⟩, rfl⟩
    exact ⟨valid, positive, _, ⟨fits, rfl⟩, capped, rfl⟩

theorem _multiRedeemInteract_eq_ok_iff {amount : UInt256} :
    _multiRedeemInteract env sender s (cToken, amount) = .ok s' ↔
      ∃ ledger, Exchanges env s sender cToken amount ledger ∧
        exchanged s sender cToken amount ledger = s' := by
  simp only [_multiRedeemInteract, bind_eq_ok_iff, pure_eq_ok_iff, previewRedeem_eq_ok_iff]
  constructor
  · intro h
    rcases h with ⟨out, ⟨fits, rfl⟩, pulled, hpull, ledger, hpay, rfl⟩
    exact ⟨ledger, ⟨fits, pulled, hpull, hpay⟩, rfl⟩
  · intro h
    rcases h with ⟨ledger, ⟨fits, pulled, hpull, hpay⟩, rfl⟩
    exact ⟨_, ⟨fits, rfl⟩, pulled, hpull, ledger, hpay, rfl⟩

theorem _redeem_eq_ok_iff {amount : UInt256} :
    _redeem env s sender cToken amount = .ok s' ↔
      Redeemable s sender cToken amount ∧
      ∃ ledger, Exchanges env s sender cToken amount ledger ∧
        exchanged (counted s sender cToken amount) sender cToken amount ledger = s' := by
  simp only [_redeem, bind_eq_ok_iff, pure_eq_ok_iff, require_eq_ok_iff, exists_const,
    checkedAdd_eq_ok_iff, previewRedeem_eq_ok_iff]
  constructor
  · intro h
    rcases h with ⟨positive, redeemed, ⟨fits, rfl⟩, capped, out, ⟨scaled, rfl⟩, pulled, hpull,
      ledger, hpay, rfl⟩
    exact ⟨⟨positive, fits, capped⟩, ledger, ⟨scaled, pulled, hpull, hpay⟩, rfl⟩
  · intro h
    rcases h with ⟨⟨positive, fits, capped⟩, ledger, ⟨scaled, pulled, hpull, hpay⟩, rfl⟩
    exact ⟨positive, _, ⟨fits, rfl⟩, capped, _, ⟨scaled, rfl⟩, pulled, hpull, ledger, hpay, rfl⟩

/-! ## The two implementations of redeeming -/

/-- Counting one element and moving the tokens of another are independent. -/
theorem multiRedeem_commutes :
    Commutes (_multiRedeemCheck sender) (_multiRedeemInteract env sender) := by
  rintro s ⟨c, a⟩ ⟨d, b⟩ s'
  simp only [_multiRedeemInteract_eq_ok_iff, _multiRedeemCheck_eq_ok_iff]
  constructor
  · intro h
    rcases h with ⟨-, ⟨ledger, moves, rfl⟩, valid, check, rfl⟩
    exact ⟨_, ⟨valid, ⟨check.positive, check.fits, check.capped⟩, rfl⟩, ledger, moves, rfl⟩
  · intro h
    rcases h with ⟨-, ⟨valid, check, rfl⟩, ledger, moves, rfl⟩
    exact ⟨_, ⟨ledger, moves, rfl⟩, valid, ⟨check.positive, check.fits, check.capped⟩, rfl⟩

/-- Checking and moving one element at once is `_redeem`, with the zero address
ruled out. -/
theorem check_then_interact_eq_ok_iff {e : Address × UInt256} :
    (_multiRedeemCheck sender s e >>= fun m => _multiRedeemInteract env sender m e) = .ok s' ↔
      e.1 ≠ 0 ∧ _redeem env s sender e.1 e.2 = .ok s' := by
  rcases e with ⟨c, a⟩
  simp only [bind_eq_ok_iff, _multiRedeemInteract_eq_ok_iff, _multiRedeemCheck_eq_ok_iff,
    _redeem_eq_ok_iff]
  constructor
  · intro h
    rcases h with ⟨-, ⟨valid, check, rfl⟩, ledger, moves, rfl⟩
    exact ⟨valid, check, ledger, moves, rfl⟩
  · intro h
    rcases h with ⟨valid, check, ledger, moves, rfl⟩
    exact ⟨_, ⟨valid, check, rfl⟩, ledger, moves, rfl⟩

/-- Redeeming one element after another. -/
def redeemEach (env : RedeemerEnv) (sender : Address) (s : RedeemerState)
    (es : List (Address × UInt256)) : Except Revert RedeemerState :=
  es.foldlM (fun s e => _redeem env s sender e.1 e.2) s

/-- Claiming one element after another. -/
def claimEach (env : RedeemerEnv) (sender : Address) (s : RedeemerState)
    (es : List (Address × UInt256 × List Bytes32)) : Except Revert RedeemerState :=
  es.foldlM (fun s e => _claim env s sender e.1 e.2.1 e.2.2) s

theorem _multiClaim_eq_ok_iff {cTokens : List Address} {amounts : List UInt256}
    {merkleProofs : List (List Bytes32)} :
    _multiClaim env s sender cTokens amounts merkleProofs = .ok s' ↔
      cTokens.length = amounts.length ∧ cTokens.length = merkleProofs.length ∧
      claimEach env sender s (cTokens.zip (amounts.zip merkleProofs)) = .ok s' := by
  simp only [_multiClaim, bind_eq_ok_iff, require_eq_ok_iff, exists_const]
  rfl

@[simp]
theorem claimEach_nil : claimEach env sender s [] = .ok s' ↔ s = s' :=
  foldlM_nil_eq_ok_iff

@[simp]
theorem redeemEach_nil : redeemEach env sender s [] = .ok s' ↔ s = s' :=
  foldlM_nil_eq_ok_iff

@[simp]
theorem claimEach_cons {e : Address × UInt256 × List Bytes32}
    {es : List (Address × UInt256 × List Bytes32)} :
    claimEach env sender s (e :: es) = .ok s' ↔
      ∃ m, _claim env s sender e.1 e.2.1 e.2.2 = .ok m ∧ claimEach env sender m es = .ok s' :=
  foldlM_cons_eq_ok_iff

@[simp]
theorem redeemEach_cons {e : Address × UInt256} {es : List (Address × UInt256)} :
    redeemEach env sender s (e :: es) = .ok s' ↔
      ∃ m, _redeem env s sender e.1 e.2 = .ok m ∧ redeemEach env sender m es = .ok s' :=
  foldlM_cons_eq_ok_iff

theorem forall_fst_zip_of_length_eq {α β : Type} {p : α → Prop} {as : List α} {bs : List β}
    (same : as.length = bs.length) : (∀ e ∈ as.zip bs, p e.1) ↔ ∀ a ∈ as, p a := by
  induction as generalizing bs with
  | nil => simp
  | cons a as ih =>
      cases bs with
      | nil => cases same
      | cons b bs =>
          have tail := ih (Nat.succ.inj same)
          simp only [List.zip_cons_cons, List.forall_mem_cons, tail]

/-- **The two loops refine the single redemptions.** -/
theorem _multiRedeem_eq_ok_iff {cTokens : List Address} {amounts : List UInt256} :
    _multiRedeem env s sender cTokens amounts = .ok s' ↔
      cTokens.length = amounts.length ∧ (∀ c ∈ cTokens, c ≠ 0) ∧
      redeemEach env sender s (cTokens.zip amounts) = .ok s' := by
  have loops : ∀ es : List (Address × UInt256), ∀ s,
      es.foldlM (fun s e => _multiRedeemCheck sender s e >>= fun m =>
        _multiRedeemInteract env sender m e) s = .ok s' ↔
      (∀ e ∈ es, e.1 ≠ 0) ∧ redeemEach env sender s es = .ok s' := by
    intro es
    induction es with
    | nil => intro s; simp [redeemEach]
    | cons e es ih =>
        intro s
        simp only [redeemEach, foldlM_cons_eq_ok_iff, check_then_interact_eq_ok_iff, ih,
          List.forall_mem_cons]
        constructor
        · intro given
          rcases given with ⟨m, ⟨valid, head⟩, rest, tail⟩
          exact ⟨⟨valid, rest⟩, m, head, tail⟩
        · intro given
          rcases given with ⟨⟨valid, rest⟩, m, head, tail⟩
          exact ⟨m, ⟨valid, head⟩, rest, tail⟩
  simp only [_multiRedeem, bind_eq_ok_iff, require_eq_ok_iff, exists_const,
    foldlM_fission multiRedeem_commutes, loops]
  apply and_congr_right
  intro same
  rw [forall_fst_zip_of_length_eq (p := fun c => c ≠ 0) same]

/-! ## The guard around the bodies -/

theorem _sign_transparent (sender : Address) (signature : Bytes) :
    Transparent fun s => _sign env s sender signature := by
  intro s n s'
  simp only [_sign_eq_ok_iff]
  constructor
  · intro given
    rcases given with ⟨found, last⟩
    exact ⟨_, ⟨found, rfl⟩, last⟩
  · intro given
    rcases given with ⟨_, ⟨found, same⟩, last⟩
    subst same
    exact ⟨found, last⟩

theorem _claim_transparent (sender cToken : Address) (amount : UInt256)
    (merkleProof : List Bytes32) :
    Transparent fun s => _claim env s sender cToken amount merkleProof := by
  intro s n s'
  simp only [_claim_eq_ok_iff]
  constructor
  · intro given
    rcases given with ⟨first, proved, last⟩
    exact ⟨_, ⟨first, proved, rfl⟩, last⟩
  · intro given
    rcases given with ⟨_, ⟨first, proved, same⟩, last⟩
    subst same
    exact ⟨first, proved, last⟩

theorem _redeem_transparent (sender cToken : Address) (amount : UInt256) :
    Transparent fun s => _redeem env s sender cToken amount := by
  intro s n s'
  simp only [_redeem_eq_ok_iff]
  constructor
  · intro given
    rcases given with ⟨check, ledger, moves, last⟩
    exact ⟨_, ⟨⟨check.positive, check.fits, check.capped⟩, ledger, moves, rfl⟩, last⟩
  · intro given
    rcases given with ⟨_, ⟨check, ledger, moves, same⟩, last⟩
    subst same
    exact ⟨⟨check.positive, check.fits, check.capped⟩, ledger, moves, last⟩

theorem claimEach_transparent (sender : Address)
    (es : List (Address × UInt256 × List Bytes32)) :
    Transparent fun s => claimEach env sender s es :=
  .foldlM (f := fun s (e : Address × UInt256 × List Bytes32) =>
    _claim env s sender e.1 e.2.1 e.2.2) (fun e => _claim_transparent sender e.1 e.2.1 e.2.2) es

theorem redeemEach_transparent (sender : Address) (es : List (Address × UInt256)) :
    Transparent fun s => redeemEach env sender s es :=
  .foldlM (f := fun s (e : Address × UInt256) => _redeem env s sender e.1 e.2)
    (fun e => _redeem_transparent sender e.1 e.2) es

theorem _multiClaim_transparent (sender : Address) (cTokens : List Address)
    (amounts : List UInt256) (merkleProofs : List (List Bytes32)) :
    Transparent fun s => _multiClaim env s sender cTokens amounts merkleProofs :=
  .require (.require (claimEach_transparent sender _) _ _) _ _

theorem _multiRedeem_transparent (sender : Address) (cTokens : List Address)
    (amounts : List UInt256) :
    Transparent fun s => _multiRedeem env s sender cTokens amounts := by
  intro s n s'
  simp only [_multiRedeem_eq_ok_iff, redeemEach_transparent sender _ s n s']
  constructor
  · intro given
    rcases given with ⟨same, valid, m, first, last⟩
    exact ⟨m, ⟨same, valid, first⟩, last⟩
  · intro given
    rcases given with ⟨m, ⟨same, valid, first⟩, last⟩
    exact ⟨same, valid, m, first, last⟩

/-! ## Every call, expanded -/

/-- The signature a call submits. -/
def Call.signature? : Call → Option Bytes
  | .sign signature => some signature
  | .signAndClaim signature _ _ _ => some signature
  | .signAndClaimAndRedeem signature _ _ _ _ => some signature
  | _ => none

/-- The hash tells a signature from the empty string, which is what the modifiers
compare it with. -/
def ToldApart (env : RedeemerEnv) (signature : Bytes) : Prop :=
  signature ≠ [] → env.keccak256 signature ≠ env.keccak256 []

/-- The claims a call makes, in order. -/
def Call.claims : Call → List (Address × UInt256 × List Bytes32)
  | .claim cToken amount merkleProof => [(cToken, amount, merkleProof)]
  | .multiClaim cTokens amounts merkleProofs => cTokens.zip (amounts.zip merkleProofs)
  | .signAndClaim _ cTokens amounts merkleProofs => cTokens.zip (amounts.zip merkleProofs)
  | .claimAndRedeem cTokens amounts merkleProofs => cTokens.zip (amounts.zip merkleProofs)
  | .signAndClaimAndRedeem _ cTokens amountsToClaim _ merkleProofs =>
      cTokens.zip (amountsToClaim.zip merkleProofs)
  | _ => []

/-- The redemptions a call makes, in order, after its claims. -/
def Call.redemptions : Call → List (Address × UInt256)
  | .redeem cToken cTokenAmount => [(cToken, cTokenAmount)]
  | .multiRedeem cTokens cTokenAmounts => cTokens.zip cTokenAmounts
  | .claimAndRedeem cTokens amounts _ => cTokens.zip amounts
  | .signAndClaimAndRedeem _ cTokens _ amountsToRedeem _ => cTokens.zip amountsToRedeem
  | _ => []

/-- The array lengths agree, and a batch redeems no zero address. -/
def Call.WellFormed : Call → Prop
  | .multiClaim cTokens amounts merkleProofs =>
      cTokens.length = amounts.length ∧ cTokens.length = merkleProofs.length
  | .multiRedeem cTokens cTokenAmounts =>
      cTokens.length = cTokenAmounts.length ∧ ∀ c ∈ cTokens, c ≠ 0
  | .signAndClaim _ cTokens amounts merkleProofs =>
      cTokens.length = amounts.length ∧ cTokens.length = merkleProofs.length
  | .claimAndRedeem cTokens amounts merkleProofs =>
      cTokens.length = amounts.length ∧ cTokens.length = merkleProofs.length ∧
        ∀ c ∈ cTokens, c ≠ 0
  | .signAndClaimAndRedeem _ cTokens amountsToClaim amountsToRedeem merkleProofs =>
      cTokens.length = amountsToClaim.length ∧ cTokens.length = merkleProofs.length ∧
        cTokens.length = amountsToRedeem.length ∧ ∀ c ∈ cTokens, c ≠ 0
  | _ => True

/-- How a call opens: by signing, or by the check that the sender has signed. -/
def Call.Opens (env : RedeemerEnv) (s : RedeemerState) (sender : Address) (c : Call)
    (m : RedeemerState) : Prop :=
  match c with
  | .sign signature =>
      hasNotSigned env s sender = .ok () ∧ _sign env s sender signature = .ok m
  | .signAndClaim signature _ _ _ => _sign env s sender signature = .ok m
  | .signAndClaimAndRedeem signature _ _ _ _ =>
      hasNotSigned env s sender = .ok () ∧ _sign env s sender signature = .ok m
  | _ => hasSigned env s sender = .ok () ∧ s = m

/-- An opening stores the signature of the call, or changes nothing. -/
theorem opens_cases {c : Call} (opens : c.Opens env s sender s') :
    (∃ signature, c.signature? = some signature ∧ _sign env s sender signature = .ok s') ∨
      c.signature? = none ∧ hasSigned env s sender = .ok () ∧ s' = s := by
  cases c with
  | sign signature => exact .inl ⟨signature, rfl, opens.2⟩
  | signAndClaim signature cTokens amounts merkleProofs => exact .inl ⟨signature, rfl, opens⟩
  | signAndClaimAndRedeem signature cTokens toClaim toRedeem merkleProofs =>
      exact .inl ⟨signature, rfl, opens.2⟩
  | claim | multiClaim | redeem | multiRedeem | claimAndRedeem =>
      exact .inr ⟨rfl, opens.1, opens.2.symm⟩

/-- **Every call is an opening, its claims and its redemptions**, in this order. -/
theorem dispatch_eq_ok_iff (idle : s._status = _NOT_ENTERED) {c : Call} :
    dispatch env s sender c = .ok s' ↔ c.WellFormed ∧ ∃ m, c.Opens env s sender m ∧
      ∃ k, claimEach env sender m c.claims = .ok k ∧
        redeemEach env sender k c.redemptions = .ok s' := by
  have guard : ∀ {body : RedeemerState → Except Revert RedeemerState},
      Transparent body → (nonReentrant body s = .ok s' ↔ body s = .ok s') :=
    fun transparent => nonReentrant_eq_ok_iff transparent idle
  have signs := fun sg => @_sign_transparent env sender sg
  have claims := fun cs as ps => @_multiClaim_transparent env sender cs as ps
  have redeems := fun cs as => @_multiRedeem_transparent env sender cs as
  cases c with
  | sign signature =>
      simp only [dispatch, sign, seq_eq_ok_iff, guard (signs _)]
      simp [Call.WellFormed, Call.Opens, Call.claims, Call.redemptions]
  | claim cToken amount merkleProof =>
      simp only [dispatch, claim, seq_eq_ok_iff, guard (_claim_transparent _ _ _ _)]
      simp [Call.WellFormed, Call.Opens, Call.claims, Call.redemptions]
  | multiClaim cTokens amounts merkleProofs =>
      simp only [dispatch, multiClaim, seq_eq_ok_iff, guard (claims _ _ _)]
      simp [Call.WellFormed, Call.Opens, Call.claims, Call.redemptions, _multiClaim_eq_ok_iff]
      tauto
  | redeem cToken cTokenAmount =>
      simp only [dispatch, redeem, seq_eq_ok_iff, guard (_redeem_transparent _ _ _)]
      simp [Call.WellFormed, Call.Opens, Call.claims, Call.redemptions]
  | multiRedeem cTokens cTokenAmounts =>
      simp only [dispatch, multiRedeem, seq_eq_ok_iff, guard (redeems _ _)]
      simp [Call.WellFormed, Call.Opens, Call.claims, Call.redemptions, _multiRedeem_eq_ok_iff]
      tauto
  | signAndClaim signature cTokens amounts merkleProofs =>
      simp only [dispatch, signAndClaim, guard ((signs _).bind (claims _ _ _))]
      simp [Call.WellFormed, Call.Opens, Call.claims, Call.redemptions, _multiClaim_eq_ok_iff,
        bind_eq_ok_iff]
      tauto
  | claimAndRedeem cTokens amounts merkleProofs =>
      simp only [dispatch, claimAndRedeem, seq_eq_ok_iff,
        guard ((claims _ _ _).bind (redeems _ _))]
      simp [Call.WellFormed, Call.Opens, Call.claims, Call.redemptions, _multiClaim_eq_ok_iff,
        _multiRedeem_eq_ok_iff, bind_eq_ok_iff]
      tauto
  | signAndClaimAndRedeem signature cTokens amountsToClaim amountsToRedeem merkleProofs =>
      simp only [dispatch, signAndClaimAndRedeem, seq_eq_ok_iff,
        guard ((signs _).bind ((claims _ _ _).bind (redeems _ _)))]
      simp [Call.WellFormed, Call.Opens, Call.claims, Call.redemptions, _multiClaim_eq_ok_iff,
        _multiRedeem_eq_ok_iff, bind_eq_ok_iff]
      tauto

/-! ## Invariants of runs -/

/-- No call is under way, and every stored signature is its user's own. -/
structure Sane (env : RedeemerEnv) (s : RedeemerState) : Prop where
  idle : s._status = _NOT_ENTERED
  signed : ∀ u, s.userSignatures u ≠ [] →
    ECDSA.recover env.toPrecompiles (MESSAGE_HASH env) (s.userSignatures u) = .ok u

/-- No signature recovers to the zero address, so it stores none. -/
theorem Sane.zero (sane : Sane env s) : s.userSignatures 0 = [] := by
  by_contra stored
  exact ECDSA.ne_zero_of_recover (sane.signed 0 stored) rfl

theorem Sane.signed_of_hasSigned (sane : Sane env s)
    (check : hasSigned env s sender = .ok ()) : s.userSignatures sender ≠ [] := by
  intro none
  rw [hasSigned, require_eq_ok_iff, none, sane.zero] at check
  exact check rfl

/-- `I` survives the three bodies when `sender` runs them. -/
structure Kept (env : RedeemerEnv) (sender : Address) (I : RedeemerState → Prop) : Prop where
  sign : ∀ {s s' signature}, I s → _sign env s sender signature = .ok s' → I s'
  claim : ∀ {s s' cToken amount merkleProof}, I s → s.userSignatures sender ≠ [] →
    _claim env s sender cToken amount merkleProof = .ok s' → I s'
  redeem : ∀ {s s' cToken amount}, I s → s.userSignatures sender ≠ [] →
    _redeem env s sender cToken amount = .ok s' → I s'

theorem signed_of_sign {signature : Bytes} (signs : _sign env s sender signature = .ok s') :
    s'.userSignatures sender ≠ [] := by
  obtain ⟨found, same⟩ := _sign_eq_ok_iff.mp signs
  subst same
  simp only [Function.update_self]
  exact ECDSA.ne_nil_of_recover found

theorem signed_of_opens (sane : Sane env s) {c : Call} (opens : c.Opens env s sender s') :
    s'.userSignatures sender ≠ [] := by
  rcases opens_cases opens with ⟨signature, _, signs⟩ | ⟨_, check, same⟩
  · exact signed_of_sign signs
  · rw [same]
    exact sane.signed_of_hasSigned check

theorem Kept.opens {I : RedeemerState → Prop} (kept : Kept env sender I) (init : I s) {c : Call}
    (opens : c.Opens env s sender s') : I s' := by
  rcases opens_cases opens with ⟨signature, _, signs⟩ | ⟨_, _, same⟩
  · exact kept.sign init signs
  · rw [same]
    exact init

/-- The bodies that run after the opening keep the sender signed. -/
theorem claim_userSignatures {amount : UInt256} {merkleProof : List Bytes32}
    (claims : _claim env s sender cToken amount merkleProof = .ok s') :
    s'.userSignatures = s.userSignatures := by
  obtain ⟨-, -, rfl⟩ := _claim_eq_ok_iff.mp claims
  rfl

theorem redeem_userSignatures {amount : UInt256}
    (redeems : _redeem env s sender cToken amount = .ok s') :
    s'.userSignatures = s.userSignatures := by
  obtain ⟨-, ledger, -, rfl⟩ := _redeem_eq_ok_iff.mp redeems
  rfl

theorem Kept.claimEach {I : RedeemerState → Prop} (kept : Kept env sender I) (init : I s)
    (signed : s.userSignatures sender ≠ []) {es : List (Address × UInt256 × List Bytes32)}
    (claims : claimEach env sender s es = .ok s') : I s' ∧ s'.userSignatures sender ≠ [] := by
  refine foldlM_invariant (I := fun s => I s ∧ s.userSignatures sender ≠ []) ?_
    ⟨init, signed⟩ claims
  intro m e m' ⟨inv, signed⟩ _ one
  exact ⟨kept.claim inv signed one, by rwa [claim_userSignatures one]⟩

theorem Kept.redeemEach {I : RedeemerState → Prop} (kept : Kept env sender I) (init : I s)
    (signed : s.userSignatures sender ≠ []) {es : List (Address × UInt256)}
    (redeems : redeemEach env sender s es = .ok s') : I s' ∧ s'.userSignatures sender ≠ [] := by
  refine foldlM_invariant (I := fun s => I s ∧ s.userSignatures sender ≠ []) ?_
    ⟨init, signed⟩ redeems
  intro m e m' ⟨inv, signed⟩ _ one
  exact ⟨kept.redeem inv signed one, by rwa [redeem_userSignatures one]⟩

/-- What the bodies keep, every entry point keeps. -/
theorem Kept.dispatch {I : RedeemerState → Prop} (kept : Kept env sender I)
    (sane : Sane env s) (init : I s) {c : Call}
    (succeeds : dispatch env s sender c = .ok s') : I s' := by
  obtain ⟨-, m, opens, k, claims, redeems⟩ := (dispatch_eq_ok_iff sane.idle).mp succeeds
  obtain ⟨inv, signed⟩ := kept.claimEach (kept.opens init opens) (signed_of_opens sane opens) claims
  exact (kept.redeemEach inv signed redeems).1

theorem sane_kept (env : RedeemerEnv) (sender : Address) : Kept env sender (Sane env) where
  sign := by
    intro s s' signature sane signs
    obtain ⟨found, rfl⟩ := _sign_eq_ok_iff.mp signs
    refine ⟨sane.idle, fun u stored => ?_⟩
    rcases eq_or_ne u sender with rfl | other
    · simpa using found
    · simp only [Function.update_of_ne other] at stored ⊢
      exact sane.signed u stored
  claim := by
    intro s s' cToken amount merkleProof sane _ claims
    obtain ⟨-, -, rfl⟩ := _claim_eq_ok_iff.mp claims
    exact ⟨sane.idle, sane.signed⟩
  redeem := by
    intro s s' cToken amount sane _ redeems
    obtain ⟨-, ledger, -, rfl⟩ := _redeem_eq_ok_iff.mp redeems
    exact ⟨sane.idle, sane.signed⟩

/-- It is enough to keep `I` between states that satisfy `Sane`. -/
theorem Kept.ofSane {I : RedeemerState → Prop}
    (sign : ∀ {s s' signature}, Sane env s → I s →
      _sign env s sender signature = .ok s' → I s')
    (claim : ∀ {s s' cToken amount merkleProof}, Sane env s → I s →
      s.userSignatures sender ≠ [] →
      _claim env s sender cToken amount merkleProof = .ok s' → I s')
    (redeem : ∀ {s s' cToken amount}, Sane env s → I s → s.userSignatures sender ≠ [] →
      _redeem env s sender cToken amount = .ok s' → I s') :
    Kept env sender fun s => Sane env s ∧ I s where
  sign inv one := ⟨(sane_kept env sender).sign inv.1 one, sign inv.1 inv.2 one⟩
  claim inv signed one :=
    ⟨(sane_kept env sender).claim inv.1 signed one, claim inv.1 inv.2 signed one⟩
  redeem inv signed one :=
    ⟨(sane_kept env sender).redeem inv.1 signed one, redeem inv.1 inv.2 signed one⟩

/-- **Induction over runs.** What the three bodies keep for every outside sender,
and token calls of outside accounts keep, holds along every run. -/
theorem run_induction {I : RedeemerState → Prop}
    (bodies : ∀ sender, sender ≠ env.this → Kept env sender fun s => Sane env s ∧ I s)
    (tokens : ∀ {s sender c ledger}, sender ≠ env.this → I s →
      s.ledger.perform sender c = .ok ledger → I { s with ledger := ledger })
    {s₀ : RedeemerState} (sane : Sane env s₀) (init : I s₀) {actions : List Action}
    (external : ∀ a ∈ actions, Action.External env a) :
    Sane env (run (step env) s₀ actions) ∧ I (run (step env) s₀ actions) := by
  refine run_invariant (I := fun s => Sane env s ∧ I s) ?_ ⟨sane, init⟩ external
  intro s a s' ⟨sane, inv⟩ outside succeeds
  cases a with
  | redeemer sender c => exact (bodies sender outside).dispatch sane ⟨sane, inv⟩ succeeds
  | token sender c =>
      obtain ⟨ledger, performed, same⟩ := bind_eq_ok_iff.mp succeeds
      cases same
      exact ⟨⟨sane.idle, sane.signed⟩, tokens outside inv performed⟩

/-- The configuration, which the constructor sets and nothing changes. -/
structure SameConfig (s₀ s : RedeemerState) : Prop where
  baseToken : s.baseToken = s₀.baseToken
  merkleRoots : s.merkleRoots = s₀.merkleRoots
  cTokenExchangeRates : s.cTokenExchangeRates = s₀.cTokenExchangeRates

theorem sameConfig_kept (s₀ : RedeemerState) :
    Kept env sender fun s => Sane env s ∧ SameConfig s₀ s := by
  refine .ofSane ?_ ?_ ?_
  · intro s s' signature _ same one
    obtain ⟨-, rfl⟩ := _sign_eq_ok_iff.mp one
    exact ⟨same.1, same.2, same.3⟩
  · intro s s' cToken amount merkleProof _ same _ one
    obtain ⟨-, -, rfl⟩ := _claim_eq_ok_iff.mp one
    exact ⟨same.1, same.2, same.3⟩
  · intro s s' cToken amount _ same _ one
    obtain ⟨-, ledger, -, rfl⟩ := _redeem_eq_ok_iff.mp one
    exact ⟨same.1, same.2, same.3⟩

/-! ## The deployed contract -/

/-- Nobody has signed, claimed or redeemed. -/
structure Fresh (s : RedeemerState) : Prop where
  idle : s._status = _NOT_ENTERED
  userSignatures : ∀ u, s.userSignatures u = []
  redemptions : ∀ u c, s.redemptions u c = 0
  claims : ∀ u c, s.claims u c = 0
  events : s.events = []

theorem Fresh.sane (fresh : Fresh s) : Sane env s :=
  ⟨fresh.idle, fun u stored => absurd (fresh.userSignatures u) stored⟩

/-- What the configuration of each rate, each root and the base token keeps holds of
the deployed state. -/
theorem construct_induction {I : RedeemerState → Prop} {ledger : Ledger} {token : Address}
    {cTokens : List Address} {rates : List Nat} {roots : List Bytes32}
    (init : I (blank ledger))
    (rate : ∀ {s c n}, I s →
      I { s with cTokenExchangeRates := Function.update s.cTokenExchangeRates c n })
    (root : ∀ {s c r}, c ∈ cTokens → I s →
      I { s with merkleRoots := Function.update s.merkleRoots c r })
    (base : ∀ {s}, I s → I { s with baseToken := token })
    (constructed : construct ledger token cTokens rates roots = .ok s) : I s := by
  simp only [construct, _configureExchangeRates, _configureMerkleRoots, _configureBaseToken,
    bind_eq_ok_iff, require_eq_ok_iff, pure_eq_ok_iff, exists_const] at constructed
  obtain ⟨s₁, ⟨_, _, rated⟩, s₂, ⟨_, _, rooted⟩, _, same⟩ := constructed
  have afterRates : I s₁ := by
    apply foldlM_invariant (I := I) ?_ init rated
    intro m e m' inv _ one
    simp only [bind_eq_ok_iff, require_eq_ok_iff, pure_eq_ok_iff, exists_const] at one
    exact one.2 ▸ rate inv
  have afterRoots : I s₂ := by
    apply foldlM_invariant (I := I) ?_ afterRates rooted
    intro m e m' inv mem one
    simp only [bind_eq_ok_iff, require_eq_ok_iff, pure_eq_ok_iff, exists_const] at one
    exact one.2 ▸ root (List.of_mem_zip mem).1 inv
  exact same ▸ base afterRoots

/-- The constructor configures the exchange and touches nothing else. -/
theorem fresh_of_construct {ledger : Ledger} {token : Address} {cTokens : List Address}
    {rates : List Nat} {roots : List Bytes32}
    (constructed : construct ledger token cTokens rates roots = .ok s) :
    Fresh s ∧ s.ledger = ledger := by
  apply construct_induction (I := fun s => Fresh s ∧ s.ledger = ledger) ?_ ?_ ?_ ?_ constructed
  · exact ⟨⟨rfl, fun _ => rfl, fun _ _ => rfl, fun _ _ => rfl, rfl⟩, rfl⟩
  · intro s c n ⟨fresh, same⟩
    exact ⟨⟨fresh.1, fresh.2, fresh.3, fresh.4, fresh.5⟩, same⟩
  · intro s c r _ ⟨fresh, same⟩
    exact ⟨⟨fresh.1, fresh.2, fresh.3, fresh.4, fresh.5⟩, same⟩
  · intro s ⟨fresh, same⟩
    exact ⟨⟨fresh.1, fresh.2, fresh.3, fresh.4, fresh.5⟩, same⟩

/-- Only the given cTokens get a root. -/
theorem merkleRoots_of_construct {ledger : Ledger} {token : Address} {cTokens : List Address}
    {rates : List Nat} {roots : List Bytes32}
    (constructed : construct ledger token cTokens rates roots = .ok s) {c : Address}
    (other : c ∉ cTokens) : s.merkleRoots c = 0 := by
  apply construct_induction (I := fun s => s.merkleRoots c = 0) rfl id ?_ id constructed
  intro s c' r mem none
  have different : c ≠ c' := fun same => other (same ▸ mem)
  exact (Function.update_of_ne different _ _).trans none

theorem Deployed.fresh (deployed : Deployed env s) : Fresh s := by
  obtain ⟨ledger, token, cTokens, rates, roots, constructed⟩ := deployed.constructed
  exact (fresh_of_construct constructed).1

/-- **Induction over reachable states.** -/
theorem Reachable.induction {I : RedeemerState → Prop}
    (bodies : ∀ sender, sender ≠ env.this → Kept env sender fun s => Sane env s ∧ I s)
    (tokens : ∀ {s sender c ledger}, sender ≠ env.this → I s →
      s.ledger.perform sender c = .ok ledger → I { s with ledger := ledger })
    (init : ∀ {s₀}, Deployed env s₀ → I s₀) (reach : Reachable env s) :
    Sane env s ∧ I s := by
  obtain ⟨s₀, actions, deployed, external, rfl⟩ := reach
  exact run_induction bodies tokens deployed.fresh.sane (init deployed) external

theorem Reachable.sane (reach : Reachable env s) : Sane env s := by
  obtain ⟨s₀, actions, deployed, external, rfl⟩ := reach
  have kept : ∀ sender, sender ≠ env.this → Kept env sender fun s => Sane env s ∧ True :=
    fun _ _ => .ofSane (fun _ _ _ => trivial) (fun _ _ _ _ => trivial) fun _ _ _ _ => trivial
  exact (run_induction kept (fun _ _ _ => trivial) deployed.fresh.sane trivial external).1

end RariMerkleRedeemer

/-! ## A sample deployment

User 1 has an entry of 100 for cToken 10 and an entry of 0 for cToken 11, each
the only leaf of its tree. The redeemer exchanges at a rate of 2. -/

namespace RariMerkleRedeemer.Sample

/-- Tells the strings apart that matter here: the two leaves, the empty string,
and everything else. -/
def keccak256 (b : Bytes) : Bytes32 :=
  if b = packAddress 1 ++ packWord 100 then 1
  else if b = packAddress 1 ++ packWord 0 then 2
  else if b = [] then 3
  else 4

/-- A signature names its signer in `r`; its `s` is free. -/
def env : RedeemerEnv where
  keccak256 := keccak256
  ecrecover _ _ r _ := r.setWidth 160
  this := 0xAA

def signature (signer : Address) (s : Bytes32) : Bytes :=
  packWord (signer.setWidth 256) ++ packWord s ++ [27]

/-- A token with one holder, who has approved the redeemer. -/
def token (holder : Address) (balance : Nat) : Erc20 where
  balanceOf a := if a = holder then balance else 0
  allowance owner spender := if owner = 1 ∧ spender = 0xAA then balance else 0
  totalSupply := balance
  unlimited := true

def ledger : Ledger where
  erc20 := Function.update (fun _ => token 1 100) 99 (token 0xAA 1000)
  transfers := []

def cTokens : List Address := 10 :: List.replicate 26 11

/-- Two and a half units of the base token for one of each cToken. -/
def rates : List Nat := List.replicate 27 (25 * 10 ^ 17)

def roots : List Bytes32 := 1 :: List.replicate 26 2

/-- The deployed contract. -/
def start : RedeemerState :=
  match construct ledger 99 cTokens rates roots with
  | .ok s => s
  | .error _ => blank ledger

theorem constructed : construct ledger 99 cTokens rates roots = .ok start := rfl

theorem deployed : Deployed env start where
  constructed := ⟨_, _, _, _, _, constructed⟩
  unrecorded := rfl
  unapproved := by
    intro t spender
    rw [(fresh_of_construct constructed).2]
    rcases eq_or_ne t 99 with rfl | other
    · rfl
    · simp only [Ledger.allowance, ledger, Function.update_of_ne other]
      rfl

/-- User 1 signs and claims 100. -/
def claims100 : List Action :=
  [.redeemer 1 (.sign (signature 1 0)), .redeemer 1 (.claim 10 100 [])]

theorem claims100_external : ∀ a ∈ claims100, Action.External env a := by
  simp [claims100, Action.External, Action.sender, env]

/-- The state in which user 1 has claimed 100 and redeemed nothing. -/
def claimed : RedeemerState := run (step env) start claims100

theorem claimed_reachable : Reachable env claimed :=
  ⟨_, _, deployed, claims100_external, rfl⟩

end RariMerkleRedeemer.Sample

end FeiProtocol
