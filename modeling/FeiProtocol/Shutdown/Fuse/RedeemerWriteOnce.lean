import FeiProtocol.Shutdown.Fuse.RedeemerAccounting

/-!
# What can be written only once

A signature is meant to be given once, and a claim to be made once. Neither
holds on every path.

* `signAndClaim` signs without `hasNotSigned`. Signatures are write-once exactly
  when no user that has signed succeeds in passing a signature of its own to it
  (`signatures_write_once`).
* `claims` records that a user has claimed by the claimed amount, so a claim of
  zero leaves no record. The claims of a user and cToken are write-once exactly
  when no leaf of amount zero is provable for them (`claimsOnce_iff`).
-/

namespace FeiProtocol

open Evm ReentrancyGuard MultiMerkleRedeemer RedeemerEvent

namespace RariMerkleRedeemer

variable {env : RedeemerEnv} {s s' s₀ : RedeemerState} {sender u c : Address}

/-! ## Signatures -/

theorem claimEach_signatures {es : List (Address × UInt256 × List Bytes32)}
    (claims : claimEach env sender s es = .ok s') :
    s'.userSignatures = s.userSignatures ∧
      ∀ u, signedCount s'.events u = signedCount s.events u := by
  refine foldlM_invariant (I := fun m : RedeemerState =>
    m.userSignatures = s.userSignatures ∧
      ∀ u, signedCount m.events u = signedCount s.events u) ?_ ⟨rfl, fun _ => rfl⟩ claims
  intro m e m' ⟨same, count⟩ _ one
  obtain ⟨-, -, rfl⟩ := _claim_eq_ok_iff.mp one
  exact ⟨same, by simpa using count⟩

theorem redeemEach_signatures {es : List (Address × UInt256)}
    (redeems : redeemEach env sender s es = .ok s') :
    s'.userSignatures = s.userSignatures ∧
      ∀ u, signedCount s'.events u = signedCount s.events u := by
  refine foldlM_invariant (I := fun m : RedeemerState =>
    m.userSignatures = s.userSignatures ∧
      ∀ u, signedCount m.events u = signedCount s.events u) ?_ ⟨rfl, fun _ => rfl⟩ redeems
  intro m e m' ⟨same, count⟩ _ one
  obtain ⟨-, ledger, -, rfl⟩ := _redeem_eq_ok_iff.mp one
  exact ⟨same, by simpa [exchanged, counted] using count⟩

/-- `s'` is `s` with `signature?` stored and reported for `sender`, if there is one;
the empty string is none. -/
def Signs (sender : Address) (signature? : Option Bytes) (s s' : RedeemerState) : Prop :=
  match signature? with
  | some signature => signature ≠ [] ∧
      s'.userSignatures = Function.update s.userSignatures sender signature ∧
      ∀ u, signedCount s'.events u = signedCount s.events u + if sender = u then 1 else 0
  | none => s'.userSignatures = s.userSignatures ∧
      ∀ u, signedCount s'.events u = signedCount s.events u

theorem signs_of_opens {call : Call} (opens : call.Opens env s sender s') :
    Signs sender call.signature? s s' := by
  rcases opens_cases opens with ⟨signature, submits, one⟩ | ⟨none, _, same⟩
  · obtain ⟨found, same⟩ := _sign_eq_ok_iff.mp one
    subst same
    rw [submits]
    exact ⟨ECDSA.ne_nil_of_recover found, rfl, by simp⟩
  · subst same
    rw [none]
    exact ⟨rfl, fun _ => rfl⟩

/-- **What a call does to signatures**: it stores and reports the one it submits. -/
theorem dispatch_signs (sane : Sane env s) {call : Call}
    (succeeds : dispatch env s sender call = .ok s') : Signs sender call.signature? s s' := by
  obtain ⟨-, m, opens, k, claims, redeems⟩ := (dispatch_eq_ok_iff sane.idle).mp succeeds
  obtain ⟨stored, counted⟩ := claimEach_signatures claims
  obtain ⟨stored', counted'⟩ := redeemEach_signatures redeems
  have signs := signs_of_opens opens
  unfold Signs at signs ⊢
  split at signs
  · obtain ⟨nonempty, signed, reported⟩ := signs
    exact ⟨nonempty, by rw [stored', stored, signed],
      fun u => by rw [counted', counted, reported]⟩
  · exact ⟨by rw [stored', stored, signs.1], fun u => by rw [counted', counted, signs.2]⟩

/-- A signed user passes a signature that recovers to it to `signAndClaim`, the one
path that signs without `hasNotSigned`. -/
def Action.Resigns (env : RedeemerEnv) (s : RedeemerState) : Action → Prop
  | .redeemer sender (.signAndClaim signature _ _ _) => s.userSignatures sender ≠ [] ∧
      ECDSA.recover env.toPrecompiles (MESSAGE_HASH env) signature = .ok sender
  | _ => False

def Action.signature? : Action → Option Bytes
  | .redeemer _ call => call.signature?
  | .token _ _ => none

/-- Who has a signature has been reported, and the signature is told from the empty string by its
hash. -/
structure Reported (env : RedeemerEnv) (s : RedeemerState) : Prop where
  count : ∀ u, signedCount s.events u = 0 ↔ s.userSignatures u = []
  distinct : ∀ u, s.userSignatures u ≠ [] →
    env.keccak256 (s.userSignatures u) ≠ env.keccak256 []

/-- Nobody has been reported twice. -/
def SignedOnce (s : RedeemerState) : Prop := ∀ u, signedCount s.events u ≤ 1

/-- Once `u` has signed, its signature stays. -/
def KeepsSignatures (s s' : RedeemerState) : Prop :=
  ∀ u, s.userSignatures u ≠ [] → s'.userSignatures u = s.userSignatures u

/-- A call that signs, other than a repeated `signAndClaim`, is made by a user
without a signature. -/
theorem unsigned_of_signature (sane : Sane env s) (reported : Reported env s) {call : Call}
    {signature : Bytes} (signs : call.signature? = some signature)
    (first : ¬ Action.Resigns env s (.redeemer sender call))
    (succeeds : dispatch env s sender call = .ok s') : s.userSignatures sender = [] := by
  have checked : hasNotSigned env s sender = .ok () → s.userSignatures sender = [] := by
    intro check
    rw [hasNotSigned, require_eq_ok_iff, sane.zero] at check
    by_contra stored
    exact reported.distinct sender stored check
  obtain ⟨-, m, opens, -⟩ := (dispatch_eq_ok_iff sane.idle).mp succeeds
  cases call with
  | sign signature => exact checked opens.1
  | signAndClaim signature cTokens amounts merkleProofs =>
      by_contra stored
      exact first ⟨stored, (_sign_eq_ok_iff.mp opens).1⟩
  | signAndClaimAndRedeem signature cTokens toClaim toRedeem merkleProofs =>
      exact checked opens.1
  | claim | multiClaim | redeem | multiRedeem | claimAndRedeem => cases signs

theorem Reported.dispatch (sane : Sane env s) (reported : Reported env s) {call : Call}
    (apart : ∀ signature, call.signature? = some signature → ToldApart env signature)
    (succeeds : dispatch env s sender call = .ok s') : Reported env s' := by
  have signs := dispatch_signs sane succeeds
  unfold Signs at signs
  split at signs
  · rename_i signature submitted
    obtain ⟨nonempty, stored, count⟩ := signs
    refine ⟨fun u => ?_, fun u signed => ?_⟩
    · rw [count, stored]
      rcases eq_or_ne u sender with rfl | other
      · simp [nonempty]
      · simpa [Function.update_of_ne other, other.symm] using reported.count u
    · rw [stored] at signed ⊢
      rcases eq_or_ne u sender with rfl | other
      · simpa using apart signature submitted nonempty
      · rw [Function.update_of_ne other] at signed ⊢
        exact reported.distinct u signed
  · obtain ⟨stored, count⟩ := signs
    refine ⟨fun u => ?_, fun u => ?_⟩
    · rw [count, stored]
      exact reported.count u
    · rw [stored]
      exact reported.distinct u

/-- **The step.** A call by which nobody signs again keeps signatures, and reports nobody twice;
one by which somebody does reports that user twice. -/
theorem signedOnce_iff (sane : Sane env s) (reported : Reported env s) (once : SignedOnce s)
    {call : Call} (succeeds : dispatch env s sender call = .ok s') :
    (SignedOnce s' ↔ ¬ Action.Resigns env s (.redeemer sender call)) ∧
      (¬ Action.Resigns env s (.redeemer sender call) → KeepsSignatures s s') := by
  have signs := dispatch_signs sane succeeds
  unfold Signs at signs
  split at signs
  · rename_i signature submitted
    obtain ⟨_, stored, count⟩ := signs
    have unsigned := fun first => unsigned_of_signature sane reported submitted first succeeds
    refine ⟨⟨fun once' resigns => ?_, fun first u => ?_⟩, fun first u signed => ?_⟩
    · -- the user has been reported before, and is reported once more
      have twice := once' sender
      have before : signedCount s.events sender ≠ 0 := fun none => by
        cases call with
        | signAndClaim signature cTokens amounts merkleProofs =>
            exact resigns.1 ((reported.count sender).mp none)
        | sign | claim | multiClaim | redeem | multiRedeem | claimAndRedeem
          | signAndClaimAndRedeem => exact resigns
      rw [count, if_pos rfl] at twice
      omega
    · rw [count]
      rcases eq_or_ne sender u with same | other
      · have none := (reported.count sender).mpr (unsigned first)
        rw [if_pos same, ← same, none]
      · rw [if_neg other]
        exact once u
    · rcases eq_or_ne u sender with same | other
      · exact absurd (unsigned first) (same ▸ signed)
      · rw [stored, Function.update_of_ne other]
  · rename_i silent
    obtain ⟨stored, count⟩ := signs
    refine ⟨iff_of_true (fun u => ?_) ?_, fun _ u _ => by rw [stored]⟩
    · rw [count]
      exact once u
    · cases call with
      | signAndClaim signature cTokens amounts merkleProofs => cases silent
      | sign | claim | multiClaim | redeem | multiRedeem | claimAndRedeem
        | signAndClaimAndRedeem => exact not_false

/-- The condition under which signatures are write-once: no user that has signed
signs again through a `signAndClaim` that succeeds. -/
def NeverResigns (env : RedeemerEnv) (s₀ : RedeemerState) (actions : List Action) : Prop :=
  Along (step env) (fun s a => ∀ s', step env s a = .ok s' → ¬ a.Resigns env s) s₀ actions

theorem Fresh.reported (fresh : Fresh s) : Reported env s where
  count u := by simp [fresh.userSignatures u, signedCount, fresh.events]
  distinct u signed := absurd (fresh.userSignatures u) signed

theorem Reported.step (sane : Sane env s) (reported : Reported env s) {a : Action}
    (apart : ∀ signature, a.signature? = some signature → ToldApart env signature)
    (succeeds : step env s a = .ok s') : Sane env s' ∧ Reported env s' := by
  cases a with
  | redeemer sender call =>
      exact ⟨(sane_kept env sender).dispatch sane sane succeeds,
        reported.dispatch sane apart succeeds⟩
  | token sender call =>
      obtain ⟨ledger, -, same⟩ := bind_eq_ok_iff.mp succeeds
      cases same
      exact ⟨⟨sane.idle, sane.signed⟩, ⟨reported.count, reported.distinct⟩⟩

theorem signedOnce_iff_of_step (sane : Sane env s) (reported : Reported env s)
    (once : SignedOnce s) {a : Action} (succeeds : step env s a = .ok s') :
    (SignedOnce s' ↔ ¬ a.Resigns env s) ∧ (¬ a.Resigns env s → KeepsSignatures s s') := by
  cases a with
  | redeemer sender call => exact signedOnce_iff sane reported once succeeds
  | token sender call =>
      obtain ⟨ledger, -, same⟩ := bind_eq_ok_iff.mp succeeds
      cases same
      exact ⟨iff_of_true once not_false, fun _ _ _ => rfl⟩

/-- Without a repeated signature, what is stored stays. -/
theorem keepsSignatures_run (sane : Sane env s) (reported : Reported env s) (once : SignedOnce s)
    {actions : List Action} (first : NeverResigns env s actions)
    (apart : ∀ a ∈ actions, ∀ signature, a.signature? = some signature →
      ToldApart env signature) : KeepsSignatures s (run (step env) s actions) := by
  refine (run_relation (I := fun s => (Sane env s ∧ Reported env s) ∧ SignedOnce s)
    (R := KeepsSignatures) (fun _ _ _ => rfl) ?_ ?_ ⟨⟨sane, reported⟩, once⟩
    (first.and_forall apart)).2
  · intro s t v left right u signed
    have same := left u signed
    rw [right u (by rwa [same]), same]
  · intro s a s' known given succeeds
    obtain ⟨⟨sane, reported⟩, once⟩ := known
    obtain ⟨exact, keeps⟩ := signedOnce_iff_of_step sane reported once succeeds
    have never := given.1 s' succeeds
    exact ⟨⟨reported.step sane given.2 succeeds, exact.mpr never⟩, keeps never⟩

/-- **Signatures are write-once** in a run, if and only if no signed user signs again through a
`signAndClaim` that succeeds: then nobody is reported as signing twice, and a stored signature
stays. -/
theorem signatures_write_once (deployed : Deployed env s₀) {actions : List Action}
    (apart : ∀ a ∈ actions, ∀ signature, a.signature? = some signature →
      ToldApart env signature) :
    ((∀ prior, prior <+: actions → ∀ u, signedCount (run (step env) s₀ prior).events u ≤ 1) ↔
      NeverResigns env s₀ actions) ∧
    (NeverResigns env s₀ actions → ∀ before after, actions = before ++ after →
      ∀ u, (run (step env) s₀ before).userSignatures u ≠ [] →
        (run (step env) s₀ actions).userSignatures u =
          (run (step env) s₀ before).userSignatures u) := by
  have sane : Sane env s₀ := deployed.fresh.sane
  have reported : Reported env s₀ := deployed.fresh.reported
  have once : SignedOnce s₀ := fun u => by simp [signedCount, deployed.fresh.events]
  have exact : (∀ prior, prior <+: actions → SignedOnce (run (step env) s₀ prior)) ↔
      NeverResigns env s₀ actions := by
    refine run_iff_along (I := fun s => Sane env s ∧ Reported env s) (Q := SignedOnce) ?_
      ⟨sane, reported⟩ once apart
    intro s a s' known once apart succeeds
    exact ⟨known.2.step known.1 apart succeeds,
      (signedOnce_iff_of_step known.1 known.2 once succeeds).1⟩
  refine ⟨exact, fun never before after split => ?_⟩
  subst split
  obtain ⟨_, later⟩ := along_append.mp never
  have middle : Sane env (run (step env) s₀ before) ∧ Reported env (run (step env) s₀ before) :=
    run_invariant (I := fun s => Sane env s ∧ Reported env s)
      (fun known apart succeeds => known.2.step known.1 apart succeeds) ⟨sane, reported⟩
      fun a mem => apart a (List.mem_append_left _ mem)
  rw [run_append]
  exact keepsSignatures_run middle.1 middle.2 (exact.mpr never before (List.prefix_append _ _))
    later fun a mem => apart a (List.mem_append_right _ mem)

namespace Sample

/-- User 1 signs, and then again through `signAndClaim`, without claims. -/
def signsTwice : List Action :=
  [.redeemer 1 (.sign (signature 1 0)), .redeemer 1 (.signAndClaim (signature 1 1) [] [] [])]

theorem signsTwice_external : ∀ a ∈ signsTwice, Action.External Sample.env a := by
  simp [signsTwice, Action.External, Action.sender, Sample.env]

/-- Two users sign, one alone and one together with its claims. -/
def twoSign : List Action :=
  [.redeemer 1 (.sign (signature 1 0)), .redeemer 2 (.signAndClaim (signature 2 0) [] [] [])]

theorem twoSign_apart : ∀ a ∈ twoSign, ∀ signature, a.signature? = some signature →
    ToldApart Sample.env signature := by
  simp only [twoSign, List.forall_mem_cons, Action.signature?, Call.signature?,
    Option.some.injEq, forall_eq']
  refine ⟨fun _ => ?_, fun _ => ?_, by simp⟩
  · decide +kernel
  · decide +kernel

theorem twoSign_neverResigns : NeverResigns Sample.env start twoSign := by
  refine ⟨fun _ _ => not_false, fun _ _ => ?_, trivial⟩
  simp only [Action.Resigns]
  decide +kernel

end Sample

theorem signatures_write_once_two_users :
    (∀ u, signedCount (run (step Sample.env) Sample.start Sample.twoSign).events u ≤ 1) ∧
      ∀ u, (run (step Sample.env) Sample.start (Sample.twoSign.take 1)).userSignatures u ≠ [] →
        (run (step Sample.env) Sample.start Sample.twoSign).userSignatures u =
          (run (step Sample.env) Sample.start (Sample.twoSign.take 1)).userSignatures u := by
  obtain ⟨once, stays⟩ := signatures_write_once Sample.deployed Sample.twoSign_apart
  exact ⟨once.mpr Sample.twoSign_neverResigns _ (List.prefix_refl _),
    stays Sample.twoSign_neverResigns _ _ (List.take_append_drop 1 _).symm⟩

/-- Without the condition: the second signature replaces the first, and `Signed`
is emitted twice. -/
theorem signature_rewritten :
    Deployed Sample.env Sample.start ∧
      (∀ a ∈ Sample.signsTwice, Action.External Sample.env a) ∧
      (run (step Sample.env) Sample.start (Sample.signsTwice.take 1)).userSignatures 1 ≠ [] ∧
      (run (step Sample.env) Sample.start Sample.signsTwice).userSignatures 1 ≠
        (run (step Sample.env) Sample.start (Sample.signsTwice.take 1)).userSignatures 1 ∧
      signedCount (run (step Sample.env) Sample.start Sample.signsTwice).events 1 = 2 := by
  refine ⟨Sample.deployed, Sample.signsTwice_external, ?_, ?_, ?_⟩
  · decide +kernel
  · decide +kernel
  · decide +kernel

/-! ## Claims -/

/-- At most one `Claimed` for `u` and `c` in every run, and none of `u`'s calls
that claims `c` succeeds after it. -/
def ClaimsOnce (env : RedeemerEnv) (s₀ : RedeemerState) (u c : Address) : Prop :=
  ∀ actions : List Action, (∀ a ∈ actions, Action.External env a) →
    claimedCount (run (step env) s₀ actions).events u c ≤ 1 ∧
      (0 < claimedCount (run (step env) s₀ actions).events u c →
        ∀ call : Call, c ∈ call.claims.map Prod.fst →
          ∀ s', dispatch env (run (step env) s₀ actions) u call ≠ .ok s')

/-- `u` can send a transaction that claims nothing of `c`: it is an outside
account, some signature recovers to it, and a leaf of amount zero is provable. -/
def ClaimsZero (env : RedeemerEnv) (s₀ : RedeemerState) (u c : Address) : Prop :=
  u ≠ env.this ∧ Provable env s₀ u c 0 ∧
    ∃ signature, ECDSA.recover env.toPrecompiles (MESSAGE_HASH env) signature = .ok u

/-- A recorded claim is exactly one reported claim. -/
structure ClaimedOnce (s₀ s : RedeemerState) (u c : Address) : Prop where
  config : SameConfig s₀ s
  never : s.claims u c = 0 → claimedCount s.events u c = 0
  once : s.claims u c ≠ 0 → claimedCount s.events u c = 1

theorem claimedOnce_kept (nonzero : ¬ ClaimsZero env s₀ u c) (outside : sender ≠ env.this) :
    Kept env sender fun s => Sane env s ∧ ClaimedOnce s₀ s u c := by
  refine .ofSane ?_ ?_ ?_
  · intro s s' signature sane inv one
    have config := ((sameConfig_kept s₀).sign ⟨sane, inv.config⟩ one).2
    obtain ⟨-, rfl⟩ := _sign_eq_ok_iff.mp one
    exact ⟨config, by simpa using inv.never, by simpa using inv.once⟩
  · intro s s' cToken amount merkleProof sane inv signed one
    have config := ((sameConfig_kept s₀).claim ⟨sane, inv.config⟩ signed one).2
    obtain ⟨unclaimed, verified, rfl⟩ := _claim_eq_ok_iff.mp one
    rcases Classical.em (sender = u ∧ cToken = c) with ⟨rfl, rfl⟩ | other
    · have positive : amount.toNat ≠ 0 := by
        intro zero
        have zero : amount = 0 := BitVec.eq_of_toNat_eq zero
        refine nonzero ⟨outside, ⟨merkleProof, ?_⟩, s.userSignatures sender, sane.signed _ signed⟩
        rw [← inv.config.merkleRoots, ← zero]
        exact verified
      exact ⟨config, by simp [positive], by simp [inv.never unclaimed]⟩
    · have other' : ¬ (u = sender ∧ c = cToken) := fun h => other ⟨h.1.symm, h.2.symm⟩
      refine ⟨config, ?_, ?_⟩
      · simpa [other, update₂_of_ne _ _ other'] using inv.never
      · simpa [other, update₂_of_ne _ _ other'] using inv.once
  · intro s s' cToken amount sane inv signed one
    have config := ((sameConfig_kept s₀).redeem ⟨sane, inv.config⟩ signed one).2
    obtain ⟨-, ledger, -, rfl⟩ := _redeem_eq_ok_iff.mp one
    refine ⟨config, ?_, ?_⟩
    · simpa [exchanged, counted] using inv.never
    · simpa [exchanged, counted] using inv.once

/-- A recorded claim blocks every further claim of the same cToken. -/
theorem claimEach_reverts (recorded : s.claims sender c ≠ 0)
    {es : List (Address × UInt256 × List Bytes32)} (mem : c ∈ es.map Prod.fst) :
    claimEach env sender s es ≠ .ok s' := by
  induction es generalizing s with
  | nil => cases mem
  | cons e es ih =>
      intro claims
      obtain ⟨m, one, rest⟩ := claimEach_cons.mp claims
      obtain ⟨unclaimed, -, rfl⟩ := _claim_eq_ok_iff.mp one
      rcases eq_or_ne c e.1 with rfl | other
      · exact recorded unclaimed
      · refine ih ?_ ?_ rest
        · simpa [update₂_apply, other] using recorded
        · simpa [other] using mem

theorem claims_of_opens {call : Call} (opens : call.Opens env s sender s') :
    s'.claims = s.claims := by
  rcases opens_cases opens with ⟨signature, _, one⟩ | ⟨_, _, same⟩
  · obtain ⟨_, same⟩ := _sign_eq_ok_iff.mp one
    subst same
    rfl
  · rw [same]

theorem claimsOnce_of_not_claimsZero (deployed : Deployed env s₀)
    (nonzero : ¬ ClaimsZero env s₀ u c) : ClaimsOnce env s₀ u c := by
  intro actions external
  have start : ClaimedOnce s₀ s₀ u c :=
    ⟨⟨rfl, rfl, rfl⟩, fun _ => by simp [claimedCount, deployed.fresh.events],
      fun claimed => absurd (deployed.fresh.claims u c) claimed⟩
  obtain ⟨sane, -, never, once⟩ := run_induction (I := fun s => ClaimedOnce s₀ s u c)
    (fun sender outside => claimedOnce_kept nonzero outside)
    (fun _ inv _ => ⟨⟨inv.config.1, inv.config.2, inv.config.3⟩, inv.never, inv.once⟩)
    deployed.fresh.sane start external
  generalize run (step env) s₀ actions = s at sane never once ⊢
  constructor
  · rcases eq_or_ne (s.claims u c) 0 with zero | nonzero
    · rw [never zero]
      exact Nat.zero_le 1
    · rw [once nonzero]
  · intro claimed call mem s' succeeds
    have recorded : s.claims u c ≠ 0 := by
      intro zero
      rw [never zero] at claimed
      exact Nat.lt_irrefl 0 claimed
    obtain ⟨-, m, opens, k, claims, -⟩ := (dispatch_eq_ok_iff sane.idle).mp succeeds
    rw [← claims_of_opens opens] at recorded
    exact claimEach_reverts recorded mem claims

/-- A claim of zero leaves the claim open. -/
theorem claim_zero {merkleProof : List Bytes32} (unclaimed : s.claims u c = 0)
    (proves : MerkleProof.verifyCalldata env.keccak256 merkleProof (s.merkleRoots c)
      (leafHash env u 0) = true) :
    ∃ s', _claim env s u c 0 merkleProof = .ok s' ∧ s'.claims u c = 0 ∧
      s'.merkleRoots = s.merkleRoots ∧
      claimedCount s'.events u c = claimedCount s.events u c + 1 :=
  ⟨_, _claim_eq_ok_iff.mpr ⟨unclaimed, proves, rfl⟩, by simp, rfl, by simp⟩

/-- So one call can make it twice. -/
theorem claims_zero_twice (fresh : Fresh s) (zero : ClaimsZero env s u c) :
    ∃ call s', dispatch env s u call = .ok s' ∧ claimedCount s'.events u c = 2 := by
  obtain ⟨-, ⟨merkleProof, proves⟩, signature, recovers⟩ := zero
  have signs : _sign env s u signature = .ok _ := _sign_eq_ok_iff.mpr ⟨recovers, rfl⟩
  let signed : RedeemerState :=
    { s with
      userSignatures := Function.update s.userSignatures u signature
      events := s.events ++ [.Signed u signature] }
  obtain ⟨m, first, open₁, roots, count₁⟩ := claim_zero (s := signed) (fresh.claims u c) proves
  obtain ⟨s', second, -, -, count₂⟩ := claim_zero (s := m) open₁ (by rw [roots]; exact proves)
  refine ⟨.signAndClaim signature [c, c] [0, 0] [merkleProof, merkleProof], s',
    (dispatch_eq_ok_iff fresh.idle).mpr ⟨?_, _, signs, s', ?_, redeemEach_nil.mpr rfl⟩, ?_⟩
  · simp [Call.WellFormed]
  · exact claimEach_cons.mpr ⟨m, first, claimEach_cons.mpr ⟨s', second, claimEach_nil.mpr rfl⟩⟩
  · rw [count₂, count₁]
    simp [signed, claimedCount, fresh.events]

/-- **Claims are write-once exactly when no zero leaf can be claimed.** -/
theorem claimsOnce_iff (deployed : Deployed env s₀) :
    ClaimsOnce env s₀ u c ↔ ¬ ClaimsZero env s₀ u c := by
  refine ⟨?_, claimsOnce_of_not_claimsZero deployed⟩
  intro once zero
  obtain ⟨call, s', succeeds, count⟩ := claims_zero_twice deployed.fresh zero
  have single := (once [.redeemer u call] (List.forall_mem_singleton.mpr zero.1)).1
  have last : run (step env) s₀ [.redeemer u call] = s' := by
    rw [run_cons, run_nil]
    exact commit_of_ok succeeds
  rw [last, count] at single
  omega

/-- In the sample deployment cToken 10 has no zero leaf. -/
theorem claimsOnce_iff_sample :
    ClaimsOnce Sample.env Sample.start 1 10 ↔ ¬ ClaimsZero Sample.env Sample.start 1 10 :=
  claimsOnce_iff Sample.deployed

/-- With a zero leaf, here that of cToken 11: user 1 signs, and claims it twice. -/
theorem claimed_twice :
    Deployed Sample.env Sample.start ∧
      claimedCount (run (step Sample.env) Sample.start
        [.redeemer 1 (.sign (Sample.signature 1 0)), .redeemer 1 (.claim 11 0 []),
          .redeemer 1 (.claim 11 0 [])]).events 1 11 = 2 :=
  ⟨Sample.deployed, by decide +kernel⟩

end RariMerkleRedeemer

end FeiProtocol
