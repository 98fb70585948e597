import FeiProtocol.Shutdown.Fuse.RedeemerAccounting

/-!
# Solvency of the redeemer

The roots commit to a finite set of entries, and the redeemer has been given
the base tokens that all entries are worth together. Then nobody's redemption
fails for lack of them.

* `Reserve`: base tokens leave the redeemer only for redeemed entries, and never
  more for an entry than its redeemed part is worth.
* `payout_covered`: so what is left covers every redemption still open.
* `redemptions_succeed`: a user's redemptions of what remains of its entries
  succeed, one by one and in batches, and pay what `previewRedeem` says.
-/

namespace FeiProtocol

open Evm ReentrancyGuard MultiMerkleRedeemer RedeemerEvent

namespace RariMerkleRedeemer

variable {env : RedeemerEnv} {s s' s₀ : RedeemerState} {sender u c : Address}

/-- An entry of the snapshot behind a cToken's root. -/
structure Entry : Type where
  cToken : Address
  user : Address
  amount : UInt256
  deriving DecidableEq, Repr

variable {entries : Finset Entry}

/-- The roots commit exactly to `entries`, with at most one for a user and cToken. -/
structure Commits (env : RedeemerEnv) (s₀ : RedeemerState) (entries : Finset Entry) : Prop where
  exact : ∀ u c amount, Provable env s₀ u c amount ↔ ⟨c, u, amount⟩ ∈ entries
  unique : ∀ {u c amount amount'}, ⟨c, u, amount⟩ ∈ entries → ⟨c, u, amount'⟩ ∈ entries →
    amount = amount'

/-- What all entries are worth together, each rounded down. -/
def owed (s₀ : RedeemerState) (entries : Finset Entry) : Nat :=
  ∑ e ∈ entries, s₀.cTokenExchangeRates e.cToken * e.amount.toNat / 10 ^ 18

/-- What the redeemed parts of all entries are worth, each rounded down. -/
def settled (s₀ : RedeemerState) (entries : Finset Entry) (s : RedeemerState) : Nat :=
  ∑ e ∈ entries, s₀.cTokenExchangeRates e.cToken * s.redemptions e.user e.cToken / 10 ^ 18

/-- The base tokens given to the redeemer, at deployment or by other accounts since. -/
def funds (env : RedeemerEnv) (s₀ s : RedeemerState) : Nat :=
  s₀.ledger.balanceOf s₀.baseToken env.this + s.ledger.received env.this s₀.baseToken

/-- The invariant of the redeemer's base tokens. -/
structure Reserve (env : RedeemerEnv) (s₀ : RedeemerState) (entries : Finset Entry)
    (s : RedeemerState) : Prop where
  config : SameConfig s₀ s
  unapproved : s.ledger.Unapproved env.this
  funds_le : funds env s₀ s ≤
    s.ledger.balanceOf s₀.baseToken env.this + s.ledger.sent env.this s₀.baseToken
  sent_le : s.ledger.sent env.this s₀.baseToken ≤ settled s₀ entries s

/-! ## Claims and entries -/

theorem provable_congr (config : SameConfig s₀ s) {amount : UInt256} :
    Provable env s u c amount ↔ Provable env s₀ u c amount := by
  rw [Provable, config.merkleRoots, Provable]

/-- A recorded claim is the amount of its entry. -/
theorem entry_of_claims (commits : Commits env s₀ entries) (config : SameConfig s₀ s)
    (books : Books env s) (claimed : 0 < s.claims u c) :
    ∃ amount : UInt256, amount.toNat = s.claims u c ∧ ⟨c, u, amount⟩ ∈ entries := by
  obtain ⟨amount, same, proved, -⟩ := books.proved u c claimed
  exact ⟨amount, same, (commits.exact u c amount).mp ((provable_congr config).mp proved)⟩

theorem redemptions_le_amount (commits : Commits env s₀ entries) (config : SameConfig s₀ s)
    (books : Books env s) {e : Entry} (mem : e ∈ entries) :
    s.redemptions e.user e.cToken ≤ e.amount.toNat := by
  have capped := books.capped e.user e.cToken
  rcases Nat.eq_zero_or_pos (s.claims e.user e.cToken) with none | claimed
  · omega
  · obtain ⟨amount, same, mem'⟩ := entry_of_claims commits config books claimed
    rw [commits.unique mem mem', same]
    exact capped

/-! ## The reserve along runs -/

/-- A redemption sends out its payout, and receives nothing from outside. -/
theorem Exchanges.reserve {amount : UInt256} {ledger : Ledger} (outside : sender ≠ env.this)
    (moves : Exchanges env s sender c amount ledger) :
    s.ledger.balanceOf s.baseToken env.this ≤
        ledger.balanceOf s.baseToken env.this + payout s c amount ∧
      ledger.sent env.this s.baseToken =
        s.ledger.sent env.this s.baseToken + payout s c amount ∧
      ∀ token, ledger.received env.this token = s.ledger.received env.this token := by
  obtain ⟨-, pulled, pull, pay⟩ := moves
  have pull := Ledger.safeTransferFrom_moved pull
  have pay := Ledger.safeTransfer_moved pay
  refine ⟨?_, ?_, fun token => ?_⟩
  · have first := pull.balance s.baseToken env.this
    have second := pay.balance s.baseToken env.this
    simp only [outside.symm, and_false, if_false, Nat.add_zero, and_self, if_true] at first second
    omega
  · have first := pull.total_eq fun e =>
      e.operator = env.this && e.token = s.baseToken && e.src = env.this
    have second := pay.total_eq fun e =>
      e.operator = env.this && e.token = s.baseToken && e.src = env.this
    rw [Ledger.sent, second, first]
    simp [Ledger.sent, outside]
  · have first := pull.total_eq fun e =>
      e.operator ≠ env.this && e.token = token && e.dst = env.this
    have second := pay.total_eq fun e =>
      e.operator ≠ env.this && e.token = token && e.dst = env.this
    rw [Ledger.received, second, first]
    simp [Ledger.received]

theorem Exchanges.unapproved {amount : UInt256} {ledger : Ledger}
    (moves : Exchanges env s sender c amount ledger) (none : s.ledger.Unapproved env.this) :
    ledger.Unapproved env.this := by
  obtain ⟨-, pulled, pull, pay⟩ := moves
  exact (Ledger.safeTransfer_moved pay).unapproved
    ((Ledger.safeTransferFrom_moved pull).unapproved none)

theorem Reserve.redeem {amount : UInt256} (commits : Commits env s₀ entries) (books : Books env s)
    (reserve : Reserve env s₀ entries s) (outside : sender ≠ env.this)
    (one : _redeem env s sender c amount = .ok s') : Reserve env s₀ entries s' := by
  obtain ⟨check, ledger, moves, rfl⟩ := _redeem_eq_ok_iff.mp one
  have moves : Exchanges env s sender c amount ledger := moves
  have config := reserve.config
  obtain ⟨kept, sent, received⟩ := moves.reserve outside
  rw [config.baseToken] at kept sent
  have claimed : 0 < s.claims sender c := by
    have positive := check.positive
    have capped := check.capped
    omega
  obtain ⟨whole, -, mem⟩ := entry_of_claims commits config books claimed
  refine ⟨⟨config.1, config.2, config.3⟩, moves.unapproved reserve.unapproved, ?_, ?_⟩
  · have funds_le := reserve.funds_le
    simp only [funds, exchanged, counted, received, sent] at funds_le ⊢
    omega
  · -- the entry of this claim is settled by that much more, and no other by less
    have more : settled s₀ entries s + payout s c amount ≤
        settled s₀ entries (counted s sender c amount) := by
      refine FloorDiv.sum_add_le_sum mem (fun e _ => ?_) ?_
      · refine Nat.div_le_div_right (Nat.mul_le_mul_left _ ?_)
        simp only [counted, update₂_apply]
        split
        · rename_i same
          rw [same.1, same.2]
          exact Nat.le_add_right _ _
        · exact Nat.le_refl _
      · simp only [counted, update₂_self, payout, config.cTokenExchangeRates]
        rw [Nat.mul_add]
        exact Nat.div_add_div_le_add_div
    have sent_le := reserve.sent_le
    simp only [exchanged, counted, sent] at more ⊢
    exact Nat.le_trans (Nat.add_le_add_right sent_le _) more

theorem Reserve.token {call : Ledger.TokenCall} {ledger : Ledger}
    (reserve : Reserve env s₀ entries s) (outside : sender ≠ env.this)
    (performed : s.ledger.perform sender call = .ok ledger) :
    Reserve env s₀ entries { s with ledger := ledger } := by
  have config := reserve.config
  have custody := Ledger.perform_custody reserve.unapproved outside performed
  have sent := Ledger.sent_congr (Ledger.perform_calledBy outside performed) s₀.baseToken
  refine ⟨⟨config.1, config.2, config.3⟩, custody.unapproved, ?_, ?_⟩
  · have balance := custody.balance s₀.baseToken
    have funds_le := reserve.funds_le
    simp only [funds, sent] at funds_le ⊢
    omega
  · rw [sent]
    exact reserve.sent_le

/-- The two invariants of a redeemer with entries. -/
def Backed (env : RedeemerEnv) (s₀ : RedeemerState) (entries : Finset Entry)
    (s : RedeemerState) : Prop :=
  Books env s ∧ Reserve env s₀ entries s

theorem backed_kept (commits : Commits env s₀ entries) (outside : sender ≠ env.this) :
    Kept env sender fun s => Sane env s ∧ Backed env s₀ entries s := by
  refine .ofSane ?_ ?_ ?_
  · intro s s' signature sane backed one
    have config := ((sameConfig_kept s₀).sign ⟨sane, backed.2.config⟩ one).2
    have books := backed.1.sign one
    obtain ⟨-, rfl⟩ := _sign_eq_ok_iff.mp one
    exact ⟨books, config, backed.2.unapproved, backed.2.funds_le, backed.2.sent_le⟩
  · intro s s' cToken amount merkleProof sane backed signed one
    have config := ((sameConfig_kept s₀).claim ⟨sane, backed.2.config⟩ signed one).2
    have books := backed.1.claim signed one
    obtain ⟨-, -, rfl⟩ := _claim_eq_ok_iff.mp one
    exact ⟨books, config, backed.2.unapproved, backed.2.funds_le, backed.2.sent_le⟩
  · intro s s' cToken amount sane backed signed one
    exact ⟨backed.1.redeem outside one, backed.2.redeem commits backed.1 outside one⟩

theorem Deployed.backed (deployed : Deployed env s₀) : Backed env s₀ entries s₀ := by
  refine ⟨deployed.fresh.books deployed.unrecorded, ⟨rfl, rfl, rfl⟩, deployed.unapproved, ?_, ?_⟩
  · simp [funds, Ledger.received, Ledger.sent, Ledger.total, deployed.unrecorded]
  · simp [Ledger.sent, Ledger.total, deployed.unrecorded]

theorem run_backed (deployed : Deployed env s₀) (commits : Commits env s₀ entries)
    {actions : List Action} (external : ∀ a ∈ actions, Action.External env a) :
    Sane env (run (step env) s₀ actions) ∧
      Backed env s₀ entries (run (step env) s₀ actions) :=
  run_induction (fun _ outside => backed_kept commits outside)
    (fun outside backed performed =>
      ⟨backed.1.token outside performed, backed.2.token outside performed⟩)
    deployed.fresh.sane deployed.backed external

/-! ## Open redemptions -/

/-- `u` has claimed its entry for `c`, and holds and has approved what remains of it. -/
structure Entitled (env : RedeemerEnv) (entries : Finset Entry) (s : RedeemerState)
    (u c : Address) : Prop where
  entry : ∃ amount : UInt256, amount.toNat = s.claims u c ∧ ⟨c, u, amount⟩ ∈ entries
  holds : s.claims u c - s.redemptions u c ≤ s.ledger.balanceOf c u
  approved : s.claims u c - s.redemptions u c ≤ s.ledger.allowance c u env.this

/-- **What is left covers every open redemption.** -/
theorem payout_covered (commits : Commits env s₀ entries) (backed : Backed env s₀ entries s)
    (funded : owed s₀ entries ≤ funds env s₀ s) {amount : UInt256}
    (entitled : Entitled env entries s u c)
    (remains : amount.toNat ≤ s.claims u c - s.redemptions u c) :
    payout s c amount ≤ s.ledger.balanceOf s.baseToken env.this := by
  have reserve := backed.2
  obtain ⟨whole, same, mem⟩ := entitled.entry
  have capped := backed.1.capped u c
  have room : settled s₀ entries s + payout s c amount ≤ owed s₀ entries := by
    refine FloorDiv.sum_add_le_sum mem (fun e mem => ?_) ?_
    · exact Nat.div_le_div_right (Nat.mul_le_mul_left _
        (redemptions_le_amount commits reserve.config backed.1 mem))
    · simp only [payout, reserve.config.cTokenExchangeRates]
      refine Nat.le_trans Nat.div_add_div_le_add_div (Nat.div_le_div_right ?_)
      rw [← Nat.mul_add]
      exact Nat.mul_le_mul_left _ (by omega)
  have funds_le := reserve.funds_le
  have sent_le := reserve.sent_le
  rw [reserve.config.baseToken]
  omega

/-- What `u` asks for of `c` in a batch. -/
def asked (es : List (Address × UInt256)) (c : Address) : Nat :=
  ((es.filter fun e => e.1 = c).map fun e => e.2.toNat).sum

@[simp]
theorem asked_cons (e : Address × UInt256) (es : List (Address × UInt256)) (c : Address) :
    asked (e :: es) c = (if e.1 = c then e.2.toNat else 0) + asked es c := by
  rcases eq_or_ne e.1 c with same | other
  · simp [asked, same]
  · simp [asked, other]

/-- Every element of the batch is a positive amount of an entry that `u` may
redeem, and no entry is overdrawn by all of them together. -/
structure Outstanding (env : RedeemerEnv) (entries : Finset Entry) (s : RedeemerState)
    (u : Address) (es : List (Address × UInt256)) : Prop where
  entitled : ∀ e ∈ es, Entitled env entries s u e.1
  positive : ∀ e ∈ es, 0 < e.2.toNat
  remains : ∀ c, asked es c ≤ s.claims u c - s.redemptions u c

/-- The events of a batch that pays the previewed amounts. -/
def redeemedEvents (s : RedeemerState) (u : Address) (es : List (Address × UInt256)) :
    List RedeemerEvent :=
  es.map fun e => .Redeemed u e.1 e.2.toNat (payout s e.1 e.2)

/-- `s'` is after a batch that paid what `previewRedeem` says for each element. -/
structure Pays (env : RedeemerEnv) (s s' : RedeemerState) (u : Address)
    (es : List (Address × UInt256)) : Prop where
  previewed : ∀ e ∈ es, previewRedeem s e.1 e.2.toNat = .ok (payout s e.1 e.2)
  events : s'.events = s.events ++ redeemedEvents s u es
  transfers : s'.ledger.transfers = s.ledger.transfers ++
    (redeemedEvents s u es).flatMap (exchange env.this s.baseToken)

theorem redeem_succeeds (commits : Commits env s₀ entries)
    (fits : ∀ e ∈ entries, s₀.cTokenExchangeRates e.cToken * e.amount.toNat < 2 ^ 256)
    (backed : Backed env s₀ entries s) (funded : owed s₀ entries ≤ funds env s₀ s)
    (outside : u ≠ env.this) {amount : UInt256} (entitled : Entitled env entries s u c)
    (positive : 0 < amount.toNat)
    (remains : amount.toNat ≤ s.claims u c - s.redemptions u c) :
    s.cTokenExchangeRates c * amount.toNat < 2 ^ 256 ∧
      ∃ s', _redeem env s u c amount = .ok s' := by
  obtain ⟨whole, same, mem⟩ := entitled.entry
  have fit : s.cTokenExchangeRates c * amount.toNat < 2 ^ 256 := by
    rw [backed.2.config.cTokenExchangeRates]
    refine Nat.lt_of_le_of_lt (Nat.mul_le_mul_left _ ?_) (fits _ mem)
    exact Nat.le_trans remains (same ▸ Nat.sub_le _ _)
  obtain ⟨pulled, pull⟩ := Ledger.safeTransferFrom_succeeds
    (Nat.le_trans remains entitled.approved) (Nat.le_trans remains entitled.holds) env.this
  have grows := (Ledger.safeTransferFrom_moved pull).balance s.baseToken env.this
  simp only [outside.symm, and_false, if_false, Nat.add_zero] at grows
  have covered := payout_covered commits backed funded entitled remains
  obtain ⟨paid, pay⟩ := Ledger.safeTransfer_succeeds
    (Nat.le_trans covered (grows ▸ Nat.le_add_right _ _)) u
  have capped := backed.1.capped u c
  have bound := whole.isLt
  refine ⟨fit, _, _redeem_eq_ok_iff.mpr ⟨⟨?_, ?_, ?_⟩, _, ⟨fit, _, pull, pay⟩, rfl⟩⟩
  · omega
  · omega
  · omega

/-- What a redemption leaves `u`: of each token at least what it had, less the
cTokens it redeemed. -/
theorem Exchanges.leaves {amount : UInt256} {ledger : Ledger} (outside : u ≠ env.this)
    (moves : Exchanges env s u c amount ledger) (d : Address) :
    s.ledger.balanceOf d u - (if c = d then amount.toNat else 0) ≤ ledger.balanceOf d u ∧
      s.ledger.allowance d u env.this - (if c = d then amount.toNat else 0) ≤
        ledger.allowance d u env.this := by
  obtain ⟨-, pulled, pull, pay⟩ := moves
  constructor
  · have first := (Ledger.safeTransferFrom_moved pull).balance d u
    have second := (Ledger.safeTransfer_moved pay).balance d u
    simp only [outside, and_false, and_true, if_false, Nat.add_zero] at first second
    rcases eq_or_ne c d with rfl | other
    · simp only [if_true] at first ⊢
      omega
    · simp only [other, other.symm, if_false] at first ⊢
      omega
  · have first := Ledger.safeTransferFrom_allowance pull d u env.this
    rw [Ledger.safeTransfer_allowance pay]
    rcases eq_or_ne c d with rfl | other
    · simpa using first
    · simpa [other, other.symm] using first

theorem Outstanding.redeem {e : Address × UInt256} {es : List (Address × UInt256)}
    (outstanding : Outstanding env entries s u (e :: es)) (outside : u ≠ env.this)
    (one : _redeem env s u e.1 e.2 = .ok s') : Outstanding env entries s' u es := by
  obtain ⟨check, ledger, moves, rfl⟩ := _redeem_eq_ok_iff.mp one
  have moves : Exchanges env s u e.1 e.2 ledger := moves
  have later : ∀ d, s.claims u d - (counted s u e.1 e.2).redemptions u d =
      s.claims u d - s.redemptions u d - if e.1 = d then e.2.toNat else 0 := by
    intro d
    rcases eq_or_ne e.1 d with rfl | other
    · simp only [counted, update₂_self, if_true]
      omega
    · simp [counted, update₂_apply, other, other.symm]
  refine ⟨fun e' mem => ?_, fun e' mem => ?_, fun d => ?_⟩
  · have entitled := outstanding.entitled e' (List.mem_cons_of_mem _ mem)
    obtain ⟨balance, allowance⟩ := moves.leaves outside e'.1
    refine ⟨entitled.entry, ?_, ?_⟩
    · have holds := entitled.holds
      have left := later e'.1
      simp only [exchanged] at left ⊢
      exact left ▸ Nat.le_trans (Nat.sub_le_sub_right holds _) balance
    · have approved := entitled.approved
      have left := later e'.1
      simp only [exchanged] at left ⊢
      exact left ▸ Nat.le_trans (Nat.sub_le_sub_right approved _) allowance
  · exact outstanding.positive e' (List.mem_cons_of_mem _ mem)
  · have remains := outstanding.remains d
    have left := later d
    rw [asked_cons] at remains
    show asked es d ≤ s.claims u d - (counted s u e.1 e.2).redemptions u d
    omega

theorem Pays.cons {e : Address × UInt256} {es : List (Address × UInt256)} {m : RedeemerState}
    (fit : s.cTokenExchangeRates e.1 * e.2.toNat < 2 ^ 256)
    (one : _redeem env s u e.1 e.2 = .ok m) (rest : Pays env m s' u es) :
    Pays env s s' u (e :: es) := by
  obtain ⟨check, ledger, ⟨-, pulled, pull, pay⟩, rfl⟩ := _redeem_eq_ok_iff.mp one
  have first := (Ledger.safeTransferFrom_moved pull).transfers
  have second := (Ledger.safeTransfer_moved pay).transfers
  refine ⟨?_, ?_, ?_⟩
  · refine List.forall_mem_cons.mpr ⟨previewRedeem_eq_ok_iff.mpr ⟨fit, rfl⟩, ?_⟩
    intro e' mem
    exact rest.previewed e' mem
  · rw [rest.events]
    simp [exchanged, counted, redeemedEvents, payout]
  · rw [rest.transfers]
    simp [exchanged, counted, second, first, redeemedEvents, payout, exchange]

/-- **No redemption fails**, whatever the batch. -/
theorem redeemEach_succeeds (commits : Commits env s₀ entries)
    (fits : ∀ e ∈ entries, s₀.cTokenExchangeRates e.cToken * e.amount.toNat < 2 ^ 256)
    (sane : Sane env s) (backed : Backed env s₀ entries s)
    (funded : owed s₀ entries ≤ funds env s₀ s) (outside : u ≠ env.this)
    (signed : s.userSignatures u ≠ []) {es : List (Address × UInt256)}
    (outstanding : Outstanding env entries s u es) :
    ∃ s', redeemEach env u s es = .ok s' ∧ Pays env s s' u es := by
  induction es generalizing s with
  | nil => exact ⟨s, redeemEach_nil.mpr rfl, by simp, by simp [redeemedEvents],
      by simp [redeemedEvents]⟩
  | cons e es ih =>
      have remains := outstanding.remains e.1
      rw [asked_cons, if_pos rfl] at remains
      obtain ⟨fit, m, one⟩ := redeem_succeeds commits fits backed funded outside
        (outstanding.entitled e List.mem_cons_self) (outstanding.positive e List.mem_cons_self)
        (Nat.le_trans (Nat.le_add_right _ _) remains)
      obtain ⟨sane', backed'⟩ := (backed_kept commits outside).redeem ⟨sane, backed⟩ signed one
      have funded' : owed s₀ entries ≤ funds env s₀ m := by
        obtain ⟨check, ledger, moves, rfl⟩ := _redeem_eq_ok_iff.mp one
        have moves : Exchanges env s u e.1 e.2 ledger := moves
        simpa [funds, exchanged, (moves.reserve outside).2.2] using funded
      obtain ⟨s', rest, pays⟩ := ih sane' backed' funded'
        (by rwa [redeem_userSignatures one]) (outstanding.redeem outside one)
      exact ⟨s', redeemEach_cons.mpr ⟨m, one, rest⟩, pays.cons fit one⟩

/-- **Solvency.** Once the redeemer has been given what all entries are worth, a
user that has signed and claimed can redeem what remains of its entries, through
`redeem` and through `multiRedeem`, and is paid what `previewRedeem` says. -/
theorem redemptions_succeed (deployed : Deployed env s₀) {actions : List Action}
    (external : ∀ a ∈ actions, Action.External env a) (reached : s = run (step env) s₀ actions)
    (commits : Commits env s₀ entries)
    (fits : ∀ e ∈ entries, s₀.cTokenExchangeRates e.cToken * e.amount.toNat < 2 ^ 256)
    (funded : owed s₀ entries ≤ funds env s₀ s) (outside : u ≠ env.this)
    (signed : hasSigned env s u = .ok ()) :
    (∀ c amount, Outstanding env entries s u [(c, amount)] →
      ∃ s', dispatch env s u (.redeem c amount) = .ok s' ∧ Pays env s s' u [(c, amount)]) ∧
    ∀ cTokens amounts, cTokens.length = amounts.length → (∀ c ∈ cTokens, c ≠ 0) →
      Outstanding env entries s u (cTokens.zip amounts) →
      ∃ s', dispatch env s u (.multiRedeem cTokens amounts) = .ok s' ∧
        Pays env s s' u (cTokens.zip amounts) := by
  subst reached
  obtain ⟨sane, backed⟩ := run_backed deployed commits external
  have each := fun es (outstanding : Outstanding env entries (run (step env) s₀ actions) u es) =>
    redeemEach_succeeds commits fits sane backed funded outside
      (sane.signed_of_hasSigned signed) outstanding
  refine ⟨fun c amount outstanding => ?_, fun cTokens amounts same valid outstanding => ?_⟩
  · obtain ⟨s', redeems, pays⟩ := each _ outstanding
    exact ⟨s', (dispatch_eq_ok_iff sane.idle).mpr
      ⟨trivial, _, ⟨signed, rfl⟩, _, claimEach_nil.mpr rfl, redeems⟩, pays⟩
  · obtain ⟨s', redeems, pays⟩ := each _ outstanding
    exact ⟨s', (dispatch_eq_ok_iff sane.idle).mpr
      ⟨⟨same, valid⟩, _, ⟨signed, rfl⟩, _, claimEach_nil.mpr rfl, redeems⟩, pays⟩

end RariMerkleRedeemer

namespace RariMerkleRedeemer.Sample

variable {u c : Address} {amount : UInt256}

/-- The sample roots commit to two entries. -/
def entries : Finset Entry := {⟨10, 1, 100⟩, ⟨11, 1, 0⟩}

theorem keccak256_pair (a b : Bytes32) : keccak256 (packWord a ++ packWord b) = 4 := by
  have other : ∀ l : Bytes, l.length ≠ 64 → packWord a ++ packWord b ≠ l := by
    intro l length same
    exact length (same ▸ by simp)
  rw [keccak256, if_neg (other _ (by simp)), if_neg (other _ (by simp)), if_neg (other _ (by simp))]

theorem leafHash_eq_iff {holder : Address} {x : UInt256} :
    packAddress u ++ packWord amount = packAddress holder ++ packWord x ↔
      u = holder ∧ amount = x := by
  constructor
  · intro same
    have parts := List.append_inj same (by simp)
    exact ⟨packAddress_inj parts.1, packWord_inj parts.2⟩
  · intro given
    rcases given with ⟨same, same'⟩
    rw [same, same']

/-- Every pair has the same hash, so only the empty proof leads to another root. -/
theorem verifies_iff {root leaf : Bytes32} (other : root ≠ 4) :
    (∃ p, MerkleProof.verifyCalldata keccak256 p root leaf = true) ↔ leaf = root := by
  have pair : ∀ a b, MerkleProof._hashPair keccak256 a b = 4 := by
    intro a b
    unfold MerkleProof._hashPair
    split
    · exact keccak256_pair a b
    · exact keccak256_pair b a
  have climbs : ∀ (p : List Bytes32) (h : Bytes32),
      p.foldl (MerkleProof._hashPair keccak256) h = h ∨
        p.foldl (MerkleProof._hashPair keccak256) h = 4 := by
    intro p
    induction p with
    | nil => exact fun h => .inl rfl
    | cons x p ih =>
        intro h
        rw [List.foldl_cons, pair]
        rcases ih 4 with same | same
        · exact .inr same
        · exact .inr same
  simp only [MerkleProof.verifyCalldata_iff]
  refine ⟨?_, fun same => ⟨[], same⟩⟩
  intro given
  rcases given with ⟨p, reaches⟩
  rcases climbs p leaf with same | same
  · exact same.symm.trans reaches
  · exact absurd (reaches.symm.trans same) other

theorem leafHash_env : leafHash env u amount =
    if u = 1 ∧ amount = 100 then 1 else if u = 1 ∧ amount = 0 then 2 else 4 := by
  have nonempty : packAddress u ++ packWord amount ≠ [] := by
    intro empty
    have length := congrArg List.length empty
    simp at length
  simp only [leafHash, env, keccak256, leafHash_eq_iff, nonempty, if_false]

theorem merkleRoots_start :
    start.merkleRoots c = if c = 10 then 1 else if c = 11 then 2 else 0 := by
  rcases eq_or_ne c 10 with rfl | ten
  · rfl
  rcases eq_or_ne c 11 with rfl | eleven
  · rfl
  rw [if_neg ten, if_neg eleven]
  apply merkleRoots_of_construct constructed
  simp only [cTokens, List.mem_cons, List.mem_replicate, ten, eleven, and_false, or_self,
    not_false_eq_true]

theorem commits : Commits env start entries where
  exact u c amount := by
    have root : start.merkleRoots c ≠ 4 := by
      rw [merkleRoots_start]
      split
      · decide
      · split <;> decide
    apply (verifies_iff root).trans
    rw [leafHash_env, merkleRoots_start]
    simp only [entries, Finset.mem_insert, Finset.mem_singleton, Entry.mk.injEq]
    grind
  unique {u c amount amount'} mem mem' := by
    simp only [entries, Finset.mem_insert, Finset.mem_singleton, Entry.mk.injEq] at mem mem'
    rcases mem with ⟨rfl, rfl, rfl⟩ | ⟨rfl, rfl, rfl⟩
    · rcases mem' with ⟨-, -, rfl⟩ | ⟨different, -, -⟩
      · rfl
      · exact absurd different (by decide)
    · rcases mem' with ⟨different, -, -⟩ | ⟨-, -, rfl⟩
      · exact absurd different (by decide)
      · rfl

theorem cTokenExchangeRates_start {c : Address} (configured : c = 10 ∨ c = 11) :
    start.cTokenExchangeRates c = 25 * 10 ^ 17 := by
  rcases configured with rfl | rfl
  · rfl
  · rfl

theorem outstanding (amount : UInt256) (positive : 0 < amount.toNat)
    (remains : amount.toNat ≤ 100) : Outstanding env entries claimed 1 [(10, amount)] := by
  have claims : claimed.claims 1 10 = 100 := by decide +kernel
  have redemptions : claimed.redemptions 1 10 = 0 := by decide +kernel
  have balance : claimed.ledger.balanceOf 10 1 = 100 := by decide +kernel
  have allowance : claimed.ledger.allowance 10 1 env.this = 100 := by decide +kernel
  refine ⟨?_, by simpa using positive, fun c => ?_⟩
  · refine List.forall_mem_singleton.mpr ⟨⟨100, ?_, ?_⟩, ?_, ?_⟩
    · rw [claims]
      rfl
    · simp [entries]
    · rw [claims, redemptions, balance]
    · rw [claims, redemptions, allowance]
  · rcases eq_or_ne c 10 with rfl | other
    · rw [claims, redemptions, asked_cons, if_pos rfl]
      simpa [asked] using remains
    · rw [asked_cons, if_neg other.symm]
      exact Nat.zero_le _

end RariMerkleRedeemer.Sample

namespace RariMerkleRedeemer

/-- The redeemer of the sample holds 1000 base tokens; its entries are worth 250. -/
theorem redemptions_succeed_sample :
    ∃ s', dispatch Sample.env Sample.claimed 1 (.redeem 10 100) = .ok s' ∧
      Pays Sample.env Sample.claimed s' 1 [(10, 100)] := by
  refine (redemptions_succeed Sample.deployed Sample.claims100_external rfl Sample.commits
    ?_ ?_ ?_ ?_).1 10 100 (Sample.outstanding 100 (by decide) (by decide))
  · simp only [Sample.entries, Finset.forall_mem_insert, Finset.mem_singleton, forall_eq]
    rw [Sample.cTokenExchangeRates_start (.inl rfl), Sample.cTokenExchangeRates_start (.inr rfl)]
    decide
  · decide +kernel
  · decide
  · rfl

end RariMerkleRedeemer

end FeiProtocol
