import FeiProtocol.Peg.PsmQuotes
import FeiProtocol.Peg.PsmSteps

/-!
# Backing of the stability modules

What the modules pay is an exchange at a rate, and the events account for the tokens. So over
any run, whoever mints, redeems, allocates or withdraws:

* `fixedPrice_backed`: whatever the oracle says, `FixedPricePSM` puts no FEI into circulation
  for which it does not hold, or has not been made to send away, as many tokens.
* `backed_at_price`: the same for the other two modules at a price that does not change.
* `priceBound_rates`: `PriceBoundPSM` mints at most at its ceiling and redeems at least at its
  floor, whatever the oracle does within a run.
* `reserves_kept`: reserves fall below the threshold by redemptions and withdrawals only.
-/

namespace FeiProtocol

open Evm Decimal

namespace Psm

variable {W : Type} {env : PsmEnv W} {s s' : PsmState W}

/-! ## Rates -/

/-- Mints pay at most `hi` for `q` tokens, and redemptions take at least `lo` for them. -/
structure Rates (env : PsmEnv W) (s : PsmState W) (lo hi q : Nat) : Prop where
  mint : ∀ {world x y}, env.update s.world s.oracle = .ok world →
    _getMintAmountOut env { s with world } x = .ok y → y * q ≤ x * hi
  redeem : ∀ {world x y}, env.update s.world s.oracle = .ok world →
    _getRedeemAmountOut env { s with world } x = .ok y → y * lo ≤ x * q

/-- Both quotes of `FixedPricePSM` are a mint at one for one. -/
theorem lessFeeOut_le {read : Address → Except Revert (D256 × Bool)} {psm : PriceBoundPSM}
    {x y fee : Nat} (quote : FixedPricePSM.lessFeeOut read psm x fee = .ok y) : y ≤ x := by
  obtain ⟨_, _, checks⟩ := bind_eq_ok_iff.mp quote
  obtain ⟨_, _, steps⟩ := bind_eq_ok_iff.mp checks
  have within : mintQuote Decimal.one.value fee x * BASE ≤ x * BASE := mintQuote_within BASE fee x
  rw [mint_of_steps steps] at within
  exact Nat.le_of_mul_le_mul_right within (by decide)

theorem rates_fixed (fixed : env.contract = .FixedPricePSM) : Rates env s 1 1 1 := by
  constructor
  · intro world x y _ quote
    simp only [_getMintAmountOut, fixed] at quote
    rw [Nat.mul_one, Nat.mul_one]
    exact lessFeeOut_le quote
  · intro world x y _ quote
    simp only [_getRedeemAmountOut, fixed] at quote
    rw [Nat.mul_one, Nat.mul_one]
    exact lessFeeOut_le quote

/-- A quote of the other modules is an exchange at the price of the oracle, which passed the
check. -/
theorem mint_at_price {world : W} {x y : Nat} (other : env.contract ≠ .FixedPricePSM)
    (quote : _getMintAmountOut env { s with world } x = .ok y) :
    ∃ price : D256, s.readOracle (env.read world) = .ok price ∧
      _validatePriceRange env { s with world } price = .ok () ∧
      y * BASE ≤ x * price.value := by
  have plain : PegStabilityModule._getMintAmountOut (env.read world) s.toPegStabilityModule
      (_validatePriceRange env { s with world }) x = .ok y := by
    cases named : env.contract with
    | FixedPricePSM => exact absurd named other
    | PegStabilityModule | PriceBoundPSM => simpa only [_getMintAmountOut, named] using quote
  obtain ⟨price, read, checks⟩ := bind_eq_ok_iff.mp plain
  obtain ⟨_, valid, steps⟩ := bind_eq_ok_iff.mp checks
  have within := mintQuote_within price.value s.mintFeeBasisPoints x
  rw [mint_of_steps steps] at within
  exact ⟨price, read, valid, within⟩

theorem redeem_at_price {world : W} {x y : Nat} (other : env.contract ≠ .FixedPricePSM)
    (quote : _getRedeemAmountOut env { s with world } x = .ok y) :
    ∃ price : D256, s.readOracle (env.read world) = .ok price ∧
      _validatePriceRange env { s with world } price = .ok () ∧
      y * price.value ≤ x * BASE := by
  have plain : PegStabilityModule._getRedeemAmountOut (env.read world) s.toPegStabilityModule
      (_validatePriceRange env { s with world }) x = .ok y := by
    cases named : env.contract with
    | FixedPricePSM => exact absurd named other
    | PegStabilityModule | PriceBoundPSM => simpa only [_getRedeemAmountOut, named] using quote
  obtain ⟨price, read, checks⟩ := bind_eq_ok_iff.mp plain
  obtain ⟨_, valid, steps⟩ := bind_eq_ok_iff.mp checks
  have within := redeemQuote_within price.value s.redeemFeeBasisPoints x
  rw [(redeem_of_steps steps).2] at within
  exact ⟨price, read, valid, within⟩

/-- Once updated, the oracle says `price`. -/
def AtPrice (env : PsmEnv W) (price : D256) (s : PsmState W) : Prop :=
  ∀ world, env.update s.world s.oracle = .ok world → s.readOracle (env.read world) = .ok price

instance (price : D256) : Decidable (AtPrice env price s) :=
  match updated : env.update s.world s.oracle with
  | .ok world => decidable_of_iff (s.readOracle (env.read world) = .ok price) (by
      simp [AtPrice, updated])
  | .error _ => .isTrue (by simp [AtPrice, updated])

theorem rates_at_price {price : D256} (other : env.contract ≠ .FixedPricePSM)
    (quoted : AtPrice env price s) : Rates env s price.value price.value BASE := by
  constructor
  · intro world x y update quote
    obtain ⟨price', read, _, within⟩ := mint_at_price other quote
    cases (quoted world update).symm.trans read
    exact within
  · intro world x y update quote
    obtain ⟨price', read, _, within⟩ := redeem_at_price other quote
    cases (quoted world update).symm.trans read
    exact within

/-- Basis points as a price. -/
theorem ratio_value {n : Nat} {bound : D256}
    (ratio : Decimal.ratio n Constants.BASIS_POINTS_GRANULARITY = .ok bound) :
    bound.value * 10000 = n * BASE := by
  simp only [Decimal.ratio, getPartial, Constants.BASIS_POINTS_GRANULARITY,
    map_eq_ok_iff, bind_eq_ok_iff, checkedMul_eq_ok_iff, checkedDiv_eq_ok_iff] at ratio
  obtain ⟨_, ⟨_, ⟨_, rfl⟩, _, rfl⟩, rfl⟩ := ratio
  exact Nat.div_mul_cancel (Dvd.dvd.mul_left (by decide) n)

/-- A valid price is between the bounds. -/
theorem within_bounds {world : W} {price : D256} (bound : env.contract = .PriceBoundPSM)
    (valid : _validatePriceRange env { s with world } price = .ok ()) :
    s.floor * BASE ≤ price.value * 10000 ∧ price.value * 10000 ≤ s.ceiling * BASE := by
  simp only [_validatePriceRange, bound, PriceBoundPSM._validatePriceRange,
    PriceBoundPSM._validPrice, bind_eq_ok_iff, require_eq_ok_iff] at valid
  obtain ⟨answer, ⟨lower, floor, compare⟩, yes⟩ := valid
  subst yes
  split at compare
  · rename_i above
    obtain ⟨upper, ceiling, below⟩ := bind_eq_ok_iff.mp compare
    have below := pure_eq_ok_iff.mp below
    simp only [D256.greaterThan, D256.lessThan, decide_eq_true_eq] at above below
    rw [← ratio_value floor, ← ratio_value ceiling]
    exact ⟨Nat.mul_le_mul_right _ (Nat.le_of_lt above), Nat.mul_le_mul_right _ (Nat.le_of_lt below)⟩
  · cases compare

theorem rates_bound {lo hi : Nat} (bound : env.contract = .PriceBoundPSM) (floor : lo ≤ s.floor)
    (ceiling : s.ceiling ≤ hi) : Rates env s lo hi 10000 := by
  have other : env.contract ≠ .FixedPricePSM := by
    rw [bound]
    decide
  have unit : 0 < BASE := by decide
  constructor
  · intro world x y _ quote
    obtain ⟨price, _, valid, within⟩ := mint_at_price other quote
    have below := (within_bounds bound valid).2
    refine Nat.le_of_mul_le_mul_right ?_ unit
    calc y * 10000 * BASE
      _ = y * BASE * 10000 := Nat.mul_right_comm _ _ _
      _ ≤ x * price.value * 10000 := Nat.mul_le_mul_right _ within
      _ = x * (price.value * 10000) := Nat.mul_assoc _ _ _
      _ ≤ x * (s.ceiling * BASE) := Nat.mul_le_mul_left _ below
      _ ≤ x * (hi * BASE) := Nat.mul_le_mul_left _ (Nat.mul_le_mul_right _ ceiling)
      _ = x * hi * BASE := (Nat.mul_assoc _ _ _).symm
  · intro world x y _ quote
    obtain ⟨price, _, valid, within⟩ := redeem_at_price other quote
    have above := (within_bounds bound valid).1
    refine Nat.le_of_mul_le_mul_right ?_ unit
    calc y * lo * BASE
      _ = y * (lo * BASE) := Nat.mul_assoc _ _ _
      _ ≤ y * (s.floor * BASE) := Nat.mul_le_mul_left _ (Nat.mul_le_mul_right _ floor)
      _ ≤ y * (price.value * 10000) := Nat.mul_le_mul_left _ above
      _ = y * price.value * 10000 := (Nat.mul_assoc _ _ _).symm
      _ ≤ x * BASE * 10000 := Nat.mul_le_mul_right _ within
      _ = x * 10000 * BASE := Nat.mul_right_comm _ _ _

/-! ## Runs -/

/-- What some events paid was within the rates. -/
structure Fair (lo hi q : Nat) (added : List PsmEvent) : Prop where
  mints : volume PsmEvent.feiPaid added * q ≤ volume PsmEvent.tokensTaken added * hi
  redemptions : volume PsmEvent.tokensRedeemed added * lo ≤ volume PsmEvent.feiTaken added * q

theorem Fair.append {lo hi q : Nat} {added added' : List PsmEvent} (first : Fair lo hi q added)
    (second : Fair lo hi q added') : Fair lo hi q (added ++ added') := by
  constructor
  · simpa only [volume_append, Nat.add_mul] using Nat.add_le_add first.mints second.mints
  · simpa only [volume_append, Nat.add_mul] using
      Nat.add_le_add first.redemptions second.redemptions

theorem Transition.fair {lo hi q : Nat} {added : List PsmEvent} {minted : Nat}
    (transition : Transition env s s') (rates : Rates env s lo hi q)
    (booked : Booked env s s' added minted) : Fair lo hi q added := by
  cases transition with
  | redeems receiver amountFeiIn amountOut redeems =>
      obtain ⟨world, update, quote⟩ := redeems.quoted
      rw [booked.eq_of_events redeems.events]
      exact ⟨by simp, by simpa using rates.redeem update quote⟩
  | mints receiver amountIn amountFeiOut minted mints =>
      obtain ⟨world, update, quote⟩ := mints.quoted
      rw [booked.eq_of_events mints.events]
      exact ⟨by simpa using rates.mint update quote, by simp⟩
  | allocates caller amount allocates =>
      rw [booked.eq_of_events allocates.events]
      exact ⟨by simp, by simp⟩
  | withdraws caller token receiver amount withdraws =>
      rw [booked.eq_of_events withdraws.events]
      exact ⟨by simp, by simp⟩
  | relimited cap rate slow relimited fei ledger timestamp events =>
      rw [booked.eq_nil events]
      exact ⟨by simp, by simp⟩
  | called moved unchanged =>
      rw [booked.eq_nil unchanged.events]
      exact ⟨by simp, by simp⟩
  | quiet quiet =>
      rw [booked.eq_nil quiet.events]
      exact ⟨by simp, by simp⟩

/-- The books of a run within given rates. -/
def Books (env : PsmEnv W) (lo hi q : Nat) (s s' : PsmState W) : Prop :=
  ∃ added minted, Booked env s s' added minted ∧ Fair lo hi q added

theorem run_books {lo hi q : Nat} (targets : TargetsExternal env) (sound : Sound env s)
    {history : List (Action W)} (external : ∀ a ∈ history, a.External env.this)
    (rates : Along (step env) (fun s _ => Rates env s lo hi q) s history) :
    Sound env (run (step env) s history) ∧ Books env lo hi q s (run (step env) s history) := by
  have both : Sound env (run (step env) s history) ∧
      (Ready env s → Books env lo hi q s (run (step env) s history)) := by
    apply run_relation (I := Sound env) (R := fun s s' => Ready env s → Books env lo hi q s s')
      (P := fun s a => Rates env s lo hi q ∧ a.External env.this) _ _ _ sound
      (rates.and_forall external)
    · intro s ready
      exact ⟨[], 0, .refl ready, by simp, by simp⟩
    · intro s t u first second ready
      obtain ⟨added, minted, booked, fair⟩ := first ready
      obtain ⟨added', minted', booked', fair'⟩ := second booked.moved.ready
      exact ⟨added ++ added', minted + minted', booked.trans booked', fair.append fair'⟩
    · intro s a s' sound given succeeds
      obtain ⟨rates, external⟩ := given
      have transition := step_transition targets sound.ready sound.whole external succeeds
      refine ⟨transition.sound sound, fun ready => ?_⟩
      obtain ⟨added, minted, booked⟩ := transition.booked ready
      exact ⟨added, minted, booked, transition.fair rates booked⟩
  exact ⟨both.1, both.2 sound.ready⟩

/-- The FEI brought into circulation between two states, at `q` each, is no more than the tokens
that the module holds more, allocated and was made to give away, at `p` each. What others mint
and what FEI the module was made to give away is not its doing. The first state is one without
events. -/
def Backed (env : PsmEnv W) (p q : Nat) (s s' : PsmState W) : Prop :=
  q * (Fei.circulating s'.fei env.this + Fei.mintedElsewhere s.fei env.this) +
      p * balance env s ≤
    q * (Fei.circulating s.fei env.this + Fei.mintedElsewhere s'.fei env.this +
        volume (PsmEvent.withdrawn env.fei) s'.events) +
      p * (balance env s' + volume PsmEvent.allocated s'.events +
        volume (PsmEvent.withdrawn env.underlyingToken) s'.events)

theorem Books.backed {p q : Nat} (books : Books env p p q s s') (start : s.events = []) :
    Backed env p q s s' := by
  obtain ⟨added, minted, booked, fair⟩ := books
  have all : s'.events = added := by rw [booked.events, start, List.nil_append]
  have tokens := Nat.mul_le_mul_left p booked.moved.balance_le
  have fei := Nat.mul_le_mul_left q booked.moved.fei.circulating_le
  have mints := fair.mints
  have redemptions := fair.redemptions
  rw [volume_tokensPaid] at tokens
  rw [volume_feiPaidOut] at fei
  rw [Backed, all]
  simp only [Nat.mul_add, Nat.mul_comm _ p, Nat.mul_comm _ q] at *
  omega

/-- **Backing.** Whatever its oracle says, `FixedPricePSM` backs the FEI that it brings into
circulation one for one. -/
theorem fixedPrice_backed {s₀ : PsmState W} (fixed : env.contract = .FixedPricePSM)
    (deployed : Deployed env s₀) {history : List (Action W)}
    (external : ∀ a ∈ history, a.External env.this) (reached : s = run (step env) s₀ history) :
    Backed env 1 1 s₀ s := by
  obtain ⟨sound, start⟩ := deployed.sound
  have rates : Along (step env) (fun s _ => Rates env s 1 1 1) s₀ history :=
    (along_of_forall (P := fun _ => True) fun _ _ => trivial).imp fun _ _ _ => rates_fixed fixed
  rw [reached]
  exact (run_books deployed.targets sound external rates).2.backed start

/-- The other modules do so at a price that does not change. -/
theorem backed_at_price {s₀ : PsmState W} {price : D256}
    (other : env.contract ≠ .FixedPricePSM) (deployed : Deployed env s₀)
    {history : List (Action W)} (external : ∀ a ∈ history, a.External env.this)
    (quoted : Along (step env) (fun s _ => AtPrice env price s) s₀ history)
    (reached : s = run (step env) s₀ history) : Backed env price.value BASE s₀ s := by
  obtain ⟨sound, start⟩ := deployed.sound
  have rates := quoted.imp fun s _ quoted => rates_at_price (s := s) other quoted
  rw [reached]
  exact (run_books deployed.targets sound external rates).2.backed start

/-- **Bounds.** As long as the floor is at least `lo` and the ceiling at most `hi`, everything
that `PriceBoundPSM` pays for mints is at most at `hi`, and everything that it pays for
redemptions at least at `lo`, whatever its oracle says from one call to the next. -/
theorem priceBound_rates {s₀ : PsmState W} {lo hi : Nat} (bound : env.contract = .PriceBoundPSM)
    (deployed : Deployed env s₀) {history : List (Action W)}
    (external : ∀ a ∈ history, a.External env.this)
    (bounds : Along (step env) (fun s _ => lo ≤ s.floor ∧ s.ceiling ≤ hi) s₀ history)
    (reached : s = run (step env) s₀ history) :
    volume PsmEvent.feiPaid s.events * 10000 ≤ volume PsmEvent.tokensTaken s.events * hi ∧
      volume PsmEvent.tokensRedeemed s.events * lo ≤ volume PsmEvent.feiTaken s.events * 10000 := by
  obtain ⟨sound, start⟩ := deployed.sound
  have rates := bounds.imp fun s _ given => rates_bound (s := s) bound given.1 given.2
  obtain ⟨_, added, minted, booked, fair⟩ := run_books deployed.targets sound external rates
  have all : s.events = added := by rw [reached, booked.events, start, List.nil_append]
  rw [all]
  exact ⟨fair.mints, fair.redemptions⟩

/-! ## Reserves -/

/-- What reduces the reserves whatever the threshold is. -/
def drained (env : PsmEnv W) (e : PsmEvent) : Nat :=
  e.tokensRedeemed + e.withdrawn env.underlyingToken

theorem volume_drained (env : PsmEnv W) (events : List PsmEvent) :
    volume (drained env) events = volume PsmEvent.tokensRedeemed events +
      volume (PsmEvent.withdrawn env.underlyingToken) events :=
  volume_add _ _ _

/-- Only an allocation of the surplus allocates. -/
theorem Transition.allocated {added : List PsmEvent} {minted : Nat}
    (transition : Transition env s s') (booked : Booked env s s' added minted) :
    volume PsmEvent.allocated added = 0 ∨
      ∃ caller amount, Allocates env s s' caller amount := by
  cases transition with
  | allocates caller amount allocates => exact .inr ⟨caller, amount, allocates⟩
  | redeems receiver amountFeiIn amountOut redeems =>
      rw [booked.eq_of_events redeems.events]
      exact .inl (by simp)
  | mints receiver amountIn amountFeiOut minted mints =>
      rw [booked.eq_of_events mints.events]
      exact .inl (by simp)
  | withdraws caller token receiver amount withdraws =>
      rw [booked.eq_of_events withdraws.events]
      exact .inl (by simp)
  | relimited cap rate slow relimited fei ledger timestamp events =>
      rw [booked.eq_nil events]
      exact .inl rfl
  | called moved unchanged =>
      rw [booked.eq_nil unchanged.events]
      exact .inl rfl
  | quiet quiet =>
      rw [booked.eq_nil quiet.events]
      exact .inl rfl

/-- A transaction leaves the reserves at the threshold or above, or as they were, but for what
it redeems or withdraws. -/
theorem Transition.reserves {added : List PsmEvent} {minted t : Nat}
    (transition : Transition env s s') (booked : Booked env s s' added minted)
    (threshold : t ≤ s.reservesThreshold) :
    min (balance env s) t ≤ balance env s' + volume (drained env) added := by
  rcases transition.allocated booked with none | ⟨caller, amount, allocates⟩
  · have kept := booked.moved.balance_le
    rw [volume_tokensPaid] at kept
    rw [volume_drained]
    omega
  · have left := allocates.moved.balance_le
    have surplus := allocates.surplus
    omega

/-- What a run keeps of the reserves, for a threshold `t`. -/
def Reserved (env : PsmEnv W) (t : Nat) (s s' : PsmState W) : Prop :=
  ∃ added minted, Booked env s s' added minted ∧
    min (balance env s) t ≤ balance env s' + volume (drained env) added

theorem run_reserved {t : Nat} (targets : TargetsExternal env) (sound : Sound env s)
    {history : List (Action W)} (external : ∀ a ∈ history, a.External env.this)
    (thresholds : Along (step env) (fun s _ => t ≤ s.reservesThreshold) s history) :
    Reserved env t s (run (step env) s history) := by
  have both : Sound env (run (step env) s history) ∧
      (Ready env s → Reserved env t s (run (step env) s history)) := by
    apply run_relation (I := Sound env) (R := fun s s' => Ready env s → Reserved env t s s')
      (P := fun s a => t ≤ s.reservesThreshold ∧ a.External env.this) _ _ _ sound
      (thresholds.and_forall external)
    · intro s ready
      exact ⟨[], 0, .refl ready, Nat.le_add_right_of_le (Nat.min_le_left _ _)⟩
    · intro s u v first second ready
      obtain ⟨added, minted, booked, kept⟩ := first ready
      obtain ⟨added', minted', booked', kept'⟩ := second booked.moved.ready
      refine ⟨added ++ added', minted + minted', booked.trans booked', ?_⟩
      rw [volume_append]
      omega
    · intro s a s' sound given succeeds
      obtain ⟨threshold, external⟩ := given
      have transition := step_transition targets sound.ready sound.whole external succeeds
      refine ⟨transition.sound sound, fun ready => ?_⟩
      obtain ⟨added, minted, booked⟩ := transition.booked ready
      exact ⟨added, minted, booked, transition.reserves booked threshold⟩
  exact both.2 sound.ready

/-- **Reserves.** Over every window in which the threshold is at least `t`, the reserves do not
fall from `t` or above to below it, and not at all from below it, except by what is redeemed or
withdrawn: allocations never take them there. -/
theorem reserves_kept {s₀ : PsmState W} {t : Nat} (deployed : Deployed env s₀)
    {history window : List (Action W)} (reached : s = run (step env) s₀ history)
    (ends : s' = run (step env) s window)
    (external : ∀ a ∈ history ++ window, a.External env.this)
    (thresholds : Along (step env) (fun s _ => t ≤ s.reservesThreshold) s window) :
    ∃ added, s'.events = s.events ++ added ∧
      min (balance env s) t ≤ balance env s' +
        (volume PsmEvent.tokensRedeemed added +
          volume (PsmEvent.withdrawn env.underlyingToken) added) := by
  have sound : Sound env s := by
    rw [reached]
    exact deployed.run_sound fun a mem => external a (List.mem_append_left _ mem)
  obtain ⟨added, minted, booked, kept⟩ := run_reserved deployed.targets sound
    (fun a mem => external a (List.mem_append_right _ mem)) thresholds
  rw [← ends] at booked kept
  rw [volume_drained] at kept
  exact ⟨added, booked.events, kept⟩

end Psm

namespace Psm.Sample

/-- Account 6 mints 250 for account 5, which redeems 60 of them. -/
def before : List (Action (D256 × Bool)) :=
  [.mint 6 5 250 250, .tokens (.fei 5 (.approve 0xBB 100)), .redeem 5 5 60 50]

/-- Others mint 40 FEI, the surplus is allocated and 10 tokens are withdrawn. -/
def window : List (Action (D256 × Bool)) :=
  [.tokens (.fei 8 (.mint 9 40)), .allocateSurplus 2, .withdraw 3 7 10]

/-- Then account 6 mints 70, of which the module has 60. -/
def history : List (Action (D256 × Bool)) :=
  before ++ window ++ [.mint 6 5 70 0]

/-- The oracle changes its mind in between. -/
def unsteady : List (Action (D256 × Bool)) :=
  [.mint 6 5 250 250, .outside (⟨1010 * 10 ^ 15⟩, true), .tokens (.fei 5 (.approve 0xBB 100)),
    .redeem 5 5 60 50, .tokens (.fei 8 (.mint 9 40)), .allocateSurplus 2, .withdraw 3 7 10,
    .outside (⟨990 * 10 ^ 15⟩, true), .mint 6 5 70 0]

theorem external : ∀ a ∈ history, a.External 0xBB := by
  simp [history, before, window, Action.External, TokenAction.sender]

theorem window_external : ∀ a ∈ before ++ window, a.External 0xBB := by
  simp [before, window, Action.External, TokenAction.sender]

theorem unsteady_external : ∀ a ∈ unsteady, a.External 0xBB := by
  simp [unsteady, Action.External, TokenAction.sender]

def last (contract : PsmContract) (price : Nat) : PsmState (D256 × Bool) :=
  run (step (env contract)) (start contract price) history

def unsteadyLast (contract : PsmContract) : PsmState (D256 × Bool) :=
  run (step (env contract)) (start contract (10 ^ 18)) unsteady

def windowFirst (contract : PsmContract) : PsmState (D256 × Bool) :=
  run (step (env contract)) (start contract (10 ^ 18)) before

def windowLast (contract : PsmContract) : PsmState (D256 × Bool) :=
  run (step (env contract)) (windowFirst contract) window

theorem windowFirst_eq (contract : PsmContract) : windowFirst contract =
    run (step (env contract)) (start contract (10 ^ 18)) before := rfl

theorem windowLast_eq (contract : PsmContract) : windowLast contract =
    run (step (env contract)) (windowFirst contract) window := rfl

theorem last_eq (contract : PsmContract) (price : Nat) :
    last contract price = run (step (env contract)) (start contract price) history := rfl

theorem unsteadyLast_eq (contract : PsmContract) : unsteadyLast contract =
    run (step (env contract)) (start contract (10 ^ 18)) unsteady := rfl

end Psm.Sample

namespace Psm

/-- 300 FEI more in circulation, 40 of them minted elsewhere; 160 tokens held, 90 allocated and
10 withdrawn. -/
theorem fixedPrice_backed_sample :
    Backed (Sample.env .FixedPricePSM) 1 1 (Sample.start .FixedPricePSM (10 ^ 18))
      (Sample.unsteadyLast .FixedPricePSM) :=
  fixedPrice_backed rfl (Sample.deployed _ _) Sample.unsteady_external (Sample.unsteadyLast_eq _)

/-- At 1.01 FEI for a token. -/
theorem backed_at_price_sample :
    Backed (Sample.env .PegStabilityModule) (⟨1010 * 10 ^ 15⟩ : D256).value BASE
      (Sample.start .PegStabilityModule (1010 * 10 ^ 15))
      (Sample.last .PegStabilityModule (1010 * 10 ^ 15)) :=
  backed_at_price (by decide) (Sample.deployed _ _) Sample.external
    (by decide +kernel) (Sample.last_eq _ _)

/-- Mints of 250 at 1 and of 70 at 0.99, a redemption of 60 at 1.01. -/
theorem priceBound_rates_sample :
    volume PsmEvent.feiPaid (Sample.unsteadyLast .PriceBoundPSM).events = 319 ∧
    volume PsmEvent.feiPaid (Sample.unsteadyLast .PriceBoundPSM).events * 10000 ≤
      volume PsmEvent.tokensTaken (Sample.unsteadyLast .PriceBoundPSM).events * 10200 ∧
    volume PsmEvent.tokensRedeemed (Sample.unsteadyLast .PriceBoundPSM).events * 9800 ≤
      volume PsmEvent.feiTaken (Sample.unsteadyLast .PriceBoundPSM).events * 10000 :=
  ⟨by decide +kernel, priceBound_rates rfl (Sample.deployed .PriceBoundPSM (10 ^ 18))
    Sample.unsteady_external (by decide +kernel) (Sample.unsteadyLast_eq _)⟩

/-- From 190 tokens to the threshold of 100, and then by a withdrawal to 90. -/
theorem reserves_kept_sample :
    balance (Sample.env .PriceBoundPSM) (Sample.windowLast .PriceBoundPSM) = 90 ∧
    ∃ added, (Sample.windowLast .PriceBoundPSM).events =
      (Sample.windowFirst .PriceBoundPSM).events ++ added ∧
      min (balance (Sample.env .PriceBoundPSM) (Sample.windowFirst .PriceBoundPSM)) 100 ≤
        balance (Sample.env .PriceBoundPSM) (Sample.windowLast .PriceBoundPSM) +
          (volume PsmEvent.tokensRedeemed added + volume (PsmEvent.withdrawn 20) added) :=
  ⟨by decide +kernel, reserves_kept (Sample.deployed .PriceBoundPSM (10 ^ 18))
    (Sample.windowFirst_eq _) (Sample.windowLast_eq _) Sample.window_external
    (by decide +kernel)⟩

end Psm

end FeiProtocol
