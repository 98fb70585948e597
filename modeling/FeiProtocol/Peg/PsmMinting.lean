import FeiProtocol.Peg.PsmSteps

/-!
# How fast the stability modules mint

Mints are drawn from the rate limit of the module. The limits can be changed, but no change adds
to what is left of the buffer, and no rate exceeds `MAX_FEI_LIMIT_PER_SECOND`.

* `minting_throttled`: so over every window the module mints no more than the buffer at its start
  and what time refills, whoever calls whatever.
-/

namespace FeiProtocol

open Evm

namespace Psm

variable {W : Type} {env : PsmEnv W} {s s' : PsmState W}

/-- What the module minted between two states was drawn from its buffer. -/
structure Drained (env : PsmEnv W) (most : Nat) (s s' : PsmState W) : Prop where
  minted_le : Fei.mintedBy s.fei env.this ≤ Fei.mintedBy s'.fei env.this
  drain : TokenBucket.Drain most s.bucket s'.bucket s.timestamp s'.timestamp
    (Fei.mintedBy s'.fei env.this - Fei.mintedBy s.fei env.this)

theorem Drained.of_minted {most minted : Nat}
    (mints : Fei.mintedBy s'.fei env.this = Fei.mintedBy s.fei env.this + minted)
    (drain : TokenBucket.Drain most s.bucket s'.bucket s.timestamp s'.timestamp minted) :
    Drained env most s s' := by
  refine ⟨Nat.le.intro mints.symm, ?_⟩
  rw [mints, Nat.add_sub_cancel_left]
  exact drain

theorem Drained.refl (env : PsmEnv W) (most : Nat) (s : PsmState W) : Drained env most s s :=
  .of_minted (Nat.add_zero _).symm (.refl _ _)

theorem Drained.trans {most : Nat} {s'' : PsmState W} (first : Drained env most s s')
    (second : Drained env most s' s'') : Drained env most s s'' := by
  have before := first.minted_le
  have after := second.minted_le
  refine .of_minted ?_ (first.drain.trans second.drain)
  omega

/-- A transaction that mints nothing and leaves the rate limit alone. -/
theorem Drained.of_same {most : Nat} (slow : s.rateLimitPerSecond ≤ most)
    (mints : Fei.mintedBy s'.fei env.this = Fei.mintedBy s.fei env.this)
    (same : s'.toRateLimited = s.toRateLimited) (later : s.timestamp ≤ s'.timestamp) :
    Drained env most s s' := by
  refine .of_minted (mints.trans (Nat.add_zero _).symm) ?_
  rw [same]
  exact .wait slow later

theorem Transition.drains {most : Nat} (transition : Transition env s s')
    (slow : s.rateLimitPerSecond ≤ most) : Drained env most s s' := by
  cases transition with
  | redeems receiver amountFeiIn amountOut redeems =>
      exact .of_same slow redeems.moved.fei.mintedBy redeems.rateLimited
        (Nat.le_of_eq redeems.timestamp.symm)
  | mints receiver amountIn amountFeiOut minted mints =>
      rcases mints.drawn with ⟨none, same⟩ | ⟨asked, depleted⟩
      · subst none
        exact .of_same slow mints.moved.fei.mintedBy same (Nat.le_of_eq mints.timestamp.symm)
      · refine .of_minted mints.moved.fei.mintedBy ?_
        rw [mints.timestamp, depleted.bucket]
        exact .draw depleted.covered
  | allocates caller amount allocates =>
      exact .of_same slow allocates.moved.fei.mintedBy allocates.rateLimited
        (Nat.le_of_eq allocates.timestamp.symm)
  | withdraws caller token receiver amount withdraws =>
      exact .of_same slow withdraws.moved.fei.mintedBy withdraws.rateLimited
        (Nat.le_of_eq withdraws.timestamp.symm)
  | relimited cap rate slow' relimited fei ledger timestamp events =>
      have mints : Fei.mintedBy s'.fei env.this = Fei.mintedBy s.fei env.this := by rw [fei]
      refine .of_minted (mints.trans (Nat.add_zero _).symm) ?_
      rw [timestamp, relimited.bucket]
      exact .relimit _ _ _ _
  | called moved same =>
      exact .of_same slow moved.fei.mintedBy same.rateLimited (Nat.le_of_eq same.timestamp.symm)
  | quiet quiet => exact .of_same slow (by rw [quiet.fei]) quiet.rateLimited quiet.later

/-- A window in which no rate exceeds `most`. -/
def Slow (env : PsmEnv W) (most : Nat) (s : PsmState W) (window : List (Action W)) : Prop :=
  Along (step env) (fun s _ => s.rateLimitPerSecond ≤ most) s window

theorem window_drained {most : Nat} (targets : TargetsExternal env) (sound : Sound env s)
    {window : List (Action W)} (external : ∀ a ∈ window, a.External env.this)
    (slow : Slow env most s window) : Drained env most s (run (step env) s window) := by
  apply (run_relation (I := Sound env) (R := Drained env most)
    (P := fun s a => s.rateLimitPerSecond ≤ most ∧ a.External env.this) (Drained.refl env most)
    _ _ sound (Along.and_forall slow external)).2
  · intro s t u first second
    exact first.trans second
  · intro s a s' sound given succeeds
    have transition := step_transition targets sound.ready sound.whole given.2 succeeds
    exact ⟨transition.sound sound, transition.drains given.1⟩

/-- No run is faster than the contract allows. -/
theorem slow_of_sound (targets : TargetsExternal env) (sound : Sound env s)
    {window : List (Action W)} (external : ∀ a ∈ window, a.External env.this) :
    Slow env MAX_FEI_LIMIT_PER_SECOND.toNat s window := by
  induction window generalizing s with
  | nil => trivial
  | cons a window ih =>
      have here : s.rateLimitPerSecond ≤ MAX_FEI_LIMIT_PER_SECOND.toNat := sound.max ▸ sound.slow
      have rest := fun b mem => external b (List.mem_cons_of_mem _ mem)
      rcases commit_cases (step env) s a with same | succeeds
      · refine ⟨here, ?_⟩
        rw [same]
        exact ih sound rest
      · have transition := step_transition targets sound.ready sound.whole
          (external a List.mem_cons_self) succeeds
        exact ⟨here, ih (transition.sound sound) rest⟩

/-- **Throttle.** Over every window the FEI that the module mints is at most its buffer at the
start and what time refills at the highest rate of the window; and no administrator can make
that more than ten thousand FEI a second. -/
theorem minting_throttled {s₀ : PsmState W} (deployed : Deployed env s₀)
    {history window : List (Action W)} (reached : s = run (step env) s₀ history)
    (ends : s' = run (step env) s window)
    (external : ∀ a ∈ history ++ window, a.External env.this) {buffer : Nat}
    (gets : s.buffer s.timestamp = .ok buffer) :
    (∀ most, Slow env most s window →
      Fei.mintedBy s'.fei env.this - Fei.mintedBy s.fei env.this ≤
        buffer + most * (s'.timestamp - s.timestamp)) ∧
    Fei.mintedBy s'.fei env.this - Fei.mintedBy s.fei env.this ≤
      buffer + 10000 * 10 ^ 18 * (s'.timestamp - s.timestamp) ∧ buffer ≤ s.bufferCap := by
  have sound : Sound env s := by
    rw [reached]
    exact deployed.run_sound fun a mem => external a (List.mem_append_left _ mem)
  have inside : ∀ a ∈ window, a.External env.this :=
    fun a mem => external a (List.mem_append_right _ mem)
  have throttle : ∀ most, Slow env most s window →
      Fei.mintedBy s'.fei env.this - Fei.mintedBy s.fei env.this ≤
        buffer + most * (s'.timestamp - s.timestamp) := by
    intro most slow
    have drained := window_drained deployed.targets sound inside slow
    rw [← ends] at drained
    rw [← (RateLimited.buffer_eq_ok_iff.mp gets).2]
    exact drained.drain.drawn_le
  exact ⟨throttle, throttle _ (slow_of_sound deployed.targets sound inside),
    RateLimited.buffer_le_cap gets⟩

end Psm

namespace Psm.Sample

/-- Account 6 mints 250 of a buffer of 300. -/
def minted : List (Action (Decimal.D256 × Bool)) :=
  [.mint 6 5 250 250]

/-- The governor raises the rate from 2 to 5 a second; then there are 70 left, and 71 is too
much. -/
def faster : List (Action (Decimal.D256 × Bool)) :=
  [.setRateLimitPerSecond 1 5, .elapse 4, .mint 6 5 70 0, .mint 6 5 1 0]

def mintedFirst : PsmState (Decimal.D256 × Bool) :=
  run (step (env .FixedPricePSM)) (start .FixedPricePSM (10 ^ 18)) minted

def fasterLast : PsmState (Decimal.D256 × Bool) :=
  run (step (env .FixedPricePSM)) mintedFirst faster

theorem faster_external : ∀ a ∈ minted ++ faster, a.External 0xBB := by
  simp [minted, faster, Action.External]

end Psm.Sample

namespace Psm

theorem minting_throttled_sample :
    Fei.mintedBy Sample.fasterLast.fei 0xBB - Fei.mintedBy Sample.mintedFirst.fei 0xBB = 70 ∧
    Fei.mintedBy Sample.fasterLast.fei 0xBB - Fei.mintedBy Sample.mintedFirst.fei 0xBB ≤
      50 + 5 * (Sample.fasterLast.timestamp - Sample.mintedFirst.timestamp) := by
  obtain ⟨throttled, _⟩ := minting_throttled (Sample.deployed .FixedPricePSM (10 ^ 18))
    (rfl : Sample.mintedFirst = run _ _ Sample.minted)
    (rfl : Sample.fasterLast = run _ _ Sample.faster) Sample.faster_external
    (by decide +kernel : Sample.mintedFirst.buffer Sample.mintedFirst.timestamp = .ok 50)
  have slow : Slow (Sample.env .FixedPricePSM) 5 Sample.mintedFirst Sample.faster := by
    unfold Slow
    decide +kernel
  exact ⟨by decide +kernel, throttled 5 slow⟩

end Psm

end FeiProtocol
