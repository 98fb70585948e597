import FeiProtocol.Utils.GlobalRateLimitedMinter

/-!
# Caps of `MultiRateLimited`

The setters for single addresses check the contract's own limits. Two paths do not keep them in
order: the constructor takes any maximal rate for single addresses, and the inherited
`setBufferCap` takes any cap. Where these two are used with care the limits stay in order.

* `Ordered`: the limits are in order.
* `ordered_iff_of_step`: what one call keeps.
* `caps_ordered`: a run keeps them exactly if it is made with care.
* `caps_unordered`: they do not stay in order in every run.
-/

namespace FeiProtocol

open Evm

namespace MultiRateLimited

variable {core : Core} {access : AccessControl} {m m' : MultiRateLimited} {timestamp : Nat}
  {a sender : Address} {rate cap : BitVec 112} {amount : Nat} {CONTRACT_ADMIN_ROLE : Bytes32}

/-- Every registered address is within the contract's limits, and so are the maxima. -/
structure Ordered (m : MultiRateLimited) : Prop where
  caps : ∀ a, (m.rateLimitPerAddress a).lastBufferUsedTime ≠ 0 →
    (m.rateLimitPerAddress a).bufferCap.toNat ≤ m.bufferCap
  rates : ∀ a, (m.rateLimitPerAddress a).lastBufferUsedTime ≠ 0 →
    (m.rateLimitPerAddress a).rateLimitPerSecond.toNat ≤ m.MAX_RATE_LIMIT_PER_SECOND
  maxCap : m.individualMaxBufferCap ≤ m.bufferCap
  maxRate : m.individualMaxRateLimitPerSecond ≤ m.MAX_RATE_LIMIT_PER_SECOND

/-- A cap that is not below any cap in force. -/
def Covers (m : MultiRateLimited) (newBufferCap : Nat) : Prop :=
  m.individualMaxBufferCap ≤ newBufferCap ∧
    ∀ a, (m.rateLimitPerAddress a).lastBufferUsedTime ≠ 0 →
      (m.rateLimitPerAddress a).bufferCap.toNat ≤ newBufferCap

/-- A record within the limits. -/
theorem Ordered.setRecord {d : RateLimitData} (ordered : Ordered m)
    (capFits : d.bufferCap.toNat ≤ m.bufferCap)
    (rateFits : d.rateLimitPerSecond.toNat ≤ m.MAX_RATE_LIMIT_PER_SECOND) :
    Ordered (m.setRecord a d) := by
  refine ⟨fun b registered => ?_, fun b registered => ?_, ordered.maxCap, ordered.maxRate⟩
  · simp only [MultiRateLimited.setRecord] at registered ⊢
    by_cases here : b = a
    · rw [here, Function.update_self]
      exact capFits
    · rw [Function.update_of_ne here] at registered ⊢
      exact ordered.caps b registered
  · simp only [MultiRateLimited.setRecord] at registered ⊢
    by_cases here : b = a
    · rw [here, Function.update_self]
      exact rateFits
    · rw [Function.update_of_ne here] at registered ⊢
      exact ordered.rates b registered

/-- Changes of the contract's buffer that keep its limits. -/
theorem Ordered.of_rateLimited {r : RateLimited} (ordered : Ordered m)
    (sameCap : r.bufferCap = m.bufferCap)
    (sameMax : r.MAX_RATE_LIMIT_PER_SECOND = m.MAX_RATE_LIMIT_PER_SECOND) :
    Ordered { m with toRateLimited := r } := by
  refine ⟨?_, ?_, ?_, ?_⟩
  · rw [sameCap]
    exact ordered.caps
  · rw [sameMax]
    exact ordered.rates
  · rw [sameCap]
    exact ordered.maxCap
  · rw [sameMax]
    exact ordered.maxRate

theorem Ordered.deplete (ordered : Ordered m) (registry : Registry m)
    (succeeds : m._depleteIndividualBuffer timestamp a amount = .ok m') : Ordered m' := by
  have positive := (depleted_of_depleteIndividualBuffer succeeds).positive
  -- only a registered address has a buffer
  have registered : (m.rateLimitPerAddress a).lastBufferUsedTime ≠ 0 :=
    fun unregistered => positive (level_of_unregistered registry unregistered)
  simp only [_depleteIndividualBuffer, bind_eq_ok_iff, pure_eq_ok_iff] at succeeds
  obtain ⟨⟨r, used⟩, contract, _, _, _, _, _, _, _, _, _, _, same⟩ := succeeds
  have depleted := RateLimited.depleted_of_depleteBuffer contract
  have sameCap : r.bufferCap = m.bufferCap := congrArg TokenBucket.cap depleted.bucket
  rw [← same]
  refine (ordered.of_rateLimited sameCap depleted.max).setRecord ?_ ?_
  · exact sameCap ▸ ordered.caps a registered
  · exact depleted.max ▸ ordered.rates a registered

theorem Ordered.addAddress (ordered : Ordered m)
    (succeeds : m._addAddress timestamp a rate cap = .ok m') : Ordered m' := by
  simp only [_addAddress, bind_eq_ok_iff, pure_eq_ok_iff, require_eq_ok_iff, exists_const]
    at succeeds
  obtain ⟨capFits, _, rateFits, _, _, same⟩ := succeeds
  rw [← same]
  exact ordered.setRecord capFits rateFits

theorem Ordered.updateAddress (ordered : Ordered m)
    (succeeds : m.updateAddress access timestamp sender a rate cap = .ok m') : Ordered m' := by
  have fits : cap.toNat ≤ m.bufferCap ∧ rate.toNat ≤ m.MAX_RATE_LIMIT_PER_SECOND := by
    simp only [MultiRateLimited.updateAddress, bind_eq_ok_iff] at succeeds
    obtain ⟨_, _, _, _, succeeds⟩ := succeeds
    split at succeeds
    · simp only [bind_eq_ok_iff, require_eq_ok_iff, exists_const] at succeeds
      exact ⟨succeeds.2.2.1, succeeds.2.2.2.1⟩
    · simp only [bind_eq_ok_iff, require_eq_ok_iff, exists_const] at succeeds
      exact ⟨succeeds.1, succeeds.2.1⟩
  have updates := updateAddress_eq_ok succeeds
  simp only [_updateAddress, bind_eq_ok_iff, pure_eq_ok_iff] at updates
  obtain ⟨_, _, _, _, same⟩ := updates
  rw [← same]
  exact ordered.setRecord fits.1 fits.2

/-- The inherited setter keeps the order exactly when it covers all caps in force. -/
theorem Ordered.setBufferCap_iff {r : RateLimited} {newCap newRate : Nat} (ordered : Ordered m)
    (relimited : RateLimited.Relimited m.toRateLimited r timestamp newCap newRate) :
    Ordered { m with toRateLimited := r } ↔ Covers m newCap := by
  have sameCap : r.bufferCap = newCap := congrArg TokenBucket.cap relimited.bucket
  constructor
  · intro ordered'
    refine ⟨?_, fun b registered => ?_⟩
    · exact sameCap ▸ ordered'.maxCap
    · exact sameCap ▸ ordered'.caps b registered
  · intro given
    rcases given with ⟨maxima, caps⟩
    refine ⟨fun b registered => ?_, fun b registered => ?_, ?_, ?_⟩
    · exact sameCap ▸ caps b registered
    · exact relimited.max ▸ ordered.rates b registered
    · exact sameCap ▸ maxima
    · exact relimited.max ▸ ordered.maxRate

/-- What it takes for a configuration call to keep the order. -/
def Careful (m : MultiRateLimited) : Configuration → Prop
  | .setBufferCap newBufferCap => Covers m newBufferCap.toNat
  | _ => True

/-- **The step.** -/
theorem Ordered.configure_iff {c : Configuration} (ordered : Ordered m)
    (succeeds : configure core access CONTRACT_ADMIN_ROLE m timestamp sender c = .ok m') :
    Ordered m' ↔ Careful m c := by
  cases c with
  | setBufferCap newBufferCap =>
      obtain ⟨r, called, same⟩ := bind_eq_ok_iff.mp succeeds
      cases same
      exact ordered.setBufferCap_iff (RateLimited.setBufferCap_relimited called)
  | setRateLimitPerSecond newRateLimitPerSecond =>
      obtain ⟨r, called, same⟩ := bind_eq_ok_iff.mp succeeds
      cases same
      have relimited := RateLimited.setRateLimitPerSecond_relimited called
      have sameCap : r.bufferCap = m.bufferCap := congrArg TokenBucket.cap relimited.bucket
      exact iff_of_true (ordered.of_rateLimited sameCap relimited.max) trivial
  | updateMaxRateLimitPerSecond newRateLimitPerSecond =>
      simp only [configure, updateMaxRateLimitPerSecond, bind_eq_ok_iff, pure_eq_ok_iff,
        require_eq_ok_iff, exists_const] at succeeds
      obtain ⟨_, _, fits, same⟩ := succeeds
      rw [← same]
      exact iff_of_true ⟨ordered.caps, ordered.rates, ordered.maxCap, fits⟩ trivial
  | updateMaxBufferCap newBufferCap =>
      simp only [configure, updateMaxBufferCap, bind_eq_ok_iff, pure_eq_ok_iff,
        require_eq_ok_iff, exists_const] at succeeds
      obtain ⟨_, _, fits, same⟩ := succeeds
      rw [← same]
      exact iff_of_true ⟨ordered.caps, ordered.rates, fits, ordered.maxRate⟩ trivial
  | addAddress a _rateLimitPerSecond _bufferCap =>
      obtain ⟨_, _, adds⟩ := bind_eq_ok_iff.mp succeeds
      exact iff_of_true (ordered.addAddress adds) trivial
  | updateAddress a _rateLimitPerSecond _bufferCap =>
      exact iff_of_true (ordered.updateAddress succeeds) trivial
  | addAddressAsMinter a =>
      obtain ⟨_, _, adds⟩ := bind_eq_ok_iff.mp succeeds
      exact iff_of_true (ordered.addAddress adds) trivial
  | addAddressAsMinterWithLimits a _rateLimitPerSecond _bufferCap =>
      simp only [configure, addAddressAsMinterWithLimits, bind_eq_ok_iff] at succeeds
      obtain ⟨_, _, _, _, _, _, adds⟩ := succeeds
      exact iff_of_true (ordered.addAddress adds) trivial
  | removeAddress a =>
      simp only [configure, removeAddress, bind_eq_ok_iff, pure_eq_ok_iff] at succeeds
      obtain ⟨_, _, _, _, same⟩ := succeeds
      rw [← same]
      exact iff_of_true (ordered.setRecord (Nat.zero_le _) (Nat.zero_le _)) trivial

end MultiRateLimited

namespace GlobalRateLimitedMinter

open MultiRateLimited

variable {env : GlobalRateLimitedMinterEnv} {s s' : GlobalRateLimitedMinterState} {fei : FeiState}

/-- What it takes for a transaction to keep the order. -/
def CarefulStep (s : GlobalRateLimitedMinterState) : Action → Prop
  | .configure _ c => Careful s.toMultiRateLimited c
  | _ => True

theorem ordered_iff_of_step {a : Action} (sound : Sound s) (ordered : Ordered s.toMultiRateLimited)
    (succeeds : step env s a = .ok s') : Ordered s'.toMultiRateLimited ↔ CarefulStep s a := by
  cases a with
  | mint sender receiver amount =>
      simp only [step, mint, bind_eq_ok_iff, pure_eq_ok_iff] at succeeds
      obtain ⟨_, _, m, depletes, _, _, same⟩ := succeeds
      rw [← same]
      exact iff_of_true (ordered.deplete sound.registry depletes) trivial
  | mintMaxAllowableFei sender receiver =>
      simp only [step, mintMaxAllowableFei, bind_eq_ok_iff, pure_eq_ok_iff] at succeeds
      obtain ⟨_, _, _, _, _, _, m, depletes, _, _, same⟩ := succeeds
      rw [← same]
      exact iff_of_true (ordered.deplete sound.registry depletes) trivial
  | configure sender c =>
      obtain ⟨m, configures, same⟩ := bind_eq_ok_iff.mp succeeds
      cases same
      exact ordered.configure_iff configures
  | setContractAdminRole sender newContractAdminRole =>
      obtain ⟨_, _, same⟩ := bind_eq_ok_iff.mp succeeds
      cases same
      exact iff_of_true ordered trivial
  | pause sender =>
      rw [CoreRef.pause_eq succeeds]
      exact iff_of_true ordered trivial
  | unpause sender =>
      rw [CoreRef.unpause_eq succeeds]
      exact iff_of_true ordered trivial
  | fei sender c =>
      obtain ⟨_, _, same⟩ := bind_eq_ok_iff.mp succeeds
      cases same
      exact iff_of_true ordered trivial
  | elapse seconds =>
      cases succeeds
      exact iff_of_true ordered trivial

/-- The constructor keeps the order exactly when the maximal rate for single addresses is
within the contract's. -/
theorem ordered_iff_of_construct {timestamp : Nat} {s₀ : GlobalRateLimitedMinterState}
    {globalMax perAddress maxPerAddress maxCap globalCap : UInt256}
    (deploys : construct env timestamp fei globalMax perAddress maxPerAddress maxCap globalCap =
      .ok s₀) : Ordered s₀.toMultiRateLimited ↔ maxPerAddress ≤ globalMax := by
  simp only [construct, MultiRateLimited.construct, RateLimited.construct, bind_eq_ok_iff,
    pure_eq_ok_iff, require_eq_ok_iff, exists_const] at deploys
  obtain ⟨m, ⟨r, ⟨_, sets, _, rateLimited⟩, maxima, multiRateLimited⟩, same⟩ := deploys
  have relimited := RateLimited.relimited_of_setBufferCap sets
  have sameCap : r.bufferCap = globalCap.toNat := by
    rw [← rateLimited]
    exact congrArg TokenBucket.cap relimited.bucket
  have sameMax : r.MAX_RATE_LIMIT_PER_SECOND = globalMax.toNat := by rw [← rateLimited]
  subst multiRateLimited
  subst same
  constructor
  · intro ordered
    have maxRate := ordered.maxRate
    dsimp only at maxRate
    rw [sameMax] at maxRate
    exact maxRate
  · intro fits
    refine ⟨fun _ registered => absurd rfl registered, fun _ registered => absurd rfl registered,
      ?_, ?_⟩
    · dsimp only
      rw [sameCap]
      exact Nat.le_of_lt maxima
    · dsimp only
      rw [sameMax]
      exact fits

/-- **The caps.** The limits are in order in every state of a run from a deployment, if and only if
the deployment's maximal rate for single addresses is within the contract's, and no call of
`setBufferCap` that succeeds goes below a cap in force. Wherever they are in order, a call that
does breaks the order. -/
theorem caps_ordered {timestamp : Nat} {s₀ : GlobalRateLimitedMinterState}
    {globalMax perAddress maxPerAddress maxCap globalCap : UInt256}
    (deploys : construct env timestamp fei globalMax perAddress maxPerAddress maxCap globalCap =
      .ok s₀) (positive : 0 < timestamp) (history : List Action) :
    ((∀ prior, prior <+: history → Ordered (run (step env) s₀ prior).toMultiRateLimited) ↔
      maxPerAddress ≤ globalMax ∧
        Along (step env) (fun s a => ∀ s', step env s a = .ok s' → CarefulStep s a) s₀ history) ∧
    ∀ a s', Ordered (run (step env) s₀ history).toMultiRateLimited →
      step env (run (step env) s₀ history) a = .ok s' → Ordered s'.toMultiRateLimited →
        CarefulStep (run (step env) s₀ history) a := by
  have sound := sound_of_construct deploys positive
  have exact : Ordered s₀.toMultiRateLimited →
      ((∀ prior, prior <+: history → Ordered (run (step env) s₀ prior).toMultiRateLimited) ↔
        Along (step env) (fun s a => ∀ s', step env s a = .ok s' → CarefulStep s a) s₀
          history) := by
    intro ordered
    refine @run_iff_along _ _ _ (step env) Sound (fun s => Ordered s.toMultiRateLimited) _
      (fun _ => True) ?_ s₀ sound ordered history fun _ _ => trivial
    intro s a s' sound ordered _ succeeds
    exact ⟨step_sound sound succeeds, ordered_iff_of_step sound ordered succeeds⟩
  refine ⟨⟨fun always => ?_, fun both => ?_⟩, fun a s' ordered succeeds => ?_⟩
  · have ordered : Ordered s₀.toMultiRateLimited := always [] List.nil_prefix
    exact ⟨(ordered_iff_of_construct deploys).mp ordered, (exact ordered).mp always⟩
  · exact (exact ((ordered_iff_of_construct deploys).mpr both.1)).mpr both.2
  · exact (ordered_iff_of_step (run_sound sound history) ordered succeeds).mp

/-- Account 7 gets a cap of 400, and then the shared cap is lowered to 800. -/
def Sample.lowered : List Action :=
  [.configure 1 (.addAddress 7 5 400), .configure 1 (.setBufferCap 800), .mint 7 7 300]

theorem Sample.lowered_careful : Along (step Sample.env)
    (fun s a => ∀ s', step Sample.env s a = .ok s' → CarefulStep s a) Sample.start lowered := by
  refine ⟨fun _ _ => trivial, fun _ _ => ⟨by decide, fun a registered => ?_⟩,
    fun _ _ => trivial, trivial⟩
  have records : (commit (step Sample.env) Sample.start
      (.configure 1 (.addAddress 7 5 400))).rateLimitPerAddress =
    Function.update (fun _ => .empty) 7 ⟨1000, 400, 400, 5⟩ := rfl
  rw [records] at registered ⊢
  by_cases here : a = 7
  · rw [here, Function.update_self]
    decide
  · rw [Function.update_of_ne here] at registered
    exact absurd rfl registered

theorem caps_ordered_sample :
    Ordered (run (step Sample.env) Sample.start Sample.lowered).toMultiRateLimited :=
  (caps_ordered Sample.deploys (by decide) Sample.lowered).1.mpr
    ⟨by decide, Sample.lowered_careful⟩ _ (List.prefix_refl _)

/-- The shared cap is lowered below the maximal cap for single addresses; and a deployment with
a maximal rate above the contract's. -/
theorem caps_unordered :
    ¬ Ordered (run (step Sample.env) Sample.start
      [.configure 1 (.setBufferCap 100)]).toMultiRateLimited ∧
    ∃ s₀, construct Sample.env 1000 Sample.fei 100 10 200 500 1000 = .ok s₀ ∧
      ¬ Ordered s₀.toMultiRateLimited := by
  refine ⟨fun ordered => ?_, { Sample.start with individualMaxRateLimitPerSecond := 200 }, rfl,
    fun ordered => ?_⟩
  · exact absurd ordered.maxCap (by decide +kernel)
  · exact absurd ordered.maxRate (by decide)

end GlobalRateLimitedMinter

end FeiProtocol
