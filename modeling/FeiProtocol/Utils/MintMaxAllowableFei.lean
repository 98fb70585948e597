import FeiProtocol.Utils.GlobalRateLimitedMinter

/-!
# What `mintMaxAllowableFei` takes

The amount is read off both getters before each of the two buffers is depleted by its own
function, with a computation of its own.

* `mintMaxAllowableFei_eq`: with both getters positive, no check of either limiter is left in
  the call but the cast of the timestamp.
* `mintMaxAllowableFei_exact`: it mints the smaller buffer, empties it, and fails on no limit
  unless a buffer is empty.
-/

namespace FeiProtocol

open Evm

/-! ## Depletions that are covered -/

namespace RateLimited

variable {r r' : RateLimited} {timestamp newBuffer amount used : Nat}

/-- What a depletion leaves is what the getter gave, less what was used. -/
theorem Depleted.buffer_eq (depleted : Depleted r r' timestamp amount used)
    (gets : r.buffer timestamp = .ok newBuffer) :
    r'.buffer timestamp = .ok (newBuffer - used) := by
  obtain ⟨fits, level⟩ := buffer_eq_ok_iff.mp gets
  have last : r'.lastBufferUsedTime = timestamp := congrArg TokenBucket.lastUsed depleted.bucket
  have stored : r'.bufferStored = r.bucket.level timestamp - used :=
    congrArg TokenBucket.stored depleted.bucket
  apply buffer_eq_ok_iff.mpr
  constructor
  · have le : r.bucket.level timestamp ≤
        r.bufferStored + r.rateLimitPerSecond * (timestamp - r.lastBufferUsedTime) :=
      Nat.min_le_left _ _
    have narrow := fits.2.2
    simp only [Fits, last, stored, Nat.sub_self, Nat.mul_zero, Nat.add_zero]
    omega
  · rw [depleted.bucket, TokenBucket.level_draw, level]

end RateLimited

namespace MultiRateLimited

variable {m m' : MultiRateLimited} {timestamp newBuffer amount : Nat} {a : Address}
  {buffered : BitVec 112}

/-- A depletion that both buffers cover depends on nothing but the cast of the timestamp. -/
theorem _depleteIndividualBuffer_of_covered (whole : m.doPartialAction = false)
    (shared : m.buffer timestamp = .ok newBuffer) (sharedPositive : newBuffer ≠ 0)
    (own : m.individualBuffer timestamp a = .ok buffered) (ownPositive : buffered.toNat ≠ 0)
    (sharedCovered : amount ≤ newBuffer) (ownCovered : amount ≤ buffered.toNat) :
    m._depleteIndividualBuffer timestamp a amount = (do
      let lastBufferUsedTime ← toUint 32 timestamp
      return ({ m with
          bufferStored := newBuffer - amount
          lastBufferUsedTime := timestamp } : MultiRateLimited).setRecord a
        { m.rateLimitPerAddress a with
          lastBufferUsedTime
          bufferStored := BitVec.ofNat 112 (buffered.toNat - amount) }) := by
  have first := RateLimited.depleteBuffer_of_covered whole shared sharedPositive sharedCovered
  have again : ({ m with
      bufferStored := newBuffer - amount
      lastBufferUsedTime := timestamp } : MultiRateLimited).individualBuffer timestamp a =
        .ok buffered := own
  simp only [_depleteIndividualBuffer, first, bind, Except.bind, again, require, ownPositive,
    ownCovered, if_true, checkedSub, ne_eq, not_false_eq_true]

/-- What a depletion leaves of an address's buffer. -/
theorem Depleted.individualBuffer_eq (depleted : Depleted m m' timestamp a amount)
    (own : m.individualBuffer timestamp a = .ok buffered) :
    ∃ left : BitVec 112, m'.individualBuffer timestamp a = .ok left ∧
      left.toNat = buffered.toNat - amount := by
  obtain ⟨_, level⟩ := individualBuffer_eq_ok_iff.mp own
  refine ⟨_, individualBuffer_of_fits (fits_of_touched depleted.touched), ?_⟩
  rw [BitVec.toNat_ofNat, Nat.mod_eq_of_lt (level_lt _ _ a), depleted.drawn,
    TokenBucket.level_draw, level]

end MultiRateLimited

/-! ## The call -/

namespace GlobalRateLimitedMinter

open CoreRef

variable {env : GlobalRateLimitedMinterEnv} {s s' : GlobalRateLimitedMinterState}
  {sender receiver : Address} {individual : BitVec 112} {buffer timestamp : Nat} {fei : FeiState}
  {e : Revert}

theorem mintMaxAllowableFei_eq (whole : s.doPartialAction = false) (unpaused : s._paused = false)
    (own : s.individualBuffer s.timestamp sender = .ok individual)
    (shared : s.buffer s.timestamp = .ok buffer) (ownPositive : individual.toNat ≠ 0)
    (sharedPositive : buffer ≠ 0) :
    mintMaxAllowableFei env s sender receiver = (do
      let lastBufferUsedTime ← toUint 32 s.timestamp
      let fei ← Fei.mint env.fei s.fei env.this receiver (min individual.toNat buffer)
      return { s with
        toMultiRateLimited := ({ s.toMultiRateLimited with
            bufferStored := buffer - min individual.toNat buffer
            lastBufferUsedTime := s.timestamp } : MultiRateLimited).setRecord sender
          { s.rateLimitPerAddress sender with
            lastBufferUsedTime
            bufferStored := BitVec.ofNat 112 (individual.toNat - min individual.toNat buffer) }
        fei }) := by
  have nonzero : min individual.toNat buffer ≠ 0 := by omega
  have depleted := MultiRateLimited._depleteIndividualBuffer_of_covered whole shared
    sharedPositive own ownPositive (Nat.min_le_right individual.toNat buffer)
    (Nat.min_le_left individual.toNat buffer)
  have open_ : whenNotPaused s = .ok () := require_eq_ok_iff.mpr unpaused
  simp only [mintMaxAllowableFei, open_, own, shared, depleted, _mintFei, nonzero, ne_eq,
    not_false_eq_true, if_true, bind, Except.bind, pure, Except.pure]
  cases toUint 32 s.timestamp with
  | error e => rfl
  | ok lastBufferUsedTime => rfl

/-- Partial actions stay switched off. -/
theorem run_whole (whole : s.doPartialAction = false) (actions : List Action) :
    (run (step env) s actions).doPartialAction = false := by
  refine run_invariant (I := fun s : GlobalRateLimitedMinterState => s.doPartialAction = false)
    (A := fun _ => True) ?_ whole fun _ _ => trivial
  intro s a s' whole _ succeeds
  rcases step_cases succeeds with ⟨sender, amount, _, minted⟩ | ⟨_, _, change⟩ | ⟨_, _, same⟩
  · exact (MultiRateLimited.Change.depleted sender amount minted.depleted).doPartialAction.trans
      whole
  · exact change.doPartialAction.trans whole
  · rw [same]
    exact whole

theorem whole_of_construct {s₀ : GlobalRateLimitedMinterState}
    {globalMax perAddress maxPerAddress maxCap globalCap : UInt256}
    (deploys : construct env timestamp fei globalMax perAddress maxPerAddress maxCap globalCap =
      .ok s₀) : s₀.doPartialAction = false := by
  simp only [construct, MultiRateLimited.construct, RateLimited.construct, bind_eq_ok_iff,
    pure_eq_ok_iff] at deploys
  obtain ⟨m, ⟨r, ⟨_, _, _, _, rateLimited⟩, _, _, multiRateLimited⟩, same⟩ := deploys
  subst rateLimited
  subst multiRateLimited
  subst same
  rfl

/-- A call that took the smaller of `individual` and `buffer`, which both getters now lack. -/
structure TookMaximum (env : GlobalRateLimitedMinterEnv) (s s' : GlobalRateLimitedMinterState)
    (sender receiver : Address) (individual : BitVec 112) (buffer : Nat) : Prop where
  created : Fei.mint env.fei s.fei env.this receiver (min individual.toNat buffer) = .ok s'.fei
  minted : feiMinted env.this s'.fei =
    feiMinted env.this s.fei + min individual.toNat buffer
  left : ∃ individual' buffer', s'.individualBuffer s'.timestamp sender = .ok individual' ∧
    s'.buffer s'.timestamp = .ok buffer' ∧
    individual'.toNat = individual.toNat - min individual.toNat buffer ∧
    buffer' = buffer - min individual.toNat buffer ∧ (individual'.toNat = 0 ∨ buffer' = 0)

theorem positive_of_mintMaxAllowableFei
    (own : s.individualBuffer s.timestamp sender = .ok individual)
    (shared : s.buffer s.timestamp = .ok buffer)
    (succeeds : mintMaxAllowableFei env s sender receiver = .ok s') :
    individual.toNat ≠ 0 ∧ buffer ≠ 0 := by
  simp only [mintMaxAllowableFei, bind_eq_ok_iff, own, shared, Except.ok.injEq,
    exists_eq_left'] at succeeds
  obtain ⟨_, _, m, depleted, _⟩ := succeeds
  obtain ⟨_, level⟩ := MultiRateLimited.individualBuffer_eq_ok_iff.mp own
  constructor
  · rw [← level]
    exact (MultiRateLimited.depleted_of_depleteIndividualBuffer depleted).positive
  · simp only [MultiRateLimited._depleteIndividualBuffer, RateLimited._depleteBuffer,
      bind_eq_ok_iff, shared, require_eq_ok_iff, Except.ok.injEq, exists_eq_left'] at depleted
    obtain ⟨_, ⟨_, positive, _⟩, _⟩ := depleted
    exact positive

theorem tookMaximum_of_mintMaxAllowableFei (whole : s.doPartialAction = false)
    (own : s.individualBuffer s.timestamp sender = .ok individual)
    (shared : s.buffer s.timestamp = .ok buffer)
    (succeeds : mintMaxAllowableFei env s sender receiver = .ok s') :
    TookMaximum env s s' sender receiver individual buffer := by
  have positive := positive_of_mintMaxAllowableFei own shared succeeds
  simp only [mintMaxAllowableFei, bind_eq_ok_iff, pure_eq_ok_iff, own, shared, Except.ok.injEq,
    exists_eq_left'] at succeeds
  obtain ⟨_, _, m, depleted, fei, created, same⟩ := succeeds
  subst same
  have both := MultiRateLimited.depleted_of_depleteIndividualBuffer depleted
  obtain ⟨used, contract⟩ := both.contract
  obtain ⟨left, leaves, difference⟩ := both.individualBuffer_eq own
  have rest := contract.buffer_eq shared
  rw [contract.whole whole] at rest
  refine ⟨?_, _mintFei_minted created, left, _, leaves, rest, difference, rfl, by omega⟩
  rw [_mintFei, if_pos (by omega)] at created
  exact created

theorem toUint_eq_error_iff {bits n : Nat} : toUint bits n = .error e ↔
    2 ^ bits ≤ n ∧ e = .reason s!"SafeCast: value doesn't fit in {bits} bits" := by
  unfold toUint require
  split
  · rename_i fits
    simp only [bind, Except.bind, pure, Except.pure, reduceCtorEq, false_iff, not_and]
    omega
  · rename_i wide
    simp only [bind, Except.bind, Except.error.injEq]
    exact ⟨fun same => ⟨by omega, same.symm⟩, fun ⟨_, same⟩ => same.symm⟩

/-- The failures of FEI's own mint by one of its minters. -/
theorem error_of_mint {minter account : Address} {amount : Nat}
    (role : env.fei.core.isMinter minter)
    (reverts : Fei.mint env.fei fei minter account amount = .error e) :
    fei._paused = true ∨ env.fei.super._mint fei.erc20 account amount = .error e := by
  cases flag : fei._paused with
  | true => exact .inl rfl
  | false =>
      have minterOk : onlyMinter env.fei.core minter = .ok () := require_eq_ok_iff.mpr role
      have unpaused : whenNotPaused fei = .ok () := require_eq_ok_iff.mpr flag
      simp only [Fei.mint, minterOk, unpaused, bind, Except.bind] at reverts
      refine .inr ?_
      cases minted : env.fei.super._mint fei.erc20 account amount with
      | error e' =>
          rw [minted] at reverts
          cases reverts
          rfl
      | ok erc20 =>
          rw [minted] at reverts
          cases reverts

/-- **The maximal mint is exact.** In every reachable state, for a caller and a pool whose
getters answer: a call that succeeds mints the smaller buffer and leaves one of them empty; a
call with an empty buffer reverts; and with both positive it fails on nothing but FEI's own
mint, or the cast of a timestamp that does not fit its record. -/
theorem mintMaxAllowableFei_exact {s₀ : GlobalRateLimitedMinterState}
    {globalMax perAddress maxPerAddress maxCap globalCap : UInt256}
    (deploys : construct env timestamp fei globalMax perAddress maxPerAddress maxCap globalCap =
      .ok s₀) {history : List Action} (reached : s = run (step env) s₀ history)
    (unpaused : s._paused = false) (role : env.fei.core.isMinter env.this)
    (own : s.individualBuffer s.timestamp sender = .ok individual)
    (shared : s.buffer s.timestamp = .ok buffer) :
    (∀ s', step env s (.mintMaxAllowableFei sender receiver) = .ok s' →
      TookMaximum env s s' sender receiver individual buffer) ∧
    (individual.toNat = 0 ∨ buffer = 0 →
      ∀ s', step env s (.mintMaxAllowableFei sender receiver) ≠ .ok s') ∧
    (0 < individual.toNat → 0 < buffer →
      ((∃ s', step env s (.mintMaxAllowableFei sender receiver) = .ok s') ↔
        s.timestamp < 2 ^ 32 ∧ s.fei._paused = false ∧ ∃ erc20,
          env.fei.super._mint s.fei.erc20 receiver (min individual.toNat buffer) = .ok erc20) ∧
      ∀ e, step env s (.mintMaxAllowableFei sender receiver) = .error e →
        (2 ^ 32 ≤ s.timestamp ∧ e = .reason "SafeCast: value doesn't fit in 32 bits") ∨
        s.fei._paused = true ∨
        env.fei.super._mint s.fei.erc20 receiver (min individual.toNat buffer) = .error e) := by
  have whole : s.doPartialAction = false := reached ▸ run_whole (whole_of_construct deploys) history
  refine ⟨fun s' succeeds => tookMaximum_of_mintMaxAllowableFei whole own shared succeeds, ?_, ?_⟩
  · intro empty s' succeeds
    have positive := positive_of_mintMaxAllowableFei own shared succeeds
    omega
  · intro ownPositive sharedPositive
    rw [step, mintMaxAllowableFei_eq whole unpaused own shared (Nat.ne_of_gt ownPositive)
      (Nat.ne_of_gt sharedPositive)]
    constructor
    · simp only [Fei.mint, bind_eq_ok_iff, pure_eq_ok_iff, toUint_eq_ok_iff, onlyMinter,
        whenNotPaused_eq_ok_iff, require_eq_ok_iff]
      constructor
      · intro given
        rcases given with ⟨s', _, ⟨fits, _⟩, _, ⟨_, _, _, free, erc20, mints, _⟩, _⟩
        exact ⟨fits, free, erc20, mints⟩
      · intro given
        rcases given with ⟨fits, free, erc20, mints⟩
        refine ⟨_, BitVec.ofNat 32 s.timestamp, ⟨fits, ?_⟩, _,
          ⟨(), role, (), free, erc20, mints, rfl⟩, rfl⟩
        rw [BitVec.toNat_ofNat, Nat.mod_eq_of_lt fits]
    · intro e reverts
      cases cast : toUint 32 s.timestamp with
      | error e' =>
          rw [cast] at reverts
          cases reverts
          exact .inl (toUint_eq_error_iff.mp cast)
      | ok last =>
          refine .inr (error_of_mint role ?_)
          rw [cast] at reverts
          cases mints : Fei.mint env.fei s.fei env.this receiver (min individual.toNat buffer) with
          | error e' =>
              simp only [mints, bind, Except.bind] at reverts
              cases reverts
              rfl
          | ok fei =>
              simp only [mints, bind, Except.bind, pure, Except.pure] at reverts
              cases reverts

/-- Account 7 takes the 200 that it has left, out of the 900 that all share. -/
theorem mintMaxAllowableFei_exact_sample :
    ∃ s', step Sample.env Sample.reached (.mintMaxAllowableFei 7 7) = .ok s' ∧
      TookMaximum Sample.env Sample.reached s' 7 7 200 900 := by
  have own : Sample.reached.individualBuffer Sample.reached.timestamp 7 = .ok 200 := by
    decide +kernel
  have shared : Sample.reached.buffer Sample.reached.timestamp = .ok 900 := by decide +kernel
  have exact (receiver : Address) :=
    @mintMaxAllowableFei_exact Sample.env _ 7 receiver _ _ _ _ _ _ _ _ _ _ Sample.deploys _
      Sample.reached_eq rfl rfl own shared
  obtain ⟨took, _, succeeds⟩ := exact 7
  obtain ⟨s', succeeds⟩ := (succeeds (by decide) (by decide)).1.mpr
    ⟨by decide +kernel, rfl, _, rfl⟩
  exact ⟨s', succeeds, took s' succeeds⟩

end GlobalRateLimitedMinter

end FeiProtocol
