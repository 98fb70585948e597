import FeiProtocol.Peg.NonCustodialPSM

/-!
# What `NonCustodialPSM` says it can mint

`getMaxMintAmountOut` adds the FEI that the module holds and its own buffer at the
`GlobalRateLimitedMinter`. A mint beyond what is held draws the difference from that buffer and
from the one that all minters share.

* `hits_deplete_iff`: which draws the two buffers refuse.
* `hits_mint_iff`: which mints a rate limit stops.
* `getMaxMintAmountOut_exact_iff`: the quote is right about an amount exactly if the amount is not
  between what is held with the shared buffer and what is held with the module's own.
-/

namespace FeiProtocol

open Evm

/-- The messages of the rate limits. -/
def rateLimitMessages : List String :=
  ["RateLimited: no rate limit buffer", "RateLimited: rate limit hit",
    "MultiRateLimited: no rate limit buffer", "MultiRateLimited: rate limit hit"]

/-- The call is stopped by a rate limit. -/
def HitsRateLimit {α : Type} (outcome : Except Revert α) : Prop :=
  ∃ message ∈ rateLimitMessages, outcome = .error (.reason message)

section Outcomes

variable {α β : Type} {x : Except Revert α} {f : α → Except Revert β} {a : α}

theorem not_hits_ok : ¬ HitsRateLimit (.ok a : Except Revert α) := by
  intro given
  rcases given with ⟨_, _, same⟩
  cases same

theorem not_hits_pure : ¬ HitsRateLimit (pure a : Except Revert α) := not_hits_ok

theorem not_hits_panic {code : Nat} : ¬ HitsRateLimit (.error (.panic code) : Except Revert α) := by
  intro given
  rcases given with ⟨_, _, same⟩
  cases same

theorem hits_reason_iff {message : String} :
    HitsRateLimit (.error (.reason message) : Except Revert α) ↔ message ∈ rateLimitMessages := by
  constructor
  · intro given
    rcases given with ⟨_, mem, same⟩
    cases same
    exact mem
  · intro mem
    exact ⟨message, mem, rfl⟩

theorem hits_bind_iff :
    HitsRateLimit (x >>= f) ↔ HitsRateLimit x ∨ ∃ v, x = .ok v ∧ HitsRateLimit (f v) := by
  cases x with
  | error e =>
      have same : (Except.error e >>= f) = .error e := rfl
      rw [same]
      cases e with
      | panic code => simp [not_hits_panic]
      | reason message => simp [hits_reason_iff]
  | ok v =>
      have same : (Except.ok v >>= f) = f v := rfl
      rw [same]
      simp [not_hits_ok]

/-- After a call that succeeds. -/
theorem hits_after (succeeds : x = .ok a) : HitsRateLimit (x >>= f) ↔ HitsRateLimit (f a) := by
  rw [succeeds]
  exact Iff.rfl

theorem hits_require_iff {cond : Prop} [Decidable cond] {message : String} :
    HitsRateLimit (require cond message) ↔ ¬ cond ∧ message ∈ rateLimitMessages := by
  unfold require
  split
  · rename_i holds
    simp [not_hits_ok, holds]
  · rename_i fails
    simp [hits_reason_iff, fails]

/-- Before calls that no rate limit stops. -/
theorem hits_before (rest : ∀ v, ¬ HitsRateLimit (f v)) :
    HitsRateLimit (x >>= f) ↔ HitsRateLimit x := by
  rw [hits_bind_iff]
  exact or_iff_left fun ⟨v, _, hits⟩ => rest v hits

theorem not_hits_bind (first : ¬ HitsRateLimit x) (rest : ∀ v, ¬ HitsRateLimit (f v)) :
    ¬ HitsRateLimit (x >>= f) := by
  rw [hits_bind_iff]
  intro given
  rcases given with hits | ⟨v, _, hits⟩
  · exact first hits
  · exact rest v hits

/-- A condition of a rate limit. -/
theorem hits_limit_iff {cond : Prop} [Decidable cond] {message : String}
    {g : Unit → Except Revert β} (mem : message ∈ rateLimitMessages) :
    HitsRateLimit (require cond message >>= g) ↔ ¬ cond ∨ HitsRateLimit (g ()) := by
  rw [hits_bind_iff, hits_require_iff]
  simp only [mem, and_true, require_eq_ok_iff]
  constructor
  · intro given
    rcases given with fails | ⟨_, _, hits⟩
    · exact .inl fails
    · exact .inr hits
  · intro given
    rcases given with fails | hits
    · exact .inl fails
    · by_cases holds : cond
      · exact .inr ⟨(), holds, hits⟩
      · exact .inl holds

theorem not_hits_checked {n : Nat} : ¬ HitsRateLimit (checked n) := by
  unfold checked
  split
  · exact not_hits_ok
  · exact not_hits_panic

theorem not_hits_checkedSub {m n : Nat} : ¬ HitsRateLimit (checkedSub m n) := by
  unfold checkedSub
  split
  · exact not_hits_ok
  · exact not_hits_panic

end Outcomes

/-! ## The draw -/

namespace RateLimited

theorem not_hits_buffer (r : RateLimited) (timestamp : Nat) :
    ¬ HitsRateLimit (r.buffer timestamp) := by
  unfold buffer
  exact not_hits_bind not_hits_checkedSub fun _ => not_hits_bind not_hits_checked fun _ =>
    not_hits_bind not_hits_checked fun _ => not_hits_ok

theorem not_hits_replenishBuffer (r : RateLimited) (timestamp amount : Nat) :
    ¬ HitsRateLimit (r._replenishBuffer timestamp amount) := by
  unfold _replenishBuffer
  refine not_hits_bind (not_hits_buffer r timestamp) fun newBuffer => ?_
  dsimp only
  split
  · exact not_hits_ok
  · exact not_hits_bind not_hits_checked fun _ => not_hits_ok

end RateLimited

theorem not_hits_toUint (n : Nat) : ¬ HitsRateLimit (toUint 32 n) := by
  unfold toUint
  refine not_hits_bind ?_ fun _ => not_hits_ok
  rw [hits_require_iff]
  have other : toString "SafeCast: value doesn't fit in " ++ toString 32 ++ toString " bits" ∉
    rateLimitMessages := by decide +kernel
  exact fun both => other both.2

namespace RateLimited

variable {r : RateLimited} {timestamp amount newBuffer : Nat}

theorem hits_depleteBuffer_iff (whole : r.doPartialAction = false)
    (shared : r.buffer timestamp = .ok newBuffer) :
    HitsRateLimit (r._depleteBuffer timestamp amount) ↔ ¬ (newBuffer ≠ 0 ∧ amount ≤ newBuffer) := by
  have used : (if r.doPartialAction ∧ amount > newBuffer then newBuffer else amount) = amount := by
    simp only [whole, Bool.false_eq_true, false_and, if_false]
  unfold _depleteBuffer
  rw [hits_after shared]
  dsimp only
  rw [used, hits_limit_iff (by decide), hits_limit_iff (by decide), not_and_or]
  exact or_congr_right (or_iff_left (not_hits_bind not_hits_checkedSub fun _ => not_hits_ok))

end RateLimited

namespace MultiRateLimited

variable {m : MultiRateLimited} {timestamp amount newBuffer : Nat} {a : Address}
  {buffered : BitVec 112}

/-- **The draw.** A rate limit stops it unless both buffers have something and the amount. -/
theorem hits_deplete_iff (whole : m.doPartialAction = false)
    (shared : m.buffer timestamp = .ok newBuffer)
    (own : m.individualBuffer timestamp a = .ok buffered) :
    HitsRateLimit (m._depleteIndividualBuffer timestamp a amount) ↔
      ¬ ((newBuffer ≠ 0 ∧ amount ≤ newBuffer) ∧
        buffered.toNat ≠ 0 ∧ amount ≤ buffered.toNat) := by
  unfold _depleteIndividualBuffer
  by_cases first : newBuffer ≠ 0 ∧ amount ≤ newBuffer
  · rw [hits_after (RateLimited.depleteBuffer_of_covered whole shared first.1 first.2)]
    dsimp only
    have own' : MultiRateLimited.individualBuffer { m with
      bufferStored := newBuffer - amount, lastBufferUsedTime := timestamp } timestamp a =
        .ok buffered := own
    rw [hits_after own', hits_limit_iff (by decide), hits_limit_iff (by decide),
      and_iff_right first, not_and_or]
    refine or_congr_right (or_iff_left (not_hits_bind (not_hits_toUint timestamp) fun _ => ?_))
    exact not_hits_bind not_hits_checkedSub fun _ => not_hits_ok
  · simp only [first, false_and, not_false_eq_true, iff_true]
    exact hits_bind_iff.mpr (.inl ((RateLimited.hits_depleteBuffer_iff whole shared).mpr first))

end MultiRateLimited

/-! ## The mint -/

namespace NonCustodialPSM

open CoreRef ReentrancyGuard

variable {W : Type} {env : NonCustodialPSMEnv W} {s : NonCustodialPSMState W}
  {minter : GlobalRateLimitedMinterEnv} {minterOf : W → GlobalRateLimitedMinterState}
  {sender receiver : Address} {amountIn minFeiAmountOut : UInt256} {amountFeiOut : Nat} {w : W}

/-- The world of the module has the minter in it. The oracle, the underlying token and the deposit
leave FEI and the minter alone, a transfer of FEI leaves the minter alone, and FEI has none of the
messages of the rate limits. -/
structure Linked (env : NonCustodialPSMEnv W) (minter : GlobalRateLimitedMinterEnv)
    (minterOf : W → GlobalRateLimitedMinterState) : Prop where
  balance : ∀ w account, env.feiBalanceOf w account = Fei.balanceOf (minterOf w).fei account
  buffered : ∀ w account, env.individualBuffer w minter.this account =
    BitVec.toNat <$> (minterOf w).individualBuffer (minterOf w).timestamp account
  mints : ∀ w receiver amount e, env.rateLimitedMint w minter.this receiver amount = .error e ↔
    GlobalRateLimitedMinter.mint minter (minterOf w) env.this receiver amount = .error e
  update : ∀ w oracle w', env.update w oracle = .ok w' → minterOf w' = minterOf w
  underlying : ∀ w src dst amount w', env.underlyingTransferFrom w src dst amount = .ok w' →
    minterOf w' = minterOf w
  deposit : ∀ w pcvDeposit w', env.deposit w pcvDeposit = .ok w' → minterOf w' = minterOf w
  transfer : ∀ w receiver amount w', env.feiTransfer w receiver amount = .ok w' →
    (minterOf w').toMultiRateLimited = (minterOf w).toMultiRateLimited ∧
      (minterOf w').timestamp = (minterOf w).timestamp ∧
      (minterOf w')._paused = (minterOf w)._paused
  silent : ∀ fei receiver amount,
    ¬ HitsRateLimit (Fei.mint minter.fei fei minter.this receiver amount)

/-- What of a mint's output is not held. -/
def drawn (env : NonCustodialPSMEnv W) (w : W) (amountFeiOut : Nat) : Nat :=
  amountFeiOut - min (env.feiBalanceOf w env.this) amountFeiOut

/-- A mint whose output is `amountFeiOut` has been paid for, and the FEI that is held has been
sent: what is left is to draw the rest, in world `w`. -/
structure Comes (env : NonCustodialPSMEnv W) (s : NonCustodialPSMState W)
    (sender receiver : Address) (amountIn minFeiAmountOut : UInt256) (amountFeiOut : Nat) (w : W) :
    Prop where
  idle : s._status ≠ _ENTERED
  unpaused : s._paused = false
  mintable : s.mintPaused = false
  paid : ∃ u taken deposited, env.update s.world s.oracle = .ok u ∧
    _getMintAmountOut env { s with world := u } amountIn.toNat = .ok amountFeiOut ∧
    minFeiAmountOut.toNat ≤ amountFeiOut ∧
    env.underlyingTransferFrom u sender s.pcvDeposit amountIn.toNat = .ok taken ∧
    env.deposit taken s.pcvDeposit = .ok deposited ∧
    (if min (env.feiBalanceOf deposited env.this) amountFeiOut ≠ 0 then
      env.feiTransfer deposited receiver (min (env.feiBalanceOf deposited env.this) amountFeiOut)
      else .ok deposited) = .ok w

/-- Being paid for a mint leaves the minter alone. -/
theorem Linked.deposited (linked : Linked env minter minterOf) {world u taken deposited : W}
    {oracle sender pcvDeposit : Address} {amount : Nat} (updates : env.update world oracle = .ok u)
    (takes : env.underlyingTransferFrom u sender pcvDeposit amount = .ok taken)
    (deposits : env.deposit taken pcvDeposit = .ok deposited) :
    minterOf deposited = minterOf world :=
  calc minterOf deposited
    _ = minterOf taken := linked.deposit _ _ _ deposits
    _ = minterOf u := linked.underlying _ _ _ _ _ takes
    _ = minterOf world := linked.update _ _ _ updates

/-- Up to the draw, the minter and the module's FEI are what they were before the mint. -/
theorem Comes.kept (linked : Linked env minter minterOf)
    (comes : Comes env s sender receiver amountIn minFeiAmountOut amountFeiOut w) :
    (minterOf w).toMultiRateLimited = (minterOf s.world).toMultiRateLimited ∧
      (minterOf w).timestamp = (minterOf s.world).timestamp ∧
      (minterOf w)._paused = (minterOf s.world)._paused := by
  obtain ⟨u, taken, deposited, updates, _, _, takes, deposits, sends⟩ := comes.paid
  have same := linked.deposited updates takes deposits
  split at sends
  · have kept := linked.transfer _ _ _ _ sends
    rw [same] at kept
    exact kept
  · cases sends
    rw [same]
    exact ⟨rfl, rfl, rfl⟩

/-- **Which mints a rate limit stops**: those whose draw it refuses. -/
theorem hits_mint_iff (linked : Linked env minter minterOf)
    (registered : s.rateLimitedMinter = minter.this)
    (comes : Comes env s sender receiver amountIn minFeiAmountOut amountFeiOut w) :
    HitsRateLimit (mint env s sender receiver amountIn minFeiAmountOut) ↔
      drawn env s.world amountFeiOut ≠ 0 ∧ HitsRateLimit (GlobalRateLimitedMinter.mint minter
        (minterOf w) env.this receiver (drawn env s.world amountFeiOut)) := by
  obtain ⟨u, taken, deposited, updates, computes, enough, takes, deposits, sends⟩ := comes.paid
  have same := linked.deposited updates takes deposits
  have held : env.feiBalanceOf deposited env.this = env.feiBalanceOf s.world env.this := by
    rw [linked.balance, linked.balance, same]
  have rest : checkedSub amountFeiOut (min (env.feiBalanceOf deposited env.this) amountFeiOut) =
      .ok (drawn env s.world amountFeiOut) := by
    rw [checkedSub_eq_ok_iff, held]
    exact ⟨Nat.min_le_right _ _, rfl⟩
  have draws : ∀ amount, HitsRateLimit (env.rateLimitedMint w minter.this receiver amount) ↔
      HitsRateLimit (GlobalRateLimitedMinter.mint minter (minterOf w) env.this receiver amount) :=
    fun amount => exists_congr fun message => and_congr_right fun _ =>
      linked.mints w receiver amount _
  have updated : updateOracle env (ReentrancyGuard.withStatus s _ENTERED) =
      .ok { s with _status := _ENTERED, world := u } := by
    rw [updateOracle, bind_eq_ok_iff]
    exact ⟨u, updates, rfl⟩
  have computes : _getMintAmountOut env { s with _status := _ENTERED, world := u } amountIn.toNat =
    .ok amountFeiOut := computes
  have idle : status s ≠ _ENTERED := comes.idle
  have unpaused : Pausable.paused (ReentrancyGuard.withStatus s _ENTERED) = false := comes.unpaused
  have mintable : (ReentrancyGuard.withStatus s _ENTERED).mintPaused = false := comes.mintable
  rw [mint, nonReentrant, hits_after (a := ()) (require_eq_ok_iff.mpr idle),
    hits_before fun _ => not_hits_pure, _mint,
    hits_after (a := ()) (whenNotPaused_eq_ok_iff.mpr unpaused),
    hits_after (a := ()) (require_eq_ok_iff.mpr mintable), hits_after updated]
  dsimp only
  rw [hits_after computes, hits_after (a := ()) (require_eq_ok_iff.mpr enough), hits_after takes,
    hits_after deposits, hits_after rest, hits_after sends, hits_before fun _ => not_hits_bind
    (RateLimited.not_hits_replenishBuffer _ _ _) fun _ => not_hits_pure, registered]
  split
  · rename_i some
    rw [draws]
    exact (and_iff_right some).symm
  · rename_i none
    exact iff_of_false not_hits_ok fun both => none both.1

theorem not_hits_mintFei (linked : Linked env minter minterOf) (fei : FeiState)
    (receiver : Address) (amount : Nat) :
    ¬ HitsRateLimit (_mintFei minter.fei minter.this fei receiver amount) := by
  unfold _mintFei
  split
  · exact linked.silent fei receiver amount
  · exact not_hits_ok

/-- The minter stops a mint by a rate limit if the draw is refused. -/
theorem hits_minter_iff (linked : Linked env minter minterOf) {m : GlobalRateLimitedMinterState}
    {amount : Nat} (unpaused : m._paused = false) :
    HitsRateLimit (GlobalRateLimitedMinter.mint minter m sender receiver amount) ↔
      HitsRateLimit (m._depleteIndividualBuffer m.timestamp sender amount) := by
  have unpaused : Pausable.paused m = false := unpaused
  rw [GlobalRateLimitedMinter.mint, hits_after (a := ()) (whenNotPaused_eq_ok_iff.mpr unpaused)]
  exact hits_before fun _ => not_hits_bind (not_hits_mintFei linked _ _ _) fun _ => not_hits_ok

/-- **The quote.** In every state of the minter, a mint with output `amountFeiOut` that has come
to the draw passes the rate limits exactly when the quote allows it, if and only if the amount is
within what is held and the shared buffer, or beyond the quote. -/
theorem getMaxMintAmountOut_exact_iff (linked : Linked env minter minterOf) {timestamp : Nat}
    {fei : FeiState} {globalMax perAddress maxPerAddress maxCap globalCap : UInt256}
    {m₀ : GlobalRateLimitedMinterState} (positive : 0 < timestamp)
    (deploys : GlobalRateLimitedMinter.construct minter timestamp fei globalMax perAddress
      maxPerAddress maxCap globalCap = .ok m₀) {history : List GlobalRateLimitedMinter.Action}
    (reached : minterOf s.world = run (GlobalRateLimitedMinter.step minter) m₀ history)
    (registered : s.rateLimitedMinter = minter.this)
    (unpaused : (minterOf s.world)._paused = false)
    (comes : Comes env s sender receiver amountIn minFeiAmountOut amountFeiOut w)
    {quote buffer : Nat} (quoted : getMaxMintAmountOut env s = .ok quote)
    (shared : (minterOf s.world).buffer (minterOf s.world).timestamp = .ok buffer) :
    (¬ HitsRateLimit (mint env s sender receiver amountIn minFeiAmountOut) ↔
        amountFeiOut ≤ quote) ↔
      amountFeiOut ≤ env.feiBalanceOf s.world env.this + buffer ∨ quote < amountFeiOut := by
  have whole : (minterOf s.world).doPartialAction = false := by
    rw [reached]
    exact (GlobalRateLimitedMinter.run_sound
      (GlobalRateLimitedMinter.sound_of_construct deploys positive) history).whole
  simp only [getMaxMintAmountOut, bind_eq_ok_iff, checkedAdd_eq_ok_iff] at quoted
  obtain ⟨own, gets, _, sum⟩ := quoted
  rw [registered, linked.buffered, map_eq_ok_iff] at gets
  obtain ⟨buffered, gets, value⟩ := gets
  subst value
  subst sum
  obtain ⟨kept, clock, flag⟩ := comes.kept linked
  have draws : HitsRateLimit (GlobalRateLimitedMinter.mint minter (minterOf w) env.this receiver
      (drawn env s.world amountFeiOut)) ↔
      ¬ ((buffer ≠ 0 ∧ drawn env s.world amountFeiOut ≤ buffer) ∧
        buffered.toNat ≠ 0 ∧ drawn env s.world amountFeiOut ≤ buffered.toNat) := by
    rw [hits_minter_iff linked (flag.trans unpaused), kept, clock]
    exact MultiRateLimited.hits_deplete_iff whole shared gets
  rw [hits_mint_iff linked registered comes, draws, drawn]
  omega

/-- The module is linked to the minter it is connected to. -/
theorem linked_connected (minter : GlobalRateLimitedMinterEnv) (this underlyingToken : Address)
    (answer : Decimal.D256 × Bool) (silent : ∀ fei receiver amount,
      ¬ HitsRateLimit (Fei.mint minter.fei fei minter.this receiver amount)) :
    Linked (connected minter this underlyingToken answer) minter World.minter where
  balance _ _ := rfl
  buffered _ _ := rfl
  mints w receiver amount e := by
    have passes : (require (minter.this = minter.this) "no such minter") = .ok () :=
      require_eq_ok_iff.mpr rfl
    have calls : (connected minter this underlyingToken answer).rateLimitedMint w minter.this
        receiver amount = (GlobalRateLimitedMinter.mint minter w.minter this receiver amount >>=
          fun m => pure { w with minter := m }) := by
      change (require (minter.this = minter.this) "no such minter" >>= fun _ => _) = _
      rw [passes]
      rfl
    have caller : (connected minter this underlyingToken answer).this = this := rfl
    rw [calls, caller]
    cases GlobalRateLimitedMinter.mint minter w.minter this receiver amount with
    | error e' =>
        have stops : (Except.error e' >>= fun m : GlobalRateLimitedMinterState =>
          (pure { w with minter := m } : Except Revert World)) = .error e' := rfl
        rw [stops, Except.error.injEq, Except.error.injEq]
    | ok m => exact iff_of_false nofun nofun
  update _ _ _ updates := by
    cases updates
    rfl
  underlying _ _ _ _ _ takes := by
    obtain ⟨ledger, _, same⟩ := bind_eq_ok_iff.mp takes
    cases same
    rfl
  deposit _ _ _ deposits := by
    cases deposits
    rfl
  transfer _ _ _ _ sends := by
    obtain ⟨fei, _, same⟩ := bind_eq_ok_iff.mp sends
    cases same
    exact ⟨rfl, rfl, rfl⟩
  silent := silent

end NonCustodialPSM

namespace NonCustodialPSM.Sample

/-- The module may mint 400, but another minter has taken 800 of the 1000 that all may. -/
def others : List GlobalRateLimitedMinter.Action :=
  [.configure 1 (.addAddress 0xBB 5 400), .configure 1 (.addAddress 8 50 900), .mint 8 8 800]

def crowded : NonCustodialPSMState World :=
  { start with
    world :=
      { minter := run (GlobalRateLimitedMinter.step GlobalRateLimitedMinter.Sample.env)
          GlobalRateLimitedMinter.Sample.start others
        ledger := world.ledger } }

theorem linked : Linked env GlobalRateLimitedMinter.Sample.env World.minter := by
  refine linked_connected _ _ _ _ fun fei receiver amount => ?_
  unfold Fei.mint CoreRef.onlyMinter CoreRef.whenNotPaused
  refine not_hits_bind ?_ fun _ => not_hits_bind ?_ fun _ => not_hits_bind
    (not_hits_bind ?_ fun _ => not_hits_bind not_hits_checked fun _ => not_hits_pure)
    fun _ => not_hits_pure
  · exact fun hits => absurd (hits_require_iff.mp hits).2 (by decide)
  · exact fun hits => absurd (hits_require_iff.mp hits).2 (by decide)
  · exact fun hits => absurd (hits_require_iff.mp hits).2 (by decide)

end NonCustodialPSM.Sample

namespace NonCustodialPSM

/-- A mint of 150 passes, as the quote of 400 says. -/
theorem getMaxMintAmountOut_sample :
    ¬ HitsRateLimit (mint Sample.env Sample.crowded 6 6 150 0) := by
  obtain ⟨taken, takes⟩ := exists_ok_of_isOk (x := Sample.env.underlyingTransferFrom
    Sample.crowded.world 6 30 150) (by decide +kernel)
  have nothing : Sample.env.feiBalanceOf taken Sample.env.this = 0 := by
    rw [Sample.linked.balance, Sample.linked.underlying _ _ _ _ _ takes]
    decide +kernel
  have comes : Comes Sample.env Sample.crowded 6 6 150 0 150 taken := by
    refine ⟨by decide, rfl, rfl, Sample.crowded.world, taken, taken, rfl, by decide +kernel,
      by decide, takes, rfl, ?_⟩
    rw [nothing]
    rfl
  have quoted : getMaxMintAmountOut Sample.env Sample.crowded = .ok 400 := by decide +kernel
  have shared : Sample.crowded.world.minter.buffer Sample.crowded.world.minter.timestamp =
    .ok 200 := by decide +kernel
  have exact := getMaxMintAmountOut_exact_iff Sample.linked (by decide)
    GlobalRateLimitedMinter.Sample.deploys (s := Sample.crowded) rfl rfl
    (by decide +kernel) comes quoted shared
  exact (exact.mpr (.inl (by decide +kernel))).mpr (by decide)

/-- A mint of 300 does not, as the other minters have left only 200. -/
theorem getMaxMintAmountOut_exceeded :
    getMaxMintAmountOut Sample.env Sample.crowded = .ok 400 ∧
    mint Sample.env Sample.crowded 6 6 300 0 = .error (.reason "RateLimited: rate limit hit") :=
  ⟨by decide +kernel, rfl⟩

end NonCustodialPSM

end FeiProtocol
