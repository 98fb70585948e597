import FeiProtocol.Math.ProRata
import FeiProtocol.Shutdown.Redeem.TribeRedeemer

/-!
# The redeemer as one pro-rata pool for each output token

For every output token, its balance and the redeem base form a `ProRata.Pool`.
A redemption redeems from all of them at once and somebody else's token call can
only donate (`Redemption.pool`, `Outside.pool`), so what holds of pools holds of
the redeemer:

* `redemption_fair`: a redemption pays its share of the start, plus at most one
  unit for each redemption before it; the ratio of balance to base never falls;
  splitting an amount pays no more.
* `redemption_never_blocks`: the base and the balances run out together.
-/

namespace FeiProtocol

open Evm ReentrancyGuard ProRata

namespace TribeRedeemer

variable {this : Address} {s s' s₀ : TribeRedeemerState} {sender receiver token : Address}
  {amountIn : UInt256}

/-- The pool of one output token. -/
def pool (this : Address) (s : TribeRedeemerState) (token : Address) : Pool :=
  ⟨s.ledger.balanceOf token this, s.redeemBase⟩

theorem amountOut_eq_share :
    amountOut this s amountIn token = (pool this s token).share amountIn.toNat := rfl

theorem Redemption.pool (redemption : Redemption this s s' sender receiver amountIn)
    (mem : token ∈ s.tokensReceived) :
    TribeRedeemer.pool this s' token =
      (TribeRedeemer.pool this s token).redeem amountIn.toNat := by
  have balance := redemption.balance token mem
  rw [amountOut_eq_share] at balance
  refine Pool.ext ?_ redemption.redeemBase
  show s'.ledger.balanceOf token this = s.ledger.balanceOf token this - _
  omega

theorem Outside.pool (outside : Outside this s s') (token : Address) :
    TribeRedeemer.pool this s' token = (TribeRedeemer.pool this s token).donate
      (s'.ledger.received this token - s.ledger.received this token) := by
  have balance := outside.balance token
  have le := outside.received_le token
  refine Pool.ext ?_ outside.redeemBase
  show s'.ledger.balanceOf token this = s.ledger.balanceOf token this + _
  omega

theorem ready_step (ready : Ready this s) {a : Action} (external : a.External this)
    (succeeds : step this s a = .ok s') : Ready this s' := by
  rcases step_cases ready external succeeds with ⟨_, _, _, redemption⟩ | ⟨_, _, _, _, outside⟩
  · exact redemption.ready
  · exact outside.ready

/-! ## Payouts along a run -/

/-- No token call of the action brings the redeemer output tokens. -/
def Action.Quiet (this : Address) (tokens : List Address) : Action → Prop
  | .redeem _ _ _ => True
  | .token _ c => ∀ token ∈ tokens, ¬ c.Credits token this

/-- After some number of redemptions, and nothing else, each pool still tracks
the pool it was at the start. -/
structure Drifted (this : Address) (s₀ s : TribeRedeemerState) : Prop where
  ready : Ready this s
  tokensReceived : s.tokensReceived = s₀.tokensReceived
  counted : s₀.events.length ≤ s.events.length
  tracks : ∀ token ∈ s₀.tokensReceived,
    Tracks (s.events.length - s₀.events.length) (pool this s₀ token) (pool this s token)

theorem Drifted.refl (ready : Ready this s₀) : Drifted this s₀ s₀ := by
  refine ⟨ready, rfl, Nat.le_refl _, fun token _ => ?_⟩
  rw [Nat.sub_self]
  exact Tracks.refl _

theorem Drifted.step (drifted : Drifted this s₀ s) {a : Action} (external : a.External this)
    (quiet : a.Quiet this s₀.tokensReceived) (succeeds : step this s a = .ok s') :
    Drifted this s₀ s' := by
  rcases step_cases drifted.ready external succeeds with
    ⟨_, _, amountIn, redemption⟩ | ⟨sender, c, rfl, performed, outside⟩
  · have counted := drifted.counted
    refine ⟨redemption.ready, redemption.tokensReceived.trans drifted.tokensReceived, ?_, ?_⟩
    · rw [redemption.events, List.length_append]
      exact Nat.le_add_right_of_le counted
    · intro token mem
      have here : token ∈ s.tokensReceived := drifted.tokensReceived ▸ mem
      have tracks := (drifted.tracks token mem).redeem (a := amountIn.toNat) redemption.le
        (Nat.pos_of_ne_zero (redemption.positive token here).2)
      rw [redemption.pool here, redemption.events, List.length_append, List.length_singleton,
        Nat.sub_add_comm counted]
      exact tracks
  · refine ⟨outside.ready, outside.tokensReceived.trans drifted.tokensReceived, ?_, ?_⟩
    · rw [outside.events]
      exact drifted.counted
    · intro token mem
      rw [outside.pool token, outside.events, Ledger.perform_received (quiet token mem) performed,
        Nat.sub_self]
      exact drifted.tracks token mem

theorem run_drifted (ready : Ready this s₀) {actions : List Action}
    (external : ∀ a ∈ actions, a.External this)
    (quiet : ∀ a ∈ actions, a.Quiet this s₀.tokensReceived) :
    Drifted this s₀ (run (step this) s₀ actions) := by
  refine run_invariant (I := Drifted this s₀)
    (A := fun a => a.External this ∧ a.Quiet this s₀.tokensReceived) ?_
    (Drifted.refl ready) fun a mem => ⟨external a mem, quiet a mem⟩
  intro s a s' drifted admissible succeeds
  exact drifted.step admissible.1 admissible.2 succeeds

/-- The redemption transfers `paid` of each output token to the receiver. -/
def Pays (this : Address) (s s' : TribeRedeemerState) (sender receiver : Address)
    (amountIn : UInt256) (paid : Address → Nat) : Prop :=
  s'.ledger.transfers = s.ledger.transfers ++
    ⟨this, s.redeemedToken, sender, this, amountIn.toNat⟩ ::
      s.tokensReceived.map fun token => ⟨this, token, this, receiver, paid token⟩

/-- **Order matters little**: after `k` redemptions, the next one pays at least
what it would have paid first, and at most `k` more. -/
theorem payout_bounds (ready : Ready this s₀) (start : 0 < s₀.redeemBase)
    {actions : List Action} (external : ∀ a ∈ actions, a.External this)
    (quiet : ∀ a ∈ actions, a.Quiet this s₀.tokensReceived)
    (reached : s = run (step this) s₀ actions)
    (next : Action.External this (.redeem sender receiver amountIn))
    (succeeds : redeem this s sender receiver amountIn = .ok s') :
    ∃ paid, Pays this s s' sender receiver amountIn paid ∧ ∀ token ∈ s₀.tokensReceived,
      amountIn.toNat * s₀.ledger.balanceOf token this / s₀.redeemBase ≤ paid token ∧
      paid token ≤ amountIn.toNat * s₀.ledger.balanceOf token this / s₀.redeemBase +
        (s.events.length - s₀.events.length) := by
  subst reached
  have drifted := run_drifted ready external quiet
  have redemption := redemption_of_redeem drifted.ready next succeeds
  refine ⟨_, redemption.transfers, fun token mem => ?_⟩
  have here := drifted.tokensReceived ▸ mem
  exact (drifted.tracks token mem).share_bounds redemption.le
    (Nat.pos_of_ne_zero (redemption.positive token here).2) start

/-! ## The ratio -/

/-- The base has not grown, and as long as some is left no pool's ratio has fallen. -/
structure RatioLe (this : Address) (s s' : TribeRedeemerState) : Prop where
  tokensReceived : s'.tokensReceived = s.tokensReceived
  base_le : s'.redeemBase ≤ s.redeemBase
  ratio_le : 0 < s'.redeemBase → ∀ token ∈ s.tokensReceived,
    (pool this s token).ratio ≤ (pool this s' token).ratio

theorem RatioLe.trans {s t u : TribeRedeemerState} (first : RatioLe this s t)
    (second : RatioLe this t u) : RatioLe this s u := by
  refine ⟨second.tokensReceived.trans first.tokensReceived,
    Nat.le_trans second.base_le first.base_le, fun left token mem => ?_⟩
  have middle := first.ratio_le (Nat.lt_of_lt_of_le left second.base_le) token mem
  exact le_trans middle (second.ratio_le left token (first.tokensReceived ▸ mem))

theorem ratioLe_step (ready : Ready this s) {a : Action} (external : a.External this)
    (succeeds : step this s a = .ok s') : RatioLe this s s' := by
  rcases step_cases ready external succeeds with
    ⟨_, _, amountIn, redemption⟩ | ⟨_, _, _, _, outside⟩
  · refine ⟨redemption.tokensReceived, ?_, fun left token mem => ?_⟩
    · rw [redemption.redeemBase]
      exact Nat.sub_le _ _
    · rw [redemption.pool mem]
      apply Pool.ratio_redeem
      rw [redemption.redeemBase] at left
      exact Nat.lt_of_sub_pos left
  · refine ⟨outside.tokensReceived, outside.redeemBase.le, fun _ token _ => ?_⟩
    rw [outside.pool token]
    exact Pool.ratio_donate _

theorem run_ratioLe (ready : Ready this s) {actions : List Action}
    (external : ∀ a ∈ actions, a.External this) :
    Ready this (run (step this) s actions) ∧ RatioLe this s (run (step this) s actions) := by
  refine run_relation (I := Ready this) (R := RatioLe this) (P := fun _ a => a.External this)
    (fun s => ⟨rfl, Nat.le_refl _, fun _ _ _ => le_refl _⟩) RatioLe.trans ?_ ready
    (along_of_forall external)
  intro s a s' ready external succeeds
  exact ⟨ready_step ready external succeeds, ratioLe_step ready external succeeds⟩

/-! ## Splitting an amount -/

/-- Redemptions one after another, each with its sender, receiver and amount. -/
def redeemEach (this : Address) (s : TribeRedeemerState)
    (calls : List (Address × Address × UInt256)) : Except Revert TribeRedeemerState :=
  calls.foldlM (fun s c => redeem this s c.1 c.2.1 c.2.2) s

/-- The amounts of a list of redemptions. -/
def amountsIn (calls : List (Address × Address × UInt256)) : List Nat :=
  calls.map fun c => c.2.2.toNat

/-- What leaves a pool is what the redeemer's own calls sent. -/
theorem Redemption.sent_add_balance (redemption : Redemption this s s' sender receiver amountIn)
    (mem : token ∈ s.tokensReceived) :
    s'.ledger.sent this token + s'.ledger.balanceOf token this =
      s.ledger.sent this token + s.ledger.balanceOf token this := by
  have balance := redemption.balance token mem
  have sent := redemption.sent token mem
  omega

theorem redeemEach_pool (ready : Ready this s) {calls : List (Address × Address × UInt256)}
    (external : ∀ c ∈ calls, c.1 ≠ this ∧ c.2.1 ≠ this)
    (succeeds : redeemEach this s calls = .ok s') (mem : token ∈ s.tokensReceived) :
    (pool this s token).Covers (amountsIn calls) ∧
      pool this s' token = (pool this s token).redeemAll (amountsIn calls) ∧
      s'.ledger.sent this token + s'.ledger.balanceOf token this =
        s.ledger.sent this token + s.ledger.balanceOf token this := by
  induction calls generalizing s with
  | nil =>
      rw [redeemEach, foldlM_nil_eq_ok_iff] at succeeds
      subst succeeds
      exact ⟨trivial, rfl, rfl⟩
  | cons c calls ih =>
      rw [redeemEach, foldlM_cons_eq_ok_iff] at succeeds
      obtain ⟨m, first, rest⟩ := succeeds
      have redemption := redemption_of_redeem ready (external c List.mem_cons_self) first
      obtain ⟨covers, last, kept⟩ := ih redemption.ready
        (fun d here => external d (List.mem_cons_of_mem _ here)) rest
        (redemption.tokensReceived ▸ mem)
      rw [redemption.pool mem] at covers last
      exact ⟨⟨redemption.le, Nat.pos_of_ne_zero (redemption.positive token mem).2, covers⟩,
        last, kept.trans (redemption.sent_add_balance mem)⟩

/-- **Splitting does not pay**: several redemptions in a row send no more of any
output token than one of their sum. -/
theorem sent_redeemEach_le (ready : Ready this s) {calls : List (Address × Address × UInt256)}
    (external : ∀ c ∈ calls, c.1 ≠ this ∧ c.2.1 ≠ this)
    (split : redeemEach this s calls = .ok s') {whole : TribeRedeemerState}
    (next : Action.External this (.redeem sender receiver amountIn))
    (sum : amountIn.toNat = (amountsIn calls).sum)
    (once : redeem this s sender receiver amountIn = .ok whole)
    (mem : token ∈ s.tokensReceived) :
    s'.ledger.sent this token ≤ whole.ledger.sent this token := by
  have redemption := redemption_of_redeem ready next once
  obtain ⟨covers, last, kept⟩ := redeemEach_pool ready external split mem
  have pos : 0 < (pool this s token).base := Nat.pos_of_ne_zero (redemption.positive token mem).2
  have less := covers.redeem_sum_le pos
  rw [← sum, ← redemption.pool mem, ← last] at less
  have less : whole.ledger.balanceOf token this ≤ s'.ledger.balanceOf token this := less
  have whole_kept := redemption.sent_add_balance mem
  omega

/-- **Fairness.** From any ready state, along any run of outside transactions:
each redemption pays its share of the start and at most one unit more for each
redemption before it, if nobody donates; the ratio of balance to base never
falls, also if somebody does; and splitting an amount never pays more. -/
theorem redemption_fair (ready : Ready this s₀) (start : 0 < s₀.redeemBase) :
    (∀ actions : List Action, (∀ a ∈ actions, a.External this) →
      (∀ a ∈ actions, a.Quiet this s₀.tokensReceived) →
      ∀ s, s = run (step this) s₀ actions → ∀ sender receiver amountIn s',
        Action.External this (.redeem sender receiver amountIn) →
        redeem this s sender receiver amountIn = .ok s' →
        ∃ paid, Pays this s s' sender receiver amountIn paid ∧ ∀ token ∈ s₀.tokensReceived,
          amountIn.toNat * s₀.ledger.balanceOf token this / s₀.redeemBase ≤ paid token ∧
          paid token ≤ amountIn.toNat * s₀.ledger.balanceOf token this / s₀.redeemBase +
            (s.events.length - s₀.events.length)) ∧
    (∀ before after : List Action, (∀ a ∈ before ++ after, a.External this) →
      0 < (run (step this) s₀ (before ++ after)).redeemBase → ∀ token ∈ s₀.tokensReceived,
        (pool this (run (step this) s₀ before) token).ratio ≤
          (pool this (run (step this) s₀ (before ++ after)) token).ratio) ∧
    (∀ actions : List Action, (∀ a ∈ actions, a.External this) →
      ∀ s, s = run (step this) s₀ actions → ∀ calls s',
        (∀ c ∈ calls, Action.External this (.redeem c.1 c.2.1 c.2.2)) →
        redeemEach this s calls = .ok s' → ∀ sender receiver amountIn whole,
        Action.External this (.redeem sender receiver amountIn) →
        amountIn.toNat = (amountsIn calls).sum →
        redeem this s sender receiver amountIn = .ok whole →
        ∀ token ∈ s₀.tokensReceived,
          s'.ledger.sent this token ≤ whole.ledger.sent this token) := by
  refine ⟨?_, ?_, ?_⟩
  · intro actions external quiet s reached sender receiver amountIn s' next succeeds
    exact payout_bounds ready start external quiet reached next succeeds
  · intro before after external left token mem
    obtain ⟨early, late⟩ := List.forall_mem_append.mp external
    obtain ⟨middle, first⟩ := run_ratioLe ready early
    rw [run_append] at left ⊢
    exact (run_ratioLe middle late).2.ratio_le left token (first.tokensReceived ▸ mem)
  · intro actions external s reached calls s' each split sender receiver amountIn whole next sum
      once token mem
    subst reached
    obtain ⟨middle, first⟩ := run_ratioLe ready external
    exact sent_redeemEach_le middle each split next sum once (first.tokensReceived ▸ mem)

/-- A redeemer of token 10 for tokens 11 and 12. User 1 has all of token 10. -/
def Sample.ledger : Ledger where
  erc20 t :=
    { balanceOf := fun a => if t = 10 then (if a = 1 then 100 else 0) else
        if a = 0xAA then 1000 else 0
      allowance := fun owner spender => if owner = 1 ∧ spender = 0xAA then 100 else 0
      totalSupply := 1000
      unlimited := false }
  transfers := []

def Sample.start : TribeRedeemerState := construct Sample.ledger 10 [11, 12] 100

theorem Sample.ready : Ready 0xAA Sample.start :=
  ready_construct 0xAA (by decide) (by decide) fun _ _ => rfl

/-- A redemption of 50 after one of 33, against its share of the start. -/
theorem redemption_fair_second :
    ∃ s', redeem 0xAA (run (step 0xAA) Sample.start [.redeem 1 2 33]) 1 3 50 = .ok s' ∧
      ∃ paid, Pays 0xAA (run (step 0xAA) Sample.start [.redeem 1 2 33]) s' 1 3 50 paid ∧
        ∀ token ∈ [11, 12], 500 ≤ paid token ∧ paid token ≤ 501 := by
  obtain ⟨s', succeeds⟩ := exists_ok_of_isOk
    (x := redeem 0xAA (run (step 0xAA) Sample.start [.redeem 1 2 33]) 1 3 50) (by decide +kernel)
  obtain ⟨paid, pays, bounds⟩ := (redemption_fair Sample.ready (by decide)).1
    [.redeem 1 2 33] (List.forall_mem_singleton.mpr (by simp [Action.External]))
    (List.forall_mem_singleton.mpr trivial) _ rfl 1 3 50 s' (by simp [Action.External]) succeeds
  have counted : (run (step 0xAA) Sample.start [.redeem 1 2 33]).events.length -
      Sample.start.events.length = 1 := by decide +kernel
  refine ⟨s', succeeds, paid, pays, fun token mem => ?_⟩
  have bound := bounds token mem
  have balance : Sample.start.ledger.balanceOf token 0xAA = 1000 := by
    rcases List.mem_pair.mp mem with rfl | rfl
    · rfl
    · rfl
  rw [counted, balance] at bound
  exact bound

/-! ## Exhaustion -/

/-- The base and what was taken in add up, and as long as base is left, so is
some of every output token. -/
structure Live (this : Address) (s₀ s : TribeRedeemerState) : Prop where
  ready : Ready this s
  tokensReceived : s.tokensReceived = s₀.tokensReceived
  taken : s.redeemBase + takenIn this s = s₀.redeemBase + takenIn this s₀
  positive : 0 < s.redeemBase → ∀ token ∈ s₀.tokensReceived, 0 < s.ledger.balanceOf token this

theorem Live.step (live : Live this s₀ s) {a : Action} (external : a.External this)
    (succeeds : step this s a = .ok s') : Live this s₀ s' := by
  rcases step_cases live.ready external succeeds with
    ⟨_, _, amountIn, redemption⟩ | ⟨_, _, _, _, outside⟩
  · have taken := live.taken
    have le := redemption.le
    refine ⟨redemption.ready, redemption.tokensReceived.trans live.tokensReceived, ?_, ?_⟩
    · rw [redemption.redeemBase, redemption.takenIn]
      omega
    · intro left token mem
      rw [redemption.redeemBase] at left
      have less : amountIn.toNat < s.redeemBase := Nat.lt_of_sub_pos left
      have positive := live.positive (Nat.zero_lt_of_lt less) token mem
      have balance := redemption.balance token (live.tokensReceived ▸ mem)
      have short := Pool.share_lt_balance (p := pool this s token) less positive
      rw [← amountOut_eq_share] at short
      have short : amountOut this s amountIn token < s.ledger.balanceOf token this := short
      omega
  · refine ⟨outside.ready, outside.tokensReceived.trans live.tokensReceived, ?_, ?_⟩
    · rw [outside.redeemBase, outside.takenIn]
      exact live.taken
    · intro left token mem
      rw [outside.redeemBase] at left
      have positive := live.positive left token mem
      have balance := outside.balance token
      have grows := outside.received_le token
      omega

theorem run_live (live : Live this s₀ s₀) {actions : List Action}
    (external : ∀ a ∈ actions, a.External this) :
    Live this s₀ (run (step this) s₀ actions) :=
  run_invariant (fun live external succeeds => Live.step live external succeeds) live external

/-- The redemption that takes the last of the base takes the last of everything. -/
theorem Redemption.exhausts (redemption : Redemption this s s' sender receiver amountIn)
    (last : s'.redeemBase = 0) (mem : token ∈ s.tokensReceived) :
    s'.ledger.balanceOf token this = 0 := by
  have le := redemption.le
  rw [redemption.redeemBase] at last
  have all : amountIn.toNat = (TribeRedeemer.pool this s token).base := by
    show amountIn.toNat = s.redeemBase
    omega
  have balance := redemption.balance token mem
  rw [amountOut_eq_share, all, Pool.share_base
    (Nat.pos_of_ne_zero (redemption.positive token mem).2)] at balance
  have balance : s'.ledger.balanceOf token this + s.ledger.balanceOf token this =
    s.ledger.balanceOf token this := balance
  omega

/-- **The redeemer never blocks and exhausts exactly.** A redemption that succeeds takes the amount
and pays the share of each balance. -/
theorem redemption_never_blocks (ready : Ready this s₀)
    (funded : ∀ token ∈ s₀.tokensReceived, 0 < s₀.ledger.balanceOf token this)
    {actions : List Action} (external : ∀ a ∈ actions, a.External this)
    (reached : s = run (step this) s₀ actions) :
    s.redeemBase + takenIn this s = s₀.redeemBase + takenIn this s₀ ∧
    (0 < s.redeemBase → ∀ token ∈ s₀.tokensReceived, 0 < s.ledger.balanceOf token this) ∧
    (0 < s.redeemBase → ∀ sender receiver amountIn,
      Action.External this (.redeem sender receiver amountIn) →
      amountIn.toNat ≤ s.redeemBase →
      amountIn.toNat ≤ s.ledger.balanceOf s.redeemedToken sender →
      amountIn.toNat ≤ s.ledger.allowance s.redeemedToken sender this →
      (∀ token ∈ s₀.tokensReceived,
        amountIn.toNat * s.ledger.balanceOf token this < 2 ^ 256) →
      ∃ s', redeem this s sender receiver amountIn = .ok s') ∧
    ∀ sender receiver amountIn s', Action.External this (.redeem sender receiver amountIn) →
      redeem this s sender receiver amountIn = .ok s' →
      Redemption this s s' sender receiver amountIn ∧
        (s'.redeemBase = 0 → ∀ token ∈ s₀.tokensReceived, s'.ledger.balanceOf token this = 0) := by
  subst reached
  have live := run_live ⟨ready, rfl, rfl, fun _ => funded⟩ external
  refine ⟨live.taken, live.positive, ?_, ?_⟩
  · intro left sender receiver amountIn next le holds approved fits
    apply redeem_succeeds live.ready next.2 holds approved le
    intro token mem
    rw [live.tokensReceived] at mem
    exact ⟨Nat.ne_of_gt (live.positive left token mem), fits token mem, Nat.ne_of_gt left⟩
  · intro sender receiver amountIn s' next succeeds
    have redemption := redemption_of_redeem live.ready next succeeds
    exact ⟨redemption, fun last token mem =>
      redemption.exhausts last (live.tokensReceived ▸ mem)⟩

/-- After a redemption of 33 the sample still pays everybody, and adds up. -/
theorem redemption_never_blocks_sample :
    (run (step 0xAA) Sample.start [.redeem 1 2 33]).redeemBase +
        takenIn 0xAA (run (step 0xAA) Sample.start [.redeem 1 2 33]) = 100 + 0 ∧
      ∃ s', redeem 0xAA (run (step 0xAA) Sample.start [.redeem 1 2 33]) 1 3 67 = .ok s' := by
  have never := redemption_never_blocks (s := run (step 0xAA) Sample.start [.redeem 1 2 33])
    Sample.ready (fun token mem => ?_)
    (List.forall_mem_singleton.mpr (by simp [Action.External])) rfl
  · refine ⟨never.1, never.2.2.1 (by decide +kernel) 1 3 67 (by simp [Action.External])
      (by decide +kernel) (by decide +kernel) (by decide +kernel) ?_⟩
    intro token mem
    rcases List.mem_pair.mp mem with rfl | rfl
    · decide +kernel
    · decide +kernel
  · rcases List.mem_pair.mp mem with rfl | rfl
    · decide
    · decide

end TribeRedeemer

end FeiProtocol
