import FeiProtocol.Oracle.CollateralizationOracleIndexes

/-!
# What `pcvStats` of `CollateralizationOracle` returns

The value and the protocol's FEI are sums over the set of the deposits that are registered,
in which each deposit counts once, at the price of the token under which it is.

* `Reports`: the results, by the set of deposits, their tokens and their oracles.
* `pcvStats_eq_ok_iff`: `pcvStats` computes them.
* `indexes_consistent`: the indexes in every state, and what the results depend on.
-/

namespace FeiProtocol

open Evm

namespace CollateralizationOracle

open CoreRef Decimal EnumerableSet

/-! ## Results -/

section Reports

variable (reading : PcvReading)

def balance (d : Address) : Nat :=
  match reading.resistantBalanceAndFei d with
  | .ok (_depositBalance, _) => _depositBalance
  | .error _ => 0

def protocolFei (d : Address) : Nat :=
  match reading.resistantBalanceAndFei d with
  | .ok (_, _depositFei) => _depositFei
  | .error _ => 0

def price (oracle : Address) : Nat :=
  match reading.read oracle with
  | .ok (_oraclePrice, _) => _oraclePrice.value
  | .error _ => 0

def valid (oracle : Address) : Bool :=
  match reading.read oracle with
  | .ok (_, _oracleValid) => _oracleValid
  | .error _ => false

/-- What an amount of a token is worth. -/
def worth (oracle : Address) (amount : Nat) : Nat := price reading oracle * amount / BASE

/-- An amount of a token can be priced. -/
def Priced (oracle : Address) (amount : Nat) : Prop :=
  amount < 2 ^ 256 ∧ (amount ≠ 0 → (reading.read oracle).isOk ∧
    price reading oracle * amount < 2 ^ 256)

variable (deposits : Finset Address) (token oracle : Address → Address)

/-- The balance of all deposits that report in token `t`. -/
def held (t : Address) : Nat := ∑ d ∈ deposits with token d = t, balance reading d

/-- The results for a set of deposits, their tokens and the oracles of these. -/
structure Reports (paused : Bool) (stats : PcvStats) : Prop where
  answers : ∀ d ∈ deposits, (reading.resistantBalanceAndFei d).isOk
  priced : ∀ t ∈ deposits.image token, Priced reading (oracle t) (held reading deposits token t)
  value : stats.protocolControlledValue =
    ∑ t ∈ deposits.image token, worth reading (oracle t) (held reading deposits token t)
  value_lt : stats.protocolControlledValue < 2 ^ 255
  fei_lt : ∑ d ∈ deposits, protocolFei reading d < 2 ^ 256
  circulating : stats.userCirculatingFei + ∑ d ∈ deposits, protocolFei reading d =
    reading.feiTotalSupply
  circulating_lt : stats.userCirculatingFei < 2 ^ 255
  equity : stats.protocolEquity = stats.protocolControlledValue - stats.userCirculatingFei
  validity : stats.validityStatus = true ↔ paused = false ∧
    ∀ t ∈ deposits.image token, held reading deposits token t ≠ 0 → valid reading (oracle t)

variable {reading deposits token oracle}

/-- Only the oracles of tokens that are held matter. -/
theorem Reports.congr {oracle' : Address → Address} {paused : Bool} {stats : PcvStats}
    (reports : Reports reading deposits token oracle paused stats)
    (same : ∀ t ∈ deposits.image token, oracle' t = oracle t) :
    Reports reading deposits token oracle' paused stats where
  answers := reports.answers
  priced t mem := by
    rw [same t mem]
    exact reports.priced t mem
  value := by
    rw [reports.value]
    exact Finset.sum_congr rfl fun t mem => by rw [same t mem]
  value_lt := reports.value_lt
  fei_lt := reports.fei_lt
  circulating := reports.circulating
  circulating_lt := reports.circulating_lt
  equity := reports.equity
  validity := by
    rw [reports.validity]
    refine and_congr_right fun _ => forall₂_congr fun t mem => ?_
    rw [same t mem]

end Reports

/-! ## Loops -/

variable {σ : Type} [EnumerableSet σ Address] {balanceReportedIn : Address → Except Revert Address}
  {s : CollateralizationOracleState σ} {reading : PcvReading}

theorem readDeposit_eq_ok_iff {totals totals' : Nat × Nat} {d : Address} :
    readDeposit reading totals d = .ok totals' ↔ (reading.resistantBalanceAndFei d).isOk ∧
      (totals.1 + balance reading d < 2 ^ 256 ∧ totals.2 + protocolFei reading d < 2 ^ 256) ∧
      (totals.1 + balance reading d, totals.2 + protocolFei reading d) = totals' := by
  unfold readDeposit balance protocolFei
  rcases reading.resistantBalanceAndFei d with reason | ⟨amount, fei⟩
  · refine ⟨fun reverts => ?_, fun all => ?_⟩
    · cases reverts
    · cases all.1
  · simp only [bind_eq_ok_iff, pure_eq_ok_iff, checkedAdd_eq_ok_iff, Except.isOk,
      Except.toBool, true_and]
    constructor
    · intro given
      rcases given with ⟨_, same, _, ⟨first, value⟩, _, ⟨second, value'⟩, ends⟩
      cases same
      rw [value, value']
      exact ⟨⟨value ▸ first, value' ▸ second⟩, ends⟩
    · intro given
      rcases given with ⟨⟨first, second⟩, ends⟩
      exact ⟨_, rfl, _, ⟨first, rfl⟩, _, ⟨second, rfl⟩, ends⟩

theorem foldl_pair {α : Type} (f g : α → Nat) (l : List α) (totals : Nat × Nat) :
    l.foldl (fun totals a => (totals.1 + f a, totals.2 + g a)) totals =
      (totals.1 + (l.map f).sum, totals.2 + (l.map g).sum) := by
  induction l generalizing totals with
  | nil => rfl
  | cons a l ih =>
      rw [List.foldl_cons, ih, List.map_cons, List.map_cons, List.sum_cons, List.sum_cons,
        Nat.add_assoc, Nat.add_assoc]

/-- The loop for each deposit. -/
theorem readDeposits_eq_ok_iff {totals totals' : Nat × Nat}
    (inRange : totals.1 < 2 ^ 256 ∧ totals.2 < 2 ^ 256) (l : List Address) :
    l.foldlM (readDeposit reading) totals = .ok totals' ↔
      (∀ d ∈ l, (reading.resistantBalanceAndFei d).isOk) ∧
      (totals.1 + (l.map (balance reading)).sum < 2 ^ 256 ∧
        totals.2 + (l.map (protocolFei reading)).sum < 2 ^ 256) ∧
      (totals.1 + (l.map (balance reading)).sum,
        totals.2 + (l.map (protocolFei reading)).sum) = totals' := by
  refine (foldlM_accumulate (f := readDeposit reading)
    (P := fun d => (reading.resistantBalanceAndFei d).isOk)
    (fun totals : Nat × Nat => totals.1 < 2 ^ 256 ∧ totals.2 < 2 ^ 256)
    (fun totals d => (totals.1 + balance reading d, totals.2 + protocolFei reading d))
    (fun _ _ _ _ => readDeposit_eq_ok_iff) (fun _ _ inRange => by omega) inRange l).trans ?_
  rw [foldl_pair]

/-- The balance and the FEI of the deposits of a token, as they are listed. -/
def listed (s : CollateralizationOracleState σ) (amount : Address → Nat) (t : Address) : Nat :=
  ((values (s.tokenToDeposits t)).map amount).sum

/-- The token can be read. -/
def Readable (s : CollateralizationOracleState σ) (reading : PcvReading) (t : Address) : Prop :=
  (∀ d ∈ values (s.tokenToDeposits t), (reading.resistantBalanceAndFei d).isOk) ∧
    Priced reading (s.tokenToOracle t) (listed s (balance reading) t)

/-- What the token adds. -/
def Totals.plus (s : CollateralizationOracleState σ) (reading : PcvReading) (totals : Totals)
    (t : Address) : Totals where
  protocolControlledValue := totals.protocolControlledValue +
    worth reading (s.tokenToOracle t) (listed s (balance reading) t)
  _protocolControlledFei := totals._protocolControlledFei + listed s (protocolFei reading) t
  validityStatus := totals.validityStatus &&
    (listed s (balance reading) t == 0 || valid reading (s.tokenToOracle t))

/-- Both totals fit a word. -/
def Totals.InRange (totals : Totals) : Prop :=
  totals.protocolControlledValue < 2 ^ 256 ∧ totals._protocolControlledFei < 2 ^ 256

/-- The rest of the loop for each token, after that for each deposit. -/
theorem priceToken_eq_ok_iff {totals totals' : Totals} {oracle : Address} {amount fei : Nat}
    (inRange : totals.InRange) (small : amount < 2 ^ 256) :
    (if amount ≠ 0 then do
        let (_oraclePrice, _oracleValid) ← reading.read oracle
        let validityStatus := if _oracleValid then totals.validityStatus else false
        let product ← _oraclePrice.mulUint amount
        let protocolControlledValue ← checkedAdd totals.protocolControlledValue product.asUint256
        return ⟨protocolControlledValue, fei, validityStatus⟩
      else return ⟨totals.protocolControlledValue, fei, totals.validityStatus⟩ :
        Except Revert Totals) = .ok totals' ↔
      Priced reading oracle amount ∧
      totals.protocolControlledValue + worth reading oracle amount < 2 ^ 256 ∧
      ⟨totals.protocolControlledValue + worth reading oracle amount, fei,
        totals.validityStatus && (amount == 0 || valid reading oracle)⟩ = totals' := by
  by_cases none : amount = 0
  · have free : worth reading oracle 0 = 0 := by rw [worth, Nat.mul_zero, Nat.zero_div]
    have always : Priced reading oracle 0 :=
      ⟨Nat.two_pow_pos 256, fun nonzero => absurd rfl nonzero⟩
    subst none
    simp only [ne_eq, not_true_eq_false, if_false, pure_eq_ok_iff, free, Nat.add_zero,
      beq_self_eq_true, Bool.true_or, Bool.and_true, always, inRange.1, true_and]
  · rw [if_pos none]
    unfold Priced worth price valid
    rcases reading.read oracle with reason | ⟨_oraclePrice, _oracleValid⟩
    · refine ⟨fun reverts => ?_, fun all => ?_⟩
      · cases reverts
      · cases (all.1.2 none).1
    · have other : (amount == 0) = false := beq_eq_false_iff_ne.mpr none
      have both : (if _oracleValid = true then totals.validityStatus else false) =
          (totals.validityStatus && _oracleValid) := by
        cases _oracleValid <;> simp
      simp only [bind_eq_ok_iff, pure_eq_ok_iff, D256.mulUint, map_eq_ok_iff, checkedMul_eq_ok_iff,
        checkedAdd_eq_ok_iff, D256.asUint256, other, Bool.false_or, ← both, small, true_and]
      constructor
      · intro given
        rcases given with ⟨_, same, _, ⟨_, ⟨fits, product⟩, scaled⟩, _, ⟨sum, value⟩, ends⟩
        cases same
        subst product
        subst scaled
        subst value
        exact ⟨fun _ => ⟨rfl, fits⟩, sum, ends⟩
      · intro given
        rcases given with ⟨priced, sum, ends⟩
        exact ⟨_, rfl, _, ⟨_, ⟨(priced none).2, rfl⟩, rfl⟩, _, ⟨sum, rfl⟩, ends⟩

theorem readToken_eq_ok_iff {totals totals' : Totals} {t : Address} (inRange : totals.InRange) :
    readToken s reading totals t = .ok totals' ↔ Readable s reading t ∧
      (totals.plus s reading t).InRange ∧ totals.plus s reading t = totals' := by
  have start : (0, totals._protocolControlledFei).1 < 2 ^ 256 ∧
      (0, totals._protocolControlledFei).2 < 2 ^ 256 := ⟨Nat.two_pow_pos 256, inRange.2⟩
  unfold readToken
  simp only [bind_eq_ok_iff, readDeposits_eq_ok_iff start, Nat.zero_add]
  constructor
  · intro given
    rcases given with ⟨_, ⟨answers, ⟨small, fits⟩, same⟩, prices⟩
    subst same
    obtain ⟨priced, sum, ends⟩ := (priceToken_eq_ok_iff inRange small).mp prices
    exact ⟨⟨answers, priced⟩, ⟨sum, fits⟩, ends⟩
  · intro given
    rcases given with ⟨⟨answers, priced⟩, ⟨sum, fits⟩, ends⟩
    exact ⟨_, ⟨answers, ⟨priced.1, fits⟩, rfl⟩,
      (priceToken_eq_ok_iff inRange priced.1).mpr ⟨priced, sum, ends⟩⟩

/-- What the loop for each token adds up. -/
theorem foldl_plus (l : List Address) (totals : Totals) :
    l.foldl (Totals.plus s reading) totals =
      ⟨totals.protocolControlledValue + (l.map fun t =>
          worth reading (s.tokenToOracle t) (listed s (balance reading) t)).sum,
        totals._protocolControlledFei + (l.map (listed s (protocolFei reading))).sum,
        totals.validityStatus && l.all fun t =>
          listed s (balance reading) t == 0 || valid reading (s.tokenToOracle t)⟩ := by
  induction l generalizing totals with
  | nil => simp
  | cons t l ih =>
      rw [List.foldl_cons, ih, List.map_cons, List.map_cons, List.sum_cons, List.sum_cons,
        List.all_cons, ← Nat.add_assoc, ← Nat.add_assoc, ← Bool.and_assoc]
      rfl

/-- The loop for each token. -/
theorem readTokens_eq_ok_iff {totals totals' : Totals} (inRange : totals.InRange)
    (l : List Address) : l.foldlM (readToken s reading) totals = .ok totals' ↔
      (∀ t ∈ l, Readable s reading t) ∧ (l.foldl (Totals.plus s reading) totals).InRange ∧
      l.foldl (Totals.plus s reading) totals = totals' := by
  refine foldlM_accumulate Totals.InRange (Totals.plus s reading)
    (fun _ _ _ => readToken_eq_ok_iff) (fun totals t inRange => ?_) inRange l
  exact ⟨Nat.lt_of_le_of_lt (Nat.le_add_right _ _) inRange.1,
    Nat.lt_of_le_of_lt (Nat.le_add_right _ _) inRange.2⟩

/-! ## Along the indexes -/

/-- The deposits that `pcvStats` reads, in order. -/
def visited (s : CollateralizationOracleState σ) : List Address :=
  Fibred.members s.tokenToDeposits s.tokensInPcv

def registered (s : CollateralizationOracleState σ) : Finset Address := (visited s).toFinset

theorem Indexed.mem_registered (indexed : Indexed balanceReportedIn s) (d : Address) :
    d ∈ registered s ↔ s.depositToToken d ≠ 0 := by
  rw [registered, List.mem_toFinset]
  exact indexed.fibred.mem_members d

theorem Indexed.mem_tokens (indexed : Indexed balanceReportedIn s) (t : Address) :
    t ∈ values s.tokensInPcv ↔ t ∈ (registered s).image s.depositToToken := by
  rw [Finset.mem_image]
  refine ⟨fun mem => ?_, fun ⟨d, mem, value⟩ => ?_⟩
  · obtain ⟨d, value, set⟩ := indexed.fibred.exists_of_mem_image mem
    exact ⟨d, (indexed.mem_registered d).mpr (value ▸ set), value⟩
  · exact value ▸ indexed.fibred.mem_image_of_ne ((indexed.mem_registered d).mp mem)

/-- A token that is held is listed with all that is registered under it. -/
theorem Indexed.listed_eq (indexed : Indexed balanceReportedIn s) (amount : Address → Nat)
    {t : Address} (mem : t ∈ values s.tokensInPcv) :
    listed s amount t = ∑ d ∈ registered s with s.depositToToken d = t, amount d := by
  obtain ⟨_, _, set⟩ := indexed.fibred.exists_of_mem_image mem
  exact indexed.fibred.sum_fibre set amount

theorem Indexed.readable_iff (indexed : Indexed balanceReportedIn s) :
    (∀ t ∈ values s.tokensInPcv, Readable s reading t) ↔
      (∀ d ∈ registered s, (reading.resistantBalanceAndFei d).isOk) ∧
      ∀ t ∈ (registered s).image s.depositToToken, Priced reading (s.tokenToOracle t)
        (held reading (registered s) s.depositToToken t) := by
  constructor
  · intro readable
    refine ⟨fun d mem => ?_, fun t mem => ?_⟩
    · have set := (indexed.mem_registered d).mp mem
      exact (readable (s.depositToToken d) (indexed.fibred.mem_image_of_ne set)).1 d
        ((indexed.fibred.mem_fibre d _).mpr ⟨rfl, set⟩)
    · have inPcv := (indexed.mem_tokens t).mpr mem
      rw [held, ← indexed.listed_eq (balance reading) inPcv]
      exact (readable t inPcv).2
  · intro ⟨answers, priced⟩ t mem
    refine ⟨fun d inside => ?_, ?_⟩
    · obtain ⟨value, set⟩ := (indexed.fibred.mem_fibre d t).mp inside
      exact answers d ((indexed.mem_registered d).mpr (value ▸ set))
    · rw [indexed.listed_eq (balance reading) mem]
      exact priced t ((indexed.mem_tokens t).mp mem)

/-- The sums of the loops are sums over the registered deposits. -/
theorem Indexed.totals_eq (indexed : Indexed balanceReportedIn s) :
    (values s.tokensInPcv).foldl (Totals.plus s reading) ⟨0, 0, !s.paused⟩ =
      ⟨∑ t ∈ (registered s).image s.depositToToken, worth reading (s.tokenToOracle t)
          (held reading (registered s) s.depositToToken t),
        ∑ d ∈ registered s, protocolFei reading d,
        !s.paused && (values s.tokensInPcv).all fun t =>
          listed s (balance reading) t == 0 || valid reading (s.tokenToOracle t)⟩ := by
  have value : ((values s.tokensInPcv).map fun t =>
      worth reading (s.tokenToOracle t) (listed s (balance reading) t)).sum =
        ∑ t ∈ (registered s).image s.depositToToken, worth reading (s.tokenToOracle t)
          (held reading (registered s) s.depositToToken t) := by
    refine Eq.trans ?_ (indexed.fibred.sum_values _)
    refine congrArg List.sum (List.map_congr_left fun t mem => ?_)
    rw [indexed.listed_eq (balance reading) mem, held, registered, visited]
  have fei : ((values s.tokensInPcv).map (listed s (protocolFei reading))).sum =
      ∑ d ∈ registered s, protocolFei reading d := indexed.fibred.sum_members _
  rw [foldl_plus, value, fei, Nat.zero_add, Nat.zero_add]

theorem Indexed.valid_iff (indexed : Indexed balanceReportedIn s) :
    ((values s.tokensInPcv).all fun t =>
      listed s (balance reading) t == 0 || valid reading (s.tokenToOracle t)) = true ↔
      ∀ t ∈ (registered s).image s.depositToToken,
        held reading (registered s) s.depositToToken t ≠ 0 →
          valid reading (s.tokenToOracle t) := by
  rw [List.all_eq_true]
  refine forall_congr' fun t => ?_
  rw [indexed.mem_tokens t]
  refine forall_congr' fun mem => ?_
  rw [indexed.listed_eq (balance reading) ((indexed.mem_tokens t).mpr mem), held, Bool.or_eq_true,
    beq_iff_eq, or_iff_not_imp_left]

/-- **The results.** -/
theorem pcvStats_eq_ok_iff (indexed : Indexed balanceReportedIn s) {stats : PcvStats} :
    pcvStats s reading = .ok stats ↔ Reports reading (registered s) s.depositToToken
      s.tokenToOracle s.paused stats := by
  have start : Totals.InRange ⟨0, 0, !s.paused⟩ := ⟨Nat.two_pow_pos 256, Nat.two_pow_pos 256⟩
  unfold pcvStats
  simp only [bind_eq_ok_iff, pure_eq_ok_iff, readTokens_eq_ok_iff start, indexed.totals_eq,
    indexed.readable_iff, checkedSub_eq_ok_iff, toInt256_eq_ok_iff, checkedIntSub_eq_ok_iff]
  constructor
  · intro given
    rcases given with ⟨_, ⟨⟨answers, priced⟩, ⟨_, fei_lt⟩, totals⟩, circulating, ⟨le, rest⟩, value,
      ⟨value_lt, same⟩, fei, ⟨circulating_lt, same'⟩, equity, ⟨_, difference⟩, ends⟩
    subst totals
    subst ends
    refine ⟨answers, priced, rfl, value_lt, fei_lt, ?_, circulating_lt, ?_, ?_⟩
    · exact rest ▸ Nat.sub_add_cancel le
    · rw [← difference, ← same, ← same']
    · rw [Bool.and_eq_true, Bool.not_eq_true', indexed.valid_iff]
  · intro reports
    obtain ⟨value, circulating, equity, validity⟩ := stats
    have value_eq := reports.value
    have value_lt := reports.value_lt
    have circulating_eq := reports.circulating
    have circulating_lt := reports.circulating_lt
    have equity_eq := reports.equity
    have valid := reports.validity
    dsimp only at value_eq value_lt circulating_eq circulating_lt equity_eq valid
    rw [← indexed.valid_iff, ← Bool.not_eq_true', ← Bool.and_eq_true, ← Bool.eq_iff_iff] at valid
    refine ⟨_, ⟨⟨reports.answers, reports.priced⟩, ⟨?_, reports.fei_lt⟩, rfl⟩, circulating,
      ⟨?_, ?_⟩, _, ⟨value_eq ▸ value_lt, rfl⟩, _, ⟨circulating_lt, rfl⟩, equity, ⟨?_, ?_⟩, ?_⟩
    · dsimp only
      omega
    · dsimp only
      omega
    · dsimp only
      omega
    · dsimp only
      omega
    · dsimp only
      omega
    · rw [value_eq, valid]

/-- **The indexes.** In every state they agree: `depositToToken`, `tokenToDeposits` and
`tokensInPcv` list the same deposits, each under one token, which has an oracle. So `pcvStats` reads
each registered deposit once, and returns the same in two states with the same deposits and oracles,
however they were reached. -/
theorem indexes_consistent (reached : Reached balanceReportedIn s) :
    (∀ d t, (s.depositToToken d = t ∧ t ≠ 0) ↔ d ∈ values (s.tokenToDeposits t)) ∧
    (∀ t, t ∈ values s.tokensInPcv ↔ values (s.tokenToDeposits t) ≠ []) ∧
    (∀ t ∈ values s.tokensInPcv, s.tokenToOracle t ≠ 0) ∧
    (∀ d t t', d ∈ values (s.tokenToDeposits t) → d ∈ values (s.tokenToDeposits t') → t = t') ∧
    (visited s).Nodup ∧ (∀ d, d ∈ visited s ↔ s.depositToToken d ≠ 0) ∧
    (∀ reading stats, pcvStats s reading = .ok stats ↔ Reports reading (registered s)
      s.depositToToken s.tokenToOracle s.paused stats) ∧
    ∀ s' : CollateralizationOracleState σ, Reached balanceReportedIn s' →
      (∀ d, s'.depositToToken d ≠ 0 ↔ s.depositToToken d ≠ 0) →
      (∀ t ∈ values s.tokensInPcv, s'.tokenToOracle t = s.tokenToOracle t) →
      s'.paused = s.paused →
      ∀ reading stats, pcvStats s' reading = .ok stats ↔ pcvStats s reading = .ok stats := by
  have indexed := indexed_of_reached reached
  refine ⟨fun d t => (indexed.fibred.mem_fibre d t).symm, indexed.fibred.mem_image,
    indexed.oracles, fun d t t' => indexed.fibred.eq_of_mem, indexed.fibred.nodup_members,
    indexed.fibred.mem_members, fun reading stats => pcvStats_eq_ok_iff indexed, ?_⟩
  intro s' reached' deposits oracles paused reading stats
  have indexed' := indexed_of_reached reached'
  have sameDeposits : registered s' = registered s := by
    ext d
    rw [indexed'.mem_registered, indexed.mem_registered, deposits]
  have sameTokens : s'.depositToToken = s.depositToToken := by
    funext d
    by_cases set : s.depositToToken d = 0
    · rw [set]
      exact not_not.mp fun set' => (deposits d).mp set' set
    · have both := (indexed'.reported d ((deposits d).mpr set)).symm.trans
        (indexed.reported d set)
      exact Except.ok.inj both
  rw [pcvStats_eq_ok_iff indexed', pcvStats_eq_ok_iff indexed, sameDeposits, sameTokens, paused]
  have oracles' : ∀ t ∈ (registered s).image s.depositToToken,
      s'.tokenToOracle t = s.tokenToOracle t :=
    fun t mem => oracles t ((indexed.mem_tokens t).mpr mem)
  constructor
  · exact fun reports => reports.congr fun t mem => (oracles' t mem).symm
  · exact fun reports => reports.congr oracles'

namespace Sample

/-- The deposits 11 and 12 report in token 1, the others in token 2. -/
def token (deposit : Address) : Except Revert Address :=
  .ok (if deposit = 11 ∨ deposit = 12 then 1 else 2)

/-- A deployment with the deposits `11`, `12` and `13`. -/
def start : CollateralizationOracleState (SwapAndPop Address) :=
  match construct token 0 1 5 [11, 12, 13] [1, 2] [21, 22] with
  | .ok s => s
  | .error _ => ⟨fun _ => 0, fun _ => empty, fun _ => 0, empty, false, 0, []⟩

/-- Account 5 is governor. -/
def call (administration : Administration) : Call where
  core := ⟨fun _ => false, fun _ => false, fun _ => false, fun a => a = 5, fun _ => false⟩
  access := ⟨fun _ _ => false, ⟨0, 0, 0, 0⟩⟩
  msgSender := 5
  action := .administer administration

/-- Two deposits are taken out, which leaves token 2 without any, and put back. -/
def history : List Call :=
  [call (.removeDeposits [11, 13]), call (.addDeposits [13, 11]), call (.addDeposit 12)]

/-- Deposit `d` holds `d` tokens and one FEI, and token 2 costs 3. -/
def answers : PcvReading where
  resistantBalanceAndFei deposit := .ok (deposit.toNat, 1)
  read oracle := .ok (⟨if oracle = 22 then 3 * BASE else BASE⟩, true)
  feiTotalSupply := 50

end Sample

theorem indexes_consistent_sample :
    pcvStats (run (step Sample.token) Sample.start Sample.history) Sample.answers =
      .ok ⟨62, 47, 15, true⟩ := by
  have built : construct Sample.token 0 1 5 [11, 12, 13] [1, 2] [21, 22] =
    .ok Sample.start := rfl
  have reached : Reached Sample.token Sample.start := .run built [] rfl
  obtain ⟨_, _, _, _, _, _, _, unchanged⟩ := indexes_consistent reached
  have after : (run (step Sample.token) Sample.start Sample.history).depositToToken =
    Function.update (Function.update (Function.update (Function.update
      Sample.start.depositToToken 11 0) 13 0) 13 2) 11 1 := rfl
  refine (unchanged _ (.run built Sample.history rfl) (fun d => ?_) (fun t mem => rfl) rfl
    Sample.answers _).mpr rfl
  rw [after, Function.update_idem, Function.update_comm (by decide), Function.update_idem]
  have first : Sample.start.depositToToken 11 = 1 := rfl
  have last : Sample.start.depositToToken 13 = 2 := rfl
  rw [← first, Function.update_eq_self, ← last, Function.update_eq_self]

end CollateralizationOracle

end FeiProtocol
