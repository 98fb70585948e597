import FeiProtocol.Math.Checkpoints
import FeiProtocol.Math.Tally
import FeiProtocol.Tribe.Tribe

/-!
# What the functions of `Tribe` do

Every operation on tokens or delegates moves an amount of votes from one delegate to another,
and each half of the move writes one checkpoint.

* `wrote_of_writeCheckpoint`: where the checkpoint is written.
* `moved_of_moveDelegates`: what the move does to the votes and to the records.
* `transaction_of_step`: a transaction by its kind.
-/

namespace FeiProtocol

open Evm

namespace Tribe

open Checkpoints Tally

variable {env : TribeEnv} {s s' : TribeState} {a d rep srcRep dstRep : Address}
  {k n m amount oldVotes newVotes : Nat} {msg : String}

/-! ## Arithmetic -/

@[simp]
theorem safe32_eq_ok_iff : safe32 n msg = .ok m ↔ n < 2 ^ 32 ∧ n = m := by
  simp only [safe32, bind_eq_ok_iff, pure_eq_ok_iff, require_eq_ok_iff, exists_const]

@[simp]
theorem safe96_eq_ok_iff : safe96 n msg = .ok m ↔ n < 2 ^ 96 ∧ n = m := by
  simp only [safe96, bind_eq_ok_iff, pure_eq_ok_iff, require_eq_ok_iff, exists_const]

@[simp]
theorem checkedWidth_eq_ok_iff {bits : Nat} :
    checkedWidth bits n = .ok m ↔ n < 2 ^ bits ∧ n = m := by
  unfold checkedWidth
  split <;> simp_all

@[simp]
theorem add96_eq_ok_iff {b c : Nat} : add96 n b msg = .ok c ↔ n + b < 2 ^ 96 ∧ n + b = c := by
  simp only [add96, bind_eq_ok_iff, pure_eq_ok_iff, require_eq_ok_iff, exists_const,
    checkedWidth_eq_ok_iff]
  constructor
  · intro given
    rcases given with ⟨_, ⟨fits, value⟩, _, same⟩
    exact ⟨fits, value.trans same⟩
  · intro given
    rcases given with ⟨fits, same⟩
    exact ⟨c, ⟨fits, same⟩, by omega, rfl⟩

@[simp]
theorem sub96_eq_ok_iff {b c : Nat} : sub96 n b msg = .ok c ↔ b ≤ n ∧ n - b = c := by
  simp only [sub96, bind_eq_ok_iff, require_eq_ok_iff, exists_const, checkedSub_eq_ok_iff]
  constructor
  · intro given
    rcases given with ⟨_, both⟩
    exact both
  · intro both
    exact ⟨both.1, both⟩

/-! ## The record of a delegate -/

/-- The votes of a delegate at the end of block `b`, by the record. -/
def votesAt (s : TribeState) (a : Address) (b : Nat) : Nat :=
  lookup 0 (fun i => (s.checkpoints a i).fromBlock) (fun i => (s.checkpoints a i).votes)
    (s.numCheckpoints a) b

/-- The record of a delegate is in order. -/
structure Recorded (s : TribeState) (a : Address) : Prop where
  count : s.numCheckpoints a < 2 ^ 32
  increasing : Increasing (fun i => (s.checkpoints a i).fromBlock) (s.numCheckpoints a)
  started : ∀ i < s.numCheckpoints a, 0 < (s.checkpoints a i).fromBlock
  past : ∀ i < s.numCheckpoints a, (s.checkpoints a i).fromBlock ≤ s.blockNumber

theorem Recorded.congr {t : TribeState} (recorded : Recorded s a)
    (checkpoints : t.checkpoints = s.checkpoints) (count : t.numCheckpoints = s.numCheckpoints)
    (block : s.blockNumber ≤ t.blockNumber) : Recorded t a := by
  constructor
  · rw [count]
    exact recorded.count
  · rw [checkpoints, count]
    exact recorded.increasing
  · rw [checkpoints, count]
    exact recorded.started
  · rw [checkpoints, count]
    exact fun i inside => Nat.le_trans (recorded.past i inside) block

theorem getCurrentVotes_congr {t : TribeState} (checkpoints : t.checkpoints = s.checkpoints)
    (count : t.numCheckpoints = s.numCheckpoints) (a : Address) :
    getCurrentVotes t a = getCurrentVotes s a := by
  unfold getCurrentVotes
  rw [checkpoints, count]

theorem votesAt_congr {t : TribeState} (checkpoints : t.checkpoints = s.checkpoints)
    (count : t.numCheckpoints = s.numCheckpoints) (a : Address) (b : Nat) :
    votesAt t a b = votesAt s a b := by
  unfold votesAt
  rw [checkpoints, count]

theorem recorded_constructed (account minter_ : Address) (parent timestamp : Nat) (a : Address) :
    Recorded (constructed account minter_ parent timestamp) a :=
  ⟨Nat.two_pow_pos 32, fun _ inside => absurd inside (Nat.not_lt_zero _),
    fun _ inside => absurd inside (Nat.not_lt_zero _),
    fun _ inside => absurd inside (Nat.not_lt_zero _)⟩

/-- Where the next checkpoint goes: behind the record, or over a last one of this block. -/
inductive Place (s : TribeState) (d : Address) (k : Nat) : Prop where
  | behind (count : s.numCheckpoints d = k) (room : k + 1 < 2 ^ 32)
      (before : 0 < k → (s.checkpoints d (k - 1)).fromBlock ≠ s.blockNumber)
  | last (count : s.numCheckpoints d = k + 1)
      (here : (s.checkpoints d k).fromBlock = s.blockNumber)

/-- The state with a checkpoint of this block written. -/
def write (s : TribeState) (d : Address) (k oldVotes newVotes : Nat) : TribeState :=
  { s with
    checkpoints := update₂ s.checkpoints d k ⟨s.blockNumber, newVotes⟩
    numCheckpoints := Function.update s.numCheckpoints d (k + 1)
    events := s.events ++ [.DelegateVotesChanged d oldVotes newVotes] }

theorem wrote_of_writeCheckpoint
    (succeeds : _writeCheckpoint s d (s.numCheckpoints d) oldVotes newVotes = .ok s') :
    ∃ k, Place s d k ∧ s' = write s d k oldVotes newVotes := by
  simp only [_writeCheckpoint, bind_eq_ok_iff, pure_eq_ok_iff, safe32_eq_ok_iff] at succeeds
  obtain ⟨_, ⟨_, block⟩, m, written, same⟩ := succeeds
  subst block
  subst same
  by_cases same : s.numCheckpoints d > 0 ∧
      (s.checkpoints d (s.numCheckpoints d - 1)).fromBlock = s.blockNumber
  · rw [if_pos same] at written
    cases written
    have count : s.numCheckpoints d = s.numCheckpoints d - 1 + 1 := by omega
    refine ⟨s.numCheckpoints d - 1, .last count same.2, ?_⟩
    simp only [write, same.2, ← count, Function.update_eq_self]
  · rw [if_neg same] at written
    simp only [bind_eq_ok_iff, pure_eq_ok_iff, checkedWidth_eq_ok_iff] at written
    obtain ⟨_, ⟨room, value⟩, same'⟩ := written
    subst value
    subst same'
    exact ⟨s.numCheckpoints d, .behind rfl room fun pos here => same ⟨pos, here⟩, rfl⟩

/-- There is a place for a checkpoint. -/
theorem place_of_recorded (recorded : Recorded s d) (small : s.blockNumber < 2 ^ 32) :
    ∃ k, Place s d k := by
  by_cases same : s.numCheckpoints d > 0 ∧
      (s.checkpoints d (s.numCheckpoints d - 1)).fromBlock = s.blockNumber
  · exact ⟨s.numCheckpoints d - 1, .last (by omega) same.2⟩
  · refine ⟨s.numCheckpoints d, .behind rfl ?_ fun pos here => same ⟨pos, here⟩⟩
    rcases Nat.eq_zero_or_pos (s.numCheckpoints d) with none | pos
    · rw [none]
      decide
    · have inside : s.numCheckpoints d - 1 < s.numCheckpoints d := by omega
      have past := recorded.past _ inside
      have other : (s.checkpoints d (s.numCheckpoints d - 1)).fromBlock ≠ s.blockNumber :=
        fun here => same ⟨pos, here⟩
      have index := recorded.increasing.lt_key (fun pos => recorded.started 0 pos) inside
      omega

theorem writeCheckpoint_eq (place : Place s d k) (small : s.blockNumber < 2 ^ 32) :
    _writeCheckpoint s d (s.numCheckpoints d) oldVotes newVotes =
      .ok (write s d k oldVotes newVotes) := by
  refine bind_eq_ok_iff.mpr ⟨_, safe32_eq_ok_iff.mpr ⟨small, rfl⟩, ?_⟩
  cases place with
  | behind count room before =>
      have other : ¬ (s.numCheckpoints d > 0 ∧
          (s.checkpoints d (s.numCheckpoints d - 1)).fromBlock = s.blockNumber) := by
        rw [count]
        exact fun both => before both.1 both.2
      refine bind_eq_ok_iff.mpr ⟨_, (if_neg other).trans (bind_eq_ok_iff.mpr
        ⟨_, checkedWidth_eq_ok_iff.mpr ⟨?_, rfl⟩, rfl⟩), ?_⟩
      · rw [count]
        exact room
      · simp only [pure_eq_ok_iff, write, count]
  | last count here =>
      have same : s.numCheckpoints d > 0 ∧
          (s.checkpoints d (s.numCheckpoints d - 1)).fromBlock = s.blockNumber := by
        rw [count]
        exact ⟨Nat.succ_pos k, here⟩
      refine bind_eq_ok_iff.mpr ⟨_, if_pos same, ?_⟩
      simp only [pure_eq_ok_iff, write, same.2, ← count, Function.update_eq_self]
      rw [count, Nat.add_sub_cancel]

/-! ### A checkpoint is written -/

theorem write_of_ne (other : a ≠ d) :
    (write s d k oldVotes newVotes).checkpoints a = s.checkpoints a ∧
    (write s d k oldVotes newVotes).numCheckpoints a = s.numCheckpoints a := by
  refine ⟨funext fun i => update₂_of_ne _ _ fun same => other same.1, ?_⟩
  exact Function.update_of_ne other _ _

theorem getCurrentVotes_write : getCurrentVotes (write s d k oldVotes newVotes) d = newVotes := by
  simp [getCurrentVotes, write]

theorem getCurrentVotes_write_of_ne (other : a ≠ d) :
    getCurrentVotes (write s d k oldVotes newVotes) a = getCurrentVotes s a := by
  simp only [getCurrentVotes, write_of_ne other]

theorem write_last : (write s d k oldVotes newVotes).checkpoints d k = ⟨s.blockNumber, newVotes⟩ :=
  update₂_self _ _ _ _

theorem write_before {i : Nat} (before : i < k) :
    (write s d k oldVotes newVotes).checkpoints d i = s.checkpoints d i :=
  update₂_of_ne _ _ fun same => Nat.ne_of_lt before same.2

theorem write_count : (write s d k oldVotes newVotes).numCheckpoints d = k + 1 :=
  Function.update_self _ _ _

theorem Place.le_count (place : Place s d k) : k ≤ s.numCheckpoints d := by
  cases place with
  | behind count room before => exact Nat.le_of_eq count.symm
  | last count here => exact count ▸ Nat.le_succ k

/-- What is before the place is of an earlier block. -/
theorem Place.before (place : Place s d k) (recorded : Recorded s d) {i : Nat} (less : i < k) :
    (s.checkpoints d i).fromBlock < s.blockNumber := by
  cases place with
  | behind count room before =>
      have last : k - 1 < s.numCheckpoints d := by omega
      have le := recorded.increasing.le_of_le (Nat.le_sub_one_of_lt less) last
      have past := recorded.past _ last
      have other := before (Nat.zero_lt_of_lt less)
      omega
  | last count here =>
      have increases := recorded.increasing.lt_of_lt less (count ▸ Nat.lt_succ_self k)
      omega

theorem recorded_write (place : Place s d k) (recorded : ∀ a, Recorded s a)
    (pos : 0 < s.blockNumber) (a : Address) : Recorded (write s d k oldVotes newVotes) a := by
  by_cases other : a = d
  · subst other
    have inside : ∀ {i}, i < k → i < s.numCheckpoints a := fun less =>
      Nat.lt_of_lt_of_le less place.le_count
    constructor
    · rw [write_count]
      cases place with
      | behind count room before => exact room
      | last count here => exact count ▸ (recorded a).count
    · rw [write_count]
      refine .push ?_ fun i less => ?_
      · exact ((recorded a).increasing.mono place.le_count).congr fun i less =>
          congrArg Checkpoint.fromBlock (write_before less)
      · rw [write_before less, write_last]
        exact place.before (recorded a) less
    · intro i less
      rw [write_count] at less
      rcases Nat.lt_succ_iff_lt_or_eq.mp less with before | same
      · rw [write_before before]
        exact (recorded a).started i (inside before)
      · rw [same, write_last]
        exact pos
    · intro i less
      rw [write_count] at less
      rcases Nat.lt_succ_iff_lt_or_eq.mp less with before | same
      · rw [write_before before]
        exact (recorded a).past i (inside before)
      · rw [same, write_last]
        exact Nat.le_refl _
  · obtain ⟨checkpoints, count⟩ : (write s d k oldVotes newVotes).checkpoints a = _ ∧ _ :=
      write_of_ne other
    constructor
    · rw [count]
      exact (recorded a).count
    · rw [checkpoints, count]
      exact (recorded a).increasing
    · rw [checkpoints, count]
      exact (recorded a).started
    · rw [checkpoints, count]
      exact (recorded a).past

/-- The votes at the end of a block that is past do not change. -/
theorem votesAt_write (place : Place s d k) (a : Address) {b : Nat} (past : b < s.blockNumber) :
    votesAt (write s d k oldVotes newVotes) a b = votesAt s a b := by
  by_cases other : a = d
  · subst other
    have new : b < ((write s a k oldVotes newVotes).checkpoints a k).fromBlock := by
      rw [write_last]
      exact past
    unfold votesAt
    rw [write_count, lookup_succ_of_lt new,
      lookup_congr (fun i less => congrArg Checkpoint.fromBlock (write_before less))
        fun i less => congrArg Checkpoint.votes (write_before less)]
    cases place with
    | behind count room before => rw [count]
    | last count here =>
        have old : b < (s.checkpoints a k).fromBlock := here ▸ past
        rw [count, lookup_succ_of_lt old]
  · simp only [votesAt, write_of_ne other]

/-! ## Moving votes -/

/-- The records stay in order, and only change from this block on. -/
structure Records (s s' : TribeState) : Prop where
  block : s'.blockNumber = s.blockNumber
  recorded : 0 < s.blockNumber → (∀ a, Recorded s a) → ∀ a, Recorded s' a
  past : ∀ a b, b < s.blockNumber → votesAt s' a b = votesAt s a b

theorem Records.trans {t : TribeState} (first : Records s s') (second : Records s' t) :
    Records s t where
  block := second.block.trans first.block
  recorded pos recorded := second.recorded (first.block ▸ pos) (first.recorded pos recorded)
  past a b past := (second.past a b (first.block ▸ past)).trans (first.past a b past)

/-- Only the records change. -/
structure Rewritten (s s' : TribeState) : Prop extends Records s s' where
  supply : s'.totalSupply = s.totalSupply
  balances : s'.balances = s.balances
  delegates : s'.delegates = s.delegates

theorem Rewritten.refl (s : TribeState) : Rewritten s s :=
  ⟨⟨rfl, fun _ recorded => recorded, fun _ _ _ => rfl⟩, rfl, rfl, rfl⟩

theorem Rewritten.trans {t : TribeState} (first : Rewritten s s') (second : Rewritten s' t) :
    Rewritten s t where
  toRecords := first.toRecords.trans second.toRecords
  supply := second.supply.trans first.supply
  balances := second.balances.trans first.balances
  delegates := second.delegates.trans first.delegates

theorem rewritten_write (place : Place s d k) :
    Rewritten s (write s d k oldVotes newVotes) := by
  refine ⟨⟨rfl, fun pos recorded a => ?_, fun a b => votesAt_write place a⟩, rfl, rfl, rfl⟩
  exact recorded_write place recorded pos a

/-- One half of a move. -/
theorem wrote_of_writeVotes {change : Nat → Except Revert Nat}
    (succeeds : writeVotes s rep change = .ok s') : rep = 0 ∧ s' = s ∨
      rep ≠ 0 ∧ ∃ votes k, change (getCurrentVotes s rep) = .ok votes ∧ Place s rep k ∧
        s' = write s rep k (getCurrentVotes s rep) votes := by
  unfold writeVotes at succeeds
  split at succeeds
  · rename_i nonzero
    obtain ⟨votes, changes, writes⟩ := bind_eq_ok_iff.mp succeeds
    obtain ⟨k, place, same⟩ := wrote_of_writeCheckpoint writes
    exact .inr ⟨nonzero, votes, k, changes, place, same⟩
  · rename_i zero
    cases succeeds
    exact .inl ⟨not_not.mp zero, rfl⟩

/-- A half that changes the votes of `rep` by `f`. -/
theorem writeVotes_succeeds {change : Nat → Except Revert Nat} {votes : Nat}
    (recorded : Recorded s rep) (small : s.blockNumber < 2 ^ 32)
    (changes : rep ≠ 0 → change (getCurrentVotes s rep) = .ok votes) :
    ∃ s', writeVotes s rep change = .ok s' := by
  unfold writeVotes
  split
  · rename_i nonzero
    obtain ⟨k, place⟩ := place_of_recorded recorded small
    exact ⟨_, bind_eq_ok_iff.mpr ⟨votes, changes nonzero, writeCheckpoint_eq place small⟩⟩
  · exact ⟨s, rfl⟩

/-- What a move of votes does. -/
structure Moved (s s' : TribeState) (srcRep dstRep : Address) (amount : Nat) : Prop
    extends Rewritten s s' where
  votes : ∀ d, d ≠ 0 → getCurrentVotes s' d + (if srcRep = d then amount else 0) =
    getCurrentVotes s d + if dstRep = d then amount else 0

theorem votes_of_wrote {f : Nat → Except Revert Nat}
    (wrote : rep = 0 ∧ s' = s ∨ rep ≠ 0 ∧ ∃ votes k, f (getCurrentVotes s rep) = .ok votes ∧
      Place s rep k ∧ s' = write s rep k (getCurrentVotes s rep) votes) :
    Rewritten s s' ∧ (rep ≠ 0 → f (getCurrentVotes s rep) = .ok (getCurrentVotes s' rep)) ∧
      ∀ d, d ≠ rep → getCurrentVotes s' d = getCurrentVotes s d := by
  rcases wrote with ⟨zero, same⟩ | ⟨nonzero, votes, k, changes, place, same⟩
  · rw [same]
    exact ⟨.refl s, fun nonzero => absurd zero nonzero, fun _ _ => rfl⟩
  · rw [same]
    refine ⟨rewritten_write place, fun _ => ?_, fun d other => getCurrentVotes_write_of_ne other⟩
    rw [getCurrentVotes_write]
    exact changes

theorem moved_of_moveDelegates
    (succeeds : _moveDelegates s srcRep dstRep amount = .ok s') :
    Moved s s' srcRep dstRep amount := by
  unfold _moveDelegates at succeeds
  split at succeeds
  · rename_i moves
    obtain ⟨m, first, second⟩ := bind_eq_ok_iff.mp succeeds
    obtain ⟨taken, lowers, others⟩ := votes_of_wrote (wrote_of_writeVotes first)
    obtain ⟨given, raises, others'⟩ := votes_of_wrote (wrote_of_writeVotes second)
    refine ⟨taken.trans given, fun d nonzero => ?_⟩
    by_cases src : srcRep = d
    · subst src
      have less := sub96_eq_ok_iff.mp (lowers nonzero)
      rw [others' srcRep moves.1, if_pos rfl, if_neg (Ne.symm moves.1), ← less.2]
      omega
    · rw [if_neg src, Nat.add_zero]
      by_cases dst : dstRep = d
      · subst dst
        have more := add96_eq_ok_iff.mp (raises nonzero)
        rw [if_pos rfl, ← more.2, others dstRep (Ne.symm src)]
      · rw [if_neg dst, others' d (Ne.symm dst), others d (Ne.symm src), Nat.add_zero]
  · rename_i still
    cases succeeds
    refine ⟨.refl s, fun d _ => ?_⟩
    by_cases same : srcRep = dstRep
    · rw [same]
    · have none : amount = 0 := by
        by_contra some
        exact still ⟨same, Nat.pos_of_ne_zero some⟩
      rw [none, ite_self, ite_self]

/-- A move succeeds when the source has the votes and the destination has room for them. -/
theorem moveDelegates_succeeds (recorded : ∀ a, Recorded s a) (pos : 0 < s.blockNumber)
    (small : s.blockNumber < 2 ^ 32)
    (enough : srcRep ≠ dstRep → srcRep ≠ 0 → amount ≤ getCurrentVotes s srcRep)
    (room : srcRep ≠ dstRep → dstRep ≠ 0 → getCurrentVotes s dstRep + amount < 2 ^ 96) :
    ∃ s', _moveDelegates s srcRep dstRep amount = .ok s' := by
  unfold _moveDelegates
  split
  · rename_i moves
    obtain ⟨m, first⟩ : ∃ m, writeVotes s srcRep (fun srcRepOld =>
        sub96 srcRepOld amount "Tribe: vote amount underflows") = .ok m :=
      writeVotes_succeeds (recorded srcRep) small fun nonzero =>
        sub96_eq_ok_iff.mpr ⟨enough moves.1 nonzero, rfl⟩
    obtain ⟨taken, _, others⟩ := votes_of_wrote (wrote_of_writeVotes first)
    obtain ⟨s', second⟩ : ∃ s', writeVotes m dstRep (fun dstRepOld =>
        add96 dstRepOld amount "Tribe: vote amount overflows") = .ok s' := by
      refine writeVotes_succeeds (taken.recorded pos recorded dstRep) (taken.block ▸ small)
        fun nonzero => add96_eq_ok_iff.mpr ⟨?_, rfl⟩
      rw [others dstRep (Ne.symm moves.1)]
      exact room moves.1 nonzero
    exact ⟨s', bind_eq_ok_iff.mpr ⟨m, first, second⟩⟩
  · exact ⟨s, rfl⟩

/-! ## Operations as moves -/

/-- The state in which `_delegate` moves the votes. -/
def redelegated (s : TribeState) (delegator delegatee : Address) : TribeState :=
  { s with
    delegates := Function.update s.delegates delegator delegatee
    events := s.events ++ [.DelegateChanged delegator (s.delegates delegator) delegatee] }

theorem delegate_eq {delegator delegatee : Address} : _delegate s delegator delegatee =
    _moveDelegates (redelegated s delegator delegatee) (s.delegates delegator) delegatee
      (s.balances delegator) := rfl

/-- The state in which `_transferTokens` moves the votes. -/
def transferred (s : TribeState) (src dst : Address) (amount : Nat) : TribeState :=
  let balances := Function.update s.balances src (s.balances src - amount)
  { s with
    balances := Function.update balances dst (balances dst + amount)
    events := s.events ++ [.Transfer src dst amount] }

theorem transferTokens_eq_ok_iff {src dst : Address} : _transferTokens s src dst amount = .ok s' ↔
    src ≠ 0 ∧ dst ≠ 0 ∧ amount ≤ s.balances src ∧
      Function.update s.balances src (s.balances src - amount) dst + amount < 2 ^ 96 ∧
      _moveDelegates (transferred s src dst amount) (s.delegates src) (s.delegates dst) amount =
        .ok s' := by
  simp only [_transferTokens, bind_eq_ok_iff, require_eq_ok_iff, exists_const, sub96_eq_ok_iff,
    add96_eq_ok_iff]
  constructor
  · intro given
    rcases given with ⟨source, target, _, ⟨enough, left⟩, _, ⟨fits, value⟩, moves⟩
    subst left
    subst value
    exact ⟨source, target, enough, fits, moves⟩
  · intro given
    rcases given with ⟨source, target, enough, fits, moves⟩
    exact ⟨source, target, _, ⟨enough, rfl⟩, _, ⟨fits, rfl⟩, moves⟩

/-- The state in which `mint` moves the votes. -/
def minted (s : TribeState) (dst : Address) (amount : Nat) : TribeState :=
  { s with
    totalSupply := s.totalSupply + amount
    balances := Function.update s.balances dst (s.balances dst + amount)
    events := s.events ++ [.Transfer 0 dst amount] }

theorem mint_eq_ok_iff {sender dst : Address} : Tribe.mint s sender dst amount = .ok s' ↔
    sender = s.minter ∧ dst ≠ 0 ∧ amount < 2 ^ 96 ∧ s.totalSupply < 2 ^ 96 ∧
      s.totalSupply + amount < 2 ^ 96 ∧ s.balances dst + amount < 2 ^ 96 ∧
      _moveDelegates (minted s dst amount) 0 (s.delegates dst) amount = .ok s' := by
  simp only [Tribe.mint, bind_eq_ok_iff, require_eq_ok_iff, exists_const, safe96_eq_ok_iff,
    add96_eq_ok_iff]
  constructor
  · intro given
    rcases given with ⟨minter, target, _, ⟨small, value⟩, _, ⟨safe, value'⟩, _, ⟨supply, value''⟩,
      _, ⟨fits, value'''⟩, moves⟩
    subst value
    subst value'
    subst value''
    subst value'''
    exact ⟨minter, target, small, safe, supply, fits, moves⟩
  · intro given
    rcases given with ⟨minter, target, small, safe, supply, fits, moves⟩
    exact ⟨minter, target, _, ⟨small, rfl⟩, _, ⟨safe, rfl⟩, _, ⟨supply, rfl⟩, _, ⟨fits, rfl⟩, moves⟩

/-! ## Transactions by kind -/

/-- The same balances, delegates and records. -/
structure Akin (s t : TribeState) : Prop where
  supply : t.totalSupply = s.totalSupply
  balances : t.balances = s.balances
  delegates : t.delegates = s.delegates
  checkpoints : t.checkpoints = s.checkpoints
  numCheckpoints : t.numCheckpoints = s.numCheckpoints
  block : t.blockNumber = s.blockNumber

/-- What a transaction does, by kind. -/
inductive Transaction (s : TribeState) : TribeState → Prop where
  | keeps {s' : TribeState} (akin : Akin s s') : Transaction s s'
  | delegates {t s' : TribeState} {delegator delegatee : Address} (akin : Akin s t)
      (succeeds : _delegate t delegator delegatee = .ok s') : Transaction s s'
  | transfers {t s' : TribeState} {src dst : Address} {amount : Nat} (akin : Akin s t)
      (succeeds : _transferTokens t src dst amount = .ok s') : Transaction s s'
  | mints {s' : TribeState} {sender dst : Address} {rawAmount : Nat}
      (succeeds : Tribe.mint s sender dst rawAmount = .ok s') : Transaction s s'
  | mine (blocks seconds : Nat) : Transaction s { s with
      blockNumber := s.blockNumber + blocks, timestamp := s.timestamp + seconds }

theorem Akin.refl (s : TribeState) : Akin s s := ⟨rfl, rfl, rfl, rfl, rfl, rfl⟩

theorem Akin.records {t : TribeState} (akin : Akin s t) : Records s t where
  block := akin.block
  recorded _ recorded a := (recorded a).congr akin.checkpoints akin.numCheckpoints
    (Nat.le_of_eq akin.block.symm)
  past a b _ := votesAt_congr akin.checkpoints akin.numCheckpoints a b

theorem akin_of_allowances (allowances : Address → Address → Nat) (nonces : Address → Nat)
    (events : List TribeEvent) : Akin s { s with allowances, nonces, events } :=
  ⟨rfl, rfl, rfl, rfl, rfl, rfl⟩

/-- **Transactions by kind.** -/
theorem transaction_of_step {act : Action} (succeeds : step env s act = .ok s') :
    Transaction s s' := by
  cases act with
  | setMinter sender minter_ =>
      simp only [step, setMinter, bind_eq_ok_iff, pure_eq_ok_iff] at succeeds
      obtain ⟨_, _, same⟩ := succeeds
      subst same
      exact .keeps ⟨rfl, rfl, rfl, rfl, rfl, rfl⟩
  | mint sender dst rawAmount => exact .mints succeeds
  | approve sender spender rawAmount =>
      simp only [step, approve, bind_eq_ok_iff, pure_eq_ok_iff] at succeeds
      obtain ⟨_, _, same⟩ := succeeds
      subst same
      exact .keeps (akin_of_allowances _ _ _)
  | permit owner spender rawAmount deadline v r sig =>
      simp only [step, permit, bind_eq_ok_iff, pure_eq_ok_iff] at succeeds
      obtain ⟨_, _, _, _, _, _, _, _, _, _, same⟩ := succeeds
      subst same
      exact .keeps (akin_of_allowances _ _ _)
  | transfer sender dst rawAmount =>
      obtain ⟨_, _, transfers⟩ := bind_eq_ok_iff.mp succeeds
      exact .transfers (.refl s) transfers
  | transferFrom sender src dst rawAmount =>
      simp only [step, transferFrom, bind_eq_ok_iff] at succeeds
      obtain ⟨amount, _, t, spends, transfers⟩ := succeeds
      refine .transfers ?_ transfers
      split at spends
      · simp only [bind_eq_ok_iff, pure_eq_ok_iff] at spends
        obtain ⟨_, _, same⟩ := spends
        subst same
        exact akin_of_allowances _ _ _
      · cases spends
        exact .refl s
  | delegate sender delegatee => exact .delegates (.refl s) succeeds
  | delegateBySig delegatee nonce expiry v r sig =>
      simp only [step, delegateBySig, bind_eq_ok_iff] at succeeds
      obtain ⟨_, _, _, _, _, _, _, _, delegates⟩ := succeeds
      exact .delegates (akin_of_allowances _ _ _) delegates
  | mine blocks seconds =>
      cases succeeds
      exact .mine blocks seconds

/-- A change of the ledger, and the move of votes that goes with it. -/
theorem records_of_move {t : TribeState}
    (succeeds : _moveDelegates t srcRep dstRep amount = .ok s')
    (checkpoints : t.checkpoints = s.checkpoints) (count : t.numCheckpoints = s.numCheckpoints)
    (block : t.blockNumber = s.blockNumber) : Records s s' := by
  have moved := moved_of_moveDelegates succeeds
  refine Records.trans ⟨block, fun _ recorded a => ?_, fun a b _ => ?_⟩ moved.toRecords
  · exact (recorded a).congr checkpoints count (Nat.le_of_eq block.symm)
  · exact votesAt_congr checkpoints count a b

/-- **Transactions and records.** -/
theorem Transaction.records (transaction : Transaction s s') :
    Records s s' ∨ ∃ blocks seconds, s' = { s with
      blockNumber := s.blockNumber + blocks, timestamp := s.timestamp + seconds } := by
  cases transaction with
  | keeps akin => exact .inl akin.records
  | delegates akin succeeds =>
      rw [delegate_eq] at succeeds
      exact .inl (akin.records.trans (records_of_move succeeds rfl rfl rfl))
  | transfers akin succeeds =>
      obtain ⟨_, _, _, _, moves⟩ := transferTokens_eq_ok_iff.mp succeeds
      exact .inl (akin.records.trans (records_of_move moves rfl rfl rfl))
  | mints succeeds =>
      obtain ⟨_, _, _, _, _, _, moves⟩ := mint_eq_ok_iff.mp succeeds
      exact .inl (records_of_move moves rfl rfl rfl)
  | mine blocks seconds => exact .inr ⟨blocks, seconds, rfl⟩

/-! ## The clock -/

theorem timestamp_of_writeVotes {change : Nat → Except Revert Nat}
    (succeeds : writeVotes s rep change = .ok s') : s'.timestamp = s.timestamp := by
  rcases wrote_of_writeVotes succeeds with ⟨_, same⟩ | ⟨_, votes, k, _, _, same⟩
  · rw [same]
  · rw [same]
    rfl

theorem timestamp_of_moveDelegates (succeeds : _moveDelegates s srcRep dstRep amount = .ok s') :
    s'.timestamp = s.timestamp := by
  unfold _moveDelegates at succeeds
  split at succeeds
  · obtain ⟨m, first, second⟩ := bind_eq_ok_iff.mp succeeds
    exact (timestamp_of_writeVotes second).trans (timestamp_of_writeVotes first)
  · cases succeeds
    rfl

theorem timestamp_of_transferTokens {src dst : Address}
    (succeeds : _transferTokens s src dst amount = .ok s') : s'.timestamp = s.timestamp := by
  obtain ⟨_, _, _, _, moves⟩ := transferTokens_eq_ok_iff.mp succeeds
  rw [timestamp_of_moveDelegates moves]
  rfl

theorem timestamp_of_mint {sender dst : Address}
    (succeeds : Tribe.mint s sender dst amount = .ok s') : s'.timestamp = s.timestamp := by
  obtain ⟨_, _, _, _, _, _, moves⟩ := mint_eq_ok_iff.mp succeeds
  rw [timestamp_of_moveDelegates moves]
  rfl

/-- Time passes between transactions only. -/
theorem timestamp_le_of_step {act : Action} (succeeds : step env s act = .ok s') :
    s.timestamp ≤ s'.timestamp := by
  cases act with
  | setMinter sender minter_ =>
      simp only [step, setMinter, bind_eq_ok_iff, pure_eq_ok_iff] at succeeds
      obtain ⟨_, _, same⟩ := succeeds
      subst same
      exact Nat.le_refl _
  | mint sender dst rawAmount => exact Nat.le_of_eq (timestamp_of_mint succeeds).symm
  | approve sender spender rawAmount =>
      simp only [step, approve, bind_eq_ok_iff, pure_eq_ok_iff] at succeeds
      obtain ⟨_, _, same⟩ := succeeds
      subst same
      exact Nat.le_refl _
  | permit owner spender rawAmount deadline v r sig =>
      simp only [step, permit, bind_eq_ok_iff, pure_eq_ok_iff] at succeeds
      obtain ⟨_, _, _, _, _, _, _, _, _, _, same⟩ := succeeds
      subst same
      exact Nat.le_refl _
  | transfer sender dst rawAmount =>
      obtain ⟨_, _, transfers⟩ := bind_eq_ok_iff.mp succeeds
      exact Nat.le_of_eq (timestamp_of_transferTokens transfers).symm
  | transferFrom sender src dst rawAmount =>
      simp only [step, transferFrom, bind_eq_ok_iff] at succeeds
      obtain ⟨amount, _, t, spends, transfers⟩ := succeeds
      rw [timestamp_of_transferTokens transfers]
      split at spends
      · simp only [bind_eq_ok_iff, pure_eq_ok_iff] at spends
        obtain ⟨_, _, same⟩ := spends
        subst same
        exact Nat.le_refl _
      · cases spends
        exact Nat.le_refl _
  | delegate sender delegatee =>
      rw [step, delegate, delegate_eq] at succeeds
      rw [timestamp_of_moveDelegates succeeds]
      exact Nat.le_refl _
  | delegateBySig delegatee nonce expiry v r sig =>
      simp only [step, delegateBySig, bind_eq_ok_iff] at succeeds
      obtain ⟨_, _, _, _, _, _, _, _, delegates⟩ := succeeds
      rw [delegate_eq] at delegates
      rw [timestamp_of_moveDelegates delegates]
      exact Nat.le_refl _
  | mine blocks seconds =>
      cases succeeds
      exact Nat.le_add_right _ _

end Tribe

namespace Tribe.Sample

/-- Signatures with `v = 27` are those of account 7. -/
def env : TribeEnv where
  precompiles := { keccak256 := fun _ => 0, ecrecover := fun _ v _ _ => if v = 27 then 7 else 0 }
  this := 0xEE
  chainId := 1

/-- Account 5 holds the supply, account 1 mints. -/
def start : TribeState := constructed 5 1 99 1000

/-- Account 5 delegates to itself and pays account 7, which delegates to account 6 by signature
and to account 5 later. -/
def history : List Action :=
  [.delegate 5 5, .transfer 5 7 1000, .mine 10 120, .delegateBySig 6 0 2000 27 0 0,
    .transfer 5 7 500, .mine 5 60, .mint 1 7 20, .mine 1 12, .delegate 7 5, .mine 3 36]

end Tribe.Sample

end FeiProtocol
