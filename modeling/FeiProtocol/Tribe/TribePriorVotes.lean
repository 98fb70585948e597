import FeiProtocol.Evm.History
import FeiProtocol.Tribe.TribeSteps

/-!
# Historical votes of `Tribe`

The binary search of `getPriorVotes` finds the last checkpoint that is not after a block, and
that checkpoint has the votes with which the block ended.

* `getPriorVotes_eq_votesAt`: the search ends, without a panic, at the right checkpoint.
* `Remembers`: the invariant that ties the checkpoints to the states of the past.
* `getPriorVotes_eq_votes`: every answer is the votes at the end of the block, for good.
-/

namespace FeiProtocol

open Evm

namespace Tribe

open Checkpoints

variable {env : TribeEnv} {s s' : TribeState} {a : Address} {b : Nat}

/-! ## The search -/

section Search

variable {checkpoints : Nat → Checkpoint} {n lower upper : Nat}

/-- An iteration of the loop. -/
theorem narrow_of_lt (less : lower < upper) :
    narrow checkpoints b (lower, upper) =
      if (checkpoints (upper - (upper - lower) / 2)).fromBlock = b then
        .ok (.inr (checkpoints (upper - (upper - lower) / 2)).votes)
      else if (checkpoints (upper - (upper - lower) / 2)).fromBlock < b then
        .ok (.inl (upper - (upper - lower) / 2, upper))
      else .ok (.inl (lower, upper - (upper - lower) / 2 - 1)) := by
  have gap : checkedSub upper lower = .ok (upper - lower) :=
    checkedSub_eq_ok_iff.mpr ⟨Nat.le_of_lt less, rfl⟩
  have center : checkedSub upper ((upper - lower) / 2) = .ok (upper - (upper - lower) / 2) :=
    checkedSub_eq_ok_iff.mpr ⟨by omega, rfl⟩
  have below : checkedSub (upper - (upper - lower) / 2) 1 =
      .ok (upper - (upper - lower) / 2 - 1) :=
    checkedSub_eq_ok_iff.mpr ⟨by omega, rfl⟩
  refine (if_pos less).trans ?_
  simp only [gap, center, below, bind, Except.bind, pure, Except.pure]

/-- An iteration narrows the bounds or finds the votes. -/
theorem narrow_of_bracket (increasing : Increasing (fun i => (checkpoints i).fromBlock) n)
    (bracket : Bracket (fun i => (checkpoints i).fromBlock) n b lower upper) :
    (∃ bounds : Nat × Nat, narrow checkpoints b (lower, upper) = .ok (.inl bounds) ∧
      Bracket (fun i => (checkpoints i).fromBlock) n b bounds.1 bounds.2 ∧
      bounds.2 - bounds.1 < upper - lower) ∨
    ∃ v, narrow checkpoints b (lower, upper) = .ok (.inr v) ∧
      lookup 0 (fun i => (checkpoints i).fromBlock) (fun i => (checkpoints i).votes) n b = v := by
  rcases Nat.lt_or_eq_of_le bracket.ordered with less | same
  · have above : lower < upper - (upper - lower) / 2 := by omega
    have le : upper - (upper - lower) / 2 ≤ upper := Nat.sub_le _ _
    rw [narrow_of_lt less]
    split
    · rename_i found
      exact .inr ⟨_, rfl, bracket.found increasing le found⟩
    · rename_i other
      split
      · rename_i before
        refine .inl ⟨_, rfl, bracket.center_le le (Nat.le_of_lt before), ?_⟩
        dsimp only
        omega
      · rename_i reached
        have later : b < (checkpoints (upper - (upper - lower) / 2)).fromBlock := by omega
        refine .inl ⟨_, rfl, bracket.lt_center increasing above le later, ?_⟩
        dsimp only
        omega
  · subst same
    exact .inr ⟨_, if_neg (Nat.lt_irrefl lower), bracket.lookup_eq⟩

end Search

/-- **The search.** It ends at the last checkpoint that is not after block `b`. -/
theorem getPriorVotes_eq_votesAt (recorded : Recorded s a) (past : b < s.blockNumber)
    {fuel : Nat} (enough : s.numCheckpoints a < fuel) :
    getPriorVotes s fuel a b = some (.ok (votesAt s a b)) := by
  unfold getPriorVotes
  rw [if_neg (not_not.mpr past)]
  by_cases none : s.numCheckpoints a = 0
  · simp only [none, if_true, votesAt, lookup]
  · have count : s.numCheckpoints a = s.numCheckpoints a - 1 + 1 := by omega
    have inside : s.numCheckpoints a - 1 < s.numCheckpoints a := by omega
    simp only [none, if_false]
    split
    · rename_i reached
      rw [votesAt, count, lookup_succ_of_le reached]
      rfl
    · rename_i last
      split
      · rename_i first
        have later : ∀ i < s.numCheckpoints a, b < (s.checkpoints a i).fromBlock :=
          fun i less => Nat.lt_of_lt_of_le first
            (recorded.increasing.le_of_le (Nat.zero_le i) less)
        rw [votesAt, lookup_eq_zero later]
      · rename_i first
        have bracket : Bracket (fun i => (s.checkpoints a i).fromBlock) (s.numCheckpoints a) b 0
            (s.numCheckpoints a - 1) :=
          ⟨Nat.zero_le _, inside, Nat.not_lt.mp first, fun i after less => by omega⟩
        obtain ⟨v, ends, value⟩ := whileM_total (I := fun bounds : Nat × Nat =>
            Bracket (fun i => (s.checkpoints a i).fromBlock) (s.numCheckpoints a) b bounds.1
              bounds.2)
          (s := (0, s.numCheckpoints a - 1)) (fun bounds => bounds.2 - bounds.1)
          (fun bounds bracket => narrow_of_bracket recorded.increasing bracket) bracket
          (Nat.lt_trans inside enough)
        rw [ends, ← value]
        rfl

/-! ## The past -/

/-- From the last checkpoint on. -/
theorem votesAt_of_le (recorded : Recorded s a) (reached : s.blockNumber ≤ b) :
    votesAt s a b = getCurrentVotes s a := by
  unfold votesAt getCurrentVotes
  rcases Nat.eq_zero_or_pos (s.numCheckpoints a) with none | some
  · rw [none]
    rfl
  · have count : s.numCheckpoints a = s.numCheckpoints a - 1 + 1 := by omega
    have last := recorded.past (s.numCheckpoints a - 1) (by omega)
    rw [if_pos some]
    rw [count, lookup_succ_of_le (Nat.le_trans last reached)]
    rfl

/-- The checkpoints agree with the states in which the blocks of the past ended. -/
structure Remembers (began : Nat → TribeState) (s : TribeState) : Prop where
  mined : 0 < s.blockNumber
  recorded : ∀ a, Recorded s a
  past : ∀ a, ∀ b < s.blockNumber, votesAt s a b = getCurrentVotes (began (b + 1)) a

theorem Remembers.frame {began began' : Nat → TribeState} (remembers : Remembers began s)
    (same : ∀ b ≤ s.blockNumber, began' b = began b) : Remembers began' s where
  mined := remembers.mined
  recorded := remembers.recorded
  past a b past := by
    rw [same (b + 1) past]
    exact remembers.past a b past

/-- **The step.** -/
theorem Transaction.remembers {began : Nat → TribeState} (transaction : Transaction s s')
    (remembers : Remembers began s)
    (ended : ∀ b, s.blockNumber < b → b ≤ s'.blockNumber → began b = s) :
    Remembers began s' := by
  rcases transaction.records with records | ⟨blocks, seconds, same⟩
  · refine ⟨records.block ▸ remembers.mined,
      records.recorded remembers.mined remembers.recorded, fun a b past => ?_⟩
    rw [records.block] at past
    rw [records.past a b past]
    exact remembers.past a b past
  · subst same
    refine ⟨Nat.add_pos_left remembers.mined _, fun a => ?_, fun a b past => ?_⟩
    · exact (remembers.recorded a).congr rfl rfl (Nat.le_add_right _ _)
    · rcases Nat.lt_or_ge b s.blockNumber with before | reached
      · exact remembers.past a b before
      · have unchanged : votesAt s a b = getCurrentVotes s a :=
          votesAt_of_le (remembers.recorded a) reached
        rw [ended (b + 1) (Nat.lt_succ_of_le reached) past]
        exact unchanged

theorem clock (env : TribeEnv) : Clock (step env) TribeState.blockNumber := by
  intro s act s' succeeds
  rcases (transaction_of_step succeeds).records with records | ⟨blocks, seconds, same⟩
  · exact Nat.le_of_eq records.block.symm
  · rw [same]
    exact Nat.le_add_right _ _

/-- **The run.** -/
theorem remembers_run (env : TribeEnv) (account minter_ : Address) (parent timestamp : Nat)
    (history : List Action) :
    Remembers (stateBefore (step env) TribeState.blockNumber
      (constructed account minter_ parent timestamp) history)
      (run (step env) (constructed account minter_ parent timestamp) history) := by
  refine run_history (I := Remembers) (P := fun _ => True) (clock env)
    (fun remembers same => remembers.frame same)
    (fun remembers _ succeeds same ended =>
      (transaction_of_step succeeds).remembers (remembers.frame same) ended) ?_
    fun _ _ => trivial
  exact ⟨Nat.succ_pos parent, recorded_constructed account minter_ parent timestamp,
    fun _ _ _ => rfl⟩

/-- **Historical votes.** The checkpoints of an account are in order, and whatever happens later,
the answer for a block that is past is the votes that the account had at the end of that block. -/
theorem getPriorVotes_eq_votes {account minter_ : Address} {parent timestamp : Nat}
    {history : List Action}
    (reached : s = run (step env) (constructed account minter_ parent timestamp) history)
    (a : Address) :
    s.numCheckpoints a < 2 ^ 32 ∧
    StrictMonoOn (fun i => (s.checkpoints a i).fromBlock) (Set.Iio (s.numCheckpoints a)) ∧
    ∀ b < s.blockNumber, ∃ votes,
      votes = getCurrentVotes (stateBefore (step env) TribeState.blockNumber
        (constructed account minter_ parent timestamp) history (b + 1)) a ∧
      ((∀ i < s.numCheckpoints a, b < (s.checkpoints a i).fromBlock) → votes = 0) ∧
      ∀ (later : List Action) (fuel : Nat), (run (step env) s later).numCheckpoints a < fuel →
        getPriorVotes (run (step env) s later) fuel a b = some (.ok votes) := by
  subst reached
  have remembers := remembers_run env account minter_ parent timestamp history
  refine ⟨(remembers.recorded a).count, (remembers.recorded a).increasing, fun b past =>
    ⟨_, rfl, fun first => ?_, fun later fuel enough => ?_⟩⟩
  · rw [← remembers.past a b past]
    exact lookup_eq_zero first
  · have remembers' := remembers_run env account minter_ parent timestamp
      (history ++ later)
    have unchanged := stateBefore_append (clock env) (b := b + 1) past later
    have past' := Nat.lt_of_lt_of_le past ((clock env).run_le _ later)
    rw [run_append] at remembers'
    rw [getPriorVotes_eq_votesAt (remembers'.recorded a) past' enough,
      remembers'.past a b past', unchanged]

theorem getPriorVotes_eq_votes_sample :
    getPriorVotes (run (step Sample.env) (run (step Sample.env) Sample.start Sample.history)
      [.delegate 7 6, .mine 4 48]) 5 6 110 = some (.ok 1500) := by
  have reached : run (step Sample.env) Sample.start Sample.history =
    run (step Sample.env) (constructed 5 1 99 1000) Sample.history := rfl
  obtain ⟨_, _, past⟩ := getPriorVotes_eq_votes reached 6
  obtain ⟨votes, value, _, answers⟩ := past 110 (by decide)
  have ended : getCurrentVotes (stateBefore (step Sample.env) TribeState.blockNumber
      (constructed 5 1 99 1000) Sample.history (110 + 1)) 6 = 1500 := by decide
  rw [← ended, ← value]
  exact answers [.delegate 7 6, .mine 4 48] 5 (by decide)

end Tribe

end FeiProtocol
