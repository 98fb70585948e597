import FeiProtocol.Evm.Machine

/-!
# The blocks of a run

A state knows the number of the block it is in, and no transaction takes that number back.
`stateBefore` is the state with which a block begins.

* `stateBefore_append`: what is past does not change.
* `run_history`: an invariant that speaks of a state and of the states with which its block and
  the blocks before it began.
-/

namespace Evm

variable {ε σ α : Type} (call : σ → α → Except ε σ) (block : σ → Nat)

/-- The last state of a run before block `b`. -/
def stateBefore : σ → List α → Nat → σ
  | s, [], _ => s
  | s, a :: as, b =>
      if block (commit call s a) < b then stateBefore (commit call s a) as b else s

/-- Blocks are not taken back. -/
def Clock : Prop :=
  ∀ ⦃s a s'⦄, call s a = .ok s' → block s ≤ block s'

variable {call block}

theorem Clock.commit_le (clock : Clock call block) (s : σ) (a : α) :
    block s ≤ block (commit call s a) := by
  rcases commit_cases call s a with same | succeeds
  · rw [same]
  · exact clock succeeds

theorem Clock.run_le (clock : Clock call block) (s : σ) (as : List α) :
    block s ≤ block (run call s as) := by
  induction as generalizing s with
  | nil => exact Nat.le_refl _
  | cons a as ih => exact Nat.le_trans (clock.commit_le s a) (ih _)

/-- **What is past does not change.** -/
theorem stateBefore_append (clock : Clock call block) {s : σ} {as : List α} {b : Nat}
    (past : b ≤ block (run call s as)) (bs : List α) :
    stateBefore call block s (as ++ bs) b = stateBefore call block s as b := by
  induction as generalizing s with
  | nil =>
      cases bs with
      | nil => rfl
      | cons a bs =>
          have ended : ¬ block (commit call s a) < b :=
            Nat.not_lt.mpr (Nat.le_trans past (clock.commit_le s a))
          exact if_neg ended
  | cons a as ih =>
      rw [List.cons_append, stateBefore, stateBefore, ih past]

theorem stateBefore_concat_of_lt (clock : Clock call block) {s : σ} {as : List α} {a : α}
    {b : Nat} (later : block (run call s as) < b)
    (reached : b ≤ block (run call s (as ++ [a]))) :
    stateBefore call block s (as ++ [a]) b = run call s as := by
  induction as generalizing s with
  | nil =>
      exact if_neg (Nat.not_lt.mpr reached)
  | cons a' as ih =>
      have first : block (commit call s a') < b :=
        Nat.lt_of_le_of_lt (clock.run_le (commit call s a') as) later
      rw [List.cons_append, stateBefore, if_pos first, ih later reached, run_cons]

/-- **Histories.** `I began s` speaks of the states `began b` for blocks `b` up to that of `s`. -/
theorem run_history {I : (Nat → σ) → σ → Prop} {P : α → Prop} (clock : Clock call block)
    (frame : ∀ {g g' s}, I g s → (∀ b ≤ block s, g' b = g b) → I g' s)
    (step : ∀ {g g' s a s'}, I g s → P a → call s a = .ok s' → (∀ b ≤ block s, g' b = g b) →
      (∀ b, block s < b → b ≤ block s' → g' b = s) → I g' s')
    {s : σ} (init : I (fun _ => s) s) {as : List α} (adm : ∀ a ∈ as, P a) :
    I (stateBefore call block s as) (run call s as) := by
  induction as using List.reverseRecOn with
  | nil => exact init
  | append_singleton as a ih =>
      have before := ih fun a' mem => adm a' (List.mem_append_left _ mem)
      have kept : ∀ b ≤ block (run call s as),
          stateBefore call block s (as ++ [a]) b = stateBefore call block s as b :=
        fun b past => stateBefore_append clock past [a]
      have begun : ∀ b, block (run call s as) < b → b ≤ block (run call s (as ++ [a])) →
          stateBefore call block s (as ++ [a]) b = run call s as :=
        fun b later reached => stateBefore_concat_of_lt clock later reached
      rw [run_append, run_cons, run_nil] at begun ⊢
      rcases commit_cases call (run call s as) a with same | succeeds
      · rw [same]
        exact frame before kept
      · exact step before (adm a (List.mem_append_right _ List.mem_cons_self)) succeeds kept begun

end Evm
