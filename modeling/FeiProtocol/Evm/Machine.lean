import FeiProtocol.Evm.Execution
import Mathlib.Algebra.Group.Defs

/-!
# Transaction machines

A contract in its environment is a partial step function `call`: a transaction
either succeeds with a new state or reverts. `commit` is what the chain keeps
of a transaction, so a revert leaves the state as it was, and `run` is a
sequence of transactions from a given state.

* `run_invariant`: a property that every successful admissible call keeps
  holds along every run of admissible calls.
* `run_relation`: so does a reflexive and transitive relation to the first state,
  here with conditions on each transaction that depend on the state it is made in
  (`Along`).
* `run_iff_along`: a property that a transaction keeps exactly under a condition holds throughout
  a run exactly under that condition on its transactions.
* `exists_last_change`: what a run changes was last changed by one of its transactions.
* `run_total`: a relation that also measures what each successful transaction adds
  to a `total` measures the total of a run.

Nothing here mentions a contract.
-/

namespace Evm

variable {ε σ α : Type} (call : σ → α → Except ε σ)

/-- The state after a transaction: the new one if it succeeds, the old one if it reverts. -/
def commit (s : σ) (a : α) : σ :=
  match call s a with
  | .ok s' => s'
  | .error _ => s

/-- The state after a sequence of transactions. -/
def run (s : σ) (as : List α) : σ :=
  as.foldl (commit call) s

/-- A committed transaction either did nothing or succeeded. -/
theorem commit_cases (s : σ) (a : α) :
    commit call s a = s ∨ call s a = .ok (commit call s a) := by
  unfold commit
  cases call s a with
  | error e => exact .inl rfl
  | ok s' => exact .inr rfl

variable {call}

theorem commit_of_ok {s s' : σ} {a : α} (succeeds : call s a = .ok s') :
    commit call s a = s' := by
  simp [commit, succeeds]

theorem commit_of_error {s : σ} {a : α} {e : ε} (reverts : call s a = .error e) :
    commit call s a = s := by
  simp [commit, reverts]

@[simp]
theorem run_nil (s : σ) : run call s [] = s := rfl

@[simp]
theorem run_cons (s : σ) (a : α) (as : List α) :
    run call s (a :: as) = run call (commit call s a) as := rfl

theorem run_append (s : σ) (as bs : List α) :
    run call s (as ++ bs) = run call (run call s as) bs := by
  simp [run]

/-- **Invariants.** What every successful admissible call keeps holds after every
run of admissible calls. -/
theorem run_invariant {I : σ → Prop} {A : α → Prop}
    (step : ∀ {s a s'}, I s → A a → call s a = .ok s' → I s')
    {s : σ} (init : I s) {as : List α} (adm : ∀ a ∈ as, A a) :
    I (run call s as) := by
  induction as generalizing s with
  | nil => exact init
  | cons a as ih =>
      refine ih ?_ fun b hb => adm b (List.mem_cons_of_mem _ hb)
      rcases commit_cases call s a with same | succeeds
      · rw [same]; exact init
      · exact step init (adm a List.mem_cons_self) succeeds

/-- `P` holds of every transaction of a run, at the state in which it is made. -/
def Along (call : σ → α → Except ε σ) (P : σ → α → Prop) : σ → List α → Prop
  | _, [] => True
  | s, a :: as => P s a ∧ Along call P (commit call s a) as

instance Along.decidable (call : σ → α → Except ε σ) (P : σ → α → Prop)
    [∀ s a, Decidable (P s a)] : ∀ (s : σ) (as : List α), Decidable (Along call P s as)
  | _, [] => .isTrue trivial
  | s, a :: as =>
      have : Decidable (Along call P (commit call s a) as) := decidable call P _ as
      inferInstanceAs (Decidable (P s a ∧ Along call P (commit call s a) as))

theorem Along.and_forall {P : σ → α → Prop} {Q : α → Prop} {s : σ} {as : List α}
    (along : Along call P s as) (holds : ∀ a ∈ as, Q a) :
    Along call (fun s a => P s a ∧ Q a) s as := by
  induction as generalizing s with
  | nil => trivial
  | cons a as ih =>
      exact ⟨⟨along.1, holds a List.mem_cons_self⟩,
        ih along.2 fun b hb => holds b (List.mem_cons_of_mem _ hb)⟩

theorem Along.imp {P Q : σ → α → Prop} {s : σ} {as : List α} (along : Along call P s as)
    (implies : ∀ s a, P s a → Q s a) : Along call Q s as := by
  induction as generalizing s with
  | nil => trivial
  | cons a as ih => exact ⟨implies s a along.1, ih along.2⟩

theorem along_of_forall {P : α → Prop} {s : σ} {as : List α} (holds : ∀ a ∈ as, P a) :
    Along call (fun _ a => P a) s as := by
  induction as generalizing s with
  | nil => trivial
  | cons a as ih =>
      exact ⟨holds a List.mem_cons_self, ih fun b hb => holds b (List.mem_cons_of_mem _ hb)⟩

theorem along_append {P : σ → α → Prop} {s : σ} {as bs : List α} :
    Along call P s (as ++ bs) ↔ Along call P s as ∧ Along call P (run call s as) bs := by
  induction as generalizing s with
  | nil => simp [Along]
  | cons a as ih => simp only [List.cons_append, Along, run_cons, ih, and_assoc]

/-- **Monotonicity.** A reflexive and transitive relation that every successful
transaction of a run respects, from states that satisfy an invariant, relates
the two ends of the run. -/
theorem run_relation {I : σ → Prop} {R : σ → σ → Prop} {P : σ → α → Prop}
    (refl : ∀ s, R s s) (trans : ∀ {s t u}, R s t → R t u → R s u)
    (step : ∀ {s a s'}, I s → P s a → call s a = .ok s' → I s' ∧ R s s')
    {s : σ} (init : I s) {as : List α} (along : Along call P s as) :
    I (run call s as) ∧ R s (run call s as) := by
  induction as generalizing s with
  | nil => exact ⟨init, refl s⟩
  | cons a as ih =>
      obtain ⟨here, rest⟩ := along
      rcases commit_cases call s a with same | succeeds
      · rw [same] at rest
        rw [run_cons, same]
        exact ih init rest
      · obtain ⟨kept, related⟩ := step init here succeeds
        obtain ⟨inv, later⟩ := ih kept rest
        exact ⟨inv, trans related later⟩

/-- **Exact conditions.** If, from the states that satisfy an invariant and `Q`, a successful
transaction keeps `Q` exactly when `P` holds of it, then `Q` holds of every state of a run
exactly when `P` holds of every successful transaction of it. -/
theorem run_iff_along {I Q : σ → Prop} {P : σ → α → Prop} {A : α → Prop}
    (step : ∀ {s a s'}, I s → Q s → A a → call s a = .ok s' → I s' ∧ (Q s' ↔ P s a))
    {s : σ} (init : I s) (good : Q s) {as : List α} (adm : ∀ a ∈ as, A a) :
    (∀ bs, bs <+: as → Q (run call s bs)) ↔
      Along call (fun s a => ∀ s', call s a = .ok s' → P s a) s as := by
  induction as generalizing s with
  | nil =>
      refine ⟨fun _ => trivial, fun _ bs start => ?_⟩
      rw [List.prefix_nil.mp start]
      exact good
  | cons a as ih =>
      have rest := fun b mem => adm b (List.mem_cons_of_mem _ mem)
      have here := adm a List.mem_cons_self
      constructor
      · intro always
        have first : Q (commit call s a) := always [a] ⟨as, rfl⟩
        have later : ∀ bs, bs <+: as → Q (run call (commit call s a) bs) := fun bs start =>
          always (a :: bs) (List.cons_prefix_cons.mpr ⟨rfl, start⟩)
        rcases commit_cases call s a with same | succeeds
        · refine ⟨fun s' succeeds => ?_, ?_⟩
          · have same' := commit_of_ok succeeds
            rw [same] at same'
            subst same'
            exact (step init good here succeeds).2.mp good
          · rw [same] at later ⊢
            exact (ih init good rest).mp later
        · obtain ⟨kept, exact⟩ := step init good here succeeds
          exact ⟨fun _ _ => exact.mp first, (ih kept first rest).mp later⟩
      · rintro ⟨first, later⟩ bs start
        have kept : I (commit call s a) ∧ Q (commit call s a) := by
          rcases commit_cases call s a with same | succeeds
          · rw [same]
            exact ⟨init, good⟩
          · obtain ⟨kept, exact⟩ := step init good here succeeds
            exact ⟨kept, exact.mpr (first _ succeeds)⟩
        cases bs with
        | nil => exact good
        | cons b bs =>
            obtain ⟨same, inside⟩ := List.cons_prefix_cons.mp start
            subst same
            exact (ih kept.1 kept.2 rest).mpr later bs inside

/-- **Last changes.** What a run changes, some transaction of it changed last. -/
theorem exists_last_change {β : Type} {f : σ → β} {s : σ} {as : List α}
    (changed : f (run call s as) ≠ f s) :
    ∃ before a after s', as = before ++ a :: after ∧ call (run call s before) a = .ok s' ∧
      f s' ≠ f (run call s before) ∧ run call s' after = run call s as ∧
      f s' = f (run call s as) ∧
      Along call (fun t b => ∀ t', call t b = .ok t' → f t' = f t) s' after := by
  induction as using List.reverseRecOn with
  | nil => exact absurd rfl changed
  | append_singleton as a ih =>
      rw [run_append, run_cons, run_nil] at changed ⊢
      by_cases here : f (commit call (run call s as) a) = f (run call s as)
      · rw [here] at changed ⊢
        obtain ⟨before, b, after, s', split, succeeds, changes, reached, last, along⟩ := ih changed
        refine ⟨before, b, after ++ [a], s', ?_, succeeds, changes, ?_, last, ?_⟩
        · rw [split, List.append_assoc, List.cons_append]
        · rw [run_append, reached, run_cons, run_nil]
        · rw [along_append, reached]
          exact ⟨along, fun t' called => commit_of_ok called ▸ here, trivial⟩
      · rcases commit_cases call (run call s as) a with same | succeeds
        · exact absurd (congrArg f same) here
        · exact ⟨as, a, [], _, rfl, succeeds, here, rfl, rfl, trivial⟩

/-! ## Totals -/

section Total

variable {M : Type} [AddMonoid M]

/-- The sum of a quantity over the successful transactions of a run. -/
def total (call : σ → α → Except ε σ) (quantity : σ → α → σ → M) : σ → List α → M
  | _, [] => 0
  | s, a :: as =>
      (match call s a with
        | .ok s' => quantity s a s'
        | .error _ => 0) + total call quantity (commit call s a) as

variable {quantity : σ → α → σ → M}

theorem total_eq_zero {q : σ → α → M} {s : σ} {as : List α}
    (along : Along call (fun s a => ∀ s', call s a = .ok s' → q s a = 0) s as) :
    total call (fun s a _ => q s a) s as = 0 := by
  induction as generalizing s with
  | nil => rfl
  | cons a as ih =>
      rw [total, ih along.2, add_zero]
      split
      · rename_i s' succeeds
        exact along.1 s' succeeds
      · rfl

theorem total_le {q : σ → α → Nat} {c : Nat} (bound : ∀ s a, q s a ≤ c) (s : σ) (as : List α) :
    total call (fun s a _ => q s a) s as ≤ as.length * c := by
  induction as generalizing s with
  | nil => exact Nat.zero_le _
  | cons a as ih =>
      rw [total, List.length_cons, Nat.succ_mul, Nat.add_comm]
      refine Nat.add_le_add (ih _) ?_
      split
      · exact bound s a
      · exact Nat.zero_le _

/-- **Totals.** A relation between two states and the amount between them, which
composes by adding amounts, holds between the ends of a run and its total. -/
theorem run_total {I : σ → Prop} {R : σ → M → σ → Prop} {P : σ → α → Prop}
    (refl : ∀ s, R s 0 s) (trans : ∀ {s t u m n}, R s m t → R t n u → R s (m + n) u)
    (step : ∀ {s a s'}, I s → P s a → call s a = .ok s' → I s' ∧ R s (quantity s a s') s')
    {s : σ} (init : I s) {as : List α} (along : Along call P s as) :
    I (run call s as) ∧ R s (total call quantity s as) (run call s as) := by
  induction as generalizing s with
  | nil => exact ⟨init, refl s⟩
  | cons a as ih =>
      obtain ⟨here, rest⟩ := along
      rw [total, run_cons]
      cases called : call s a with
      | error e =>
          rw [commit_of_error called] at rest ⊢
          rw [zero_add]
          exact ih init rest
      | ok s' =>
          rw [commit_of_ok called] at rest ⊢
          obtain ⟨kept, first⟩ := step init here called
          obtain ⟨inv, later⟩ := ih kept rest
          exact ⟨inv, trans first later⟩

/-- **Ranking.** If every successful transaction lowers a rank, there are no more of them in a run
than the rank goes down. -/
theorem total_add_rank_le {m : σ → Nat} (lowers : ∀ {s a s'}, call s a = .ok s' → m s' < m s)
    (s : σ) (as : List α) : total call (fun _ _ _ => 1) s as + m (run call s as) ≤ m s := by
  have ranked := @run_total _ _ _ call _ _ (fun _ _ _ => 1) (fun _ => True)
    (fun s n s' => n + m s' ≤ m s) (fun _ _ => True) (fun s => by omega)
    (fun first second => by omega) ?_ s trivial as (along_of_forall fun _ _ => trivial)
  · exact ranked.2
  · intro s a s' _ _ succeeds
    have lower := lowers succeeds
    exact ⟨trivial, by omega⟩

/-- If besides a transaction succeeds wherever the rank is not zero, enough of them lower it to
zero. -/
theorem rank_run_eq_zero {m : σ → Nat} (lowers : ∀ {s a s'}, call s a = .ok s' → m s' < m s)
    (live : ∀ s a, m s ≠ 0 → ∃ s', call s a = .ok s') {s : σ} {as : List α}
    (enough : m s ≤ as.length) : m (run call s as) = 0 := by
  induction as generalizing s with
  | nil => exact Nat.le_zero.mp enough
  | cons a as ih =>
      rw [List.length_cons] at enough
      rw [run_cons]
      apply ih
      rcases commit_cases call s a with same | succeeds
      · rw [same]
        rcases Nat.eq_zero_or_pos (m s) with zero | positive
        · omega
        · obtain ⟨s', succeeds⟩ := live s a (Nat.ne_of_gt positive)
          have lower := lowers succeeds
          rw [commit_of_ok succeeds] at same
          rw [same] at lower
          exact absurd lower (Nat.lt_irrefl _)
      · have lower := lowers succeeds
        omega

end Total

end Evm
