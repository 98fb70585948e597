import FeiProtocol.Evm.Machine

/-!
# Nonces

A contract that acts on signed messages keeps a counter for each signer. A message is accepted
for the current nonce of its signer only, and moves it on by one.

* `accepted`: the messages that the successful transactions of a run had accepted, in order.
* `Discipline.numbers_eq`: those of one signer have consecutive nonces.
* `Discipline.pairwise`: no two messages are of one signer and one nonce.

Nothing here mentions a contract.
-/

namespace Evm.Nonces

variable {ε σ α ι β : Type} {call : σ → α → Except ε σ} {message : σ → α → Option β}

/-- The messages accepted in a run, oldest first. -/
def accepted (call : σ → α → Except ε σ) (message : σ → α → Option β) : σ → List α → List β
  | _, [] => []
  | s, a :: as =>
      (match call s a with
        | .ok _ => (message s a).toList
        | .error _ => []) ++ accepted call message (commit call s a) as

/-- A property of each message at its acceptance. -/
theorem forall_accepted {I : σ → Prop} {P : β → Prop} {A : α → Prop}
    (step : ∀ {s a s'}, I s → A a → call s a = .ok s' → I s' ∧ ∀ m, message s a = some m → P m)
    {s : σ} (init : I s) {as : List α} (adm : ∀ a ∈ as, A a) :
    ∀ m ∈ accepted call message s as, P m := by
  induction as generalizing s with
  | nil => exact fun m mem => absurd mem List.not_mem_nil
  | cons a as ih =>
      have rest := fun b mem => adm b (List.mem_cons_of_mem _ mem)
      rw [accepted]
      cases called : call s a with
      | error e =>
          rw [commit_of_error called]
          exact ih init rest
      | ok s' =>
          obtain ⟨kept, here⟩ := step init (adm a List.mem_cons_self) called
          rw [commit_of_ok called]
          intro m mem
          rcases List.mem_append.mp mem with now | later
          · exact here m (Option.mem_toList.mp now)
          · exact ih kept rest m later

variable [DecidableEq ι]

/-- Each message is of a signer and of a number, its signer's nonce when it is accepted. -/
structure Discipline (call : σ → α → Except ε σ) (message : σ → α → Option β) (signer : β → ι)
    (number : β → Nat) (nonce : σ → ι → Nat) : Prop where
  silent : ∀ {s a s'}, call s a = .ok s' → message s a = none → nonce s' = nonce s
  uses : ∀ {s a s' m}, call s a = .ok s' → message s a = some m →
    number m = nonce s (signer m) ∧
      nonce s' = Function.update (nonce s) (signer m) (nonce s (signer m) + 1)

variable {signer : β → ι} {number : β → Nat} {nonce : σ → ι → Nat}

/-- The messages of one signer. -/
def ofSigner (signer : β → ι) (i : ι) (ms : List β) : List β :=
  ms.filter fun m => signer m = i

/-- **In order.** The messages of a signer are accepted with consecutive nonces, from the one at
the start of the run to the one at its end. -/
theorem Discipline.numbers_eq (discipline : Discipline call message signer number nonce) (i : ι)
    (s : σ) (as : List α) :
    (ofSigner signer i (accepted call message s as)).map number =
      List.range' (nonce s i) (nonce (run call s as) i - nonce s i) ∧
    nonce s i ≤ nonce (run call s as) i := by
  induction as generalizing s with
  | nil => simp [accepted, ofSigner]
  | cons a as ih =>
      rw [accepted, run_cons]
      cases called : call s a with
      | error e =>
          rw [commit_of_error called]
          exact ih s
      | ok s' =>
          rw [commit_of_ok called]
          obtain ⟨numbers, le⟩ := ih s'
          cases used : message s a with
          | none =>
              rw [← discipline.silent called used]
              exact ⟨numbers, le⟩
          | some m =>
              obtain ⟨current, next⟩ := discipline.uses called used
              by_cases mine : signer m = i
              · have here : nonce s' i = nonce s i + 1 := by
                  rw [next, mine, Function.update_self]
                have all : ofSigner signer i ((some m).toList ++ accepted call message s' as) =
                    m :: ofSigner signer i (accepted call message s' as) := by
                  simp [ofSigner, mine]
                refine ⟨?_, by omega⟩
                rw [all, List.map_cons, numbers, here, current, mine]
                have split : nonce (run call s' as) i - nonce s i =
                    nonce (run call s' as) i - (nonce s i + 1) + 1 := by omega
                rw [split, List.range'_succ]
              · have here : nonce s' i = nonce s i := by
                  rw [next, Function.update_of_ne (Ne.symm mine)]
                have all : ofSigner signer i ((some m).toList ++ accepted call message s' as) =
                    ofSigner signer i (accepted call message s' as) := by
                  simp [ofSigner, mine]
                rw [all, ← here]
                exact ⟨numbers, le⟩

theorem Discipline.le_number (discipline : Discipline call message signer number nonce) {s : σ}
    {as : List α} {m : β} (mem : m ∈ accepted call message s as) :
    nonce s (signer m) ≤ number m := by
  obtain ⟨numbers, _⟩ := discipline.numbers_eq (signer m) s as
  have inside : m ∈ ofSigner signer (signer m) (accepted call message s as) :=
    List.mem_filter.mpr ⟨mem, decide_eq_true rfl⟩
  have number := List.mem_map_of_mem (f := number) inside
  rw [numbers] at number
  exact (List.mem_range'_1.mp number).1

/-- **At most once.** No two messages of a run are of one signer and one nonce. -/
theorem Discipline.pairwise (discipline : Discipline call message signer number nonce) (s : σ)
    (as : List α) : (accepted call message s as).Pairwise fun m m' =>
      ¬ (signer m = signer m' ∧ number m = number m') := by
  induction as generalizing s with
  | nil => exact .nil
  | cons a as ih =>
      rw [accepted]
      cases called : call s a with
      | error e =>
          rw [commit_of_error called]
          exact ih s
      | ok s' =>
          rw [commit_of_ok called]
          cases used : message s a with
          | none => exact ih s'
          | some m =>
              obtain ⟨current, next⟩ := discipline.uses called used
              refine List.pairwise_cons.mpr ⟨?_, ih s'⟩
              intro m' mem same
              have later := discipline.le_number mem
              rw [← same.1, next, Function.update_self] at later
              omega

end Evm.Nonces
