import FeiProtocol.Evm.Execution

/-!
# Calls that call back

A contract works through a list of calls to others, and whoever is called may call the contract
again before it returns. What the others do is not known, so a transaction says it: the calls that
each callee makes, and whether it returns or reverts. A callee that reverts takes the work down
with it. A call that reverts inside a callee has no effect.

* `KeepsAmong.perform`: an invariant that speaks of the work in progress, under which only some
  jobs start, and that some of the calls and jobs keep, holds after every transaction that makes
  no others, unless inside a job that does not start.
* `Keeps.perform`: an invariant that every single step keeps holds after every transaction.

Nothing here mentions a contract.
-/

namespace Evm

/-- A contract with calls `α` that only concern itself, and jobs `ι` that are lists of calls `β`
to others. -/
structure Callbacks (ε σ α ι β : Type) : Type where
  call : σ → α → Except ε σ
  /-- what is done at the start of a job, and the calls that it is to make -/
  start : σ → ι → Except ε (σ × List β)
  /-- what is done for a call up to the moment of calling -/
  before : σ → ι → β → Except ε σ
  /-- the revert after a callee that reverted -/
  failed : ε

mutual

inductive Transaction (α ι : Type) : Type where
  | call (a : α)
  | work (i : ι) (replies : Replies α ι)

/-- What the callees of a job do, in turn. -/
inductive Replies (α ι : Type) : Type where
  | none
  | next (inner : Transactions α ι) (success : Bool) (later : Replies α ι)

inductive Transactions (α ι : Type) : Type where
  | none
  | next (transaction : Transaction α ι) (later : Transactions α ι)

end

section All

variable {α ι : Type} (P : α → Prop) (A Q : ι → Prop)

mutual

/-- Every call in it satisfies `P` and every job `A`, except inside the jobs that do not
satisfy `Q`. -/
def Transaction.All : Transaction α ι → Prop
  | .call a => P a
  | .work i replies => A i ∧ (Q i → replies.All)

def Replies.All : Replies α ι → Prop
  | .none => True
  | .next inner _ later => inner.All ∧ later.All

def Transactions.All : Transactions α ι → Prop
  | .none => True
  | .next transaction later => transaction.All ∧ later.All

end

end All

namespace Callbacks

variable {ε σ α ι β : Type} (m : Callbacks ε σ α ι β)

mutual

def perform : Transaction α ι → σ → Except ε σ
  | .call a, s => m.call s a
  | .work i replies, s => do
      let (s, calls) ← m.start s i
      answer i replies calls s

/-- The calls that are left of a job. A callee that is not said to return reverts. -/
def answer (i : ι) : Replies α ι → List β → σ → Except ε σ
  | _, [], s => .ok s
  | .none, _ :: _, _ => .error m.failed
  | .next inner success later, b :: calls, s => do
      let s ← m.before s i b
      let s := performAll inner s
      if success then answer i later calls s else .error m.failed

def performAll : Transactions α ι → σ → σ
  | .none, s => s
  | .next transaction later, s =>
      performAll later (match perform transaction s with
        | .ok s' => s'
        | .error _ => s)

end

variable {m}

/-- The calls that satisfy `P` and the jobs that satisfy `A` keep an invariant under which only
jobs that satisfy `Q` start. The invariant speaks of the jobs in progress, innermost first, with
the calls that are left of each. -/
structure KeepsAmong (m : Callbacks ε σ α ι β) (P : α → Prop) (A Q : ι → Prop)
    (I : List (ι × List β) → σ → Prop) : Prop where
  call : ∀ {jobs s a s'}, I jobs s → P a → m.call s a = .ok s' → I jobs s'
  start : ∀ {jobs s i s' calls}, I jobs s → A i → m.start s i = .ok (s', calls) →
    Q i ∧ I ((i, calls) :: jobs) s'
  before : ∀ {jobs s i b calls s'}, I ((i, b :: calls) :: jobs) s → m.before s i b = .ok s' →
    I ((i, calls) :: jobs) s'
  finish : ∀ {jobs s i}, I ((i, []) :: jobs) s → I jobs s

variable {P : α → Prop} {A Q : ι → Prop} {I : List (ι × List β) → σ → Prop}

mutual

theorem KeepsAmong.perform (keeps : KeepsAmong m P A Q I) (transaction : Transaction α ι)
    (all : transaction.All P A Q) (jobs : List (ι × List β)) (s s' : σ) (init : I jobs s)
    (succeeds : m.perform transaction s = .ok s') : I jobs s' := by
  cases transaction with
  | call a => exact keeps.call init all succeeds
  | work i replies =>
      rw [Callbacks.perform] at succeeds
      obtain ⟨⟨t, calls⟩, starts, answers⟩ := bind_eq_ok_iff.mp succeeds
      obtain ⟨among, started⟩ := keeps.start init all.1 starts
      exact keeps.finish
        (keeps.answer replies (all.2 among) i calls jobs t s' started answers)
termination_by structural transaction

theorem KeepsAmong.answer (keeps : KeepsAmong m P A Q I) (replies : Replies α ι)
    (all : replies.All P A Q) (i : ι) (calls : List β) (jobs : List (ι × List β)) (s s' : σ)
    (init : I ((i, calls) :: jobs) s) (succeeds : m.answer i replies calls s = .ok s') :
    I ((i, []) :: jobs) s' := by
  cases replies with
  | none =>
      cases calls with
      | nil =>
          rw [Callbacks.answer] at succeeds
          cases succeeds
          exact init
      | cons b calls =>
          rw [Callbacks.answer] at succeeds
          cases succeeds
  | next inner success later =>
      cases calls with
      | nil =>
          rw [Callbacks.answer] at succeeds
          cases succeeds
          exact init
      | cons b calls =>
          rw [Callbacks.answer] at succeeds
          obtain ⟨t, called, rest⟩ := bind_eq_ok_iff.mp succeeds
          have inside := keeps.performAll inner all.1 _ t (keeps.before init called)
          cases success with
          | false => cases rest
          | true => exact keeps.answer later all.2 i calls jobs _ s' inside rest
termination_by structural replies

theorem KeepsAmong.performAll (keeps : KeepsAmong m P A Q I) (transactions : Transactions α ι)
    (all : transactions.All P A Q) (jobs : List (ι × List β)) (s : σ) (init : I jobs s) :
    I jobs (m.performAll transactions s) := by
  cases transactions with
  | none =>
      rw [Callbacks.performAll]
      exact init
  | next transaction later =>
      rw [Callbacks.performAll]
      refine keeps.performAll later all.2 jobs _ ?_
      split
      · rename_i s' called
        exact keeps.perform transaction all.1 jobs s s' init called
      · exact init
termination_by structural transactions

end

/-! ## Without a restriction -/

mutual

theorem all_of_forall (every : ∀ a, P a) (each : ∀ i, A i) (transaction : Transaction α ι) :
    transaction.All P A Q := by
  cases transaction with
  | call a => exact every a
  | work i replies => exact ⟨each i, fun _ => replies_all_of_forall every each replies⟩
termination_by structural transaction

theorem replies_all_of_forall (every : ∀ a, P a) (each : ∀ i, A i) (replies : Replies α ι) :
    replies.All P A Q := by
  cases replies with
  | none => trivial
  | next inner success later =>
      exact ⟨transactions_all_of_forall every each inner, replies_all_of_forall every each later⟩
termination_by structural replies

theorem transactions_all_of_forall (every : ∀ a, P a) (each : ∀ i, A i)
    (transactions : Transactions α ι) : transactions.All P A Q := by
  cases transactions with
  | none => trivial
  | next transaction later =>
      exact ⟨all_of_forall every each transaction, transactions_all_of_forall every each later⟩
termination_by structural transactions

end

/-- Every single step keeps an invariant, which speaks of the jobs in progress, innermost first,
with the calls that are left of each. -/
structure Keeps (m : Callbacks ε σ α ι β) (I : List (ι × List β) → σ → Prop) : Prop where
  call : ∀ {jobs s a s'}, I jobs s → m.call s a = .ok s' → I jobs s'
  start : ∀ {jobs s i s' calls}, I jobs s → m.start s i = .ok (s', calls) →
    I ((i, calls) :: jobs) s'
  before : ∀ {jobs s i b calls s'}, I ((i, b :: calls) :: jobs) s → m.before s i b = .ok s' →
    I ((i, calls) :: jobs) s'
  finish : ∀ {jobs s i}, I ((i, []) :: jobs) s → I jobs s

theorem Keeps.among (keeps : Keeps m I) :
    KeepsAmong m (fun _ => True) (fun _ => True) (fun _ => True) I where
  call init _ succeeds := keeps.call init succeeds
  start init _ succeeds := ⟨trivial, keeps.start init succeeds⟩
  before init succeeds := keeps.before init succeeds
  finish init := keeps.finish init

/-- **Callbacks.** What every single step keeps, every transaction keeps. -/
theorem Keeps.perform (keeps : Keeps m I) (transaction : Transaction α ι)
    (jobs : List (ι × List β)) (s s' : σ) (init : I jobs s)
    (succeeds : m.perform transaction s = .ok s') : I jobs s' :=
  keeps.among.perform transaction
    (all_of_forall (fun _ => trivial) (fun _ => trivial) transaction) jobs s s' init succeeds

end Callbacks

end Evm
