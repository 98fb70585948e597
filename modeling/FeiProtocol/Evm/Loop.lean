import FeiProtocol.Evm.Execution
import Mathlib.Data.List.Basic

/-!
# Loops that may revert

A `for` loop whose body may revert is a `List.foldlM` in `Except`, and a `while` loop runs
its body until it leaves with a value. The rules for the former are stated on successful loops,
since a reverted loop leaves no state:

* `foldlM_invariant`: what the body keeps, the loop keeps.
* `foldlM_ok_congr`: bodies that succeed alike make loops that succeed alike.
* `forM_eq_ok_iff`, `mapM_eq_ok_iff`: loops of independent bodies.
* `foldlM_accumulate`: loops that add up.
* `foldlM_range_invariant`, `foldlM_range_total`: loops that count, with an invariant that knows
  how far they have come.
* `foldlM_assign_iff`, `assigned_of_mem`: loops that assign.
* `foldlM_fission`: one loop doing `f` then `g` for each element is the loop
  doing every `f` followed by the loop doing every `g`, when `g` for one element
  commutes with `f` for any other.
* `whileM_total`: a body that keeps an invariant and lowers a measure leaves its loop.

Nothing here mentions a contract.
-/

namespace Evm

variable {ε σ α : Type} {f g : σ → α → Except ε σ}

theorem foldlM_nil_eq_ok_iff {s s' : σ} :
    ([] : List α).foldlM f s = .ok s' ↔ s = s' := by
  rw [List.foldlM_nil, pure_eq_ok_iff]

theorem foldlM_cons_eq_ok_iff {s s' : σ} {a : α} {l : List α} :
    (a :: l).foldlM f s = .ok s' ↔ ∃ m, f s a = .ok m ∧ l.foldlM f m = .ok s' := by
  rw [List.foldlM_cons, bind_eq_ok_iff]

theorem foldlM_append_eq_ok_iff {s s' : σ} {l l' : List α} :
    (l ++ l').foldlM f s = .ok s' ↔ ∃ m, l.foldlM f s = .ok m ∧ l'.foldlM f m = .ok s' := by
  rw [List.foldlM_append, bind_eq_ok_iff]

/-- **Loop invariants**: an admissible body step that succeeds keeps `I`. -/
theorem foldlM_invariant {I : σ → Prop} {l : List α}
    (step : ∀ {s a s'}, I s → a ∈ l → f s a = .ok s' → I s')
    {s s' : σ} (init : I s) (succeeds : l.foldlM f s = .ok s') : I s' := by
  induction l generalizing s with
  | nil =>
      rw [foldlM_nil_eq_ok_iff] at succeeds
      exact succeeds ▸ init
  | cons a l ih =>
      obtain ⟨m, head, tail⟩ := foldlM_cons_eq_ok_iff.mp succeeds
      exact ih (fun hs hb => step hs (List.mem_cons_of_mem _ hb))
        (step init List.mem_cons_self head) tail

section Counted

variable {I : Nat → σ → Prop} {body : σ → Nat → Except ε σ} {n : Nat} {s : σ}

/-- **Counted loops**: what holds before the first iteration, and after each that succeeds if it
did before, holds after the last. -/
theorem foldlM_range_invariant
    (step : ∀ {k m m'}, k < n → I k m → body m k = .ok m' → I (k + 1) m')
    {s' : σ} (init : I 0 s) (succeeds : (List.range n).foldlM body s = .ok s') : I n s' := by
  induction n generalizing s' with
  | zero =>
      rw [List.range_zero, foldlM_nil_eq_ok_iff] at succeeds
      exact succeeds ▸ init
  | succ n ih =>
      rw [List.range_succ, List.foldlM_append, bind_eq_ok_iff] at succeeds
      obtain ⟨m, before, last⟩ := succeeds
      obtain ⟨m', here, same⟩ := foldlM_cons_eq_ok_iff.mp last
      rw [foldlM_nil_eq_ok_iff] at same
      subst same
      exact step (Nat.lt_succ_self n) (ih (fun less => step (Nat.lt_succ_of_lt less)) before) here

/-- If besides each iteration succeeds, so does the loop. -/
theorem foldlM_range_total
    (step : ∀ {k m}, k < n → I k m → ∃ m', body m k = .ok m' ∧ I (k + 1) m')
    (init : I 0 s) : ∃ s', (List.range n).foldlM body s = .ok s' ∧ I n s' := by
  induction n with
  | zero => exact ⟨s, rfl, init⟩
  | succ n ih =>
      obtain ⟨m, before, reached⟩ := ih fun less => step (Nat.lt_succ_of_lt less)
      obtain ⟨m', here, holds⟩ := step (Nat.lt_succ_self n) reached
      refine ⟨m', ?_, holds⟩
      rw [List.range_succ, List.foldlM_append, bind_eq_ok_iff]
      exact ⟨m, before, foldlM_cons_eq_ok_iff.mpr ⟨m', here, rfl⟩⟩

end Counted

/-- What the body never reverts with, the loop never reverts with. -/
theorem Fails.foldlM {E : ε → Prop} (body : ∀ s a, Fails E (f s a)) (s : σ) (l : List α) :
    Fails E (l.foldlM f s) := by
  induction l generalizing s with
  | nil => exact fails_pure s
  | cons a l ih =>
      rw [List.foldlM_cons]
      exact (body s a).bind fun m _ => ih m

/-- Bodies that succeed alike, from states that satisfy an invariant, make loops
that succeed alike. -/
theorem foldlM_ok_congr {I : σ → Prop} {l : List α}
    (agree : ∀ {s a s'}, I s → a ∈ l → (f s a = .ok s' ↔ g s a = .ok s'))
    (step : ∀ {s a s'}, I s → a ∈ l → f s a = .ok s' → I s')
    {s s' : σ} (init : I s) : l.foldlM f s = .ok s' ↔ l.foldlM g s = .ok s' := by
  induction l generalizing s with
  | nil => rw [foldlM_nil_eq_ok_iff, foldlM_nil_eq_ok_iff]
  | cons a l ih =>
      have rest : ∀ {m}, I m → (l.foldlM f m = .ok s' ↔ l.foldlM g m = .ok s') :=
        ih (fun hs hb => agree hs (List.mem_cons_of_mem _ hb))
          (fun hs hb => step hs (List.mem_cons_of_mem _ hb))
      rw [foldlM_cons_eq_ok_iff, foldlM_cons_eq_ok_iff]
      constructor
      · intro given
        rcases given with ⟨m, head, tail⟩
        exact ⟨m, (agree init List.mem_cons_self).mp head,
          (rest (step init List.mem_cons_self head)).mp tail⟩
      · intro given
        rcases given with ⟨m, head, tail⟩
        have head' := (agree init List.mem_cons_self).mpr head
        exact ⟨m, head', (rest (step init List.mem_cons_self head')).mpr tail⟩

/-- A loop of checks passes exactly when every check does. -/
theorem forM_eq_ok_iff {check : α → Except ε Unit} {l : List α} :
    l.forM check = .ok () ↔ ∀ a ∈ l, check a = .ok () := by
  induction l with
  | nil => simp [List.forM, pure, Except.pure]
  | cons a l ih =>
      rw [List.forall_mem_cons, ← ih]
      exact seq_eq_ok_iff

/-- A loop that computes `v a` for every element `a` whose condition `P a` holds. -/
theorem mapM_eq_ok_iff {β : Type} {f : α → Except ε β} {P : α → Prop} {v : α → β} {l : List α}
    {vs : List β} (each : ∀ a ∈ l, ∀ b, f a = .ok b ↔ P a ∧ v a = b) :
    l.mapM f = .ok vs ↔ (∀ a ∈ l, P a) ∧ l.map v = vs := by
  induction l generalizing vs with
  | nil => simp [pure_eq_ok_iff]
  | cons a l ih =>
      obtain ⟨head, tail⟩ := List.forall_mem_cons.mp each
      simp only [List.mapM_cons, bind_eq_ok_iff, pure_eq_ok_iff, head, ih tail,
        List.forall_mem_cons, List.map_cons]
      constructor
      · intro given
        rcases given with ⟨b, ⟨here, value⟩, bs, ⟨rest, values⟩, same⟩
        exact ⟨⟨here, rest⟩, by rw [value, values, same]⟩
      · intro given
        rcases given with ⟨⟨here, rest⟩, same⟩
        exact ⟨v a, ⟨here, rfl⟩, l.map v, ⟨rest, rfl⟩, same⟩

/-- **Loops that accumulate.** A body that adds to the state as long as that stays in range makes
a loop that adds everything, if the sum is in range. -/
theorem foldlM_accumulate {P : α → Prop} (InRange : σ → Prop) (plus : σ → α → σ)
    (body : ∀ s a s', InRange s → (f s a = .ok s' ↔ P a ∧ InRange (plus s a) ∧ plus s a = s'))
    (grows : ∀ s a, InRange (plus s a) → InRange s) {s s' : σ} (init : InRange s) (l : List α) :
    l.foldlM f s = .ok s' ↔
      (∀ a ∈ l, P a) ∧ InRange (l.foldl plus s) ∧ l.foldl plus s = s' := by
  have before : ∀ (l : List α) (s : σ), InRange (l.foldl plus s) → InRange s := by
    intro l
    induction l with
    | nil => exact fun _ inside => inside
    | cons a l ih => exact fun s inside => grows s a (ih (plus s a) inside)
  induction l generalizing s with
  | nil =>
      rw [foldlM_nil_eq_ok_iff]
      exact ⟨fun same => ⟨fun a mem => absurd mem List.not_mem_nil, init, same⟩,
        fun all => all.2.2⟩
  | cons a l ih =>
      rw [foldlM_cons_eq_ok_iff, List.foldl_cons, List.forall_mem_cons]
      constructor
      · intro given
        rcases given with ⟨m, head, tail⟩
        obtain ⟨first, inside, same⟩ := (body s a m init).mp head
        rw [← same] at tail
        obtain ⟨rest, last⟩ := (ih inside).mp tail
        exact ⟨⟨first, rest⟩, last⟩
      · intro given
        rcases given with ⟨⟨first, rest⟩, last⟩
        have inside := before l (plus s a) last.1
        exact ⟨plus s a, (body s a _ init).mpr ⟨first, inside, rfl⟩, (ih inside).mpr ⟨rest, last⟩⟩

section Assignments

variable {K V : Type} [DecidableEq K] {k : K} {v : V} {es : List (K × V)}

/-- The mapping after a loop of assignments. -/
def assigned (m : K → V) (es : List (K × V)) : K → V :=
  es.foldl (fun m e => Function.update m e.1 e.2) m

theorem assigned_of_notMem (m : K → V) (absent : k ∉ es.map Prod.fst) : assigned m es k = m k := by
  induction es generalizing m with
  | nil => rfl
  | cons e rest ih =>
      rw [List.map_cons, List.mem_cons, not_or] at absent
      exact (ih (Function.update m e.1 e.2) absent.2).trans (Function.update_of_ne absent.1 _ _)

/-- **Assignments to different keys** do not overwrite one another. -/
theorem assigned_of_mem (m : K → V) (distinct : (es.map Prod.fst).Nodup) (mem : (k, v) ∈ es) :
    assigned m es k = v := by
  induction es generalizing m with
  | nil => cases mem
  | cons e rest ih =>
      rw [List.map_cons, List.nodup_cons] at distinct
      rcases List.mem_cons.mp mem with here | later
      · subst here
        exact (assigned_of_notMem _ distinct.1).trans (Function.update_self _ _ _)
      · exact ih (Function.update m e.1 e.2) distinct.2 later

/-- A loop that checks each pair and assigns it, in a mapping that is part of the state. -/
theorem foldlM_assign_iff (get : σ → K → V) (put : σ → (K → V) → σ) (P : K × V → Prop)
    {body : σ → K × V → Except ε σ} (get_put : ∀ s m, get (put s m) = m)
    (put_put : ∀ s m m', put (put s m) m' = put s m') (put_get : ∀ s, put s (get s) = s)
    (body_iff : ∀ s e s', body s e = .ok s' ↔
      P e ∧ put s (Function.update (get s) e.1 e.2) = s') {s s' : σ} :
    es.foldlM body s = .ok s' ↔ (∀ e ∈ es, P e) ∧ put s (assigned (get s) es) = s' := by
  induction es generalizing s with
  | nil =>
      rw [foldlM_nil_eq_ok_iff, assigned, List.foldl_nil, put_get]
      exact ⟨fun same => ⟨fun e mem => absurd mem List.not_mem_nil, same⟩, fun both => both.2⟩
  | cons e rest ih =>
      rw [foldlM_cons_eq_ok_iff, List.forall_mem_cons]
      have next : ∀ m, put s (Function.update (get s) e.1 e.2) = m →
          put m (assigned (get m) rest) = put s (assigned (get s) (e :: rest)) := by
        intro m same
        rw [← same, get_put, put_put]
        rfl
      constructor
      · intro given
        rcases given with ⟨m, head, tail⟩
        obtain ⟨here, same⟩ := (body_iff s e m).mp head
        obtain ⟨later, last⟩ := ih.mp tail
        exact ⟨⟨here, later⟩, (next m same).symm.trans last⟩
      · intro given
        rcases given with ⟨⟨here, later⟩, last⟩
        exact ⟨_, (body_iff s e _).mpr ⟨here, rfl⟩, ih.mpr ⟨later, (next _ rfl).trans last⟩⟩

end Assignments

/-- `g` for one element, done before or after `f` for another, succeeds alike. -/
def Commutes (f g : σ → α → Except ε σ) : Prop :=
  ∀ s a b s', (∃ m, g s a = .ok m ∧ f m b = .ok s') ↔ ∃ m, f s b = .ok m ∧ g m a = .ok s'

theorem Commutes.foldlM (comm : Commutes f g) (s : σ) (a : α) (l : List α) (s' : σ) :
    (∃ m, g s a = .ok m ∧ l.foldlM f m = .ok s') ↔
      ∃ m, l.foldlM f s = .ok m ∧ g m a = .ok s' := by
  induction l generalizing s with
  | nil => simp [pure_eq_ok_iff]
  | cons b l ih =>
      calc
        (∃ m, g s a = .ok m ∧ (b :: l).foldlM f m = .ok s')
          ↔ ∃ n, (∃ m, g s a = .ok m ∧ f m b = .ok n) ∧ l.foldlM f n = .ok s' := by
            simp only [foldlM_cons_eq_ok_iff]
            constructor
            · intro ⟨m, hg, n, hf, rest⟩; exact ⟨n, ⟨m, hg, hf⟩, rest⟩
            · intro ⟨n, ⟨m, hg, hf⟩, rest⟩; exact ⟨m, hg, n, hf, rest⟩
        _ ↔ ∃ k, f s b = .ok k ∧ ∃ n, g k a = .ok n ∧ l.foldlM f n = .ok s' := by
            simp only [comm s a b]
            constructor
            · intro ⟨n, ⟨k, hf, hg⟩, rest⟩; exact ⟨k, hf, n, hg, rest⟩
            · intro ⟨k, hf, n, hg, rest⟩; exact ⟨n, ⟨k, hf, hg⟩, rest⟩
        _ ↔ ∃ m, (b :: l).foldlM f s = .ok m ∧ g m a = .ok s' := by
            simp only [ih, foldlM_cons_eq_ok_iff]
            constructor
            · intro ⟨k, hf, m, rest, hg⟩; exact ⟨m, ⟨k, hf, rest⟩, hg⟩
            · intro ⟨m, ⟨k, hf, rest⟩, hg⟩; exact ⟨k, hf, m, rest, hg⟩

/-- **Loop fission.** -/
theorem foldlM_fission (comm : Commutes f g) (l : List α) (s s' : σ) :
    (∃ m, l.foldlM f s = .ok m ∧ l.foldlM g m = .ok s') ↔
      l.foldlM (fun s a => f s a >>= fun m => g m a) s = .ok s' := by
  induction l generalizing s with
  | nil => simp [pure_eq_ok_iff]
  | cons a l ih =>
      simp only [foldlM_cons_eq_ok_iff, bind_eq_ok_iff, ← ih]
      constructor
      · intro given
        rcases given with ⟨m, ⟨k, hf, rest⟩, n, hg, last⟩
        -- `g` for `a` comes after every `f`; move it back to where `a` was.
        obtain ⟨j, hg', rest'⟩ := (comm.foldlM k a l n).mpr ⟨m, rest, hg⟩
        exact ⟨j, ⟨k, hf, hg'⟩, n, rest', last⟩
      · intro given
        rcases given with ⟨j, ⟨k, hf, hg⟩, n, rest, last⟩
        obtain ⟨m, rest', hg'⟩ := (comm.foldlM k a l n).mp ⟨j, hg, rest⟩
        exact ⟨m, ⟨k, hf, rest'⟩, n, hg', last⟩

/-! ## `while` -/

section While

variable {β : Type} {body : σ → Except ε (σ ⊕ β)}

/-- At most `fuel` iterations of a loop whose body goes on with a state or leaves with a value;
`none` when they are not enough. -/
def whileM (body : σ → Except ε (σ ⊕ β)) : Nat → σ → Option (Except ε β)
  | 0, _ => none
  | fuel + 1, s =>
      match body s with
      | .error e => some (.error e)
      | .ok (.inl s') => whileM body fuel s'
      | .ok (.inr v) => some (.ok v)

/-- **Total correctness.** -/
theorem whileM_total {I : σ → Prop} {Q : β → Prop} (measure : σ → Nat)
    (step : ∀ s, I s → (∃ s', body s = .ok (.inl s') ∧ I s' ∧ measure s' < measure s) ∨
      ∃ v, body s = .ok (.inr v) ∧ Q v)
    {s : σ} (init : I s) {fuel : Nat} (enough : measure s < fuel) :
    ∃ v, whileM body fuel s = some (.ok v) ∧ Q v := by
  induction fuel generalizing s with
  | zero => exact absurd enough (Nat.not_lt_zero _)
  | succ fuel ih =>
      rcases step s init with ⟨s', next, kept, less⟩ | ⟨v, leaves, holds⟩
      · obtain ⟨v, rest, holds⟩ := ih kept (Nat.lt_of_lt_of_le less (Nat.le_of_lt_succ enough))
        refine ⟨v, ?_, holds⟩
        rw [whileM, next]
        exact rest
      · refine ⟨v, ?_, holds⟩
        rw [whileM, leaves]

end While

end Evm
