import Mathlib.Data.List.Perm.Basic
import Mathlib.Data.List.Nodup

/-!
# Finite sets with an enumeration

A representation of finite sets that can list its members, in an order of its own. What a program
may rely on is in the fields of the class; `SwapAndPop` is a representation that fills the gap
of a removed member with the last one.
-/

/-- Finite sets of `α`, represented by `σ`. -/
class EnumerableSet (σ : Type) (α : outParam Type) where
  empty : σ
  values : σ → List α
  add : σ → α → σ
  remove : σ → α → σ
  nodup_values : ∀ s, (values s).Nodup
  values_empty : values empty = []
  mem_values_add : ∀ {s a b}, b ∈ values (add s a) ↔ b = a ∨ b ∈ values s
  mem_values_remove : ∀ {s a b}, b ∈ values (remove s a) ↔ b ≠ a ∧ b ∈ values s

namespace EnumerableSet

variable {σ α : Type} [EnumerableSet σ α]

attribute [simp] values_empty mem_values_add mem_values_remove

def length (s : σ) : Nat := (values s).length

theorem length_eq_zero_iff {s : σ} : length s = 0 ↔ values s = [] := List.length_eq_zero_iff

end EnumerableSet

/-! ## A representation -/

/-- Lists without duplicates. -/
structure SwapAndPop (α : Type) : Type where
  values : List α
  nodup : values.Nodup

namespace SwapAndPop

variable {α : Type} [DecidableEq α]

/-- The last member takes the place of `a`. -/
def pop (a : α) : List α → List α
  | [] => []
  | b :: l =>
      if b = a then
        match l.getLast? with
        | none => []
        | some last => last :: l.dropLast
      else b :: pop a l

theorem pop_perm (a : α) (l : List α) : (pop a l).Perm (l.erase a) := by
  induction l with
  | nil => exact .refl _
  | cons b l ih =>
      by_cases same : b = a
      · rw [pop, if_pos same, same, List.erase_cons_head]
        rcases l.eq_nil_or_concat with none | ⟨l, last, some⟩
        · rw [none]
          exact .refl _
        · rw [some, List.concat_eq_append, List.getLast?_concat, List.dropLast_concat]
          exact (List.perm_append_singleton last l).symm
      · rw [pop, if_neg same, List.erase_cons_tail (by simpa using same)]
        exact ih.cons b

instance : EnumerableSet (SwapAndPop α) α where
  empty := ⟨[], List.nodup_nil⟩
  values := values
  add s a := if absent : a ∉ s.values then ⟨s.values ++ [a], by
      refine List.nodup_append.mpr ⟨s.nodup, List.nodup_singleton a, fun b mem c last same => ?_⟩
      rw [List.mem_singleton.mp last] at same
      exact absent (same ▸ mem)⟩ else s
  remove s a := ⟨pop a s.values, (pop_perm a s.values).nodup_iff.mpr (s.nodup.erase a)⟩
  nodup_values := nodup
  values_empty := rfl
  mem_values_add {s a b} := by
    split
    · rw [List.mem_append, List.mem_singleton, or_comm]
    · rename_i present
      constructor
      · exact .inr
      · intro given
        rcases given with same | mem
        · exact same ▸ not_not.mp present
        · exact mem
  mem_values_remove {s a b} := by
    rw [(pop_perm a s.values).mem_iff, s.nodup.mem_erase_iff]

end SwapAndPop
