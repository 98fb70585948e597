import FeiProtocol.Math.EnumerableSet
import Mathlib.Algebra.BigOperators.Group.Finset.Basic
import Mathlib.Logic.Function.Basic

/-!
# Maps with their fibres

A map `f` whose value `unset` means that there is none, kept together with the set of all `d` for
each value and the set of the values that are taken.

* `Fibred.insert`, `Fibred.delete`: one `d` gets a value or loses it.
* `Fibred.nodup_members`, `Fibred.mem_members`: going through the sets meets each `d` that has
  a value once.
* `Fibred.sum_values`, `Fibred.sum_fibre`: sums along the enumerations.
-/

open EnumerableSet

variable {D T F I : Type} [EnumerableSet F D] [EnumerableSet I T] {unset : T} {f : D → T}
  {fibre : T → F} {image : I} {d : D} {t : T}

/-- `fibre` and `image` are the fibres and the image of `f`. -/
structure Fibred (unset : T) (f : D → T) (fibre : T → F) (image : I) : Prop where
  mem_fibre : ∀ d t, d ∈ values (fibre t) ↔ f d = t ∧ t ≠ unset
  mem_image : ∀ t, t ∈ values image ↔ values (fibre t) ≠ []

namespace Fibred

theorem empty : Fibred unset (fun _ : D => unset) (fun _ => (empty : F))
    (EnumerableSet.empty : I) where
  mem_fibre d t := by
    rw [values_empty]
    exact ⟨fun mem => absurd mem List.not_mem_nil, fun both => absurd both.1.symm both.2⟩
  mem_image t := by
    rw [values_empty, values_empty]
    exact ⟨fun mem => absurd mem List.not_mem_nil, fun some => absurd rfl some⟩

theorem exists_of_mem_image (fibred : Fibred unset f fibre image) (mem : t ∈ values image) :
    ∃ d, f d = t ∧ t ≠ unset := by
  obtain ⟨d, inside⟩ := List.exists_mem_of_ne_nil _ ((fibred.mem_image t).mp mem)
  exact ⟨d, (fibred.mem_fibre d t).mp inside⟩

theorem mem_image_of_ne (fibred : Fibred unset f fibre image) (set : f d ≠ unset) :
    f d ∈ values image :=
  (fibred.mem_image (f d)).mpr
    (List.ne_nil_of_mem ((fibred.mem_fibre d (f d)).mpr ⟨rfl, set⟩))

/-! ## Updates -/

section Updates

variable [DecidableEq D] [DecidableEq T]

/-- `d` gets the value `t`. -/
theorem insert (fibred : Fibred unset f fibre image) (free : f d = unset) (set : t ≠ unset) :
    Fibred unset (Function.update f d t) (Function.update fibre t (add (fibre t) d))
      (add image t) where
  mem_fibre d' t' := by
    by_cases value : t' = t
    · rw [value, Function.update_self, mem_values_add, fibred.mem_fibre]
      by_cases here : d' = d
      · rw [here, Function.update_self]
        exact ⟨fun _ => ⟨rfl, set⟩, fun _ => .inl rfl⟩
      · rw [Function.update_of_ne here]
        exact ⟨fun either => either.resolve_left here, .inr⟩
    · rw [Function.update_of_ne value, fibred.mem_fibre]
      by_cases here : d' = d
      · rw [here, free, Function.update_self]
        exact ⟨fun both => absurd both.1.symm both.2, fun both => absurd both.1.symm value⟩
      · rw [Function.update_of_ne here]
  mem_image t' := by
    rw [mem_values_add]
    by_cases value : t' = t
    · rw [value, Function.update_self]
      exact ⟨fun _ => List.ne_nil_of_mem (mem_values_add.mpr (.inl rfl)), fun _ => .inl rfl⟩
    · rw [Function.update_of_ne value, ← fibred.mem_image t']
      exact ⟨fun either => either.resolve_left value, .inr⟩

/-- `d` loses its value; when it was the last with that value, the value is taken out too. -/
theorem delete (fibred : Fibred unset f fibre image) (value : f d = t) (set : t ≠ unset) :
    Fibred unset (Function.update f d unset) (Function.update fibre t (remove (fibre t) d))
      (if length (remove (fibre t) d) = 0 then remove image t else image) where
  mem_fibre d' t' := by
    by_cases same : t' = t
    · rw [same, Function.update_self, mem_values_remove, fibred.mem_fibre]
      by_cases here : d' = d
      · rw [here, Function.update_self]
        exact ⟨fun both => absurd rfl both.1, fun both => absurd both.1.symm both.2⟩
      · rw [Function.update_of_ne here]
        exact ⟨fun both => both.2, fun both => ⟨here, both⟩⟩
    · rw [Function.update_of_ne same, fibred.mem_fibre]
      by_cases here : d' = d
      · rw [here, value, Function.update_self]
        exact ⟨fun both => absurd both.1.symm same, fun both => absurd both.1.symm both.2⟩
      · rw [Function.update_of_ne here]
  mem_image t' := by
    by_cases same : t' = t
    · rw [same, Function.update_self]
      split
      · rename_i last
        rw [mem_values_remove, length_eq_zero_iff.mp last]
        exact ⟨fun both => absurd rfl both.1, fun some => absurd rfl some⟩
      · rename_i more
        have present : t ∈ values image := value ▸ fibred.mem_image_of_ne (value ▸ set)
        exact ⟨fun _ none => more (length_eq_zero_iff.mpr none), fun _ => present⟩
    · rw [Function.update_of_ne same, ← fibred.mem_image t']
      split
      · rw [mem_values_remove]
        exact ⟨fun both => both.2, fun mem => ⟨same, mem⟩⟩
      · exact Iff.rfl

end Updates

/-! ## Enumerations -/

/-- All `d` that have a value, in the order of the sets. -/
def members (fibre : T → F) (image : I) : List D :=
  (values image).flatMap fun t => values (fibre t)

theorem mem_members (fibred : Fibred unset f fibre image) (d : D) :
    d ∈ members fibre image ↔ f d ≠ unset := by
  rw [members, List.mem_flatMap]
  constructor
  · intro given
    rcases given with ⟨t, _, inside⟩
    obtain ⟨value, set⟩ := (fibred.mem_fibre d t).mp inside
    exact value ▸ set
  · intro set
    exact ⟨f d, fibred.mem_image_of_ne set, (fibred.mem_fibre d (f d)).mpr ⟨rfl, set⟩⟩

/-- The fibres are disjoint. -/
theorem eq_of_mem (fibred : Fibred unset f fibre image) {t' : T} (inside : d ∈ values (fibre t))
    (inside' : d ∈ values (fibre t')) : t = t' :=
  ((fibred.mem_fibre d t).mp inside).1.symm.trans ((fibred.mem_fibre d t').mp inside').1

theorem nodup_members (fibred : Fibred unset f fibre image) : (members fibre image).Nodup := by
  refine List.nodup_flatMap.mpr ⟨fun t _ => nodup_values (fibre t), ?_⟩
  refine (nodup_values image).imp fun {t t'} other => ?_
  intro d inside inside'
  exact other (fibred.eq_of_mem inside inside')

section Sums

variable {M : Type} [AddCommMonoid M] [DecidableEq D]

/-- Along all fibres. -/
theorem sum_members (fibred : Fibred unset f fibre image) (g : D → M) :
    ((values image).map fun t => ((values (fibre t)).map g).sum).sum =
      ∑ d ∈ (members fibre image).toFinset, g d := by
  rw [List.sum_toFinset g fibred.nodup_members, members, List.flatMap_def, List.map_flatten,
    List.sum_flatten, List.map_map, List.map_map]
  rfl

variable [DecidableEq T]

/-- Along the image. -/
theorem sum_values (fibred : Fibred unset f fibre image) (g : T → M) :
    ((values image).map g).sum = ∑ t ∈ (members fibre image).toFinset.image f, g t := by
  rw [← List.sum_toFinset g (nodup_values image)]
  refine Finset.sum_congr (Finset.ext fun t => ?_) fun _ _ => rfl
  simp only [List.mem_toFinset, Finset.mem_image, fibred.mem_members]
  constructor
  · intro mem
    obtain ⟨d, value, set⟩ := fibred.exists_of_mem_image mem
    exact ⟨d, value ▸ set, value⟩
  · intro given
    rcases given with ⟨d, set, value⟩
    exact value ▸ fibred.mem_image_of_ne set

/-- Along a fibre. -/
theorem sum_fibre (fibred : Fibred unset f fibre image) (set : t ≠ unset) (g : D → M) :
    ((values (fibre t)).map g).sum =
      ∑ d ∈ (members fibre image).toFinset with f d = t, g d := by
  rw [← List.sum_toFinset g (nodup_values (fibre t))]
  refine Finset.sum_congr (Finset.ext fun d => ?_) fun _ _ => rfl
  rw [List.mem_toFinset, Finset.mem_filter, List.mem_toFinset, fibred.mem_fibre,
    fibred.mem_members]
  constructor
  · intro both
    exact ⟨both.1 ▸ set, both.1⟩
  · intro both
    exact ⟨both.2, set⟩

end Sums

end Fibred
