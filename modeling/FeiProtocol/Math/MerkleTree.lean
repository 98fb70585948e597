import Mathlib.Algebra.Ring.Nat
import Mathlib.Data.List.Basic
import Mathlib.Tactic.Common

/-!
# Merkle trees with promoted nodes

A tree is built layer by layer: neighbours are hashed together, and an unpaired
last node moves up unchanged. A membership proof lists the siblings met on the
way up and skips the layers at which the node is promoted; a verifier folds it
without knowing the positions, so the pair hash has to be symmetric.

* `foldl_proof`: the proof of a leaf folds to the root.
* `reach_cases`: *any* proof that reaches the root starts from a leaf, or it
  meets the tree's own hashing somewhere it should not. The alternatives are
  exact: the start is an inner node, a fold step hits a leaf, or a fold step
  hits an inner node with other children. A hash that separates leaves from
  nodes and does not collide on them excludes all three.

Everything is stated over an abstract pair hash on an arbitrary type.
-/

namespace Merkle

variable {H : Type} (pair : H → H → H)

/-- Hash neighbours together; an unpaired last node is promoted. -/
def nextLayer : List H → List H
  | a :: b :: rest => pair a b :: nextLayer rest
  | layer => layer

/-- The layer `n` levels up. A single node stays what it is. -/
def climb : Nat → List H → List H
  | 0, layer => layer
  | n + 1, layer => climb n (nextLayer pair layer)

/-- The one node on top of the given leaves; a tree without leaves has none. -/
def root? (leaves : List H) : Option H :=
  match climb pair leaves.length leaves with
  | [top] => some top
  | _ => none

/-- The neighbour that the node at `index` is hashed with. -/
def sibling (layer : List H) (index : Nat) : Option H :=
  layer[if index % 2 = 1 then index - 1 else index + 1]?

/-- The siblings on the way up from `index`, over `n` levels. -/
def proof : Nat → List H → Nat → List H
  | 0, _, _ => []
  | n + 1, layer, index =>
      (sibling layer index).toList ++ proof n (nextLayer pair layer) (index / 2)

/-! ## Completeness -/

theorem length_nextLayer (layer : List H) :
    (nextLayer pair layer).length = (layer.length + 1) / 2 := by
  induction layer using nextLayer.induct with
  | case1 a b rest ih =>
      simp only [nextLayer, List.length_cons, ih]
      omega
  | case2 layer short =>
      rcases layer with _ | ⟨a, _ | ⟨b, rest⟩⟩
      · simp [nextLayer]
      · simp [nextLayer]
      · exact (short a b rest rfl).elim

theorem length_climb_le_one (n : Nat) {layer : List H} (fits : layer.length ≤ 2 ^ n) :
    (climb pair n layer).length ≤ 1 := by
  induction n generalizing layer with
  | zero => simpa [climb] using fits
  | succ n ih =>
      apply ih
      rw [length_nextLayer]
      rw [Nat.pow_succ] at fits
      omega

/-- The parent of a node is its hash with its sibling, or the node itself when
it has none. -/
theorem getElem?_nextLayer (comm : ∀ a b, pair a b = pair b a) {layer : List H} {index : Nat}
    {h : H} (at_ : layer[index]? = some h) :
    (nextLayer pair layer)[index / 2]? =
      some ((sibling layer index).toList.foldl pair h) := by
  induction layer using nextLayer.induct generalizing index with
  | case1 a b rest ih =>
      rcases index with _ | _ | index
      · cases at_
        rfl
      · cases at_
        simp [nextLayer, sibling, comm]
      · have later := @ih index (by simpa using at_)
        have half : (index + 1 + 1) / 2 = index / 2 + 1 := by omega
        have same : sibling (a :: b :: rest) (index + 1 + 1) = sibling rest index := by
          unfold sibling
          rcases Nat.mod_two_eq_zero_or_one index with even | odd
          · simp [Nat.add_assoc, even]
          · obtain ⟨k, rfl⟩ : ∃ k, index = k + 1 := ⟨index - 1, by omega⟩
            have odd' : (k + 1 + 1 + 1) % 2 = 1 := by omega
            simp [odd, odd']
        rw [half, same]
        simpa [nextLayer] using later
  | case2 layer short =>
      rcases layer with _ | ⟨a, _ | ⟨b, rest⟩⟩
      · cases at_
      · rcases index with _ | index
        · cases at_
          rfl
        · cases at_
      · exact (short a b rest rfl).elim

theorem getElem?_climb (comm : ∀ a b, pair a b = pair b a) (n : Nat) {layer : List H}
    {index : Nat} {h : H} (at_ : layer[index]? = some h) :
    (climb pair n layer)[index / 2 ^ n]? = some ((proof pair n layer index).foldl pair h) := by
  induction n generalizing layer index h with
  | zero => simpa [climb, proof] using at_
  | succ n ih =>
      have parent := ih (getElem?_nextLayer pair comm at_)
      rw [Nat.div_div_eq_div_mul, ← Nat.pow_succ'] at parent
      simpa [climb, proof, List.foldl_append] using parent

/-- **Completeness**: the proof of a leaf folds to the root. -/
theorem foldl_proof (comm : ∀ a b, pair a b = pair b a) {leaves : List H} {index : Nat} {h : H}
    (at_ : leaves[index]? = some h) :
    root? pair leaves = some ((proof pair leaves.length leaves index).foldl pair h) := by
  have bound : index < leaves.length := (List.getElem?_eq_some_iff.mp at_).1
  have top : index / 2 ^ leaves.length = 0 :=
    Nat.div_eq_of_lt (Nat.lt_trans bound Nat.lt_two_pow_self)
  have found := getElem?_climb pair comm leaves.length at_
  have single := length_climb_le_one pair leaves.length (Nat.le_of_lt Nat.lt_two_pow_self)
  rw [top] at found
  unfold root?
  generalize climb pair leaves.length leaves = layer at found single
  rcases layer with _ | ⟨r, _ | ⟨r', rest⟩⟩
  · cases found
  · exact found
  · simp at single

/-! ## Soundness -/

/-- The pairs that are hashed to form the next layer. -/
def layerPairs : List H → List (H × H)
  | a :: b :: rest => (a, b) :: layerPairs rest
  | _ => []

/-- The pairs that are hashed on the way up. -/
def nodes : Nat → List H → List (H × H)
  | 0, _ => []
  | n + 1, layer => layerPairs layer ++ nodes n (nextLayer pair layer)

/-- The pairs that a verifier hashes when it folds a proof. -/
def steps (h : H) : List H → List (H × H)
  | [] => []
  | s :: rest => (h, s) :: steps (pair h s) rest

/-- A node of the next layer was promoted or is the hash of two neighbours. -/
theorem mem_nextLayer {layer : List H} {x : H} (mem : x ∈ nextLayer pair layer) :
    x ∈ layer ∨ ∃ a b, (a, b) ∈ layerPairs layer ∧ x = pair a b := by
  induction layer using nextLayer.induct with
  | case1 a b rest ih =>
      rcases List.mem_cons.mp mem with head | tail
      · exact .inr ⟨a, b, List.mem_cons_self, head⟩
      · rcases ih tail with promoted | ⟨c, d, here, eq⟩
        · exact .inl (List.mem_cons_of_mem _ (List.mem_cons_of_mem _ promoted))
        · exact .inr ⟨c, d, List.mem_cons_of_mem _ here, eq⟩
  | case2 layer short =>
      rw [nextLayer] at mem
      · exact .inl mem
      · exact short

theorem mem_of_mem_layerPairs {layer : List H} {a b : H} (mem : (a, b) ∈ layerPairs layer) :
    a ∈ layer ∧ b ∈ layer := by
  induction layer using layerPairs.induct with
  | case1 c d rest ih =>
      rcases List.mem_cons.mp mem with head | tail
      · cases head
        exact ⟨List.mem_cons_self, List.mem_cons_of_mem _ List.mem_cons_self⟩
      · obtain ⟨ha, hb⟩ := ih tail
        exact ⟨List.mem_cons_of_mem _ (List.mem_cons_of_mem _ ha),
          List.mem_cons_of_mem _ (List.mem_cons_of_mem _ hb)⟩
  | case2 layer short =>
      rw [layerPairs] at mem
      · cases mem
      · exact short

/-- What a fold reaches is its start or the result of one of its steps. -/
theorem foldl_cases (h : H) (ps : List H) :
    ps.foldl pair h = h ∨ ∃ x y, (x, y) ∈ steps pair h ps ∧ ps.foldl pair h = pair x y := by
  induction ps generalizing h with
  | nil => exact .inl rfl
  | cons s rest ih =>
      rcases ih (pair h s) with start | ⟨x, y, mem, eq⟩
      · exact .inr ⟨h, s, List.mem_cons_self, start⟩
      · exact .inr ⟨x, y, List.mem_cons_of_mem _ mem, eq⟩

/-- The running value of a fold step is the start or the result of another step. -/
theorem steps_cases {h : H} {ps : List H} {x y : H} (mem : (x, y) ∈ steps pair h ps) :
    x = h ∨ ∃ x' y', (x', y') ∈ steps pair h ps ∧ x = pair x' y' := by
  induction ps generalizing h with
  | nil => cases mem
  | cons s rest ih =>
      rcases List.mem_cons.mp mem with head | tail
      · cases head
        exact .inl rfl
      · rcases ih tail with start | ⟨x', y', mem', eq⟩
        · exact .inr ⟨h, s, List.mem_cons_self, start⟩
        · exact .inr ⟨x', y', List.mem_cons_of_mem _ mem', eq⟩

/-- How a proof can reach a node above the given layer. -/
inductive Reach (n : Nat) (layer : List H) (h : H) (ps : List H) : Prop
  /-- the start is in the layer -/
  | leaf : h ∈ layer → Reach n layer h ps
  /-- the start is an inner node of the tree -/
  | inner (a b : H) : (a, b) ∈ nodes pair n layer → h = pair a b → Reach n layer h ps
  /-- a fold step lands in the layer -/
  | below (x y : H) : (x, y) ∈ steps pair h ps → pair x y ∈ layer → Reach n layer h ps
  /-- a fold step lands on an inner node with other children -/
  | clash (x y a b : H) : (x, y) ∈ steps pair h ps → (a, b) ∈ nodes pair n layer →
      pair x y = pair a b → x ≠ a → x ≠ b → Reach n layer h ps

theorem root?_mem {leaves : List H} {r : H} (top : root? pair leaves = some r) :
    r ∈ climb pair leaves.length leaves := by
  unfold root? at top
  split at top
  · rename_i found
    cases top
    rw [found]
    exact List.mem_cons_self
  · cases top

/-- **Soundness up to collisions**: every proof that reaches a node of the tree
does so in one of the four ways, whatever its length. -/
theorem reach_cases (n : Nat) {layer : List H} {h : H} {ps : List H}
    (reaches : ps.foldl pair h ∈ climb pair n layer) : Reach pair n layer h ps := by
  induction n generalizing layer with
  | zero =>
      rcases foldl_cases pair h ps with start | ⟨x, y, mem, eq⟩
      · exact .leaf (start ▸ reaches)
      · exact .below x y mem (eq ▸ reaches)
  | succ n ih =>
      have up : ∀ {e}, e ∈ nodes pair n (nextLayer pair layer) → e ∈ nodes pair (n + 1) layer :=
        fun mem => List.mem_append_right _ mem
      have here : ∀ {e}, e ∈ layerPairs layer → e ∈ nodes pair (n + 1) layer :=
        fun mem => List.mem_append_left _ mem
      cases ih reaches with
      | leaf mem =>
          rcases mem_nextLayer pair mem with promoted | ⟨a, b, node, eq⟩
          · exact .leaf promoted
          · exact .inner a b (here node) eq
      | inner a b node eq => exact .inner a b (up node) eq
      | clash x y a b mem node eq ha hb => exact .clash x y a b mem (up node) eq ha hb
      | below x y mem lands =>
          rcases mem_nextLayer pair lands with promoted | ⟨a, b, node, eq⟩
          · exact .below x y mem promoted
          · by_cases other : x ≠ a ∧ x ≠ b
            · exact .clash x y a b mem (here node) eq other.1 other.2
            · -- the running value is a child of that node, hence in the layer
              have child : x ∈ layer := by
                obtain ⟨ha, hb⟩ := mem_of_mem_layerPairs node
                rcases not_and_or.mp other with e | e
                · exact not_not.mp e ▸ ha
                · exact not_not.mp e ▸ hb
              rcases steps_cases pair mem with start | ⟨x', y', mem', eq'⟩
              · exact .leaf (start ▸ child)
              · exact .below x' y' mem' (eq' ▸ child)

end Merkle
