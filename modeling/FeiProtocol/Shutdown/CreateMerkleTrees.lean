import FeiProtocol.Math.MerkleTree
import FeiProtocol.Shutdown.Fuse.RariMerkleRedeemer
import Mathlib.Data.List.Sort

/-!
# `createMerkleTrees` against `_claim`

The script hashes every holder and amount of a cToken's snapshot to a leaf and
has `merkletreejs` build the tree; the redeemer folds a proof from the same leaf
to the stored root. The two are written in different languages and never meet,
so what one builds the other must accept, and nothing else.

* `createMerkleTrees_eq_ok_iff`: the script's own check of its proofs never
  fails, so it stops only at a snapshot that is not about the 27 cTokens.
* `foldl_getHexProof`: the proof the tree yields for an entry leads to the root.
* `entry_of_foldl_eq`: a proof that leads to the root, of any length, is for an
  entry, or the strings hashed by the builder and by the check collide.

The library is a parameter; `MerkleTreeJs.Sorted` is what it does under
`sort: true`.
-/

namespace FeiProtocol

open Evm

namespace CreateMerkleTrees

/-! ## The snapshot -/

/-- A parsed object: distinct keys, in the order they were inserted. -/
structure JsObject (V : Type) (K : Type := Address) : Type where
  entries : List (K × V)
  keys_nodup : (entries.map Prod.fst).Nodup

variable {V K : Type} [DecidableEq K]

/-- Write one property: in place if the key is there, else at the end. -/
def assign (k : K) (v : V) : List (K × V) → List (K × V)
  | [] => [(k, v)]
  | e :: rest => if e.1 = k then (k, v) :: rest else e :: assign k v rest

theorem keys_assign (k : K) (v : V) (es : List (K × V)) :
    (assign k v es).map Prod.fst =
      if k ∈ es.map Prod.fst then es.map Prod.fst else es.map Prod.fst ++ [k] := by
  induction es with
  | nil => simp [assign]
  | cons e rest ih =>
      rcases eq_or_ne e.1 k with rfl | other
      · simp [assign]
      · simp only [assign, if_neg other, List.map_cons, ih, List.mem_cons, other.symm, false_or]
        split
        · rfl
        · rfl

theorem keys_assign_nodup {k : K} {v : V} {es : List (K × V)}
    (distinct : (es.map Prod.fst).Nodup) : ((assign k v es).map Prod.fst).Nodup := by
  rw [keys_assign]
  split
  · exact distinct
  · rename_i new
    refine List.nodup_append.mpr ⟨distinct, List.nodup_singleton k, ?_⟩
    intro a mem b here same
    rw [List.mem_singleton] at here
    exact new (here ▸ same ▸ mem)

/-- The object with one more property. -/
def JsObject.set (o : JsObject V K) (k : K) (v : V) : JsObject V K :=
  ⟨assign k v o.entries, keys_assign_nodup o.keys_nodup⟩

def JsObject.empty : JsObject V K := ⟨[], List.nodup_nil⟩

def JsObject.get (o : JsObject V K) (k : K) : Option V :=
  o.entries.lookup k

/-- `{ ...a, ...b }` -/
def JsObject.spread (a b : JsObject V K) : JsObject V K :=
  b.entries.foldl (fun o e => o.set e.1 e.2) a

/-- The amounts of one cToken's holders. -/
abbrev Balances (K : Type := Address) : Type := JsObject UInt256 K

/-- `balances[key] = { ...balances[key], ...extraBalances[key] }`, for each key. -/
def mergeBalances (balances extraBalances : JsObject (Balances K) K) : JsObject (Balances K) K :=
  extraBalances.entries.foldl
    (fun o e => o.set e.1 (((o.get e.1).getD .empty).spread e.2)) balances

/-- The snapshot that the trees are built from, with the additional data if there is any. -/
def merged (snapshot : JsObject (Balances K) K) (extra : Option (JsObject (Balances K) K)) :
    JsObject (Balances K) K :=
  match extra with
  | some extraBalances => mergeBalances snapshot extraBalances
  | none => snapshot

/-! ## The tree -/

/-- `if (!cond) throw new Error(message)` -/
def ensure (cond : Prop) [Decidable cond] (message : String) : Except String Unit :=
  if cond then .ok () else .error message

@[simp]
theorem ensure_eq_ok_iff {cond : Prop} [Decidable cond] {message : String} {v : Unit} :
    ensure cond message = .ok v ↔ cond := by
  unfold ensure
  split <;> simp_all

/-- What the script uses of `merkletreejs`, with the hash function and the leaves
the tree is made from. -/
structure MerkleTreeJs : Type where
  getRoot : (Bytes → Bytes32) → List Bytes32 → Bytes32
  getHexProof : (Bytes → Bytes32) → List Bytes32 → Bytes32 → List Bytes32
  verify : (Bytes → Bytes32) → List Bytes32 → Bytes32 → Bytes32 → Bool

variable (lib : MerkleTreeJs) (keccak256 : Bytes → Bytes32)

/-- `solidityKeccak256(['address', 'uint256'], x)` -/
def leafOf (x : Address × UInt256) : Bytes32 :=
  keccak256 (packAddress x.1 ++ packWord x.2)

def leavesOf (data : Balances) : List Bytes32 :=
  data.entries.map (leafOf keccak256)

/-- The loop body for one cToken: its root, once every leaf's proof is verified. -/
def createMerkleTree (data : Balances) : Except String Bytes32 := do
  let leaves := leavesOf keccak256 data
  let root := lib.getRoot keccak256 leaves
  leaves.forM fun leaf =>
    ensure (lib.verify keccak256 (lib.getHexProof keccak256 leaves leaf) leaf root)
      s!"Proof for 0x{leaf.toHex} failed"
  return root

/-- `main`, from the parsed files to the roots it writes. -/
def createMerkleTrees (cTokens : List Address) (snapshot : JsObject Balances)
    (extra : Option (JsObject Balances)) : Except String (List (Address × Bytes32)) := do
  let balances := (merged snapshot extra).entries
  let actual := balances.length
  ensure (actual = 27)
    s!"Snapshot data should have 27 keys, one for each ctoken. Actual: {actual}"
  ensure (∀ e ∈ balances, e.1 ∈ cTokens) "Snapshot data has invalid ctoken address"
  balances.mapM fun e => do
    let root ← createMerkleTree lib keccak256 e.2
    return (e.1, root)

/-! ## What the library does -/

/-- The string hashed for a pair: the two nodes in ascending order. -/
def pairBytes (a b : Bytes32) : Bytes :=
  if a.toNat ≤ b.toNat then packWord a ++ packWord b else packWord b ++ packWord a

def combine (a b : Bytes32) : Bytes32 := keccak256 (pairBytes a b)

/-- The leaves in ascending order. -/
def sorted (leaves : List Bytes32) : List Bytes32 :=
  leaves.insertionSort fun a b => a.toNat ≤ b.toNat

/-- `merkletreejs` with `sort: true`: leaves and pairs are sorted, and an unpaired
node is promoted. -/
structure MerkleTreeJs.Sorted : Prop where
  root : ∀ leaves, leaves ≠ [] →
    Merkle.root? (combine keccak256) (sorted leaves) = some (lib.getRoot keccak256 leaves)
  proof : ∀ leaves leaf, leaf ∈ leaves → ∃ index, (sorted leaves)[index]? = some leaf ∧
    lib.getHexProof keccak256 leaves leaf =
      Merkle.proof (combine keccak256) leaves.length (sorted leaves) index
  verify : ∀ proof leaf root,
    lib.verify keccak256 proof leaf root = true ↔ proof.foldl (combine keccak256) leaf = root

variable {lib keccak256}

theorem length_pairBytes (a b : Bytes32) : (pairBytes a b).length = 64 := by
  unfold pairBytes
  split <;> simp

theorem pairBytes_comm (a b : Bytes32) : pairBytes a b = pairBytes b a := by
  unfold pairBytes
  rcases Nat.lt_trichotomy a.toNat b.toNat with less | same | more
  · rw [if_pos less.le, if_neg (by omega)]
  · rw [BitVec.eq_of_toNat_eq same]
  · rw [if_neg (by omega), if_pos more.le]

/-- A pair's string gives away its two nodes. -/
theorem mem_of_pairBytes_eq {a b x y : Bytes32} (same : pairBytes x y = pairBytes a b) :
    x = a ∨ x = b := by
  have words : ∀ {p q r t : Bytes32}, packWord p ++ packWord q = packWord r ++ packWord t →
      p = r ∧ q = t := by
    intro p q r t same
    have parts := List.append_inj same (by simp)
    exact ⟨packWord_inj parts.1, packWord_inj parts.2⟩
  unfold pairBytes at same
  split at same
  · split at same
    · exact .inl (words same).1
    · exact .inr (words same).1
  · split at same
    · exact .inr (words same).2
    · exact .inl (words same).2

theorem combine_comm (a b : Bytes32) : combine keccak256 a b = combine keccak256 b a := by
  rw [combine, pairBytes_comm, combine]

/-- The contract's pair hash is the builder's. -/
theorem _hashPair_eq_combine : MerkleProof._hashPair keccak256 = combine keccak256 := by
  funext a b
  unfold MerkleProof._hashPair MerkleProof._efficientHash combine pairBytes
  rcases Nat.lt_trichotomy a.toNat b.toNat with less | same | more
  · rw [if_pos less, if_pos less.le]
  · simp only [BitVec.eq_of_toNat_eq same, ite_self]
  · rw [if_neg (by omega), if_neg (by omega)]

theorem length_sorted (leaves : List Bytes32) : (sorted leaves).length = leaves.length :=
  List.length_insertionSort _ _

/-! ## Completeness -/

/-- The proof the tree yields for a leaf folds to the root. -/
theorem foldl_getHexProof (lib_sorted : lib.Sorted keccak256) {leaves : List Bytes32}
    {leaf : Bytes32} (mem : leaf ∈ leaves) :
    (lib.getHexProof keccak256 leaves leaf).foldl (combine keccak256) leaf =
      lib.getRoot keccak256 leaves := by
  obtain ⟨index, at_, proof⟩ := lib_sorted.proof leaves leaf mem
  have top := lib_sorted.root leaves (List.ne_nil_of_mem mem)
  rw [Merkle.foldl_proof _ combine_comm at_, length_sorted, ← proof] at top
  exact Option.some.inj top

/-- So the script's check of its proofs never fails. -/
theorem createMerkleTree_eq (lib_sorted : lib.Sorted keccak256) (data : Balances) :
    createMerkleTree lib keccak256 data =
      .ok (lib.getRoot keccak256 (leavesOf keccak256 data)) := by
  have verified : ∀ leaf ∈ leavesOf keccak256 data,
      lib.verify keccak256 (lib.getHexProof keccak256 (leavesOf keccak256 data) leaf) leaf
        (lib.getRoot keccak256 (leavesOf keccak256 data)) = true :=
    fun leaf mem => (lib_sorted.verify _ leaf _).mpr (foldl_getHexProof lib_sorted mem)
  simp only [createMerkleTree, seq_eq_ok_iff, forM_eq_ok_iff, ensure_eq_ok_iff, pure_eq_ok_iff,
    and_true]
  exact verified

/-- **The script** succeeds exactly on snapshots of 27 known cTokens, and writes
each one's root. -/
theorem createMerkleTrees_eq_ok_iff (lib_sorted : lib.Sorted keccak256) {cTokens : List Address}
    {snapshot : JsObject Balances} {extra : Option (JsObject Balances)}
    {roots : List (Address × Bytes32)} :
    createMerkleTrees lib keccak256 cTokens snapshot extra = .ok roots ↔
      (merged snapshot extra).entries.length = 27 ∧
      (∀ e ∈ (merged snapshot extra).entries, e.1 ∈ cTokens) ∧
      (merged snapshot extra).entries.map
        (fun e => (e.1, lib.getRoot keccak256 (leavesOf keccak256 e.2))) = roots := by
  have tree : ∀ e ∈ (merged snapshot extra).entries, ∀ b,
      ((createMerkleTree lib keccak256 e.2 >>= fun root => pure (e.1, root)) =
          (.ok b : Except String (Address × Bytes32))) ↔
        True ∧ (e.1, lib.getRoot keccak256 (leavesOf keccak256 e.2)) = b := by
    intro e _ b
    rw [createMerkleTree_eq lib_sorted, true_and]
    exact pure_eq_ok_iff
  simp only [createMerkleTrees, seq_eq_ok_iff, ensure_eq_ok_iff, mapM_eq_ok_iff tree,
    implies_true, true_and]

/-! ## Soundness -/

/-- The strings that building a snapshot's tree hashes. -/
def builderInputs (keccak256 : Bytes → Bytes32) (data : Balances) : List Bytes :=
  data.entries.map (fun x => packAddress x.1 ++ packWord x.2) ++
    (Merkle.nodes (combine keccak256) (leavesOf keccak256 data).length
      (sorted (leavesOf keccak256 data))).map fun node => pairBytes node.1 node.2

/-- The strings that checking a proof hashes. -/
def checkInputs (keccak256 : Bytes → Bytes32) (u : Address) (amount : UInt256)
    (proof : List Bytes32) : List Bytes :=
  (packAddress u ++ packWord amount) ::
    (Merkle.steps (combine keccak256) (leafOf keccak256 (u, amount)) proof).map
      fun step => pairBytes step.1 step.2

/-- Two different strings with one hash, one hashed by the builder and one by the check. -/
def Collision (keccak256 : Bytes → Bytes32) (data : Balances) (u : Address) (amount : UInt256)
    (proof : List Bytes32) : Prop :=
  ∃ m ∈ builderInputs keccak256 data, ∃ m' ∈ checkInputs keccak256 u amount proof,
    m ≠ m' ∧ keccak256 m = keccak256 m'

variable {data : Balances} {u : Address} {amount : UInt256} {proof : List Bytes32}

theorem mem_leavesOf {leaf : Bytes32} (mem : leaf ∈ leavesOf keccak256 data) :
    ∃ x ∈ data.entries, leaf = leafOf keccak256 x := by
  obtain ⟨x, here, same⟩ := List.mem_map.mp mem
  exact ⟨x, here, same.symm⟩

theorem leaf_mem_builderInputs {x : Address × UInt256} (mem : x ∈ data.entries) :
    packAddress x.1 ++ packWord x.2 ∈ builderInputs keccak256 data :=
  List.mem_append_left _ (List.mem_map.mpr ⟨x, mem, rfl⟩)

theorem node_mem_builderInputs {a b : Bytes32}
    (mem : (a, b) ∈ Merkle.nodes (combine keccak256) (leavesOf keccak256 data).length
      (sorted (leavesOf keccak256 data))) : pairBytes a b ∈ builderInputs keccak256 data :=
  List.mem_append_right _ (List.mem_map.mpr ⟨(a, b), mem, rfl⟩)

theorem leaf_mem_checkInputs :
    packAddress u ++ packWord amount ∈ checkInputs keccak256 u amount proof :=
  List.mem_cons_self

theorem step_mem_checkInputs {x y : Bytes32}
    (mem : (x, y) ∈ Merkle.steps (combine keccak256) (leafOf keccak256 (u, amount)) proof) :
    pairBytes x y ∈ checkInputs keccak256 u amount proof :=
  List.mem_cons_of_mem _ (List.mem_map.mpr ⟨(x, y), mem, rfl⟩)

/-- The 52 bytes of a leaf are never the 64 bytes of a pair. -/
theorem leafBytes_ne_pairBytes (a b : Bytes32) :
    packAddress u ++ packWord amount ≠ pairBytes a b := by
  intro same
  have length := congrArg List.length same
  simp [length_pairBytes] at length

/-- **Soundness.** A proof that leads to the root of a snapshot's tree is for an
entry of the snapshot, or hashing collided. -/
theorem entry_of_foldl_eq (lib_sorted : lib.Sorted keccak256) (nonempty : data.entries ≠ [])
    (reaches : proof.foldl (combine keccak256) (leafOf keccak256 (u, amount)) =
      lib.getRoot keccak256 (leavesOf keccak256 data)) :
    (u, amount) ∈ data.entries ∨ Collision keccak256 data u amount proof := by
  have leaves : leavesOf keccak256 data ≠ [] := by
    simpa [leavesOf] using nonempty
  have top := Merkle.root?_mem _ (lib_sorted.root _ leaves)
  rw [length_sorted, ← reaches] at top
  have leafOfSorted : ∀ {h}, h ∈ sorted (leavesOf keccak256 data) →
      ∃ x ∈ data.entries, h = leafOf keccak256 x :=
    fun mem => mem_leavesOf ((List.mem_insertionSort _).mp mem)
  cases Merkle.reach_cases _ _ top with
  | leaf mem =>
      obtain ⟨x, here, same⟩ := leafOfSorted mem
      rcases eq_or_ne (packAddress x.1 ++ packWord x.2) (packAddress u ++ packWord amount) with
        equal | different
      · have parts := List.append_inj equal (by simp)
        have entry : x = (u, amount) :=
          Prod.ext (packAddress_inj parts.1) (packWord_inj parts.2)
        exact .inl (entry ▸ here)
      · exact .inr ⟨_, leaf_mem_builderInputs here, _, leaf_mem_checkInputs, different, same.symm⟩
  | inner a b node same =>
      exact .inr ⟨_, node_mem_builderInputs node, _, leaf_mem_checkInputs,
        (leafBytes_ne_pairBytes a b).symm, same.symm⟩
  | below x y step lands =>
      obtain ⟨z, here, same⟩ := leafOfSorted lands
      exact .inr ⟨_, leaf_mem_builderInputs here, _, step_mem_checkInputs step,
        leafBytes_ne_pairBytes x y, same.symm⟩
  | clash x y a b step node same notLeft notRight =>
      refine .inr ⟨_, node_mem_builderInputs node, _, step_mem_checkInputs step, ?_, same.symm⟩
      intro equal
      rcases mem_of_pairBytes_eq equal.symm with left | right
      · exact notLeft left
      · exact notRight right

/-- **The tree and the redeemer's check agree.** When a cToken's root is the one
the script builds, the tree's proof of every entry passes the check of `_claim`,
and no proof at all passes it for anything else without a collision. The script
succeeds on every snapshot of the 27 cTokens, and this is the root that it writes. -/
theorem claim_check_of_createMerkleTree {env : RedeemerEnv} {s : RedeemerState} {c : Address}
    (lib_sorted : lib.Sorted env.keccak256) (nonempty : data.entries ≠ [])
    (configured : createMerkleTree lib env.keccak256 data = .ok (s.merkleRoots c))
    (u : Address) (amount : UInt256) :
    ((u, amount) ∈ data.entries →
      MerkleProof.verifyCalldata env.keccak256
        (lib.getHexProof env.keccak256 (leavesOf env.keccak256 data)
          (RariMerkleRedeemer.leafHash env u amount))
        (s.merkleRoots c) (RariMerkleRedeemer.leafHash env u amount) = true) ∧
    ((u, amount) ∉ data.entries → ∀ proof,
      MerkleProof.verifyCalldata env.keccak256 proof (s.merkleRoots c)
        (RariMerkleRedeemer.leafHash env u amount) = true →
      Collision env.keccak256 data u amount proof) ∧
    ∀ (cTokens : List Address) (snapshot : JsObject Balances) (extra : Option (JsObject Balances)),
      (c, data) ∈ (merged snapshot extra).entries →
      (merged snapshot extra).entries.length = 27 →
      (∀ e ∈ (merged snapshot extra).entries, e.1 ∈ cTokens) →
      ∃ roots, createMerkleTrees lib env.keccak256 cTokens snapshot extra = .ok roots ∧
        (c, s.merkleRoots c) ∈ roots := by
  rw [createMerkleTree_eq lib_sorted] at configured
  have root := Except.ok.inj configured
  simp only [MerkleProof.verifyCalldata_iff, _hashPair_eq_combine, ← root]
  refine ⟨fun entry => ?_, fun other proof reaches => ?_, ?_⟩
  · exact foldl_getHexProof lib_sorted (List.mem_map.mpr ⟨(u, amount), entry, rfl⟩)
  · rcases entry_of_foldl_eq lib_sorted nonempty reaches with entry | collision
    · exact absurd entry other
    · exact collision
  · intro cTokens snapshot extra mem length known
    exact ⟨_, (createMerkleTrees_eq_ok_iff lib_sorted).mpr ⟨length, known, rfl⟩,
      List.mem_map.mpr ⟨(c, data), mem, rfl⟩⟩

/-! ## A library of this kind -/

/-- The tree itself, as a library. -/
def reference : MerkleTreeJs where
  getRoot keccak256 leaves := (Merkle.root? (combine keccak256) (sorted leaves)).getD 0
  getHexProof keccak256 leaves leaf :=
    Merkle.proof (combine keccak256) leaves.length (sorted leaves) ((sorted leaves).idxOf leaf)
  verify keccak256 proof leaf root := proof.foldl (combine keccak256) leaf = root

theorem reference_sorted (keccak256 : Bytes → Bytes32) : reference.Sorted keccak256 where
  root leaves nonempty := by
    obtain ⟨leaf, rest, shape⟩ : ∃ leaf rest, sorted leaves = leaf :: rest := by
      cases shape : sorted leaves with
      | nil =>
          have length := length_sorted leaves
          rw [shape] at length
          exact absurd (List.length_eq_zero_iff.mp length.symm) nonempty
      | cons leaf rest => exact ⟨leaf, rest, rfl⟩
    have first : (sorted leaves)[0]? = some leaf := by
      rw [shape]
      rfl
    have top := Merkle.foldl_proof (combine keccak256) combine_comm first
    simp only [reference]
    rw [top, Option.getD_some]
  proof leaves leaf mem := by
    have here : leaf ∈ sorted leaves := (List.mem_insertionSort _).mpr mem
    exact ⟨(sorted leaves).idxOf leaf, List.getElem?_idxOf here, rfl⟩
  verify proof leaf root := decide_eq_true_iff

end CreateMerkleTrees

namespace CreateMerkleTrees.Sample

/-- A checksum that tells the sample's strings apart. -/
def keccak256 (b : Bytes) : Bytes32 :=
  b.foldl (fun h x => h * 257 + BitVec.ofNat 256 (x.toNat + 1)) 0

def env : RedeemerEnv where
  keccak256 := keccak256
  ecrecover _ _ r _ := r.setWidth 160
  this := 0xAA

/-- Three holders, so that one node is promoted. -/
def data : Balances := ⟨[(1, 100), (2, 200), (3, 300)], by decide⟩

/-- A redeemer whose roots are all that of `data`. -/
def rooted : RedeemerState :=
  { RariMerkleRedeemer.blank ⟨fun _ => ⟨fun _ => 0, fun _ _ => 0, 0, true⟩, []⟩ with
    merkleRoots := fun _ => reference.getRoot env.keccak256 (leavesOf env.keccak256 data) }

theorem rooted_configured :
    createMerkleTree reference env.keccak256 data = .ok (rooted.merkleRoots 10) := by
  simp only [rooted]
  exact createMerkleTree_eq (reference_sorted env.keccak256) data

/-- Holder 1 can prove its 100, and can prove 101 only with a collision. -/
theorem claim_check_of_createMerkleTree_sample :
    MerkleProof.verifyCalldata env.keccak256
        (reference.getHexProof env.keccak256 (leavesOf env.keccak256 data)
          (RariMerkleRedeemer.leafHash env 1 100))
        (rooted.merkleRoots 10) (RariMerkleRedeemer.leafHash env 1 100) = true ∧
      ∀ proof, MerkleProof.verifyCalldata env.keccak256 proof (rooted.merkleRoots 10)
          (RariMerkleRedeemer.leafHash env 1 101) = true →
        Collision env.keccak256 data 1 101 proof := by
  have sorts := reference_sorted env.keccak256
  have checks := claim_check_of_createMerkleTree sorts (by decide) rooted_configured 1
  exact ⟨(checks 100).1 (by decide), (checks 101).2.1 (by decide)⟩

end CreateMerkleTrees.Sample

end FeiProtocol
