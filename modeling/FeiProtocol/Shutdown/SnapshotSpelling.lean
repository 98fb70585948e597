import FeiProtocol.Shutdown.CreateMerkleTrees

/-!
# The holders in `createMerkleTrees`

The script merges its two files by their keys, which are strings, and makes a leaf of what a key
says, which is an address. The digits of an address can be written in either case.

* `mem_spread_iff`, `rows_of_mem_merged`: what a merge contains.
* `merged_right_iff`: each holder has one leaf, with the right amount, exactly if it is written in
  one way wherever it occurs; then the leaves are those of the parsed snapshot.
-/

namespace FeiProtocol

open Evm

namespace CreateMerkleTrees

/-! ## The cTokens -/

/-- The keys that the script accepts: the list of `data/prod/cTokens.ts`, in lower case. -/
def cTokens : List String :=
  ["0xd8553552f8868c1ef160eedf031cf0bcf9686945", "0xbb025d470162cc5ea24daf7d4566064ee7f5f111",
    "0x7e9ce3caa9910cc048590801e64174957ed41d43", "0x647a36d421183a0a9fa62717a64b664a24e469c7",
    "0xfa1057d02a0c1a4885851e3f4fd496ee7d38f56e", "0x8e4e0257a4759559b4b1ac087fe8d80c63f20d19",
    "0x6f95d4d251053483f41c8718c30f4f3c404a8cf2", "0x3e5c122ffa75a9fe16ec0c69f7e9149203ea1a5d",
    "0x51ff03410a0da915082af444274c381bd1b4cdb1", "0xb7fe5f277058b3f9eabf6e0655991f10924bfa54",
    "0x9de558fce4f289b305e38abe2169b75c626c114e", "0xda396c927e3e6bef77a98f372ce431b49edec43d",
    "0xf148cdec066b94410d403ac5fe1bb17ec75c5851", "0x0c402f06c11c6e6a6616c98868a855448d4cfe65",
    "0x26267e41ceca7c8e0f143554af707336f27fa051", "0xebe0d1cb6a0b8569929e062d67bfbc07608f0a47",
    "0xe097783483d1b7527152ef8b150b99b9b2700c8d", "0x8922c1147e141c055fddfc0ed5a119f3378c8ef8",
    "0x7dbc3af9251756561ce755fcc11c754184af71f7", "0x3a2804ec0ff521374af654d8d0daa1d1ae1ee900",
    "0xa54c548d11792b3d26ad74f5f899e12cdfd64fd6", "0xa6c25548df506d84afd237225b5b34f2feb1aa07",
    "0xfbd8aaf46ab3c2732fa930e5b343cd67cea5054c", "0x001e407f497e024b9fb1cb93ef841f43d645ca4f",
    "0x5cadc2a04921213de60b237688776e0f1a7155e6", "0x88d3557eb6280cc084ca36e425d6bc52d0a04429",
    "0xe92a3db67e4b6ac86114149f522644b34264f858"]

/-! ## Objects -/

section Objects

instance {V K : Type} [DecidableEq V] [DecidableEq K] : DecidableEq (JsObject V K) :=
  fun a b => decidable_of_iff (a.entries = b.entries)
    ⟨fun same => by cases a; cases b; congr, fun same => same ▸ rfl⟩

variable {V K : Type} [DecidableEq K] {o : JsObject V K} {k k' : K} {v v' : V}

theorem lookup_eq_some_iff {es : List (K × V)} (distinct : (es.map Prod.fst).Nodup) :
    es.lookup k = some v ↔ (k, v) ∈ es := by
  induction es with
  | nil => simp
  | cons e rest ih =>
      rw [List.map_cons, List.nodup_cons] at distinct
      rw [List.lookup_cons, List.mem_cons]
      by_cases same : k = e.1
      · subst same
        simp only [BEq.rfl, Option.some.injEq]
        constructor
        · intro value
          subst value
          exact .inl rfl
        · intro given
          rcases given with here | later
          · rw [← here]
          · exact absurd (List.mem_map.mpr ⟨_, later, rfl⟩) distinct.1
      · rw [beq_false_of_ne same]
        simp only [ih distinct.2]
        exact ⟨.inr, fun mem => mem.resolve_left fun here => same (congrArg Prod.fst here)⟩

theorem get_eq_some_iff : o.get k = some v ↔ (k, v) ∈ o.entries :=
  lookup_eq_some_iff o.keys_nodup

theorem mem_assign {es : List (K × V)} (distinct : (es.map Prod.fst).Nodup) :
    (k', v') ∈ assign k v es ↔ k' = k ∧ v' = v ∨ k' ≠ k ∧ (k', v') ∈ es := by
  induction es with
  | nil => simp [assign]
  | cons e rest ih =>
      rw [List.map_cons, List.nodup_cons] at distinct
      rw [assign]
      split
      · rename_i same
        subst same
        have new : ∀ w, (e.1, w) ∉ rest := fun w mem =>
          distinct.1 (List.mem_map.mpr ⟨_, mem, rfl⟩)
        simp only [List.mem_cons, Prod.ext_iff]
        constructor
        · intro given
          rcases given with here | later
          · exact .inl here
          · exact .inr ⟨fun same => new v' (same ▸ later), .inr later⟩
        · intro given
          rcases given with here | ⟨other, here | later⟩
          · exact .inl here
          · exact absurd here.1 other
          · exact .inr later
      · rename_i other
        rw [List.mem_cons, ih distinct.2, List.mem_cons]
        constructor
        · intro given
          rcases given with here | here | ⟨away, later⟩
          · subst here
            exact .inr ⟨other, .inl rfl⟩
          · exact .inl here
          · exact .inr ⟨away, .inr later⟩
        · intro given
          rcases given with here | ⟨away, here | later⟩
          · exact .inr (.inl here)
          · exact .inl here
          · exact .inr (.inr ⟨away, later⟩)

theorem mem_set : (k', v') ∈ (o.set k v).entries ↔
    k' = k ∧ v' = v ∨ k' ≠ k ∧ (k', v') ∈ o.entries :=
  mem_assign o.keys_nodup

theorem get_set_of_ne (other : k' ≠ k) : (o.set k v).get k' = o.get k' := by
  refine Option.ext fun w => ?_
  rw [get_eq_some_iff, get_eq_some_iff, mem_set]
  exact ⟨fun mem => (mem.resolve_left fun here => other here.1).2, fun mem => .inr ⟨other, mem⟩⟩

/-- Properties that are written one after the other. -/
theorem mem_foldl_set {es : List (K × V)} (distinct : (es.map Prod.fst).Nodup) (o : JsObject V K) :
    (k, v) ∈ (es.foldl (fun o e => o.set e.1 e.2) o).entries ↔
      (k, v) ∈ es ∨ k ∉ es.map Prod.fst ∧ (k, v) ∈ o.entries := by
  induction es generalizing o with
  | nil => simp
  | cons e rest ih =>
      rw [List.map_cons, List.nodup_cons] at distinct
      rw [List.foldl_cons, ih distinct.2, mem_set, List.mem_cons, List.map_cons, List.mem_cons,
        not_or]
      constructor
      · intro given
        rcases given with later | ⟨new, ⟨same, value⟩ | ⟨other, old⟩⟩
        · exact .inl (.inr later)
        · subst same
          subst value
          exact .inl (.inl rfl)
        · exact .inr ⟨⟨other, new⟩, old⟩
      · intro given
        rcases given with (here | later) | ⟨⟨other, new⟩, old⟩
        · subst here
          exact .inr ⟨distinct.1, .inl ⟨rfl, rfl⟩⟩
        · exact .inl later
        · exact .inr ⟨new, .inr ⟨other, old⟩⟩

/-- **The spread.** What is in the second object, and what is in the first under other keys. -/
theorem mem_spread_iff {a b : JsObject V K} : (k, v) ∈ (a.spread b).entries ↔
    (k, v) ∈ b.entries ∨ k ∉ b.entries.map Prod.fst ∧ (k, v) ∈ a.entries :=
  mem_foldl_set b.keys_nodup a

theorem keys_spread_iff {a b : JsObject V K} : k ∈ (a.spread b).entries.map Prod.fst ↔
    k ∈ a.entries.map Prod.fst ∨ k ∈ b.entries.map Prod.fst := by
  simp only [List.mem_map, Prod.exists, exists_and_right, exists_eq_right, mem_spread_iff]
  constructor
  · intro given
    rcases given with ⟨v, here | ⟨_, there⟩⟩
    · exact .inr ⟨v, here⟩
    · exact .inl ⟨v, there⟩
  · intro given
    rcases given with ⟨v, there⟩ | ⟨v, here⟩
    · by_cases written : ∃ w, (k, w) ∈ b.entries
      · obtain ⟨w, here⟩ := written
        exact ⟨w, .inl here⟩
      · exact ⟨v, .inr ⟨written, there⟩⟩
    · exact ⟨v, .inl here⟩

end Objects

/-! ## The merge -/

section Merge

variable {K : Type} [DecidableEq K] {base extra : JsObject (Balances K) K} {c : K} {d : Balances K}

/-- A file's amounts for one cToken. -/
def JsObject.rows (o : JsObject (Balances K) K) (c : K) : Balances K :=
  (o.get c).getD .empty

theorem mem_foldl_merge {es : List (K × Balances K)} (distinct : (es.map Prod.fst).Nodup)
    (o : JsObject (Balances K) K) :
    (c, d) ∈ (es.foldl (fun o e => o.set e.1 ((o.rows e.1).spread e.2)) o).entries ↔
      (∃ x, (c, x) ∈ es ∧ d = (o.rows c).spread x) ∨
        c ∉ es.map Prod.fst ∧ (c, d) ∈ o.entries := by
  induction es generalizing o with
  | nil => simp
  | cons e rest ih =>
      rw [List.map_cons, List.nodup_cons] at distinct
      rw [List.foldl_cons, ih distinct.2, mem_set]
      by_cases same : c = e.1
      · subst same
        have new : ∀ x, (e.1, x) ∉ rest := fun x mem =>
          distinct.1 (List.mem_map.mpr ⟨_, mem, rfl⟩)
        simp [new, distinct.1, Prod.ext_iff]
      · have rows : (o.set e.1 ((o.rows e.1).spread e.2)).rows c = o.rows c := by
          unfold JsObject.rows
          rw [get_set_of_ne same]
        have away : ∀ x, (c, x) ∈ e :: rest ↔ (c, x) ∈ rest := fun x => by
          rw [List.mem_cons, Prod.ext_iff]
          exact ⟨fun mem => mem.resolve_left fun here => same here.1, .inr⟩
        simp [rows, away, same]

/-- **The merge**, for one cToken: the base file's amounts, spread with the extra file's. -/
theorem rows_of_mem_merged {extra : Option (JsObject (Balances K) K)}
    (here : (c, d) ∈ (merged base extra).entries) :
    d = (base.rows c).spread ((extra.getD .empty).rows c) := by
  have both : merged base extra = mergeBalances base (extra.getD .empty) := by
    cases extra with
    | none => rfl
    | some extraBalances => rfl
  rw [both] at here
  generalize extra.getD .empty = extraBalances at here
  rcases (mem_foldl_merge extraBalances.keys_nodup base).mp here with
    ⟨x, written, same⟩ | ⟨unwritten, old⟩
  · rw [same, JsObject.rows, JsObject.rows, get_eq_some_iff.mpr written, Option.getD_some]
  · have none : extraBalances.get c = none := by
      cases found : extraBalances.get c with
      | none => rfl
      | some x =>
          exact absurd (List.mem_map.mpr ⟨_, get_eq_some_iff.mp found, rfl⟩) unwritten
    rw [JsObject.rows, JsObject.rows, none, get_eq_some_iff.mpr old]
    rfl

end Merge

/-! ## The leaves -/

def hexDigit (c : Char) : Option Nat :=
  if '0' ≤ c ∧ c ≤ '9' then some (c.toNat - '0'.toNat)
  else if 'a' ≤ c ∧ c ≤ 'f' then some (c.toNat - 'a'.toNat + 10)
  else if 'A' ≤ c ∧ c ≤ 'F' then some (c.toNat - 'A'.toNat + 10)
  else none

/-- The address that a key writes: `0x` and forty digits, each in either case. -/
def addressOf (key : String) : Option Address :=
  match key.toList with
  | '0' :: 'x' :: digits =>
      if digits.length = 40 then
        (digits.mapM hexDigit).map fun ds => BitVec.ofNat 160 (ds.foldl (fun n d => 16 * n + d) 0)
      else none
  | _ => none

/-- `Object.entries(cTokenBalancesData)`, as `solidityKeccak256` reads it. -/
def leafData (data : Balances String) : Option (List (Address × UInt256)) :=
  data.entries.mapM fun x => (addressOf x.1).map fun u => (u, x.2)

/-- The leaves of one cToken's tree, over the keys as they are written. -/
def leavesOfFile (keccak256 : Bytes → Bytes32) (data : Balances String) : Option (List Bytes32) :=
  (leafData data).map fun leaves => leaves.map (leafOf keccak256)

/-- The file has this amount for the holder. -/
def Listed (data : Balances String) (u : Address) (amount : UInt256) : Prop :=
  ∃ key, addressOf key = some u ∧ (key, amount) ∈ data.entries

/-- The file has some amount for the holder. -/
def Occurs (data : Balances String) (u : Address) : Prop :=
  ∃ amount, Listed data u amount

/-- The leaves of one cToken are right for its two files. -/
structure MergedRight (base extra : Balances String) (leaves : List (Address × UInt256)) :
    Prop where
  once : (leaves.map Prod.fst).Nodup
  holders : ∀ u, u ∈ leaves.map Prod.fst ↔ Occurs base u ∨ Occurs extra u
  ofExtra : ∀ u amount, Listed extra u amount → (u, amount) ∈ leaves
  ofBase : ∀ u amount, Listed base u amount → ¬ Occurs extra u → (u, amount) ∈ leaves

/-- Every holder is written in one way, wherever it occurs in the two files. -/
def SpelledOnce (base extra : Balances String) : Prop :=
  ∀ key ∈ base.entries.map Prod.fst ++ extra.entries.map Prod.fst,
    ∀ key' ∈ base.entries.map Prod.fst ++ extra.entries.map Prod.fst,
      addressOf key = addressOf key' → key = key'

instance (base extra : Balances String) : Decidable (SpelledOnce base extra) :=
  inferInstanceAs (Decidable (∀ key ∈ _, ∀ key' ∈ _, _ → _))

variable {base extra data : Balances String} {leaves : List (Address × UInt256)} {u : Address}
  {amount : UInt256}

theorem map_of_mapM_eq_some {α β : Type} {f : α → Option β} {as : List α} {bs : List β}
    (all : as.mapM f = some bs) : as.map f = bs.map some := by
  induction as generalizing bs with
  | nil =>
      rw [List.mapM_nil] at all
      cases all
      rfl
  | cons a rest ih =>
      rw [List.mapM_cons] at all
      cases first : f a with
      | none =>
          rw [first] at all
          cases all
      | some b =>
          cases later : rest.mapM f with
          | none =>
              rw [first, later] at all
              cases all
          | some cs =>
              rw [first, later] at all
              cases all
              rw [List.map_cons, List.map_cons, first, ih later]

theorem mem_leafData (valid : leafData data = some leaves) :
    (u, amount) ∈ leaves ↔ Listed data u amount := by
  have parsed := congrArg (some (u, amount) ∈ ·) (map_of_mapM_eq_some valid)
  simpa [Listed, eq_comm, and_comm] using parsed.symm

theorem mem_holders (valid : leafData data = some leaves) :
    u ∈ leaves.map Prod.fst ↔ Occurs data u := by
  simp only [List.mem_map, Prod.exists, exists_and_right, exists_eq_right, mem_leafData valid,
    Occurs]

theorem holders_nodup_iff (valid : leafData data = some leaves) :
    (leaves.map Prod.fst).Nodup ↔ ∀ key ∈ data.entries.map Prod.fst,
      ∀ key' ∈ data.entries.map Prod.fst, addressOf key = addressOf key' → key = key' := by
  have parsed : (data.entries.map Prod.fst).map addressOf = (leaves.map Prod.fst).map some := by
    have both := congrArg (List.map (Option.map Prod.fst)) (map_of_mapM_eq_some valid)
    simpa [Function.comp_def] using both
  rw [← List.nodup_map_iff_inj_on data.keys_nodup, parsed,
    List.nodup_map_iff (Option.some_injective _)]

theorem occurs_spread_iff : Occurs (base.spread extra) u ↔ Occurs base u ∨ Occurs extra u := by
  have keys : ∀ data : Balances String, Occurs data u ↔
      ∃ key, addressOf key = some u ∧ key ∈ data.entries.map Prod.fst := by
    intro data
    simp only [Occurs, Listed, List.mem_map, Prod.exists, exists_and_right, exists_eq_right]
    constructor
    · intro given
      rcases given with ⟨amount, key, holder, mem⟩
      exact ⟨key, holder, amount, mem⟩
    · intro given
      rcases given with ⟨key, holder, amount, mem⟩
      exact ⟨amount, key, holder, mem⟩
  simp only [keys, keys_spread_iff, and_or_left, exists_or]

/-- Where each holder has one leaf, the leaves are those of a snapshot by address. -/
theorem leavesOfFile_eq (keccak256 : Bytes → Bytes32) (valid : leafData data = some leaves)
    (once : (leaves.map Prod.fst).Nodup) :
    leavesOfFile keccak256 data = some (leavesOf keccak256 ⟨leaves, once⟩) := by
  rw [leavesOfFile, valid, Option.map_some, leavesOf]

/-- **One leaf for each holder.** The leaves of a cToken are right exactly if its two files write
each holder in one way. Then they are the leaves of a snapshot by address. -/
theorem merged_right_iff {base : JsObject (Balances String) String}
    {extra : Option (JsObject (Balances String) String)} {c : String}
    (here : (c, data) ∈ (merged base extra).entries) (valid : leafData data = some leaves) :
    (MergedRight (base.rows c) ((extra.getD .empty).rows c) leaves ↔
      SpelledOnce (base.rows c) ((extra.getD .empty).rows c)) ∧
    ∀ keccak256 (once : (leaves.map Prod.fst).Nodup),
      leavesOfFile keccak256 data = some (leavesOf keccak256 ⟨leaves, once⟩) := by
  refine ⟨?_, fun keccak256 once => leavesOfFile_eq keccak256 valid once⟩
  have rows := rows_of_mem_merged here
  generalize base.rows c = old at rows
  generalize (extra.getD .empty).rows c = new at rows
  subst rows
  have spelled : (leaves.map Prod.fst).Nodup ↔ SpelledOnce old new := by
    rw [holders_nodup_iff valid]
    simp only [SpelledOnce, keys_spread_iff, List.mem_append]
  constructor
  · intro right
    exact spelled.mp right.once
  · intro once
    refine ⟨spelled.mpr once, fun u => ?_, fun u amount listed => ?_, fun u amount listed absent =>
      ?_⟩
    · rw [mem_holders valid, occurs_spread_iff]
    · obtain ⟨key, holder, mem⟩ := listed
      exact (mem_leafData valid).mpr ⟨key, holder, mem_spread_iff.mpr (.inl mem)⟩
    · obtain ⟨key, holder, mem⟩ := listed
      refine (mem_leafData valid).mpr ⟨key, holder, mem_spread_iff.mpr (.inr ⟨?_, mem⟩)⟩
      intro written
      obtain ⟨entry, mem', same⟩ := List.mem_map.mp written
      exact absent ⟨entry.2, key, holder, same ▸ mem'⟩

end CreateMerkleTrees

namespace CreateMerkleTrees.Sample

theorem cTokens_nodup : cTokens.Nodup := by decide +kernel

/-- A file that has these holders for each cToken. -/
def file (holders : Balances String) : JsObject (Balances String) String :=
  ⟨cTokens.map fun c => (c, holders), by simpa [Function.comp_def] using cTokens_nodup⟩

/-- One holder of 5. -/
def snapshot : JsObject (Balances String) String :=
  file ⟨[("0xABABABABABABABABABABABABABABABABABABABAB", 5)], by decide⟩

/-- The same holder, with 7. -/
def corrected : JsObject (Balances String) String :=
  file ⟨[("0xABABABABABABABABABABABABABABABABABABABAB", 7)], by decide⟩

/-- The same holder again, in lower case. -/
def lowered : JsObject (Balances String) String :=
  file ⟨[("0xabababababababababababababababababababab", 7)], by decide⟩

/-- The first cToken. -/
def cToken : String := "0xd8553552f8868c1ef160eedf031cf0bcf9686945"

/-- Written in one way, the holder has its 7. -/
theorem merged_right_sample :
    MergedRight (snapshot.rows cToken) (corrected.rows cToken)
      [(0xabababababababababababababababababababab, 7)] := by
  have here : (cToken, ⟨[("0xABABABABABABABABABABABABABABABABABABABAB", 7)], by decide⟩) ∈
      (merged snapshot (some corrected)).entries := by decide +kernel
  exact (merged_right_iff here (by decide)).1.mpr (by decide +kernel)

/-- In the other case, it has both amounts, in files that the script accepts. -/
theorem merged_wrong :
    ¬ ∀ (base : JsObject (Balances String) String)
        (extra : Option (JsObject (Balances String) String)) (c : String) (data : Balances String)
        (leaves : List (Address × UInt256)), (c, data) ∈ (merged base extra).entries →
      leafData data = some leaves →
      (merged base extra).entries.length = 27 →
      (∀ e ∈ (merged base extra).entries, e.1 ∈ cTokens) →
      MergedRight (base.rows c) ((extra.getD .empty).rows c) leaves := by
  intro all
  have right := all snapshot (some lowered) cToken ⟨[
    ("0xABABABABABABABABABABABABABABABABABABABAB", 5),
    ("0xabababababababababababababababababababab", 7)], by decide⟩
    [(0xabababababababababababababababababababab, 5),
      (0xabababababababababababababababababababab, 7)] (by decide +kernel) (by decide)
    (by decide +kernel) (by decide +kernel)
  exact absurd right.once (by decide)

end CreateMerkleTrees.Sample

end FeiProtocol
