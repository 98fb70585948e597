import FeiProtocol.Evm.Execution

/-!
# Signed typed data

A signed message is a list of words, hashed together with the hash of the words that name the
contract it is for. Messages that differ have different digests as long as the hash does not
collide on the byte strings that are hashed for them: `Message.eq_or_collides`.

Nothing here mentions a contract.
-/

namespace Evm

/-- The encoding of words one after the other. -/
def encodeWords (words : List (BitVec 256)) : Bytes := words.flatMap packWord

theorem encodeWords_inj {v w : List (BitVec 256)} (same : encodeWords v = encodeWords w) :
    v = w := by
  induction v generalizing w with
  | nil =>
      cases w with
      | nil => rfl
      | cons y w =>
          have lengths := congrArg List.length same
          simp only [encodeWords, List.flatMap_nil, List.flatMap_cons, List.length_append,
            List.length_nil, length_packWord] at lengths
          omega
  | cons x v ih =>
      cases w with
      | nil =>
          have lengths := congrArg List.length same
          simp only [encodeWords, List.flatMap_nil, List.flatMap_cons, List.length_append,
            List.length_nil, length_packWord] at lengths
          omega
      | cons y w =>
          have lengths : (packWord x).length = (packWord y).length := by simp
          obtain ⟨first, rest⟩ : packWord x = packWord y ∧ encodeWords v = encodeWords w :=
            List.append_inj same lengths
          rw [packWord_inj first, ih rest]

/-- The words that name the contract, and the words that are signed. -/
@[ext]
structure Message : Type where
  domain : List (BitVec 256)
  words : List (BitVec 256)
  deriving DecidableEq, Repr

/-- `"\x19\x01"` and two words. -/
def digestBytes (domainSeparator structHash : Bytes32) : Bytes :=
  [0x19, 0x01] ++ packWord domainSeparator ++ packWord structHash

theorem digestBytes_inj {v w v' w' : Bytes32} (same : digestBytes v w = digestBytes v' w') :
    v = v' ∧ w = w' := by
  have heads : ([0x19, 0x01] ++ packWord v).length = ([0x19, 0x01] ++ packWord v').length := by
    simp
  have parts := List.append_inj same heads
  exact ⟨packWord_inj (List.append_cancel_left parts.1), packWord_inj parts.2⟩

/-- A message with its signer, and the nonce that is one of its words. -/
structure Signed : Type where
  signer : Address
  nonce : Nat
  message : Message
  deriving DecidableEq, Repr

/-- The word of an address. -/
def wordOfAddress (a : Address) : BitVec 256 := a.setWidth 256

theorem ofNat_inj {m n : Nat} (first : m < 2 ^ 256) (second : n < 2 ^ 256)
    (same : BitVec.ofNat 256 m = BitVec.ofNat 256 n) : m = n := by
  have values := congrArg BitVec.toNat same
  simp only [BitVec.toNat_ofNat] at values
  omega

namespace Message

variable (H : Bytes → Bytes32)

def domainSeparator (m : Message) : Bytes32 := H (encodeWords m.domain)

def structHash (m : Message) : Bytes32 := H (encodeWords m.words)

/-- What is signed. -/
def digest (m : Message) : Bytes32 :=
  H (digestBytes (m.domainSeparator H) (m.structHash H))

/-- The byte strings that are hashed for a message. -/
def hashed (m : Message) : List Bytes :=
  [encodeWords m.domain, encodeWords m.words, digestBytes (m.domainSeparator H) (m.structHash H)]

/-- Two byte strings, one hashed for each of two messages, that differ and have the same hash. -/
def Collide (m m' : Message) : Prop :=
  ∃ x ∈ m.hashed H, ∃ y ∈ m'.hashed H, x ≠ y ∧ H x = H y

variable {H}

/-- **One message for a digest**, or a collision. -/
theorem eq_or_collides {m m' : Message} (same : m.digest H = m'.digest H) :
    m = m' ∨ Collide H m m' := by
  by_cases digests : digestBytes (m.domainSeparator H) (m.structHash H) =
      digestBytes (m'.domainSeparator H) (m'.structHash H)
  · obtain ⟨separators, structs⟩ := digestBytes_inj digests
    by_cases domains : encodeWords m.domain = encodeWords m'.domain
    · by_cases words : encodeWords m.words = encodeWords m'.words
      · exact .inl (Message.ext (encodeWords_inj domains) (encodeWords_inj words))
      · exact .inr ⟨_, by simp [hashed], _, by simp [hashed], words, structs⟩
    · exact .inr ⟨_, by simp [hashed], _, by simp [hashed], domains, separators⟩
  · exact .inr ⟨_, by simp [hashed], _, by simp [hashed], digests, same⟩

end Message

end Evm
