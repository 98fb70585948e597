import Mathlib.Data.BitVec
import Mathlib.Logic.Function.Basic
import Mathlib.Tactic.Common

/-!
# Words, bytes and revertible execution

The vocabulary every contract model is written in: fixed-width words, byte
strings with their packed encodings, and calls that either return a value or
revert. A reverting call is an `Except.error`; the state before the call
survives it (`Evm/Machine.lean`).

Storage integers are natural numbers. The compiler's checked arithmetic is
explicit: `checkedAdd`, `checkedSub`, `checkedMul` and `checkedDiv` panic
exactly where the compiled code does.

Nothing here mentions a contract.
-/

namespace Evm

/-- A 20-byte account address. -/
abbrev Address : Type := BitVec 160

/-- So that being in a list of addresses is decided by this instance everywhere. -/
instance : LawfulBEq Address := inferInstance

/-- A 32-byte hash or storage word. -/
abbrev Bytes32 : Type := BitVec 256

/-- An unsigned 256-bit calldata integer. -/
abbrev UInt256 : Type := BitVec 256

abbrev Bytes : Type := List UInt8

/-- The largest unsigned 256-bit integer. -/
def maxUint256 : Nat := 2 ^ 256 - 1

/-- Why a call reverts: a `require` with its message, or a compiler panic. -/
inductive Revert : Type where
  | reason (message : String)
  | panic (code : Nat)
  deriving DecidableEq, Repr

/-- `require(cond, message)`. -/
def require (cond : Prop) [Decidable cond] (message : String) : Except Revert Unit :=
  if cond then .ok () else .error (.reason message)

/-- A natural number that has to fit a 256-bit word. -/
def checked (n : Nat) : Except Revert Nat :=
  if n < 2 ^ 256 then .ok n else .error (.panic 0x11)

def checkedAdd (a b : Nat) : Except Revert Nat := checked (a + b)

def checkedMul (a b : Nat) : Except Revert Nat := checked (a * b)

def checkedSub (a b : Nat) : Except Revert Nat :=
  if b ≤ a then .ok (a - b) else .error (.panic 0x11)

def checkedDiv (a b : Nat) : Except Revert Nat :=
  if b = 0 then .error (.panic 0x12) else .ok (a / b)

/-- `SafeCast.toUint<bits>`. -/
def toUint (bits n : Nat) : Except Revert (BitVec bits) := do
  require (n < 2 ^ bits) s!"SafeCast: value doesn't fit in {bits} bits"
  return BitVec.ofNat bits n

/-! ## Signed integers, assertions and arrays -/

/-- A signed integer that has to fit a 256-bit word. -/
def checkedInt (i : Int) : Except Revert Int :=
  if -2 ^ 255 ≤ i ∧ i < 2 ^ 255 then .ok i else .error (.panic 0x11)

def checkedIntAdd (a b : Int) : Except Revert Int := checkedInt (a + b)

def checkedIntSub (a b : Int) : Except Revert Int := checkedInt (a - b)

/-- `SafeCast.toInt256`. -/
def toInt256 (n : Nat) : Except Revert Int := do
  require (n < 2 ^ 255) "SafeCast: value doesn't fit in an int256"
  return n

/-- `SafeCast.toUint256`. -/
def toUint256 (i : Int) : Except Revert Nat := do
  require (0 ≤ i) "SafeCast: value must be positive"
  return i.toNat

/-- `assert(cond)`. -/
def assert (cond : Prop) [Decidable cond] : Except Revert Unit :=
  if cond then .ok () else .error (.panic 0x01)

/-- `array[i]`. -/
def element {α : Type} (l : List α) (i : Nat) : Except Revert α :=
  match l[i]? with
  | some a => .ok a
  | none => .error (.panic 0x32)

/-! ## Inverting successful calls -/

section Success

variable {ε α β : Type} {a b c : Nat}

theorem bind_eq_ok_iff {x : Except ε α} {f : α → Except ε β} {y : β} :
    (x >>= f) = .ok y ↔ ∃ v, x = .ok v ∧ f v = .ok y := by
  cases x with
  | error e => simp [bind, Except.bind]
  | ok v => simp [bind, Except.bind]

/-- A computed success has a result. -/
theorem exists_ok_of_isOk {x : Except ε α} (succeeds : x.isOk = true) : ∃ v, x = .ok v := by
  cases x with
  | error e => cases succeeds
  | ok v => exact ⟨v, rfl⟩

theorem toOption_eq_some_iff {x : Except ε α} {v : α} : x.toOption = some v ↔ x = .ok v := by
  cases x with
  | error e => simp [Except.toOption]
  | ok v => simp [Except.toOption]

theorem seq_eq_ok_iff {x : Except ε Unit} {y : Except ε β} {v : β} :
    (x >>= fun _ => y) = .ok v ↔ x = .ok () ∧ y = .ok v := by
  cases x with
  | error e => simp [bind, Except.bind]
  | ok u => simp [bind, Except.bind]

theorem map_eq_ok_iff {x : Except ε α} {f : α → β} {y : β} :
    f <$> x = .ok y ↔ ∃ v, x = .ok v ∧ f v = y := by
  cases x with
  | error e => simp [Functor.map, Except.map]
  | ok v => simp [Functor.map, Except.map]

theorem pure_eq_ok_iff {x y : α} : (pure x : Except ε α) = .ok y ↔ x = y := by
  simp [pure, Except.pure]

@[simp]
theorem require_eq_ok_iff {cond : Prop} [Decidable cond] {message : String} {u : Unit} :
    require cond message = .ok u ↔ cond := by
  unfold require
  split <;> simp_all

@[simp]
theorem checked_eq_ok_iff {n : Nat} : checked n = .ok a ↔ n < 2 ^ 256 ∧ n = a := by
  unfold checked
  split <;> simp_all

@[simp]
theorem checkedAdd_eq_ok_iff : checkedAdd a b = .ok c ↔ a + b < 2 ^ 256 ∧ a + b = c :=
  checked_eq_ok_iff

@[simp]
theorem checkedMul_eq_ok_iff : checkedMul a b = .ok c ↔ a * b < 2 ^ 256 ∧ a * b = c :=
  checked_eq_ok_iff

@[simp]
theorem checkedSub_eq_ok_iff : checkedSub a b = .ok c ↔ b ≤ a ∧ a - b = c := by
  unfold checkedSub
  split <;> simp_all

@[simp]
theorem checkedDiv_eq_ok_iff : checkedDiv a b = .ok c ↔ b ≠ 0 ∧ a / b = c := by
  unfold checkedDiv
  split <;> simp_all

@[simp]
theorem checkedInt_eq_ok_iff {i j : Int} :
    checkedInt i = .ok j ↔ (-2 ^ 255 ≤ i ∧ i < 2 ^ 255) ∧ i = j := by
  unfold checkedInt
  split <;> simp_all

@[simp]
theorem checkedIntAdd_eq_ok_iff {i j k : Int} :
    checkedIntAdd i j = .ok k ↔ (-2 ^ 255 ≤ i + j ∧ i + j < 2 ^ 255) ∧ i + j = k :=
  checkedInt_eq_ok_iff

@[simp]
theorem checkedIntSub_eq_ok_iff {i j k : Int} :
    checkedIntSub i j = .ok k ↔ (-2 ^ 255 ≤ i - j ∧ i - j < 2 ^ 255) ∧ i - j = k :=
  checkedInt_eq_ok_iff

@[simp]
theorem toInt256_eq_ok_iff {n : Nat} {i : Int} :
    toInt256 n = .ok i ↔ n < 2 ^ 255 ∧ (n : Int) = i := by
  simp only [toInt256, bind_eq_ok_iff, pure_eq_ok_iff, require_eq_ok_iff, exists_const]

@[simp]
theorem toUint256_eq_ok_iff {i : Int} {n : Nat} : toUint256 i = .ok n ↔ 0 ≤ i ∧ i.toNat = n := by
  simp only [toUint256, bind_eq_ok_iff, pure_eq_ok_iff, require_eq_ok_iff, exists_const]

@[simp]
theorem assert_eq_ok_iff {cond : Prop} [Decidable cond] {u : Unit} :
    assert cond = .ok u ↔ cond := by
  unfold assert
  split <;> simp_all

@[simp]
theorem element_eq_ok_iff {l : List α} {i : Nat} {x : α} :
    element l i = .ok x ↔ l[i]? = some x := by
  unfold element
  split <;> simp_all

theorem toUint_eq_ok_iff {bits n : Nat} {w : BitVec bits} :
    toUint bits n = .ok w ↔ n < 2 ^ bits ∧ n = w.toNat := by
  simp only [toUint, bind_eq_ok_iff, pure_eq_ok_iff, require_eq_ok_iff, exists_const]
  constructor
  · intro given
    rcases given with ⟨fits, same⟩
    rw [← same, BitVec.toNat_ofNat, Nat.mod_eq_of_lt fits]
    exact ⟨fits, rfl⟩
  · intro given
    rcases given with ⟨fits, same⟩
    rw [same, BitVec.ofNat_toNat, BitVec.setWidth_eq]
    exact ⟨w.isLt, rfl⟩

@[simp]
theorem toNat_toUint_eq_ok_iff {bits n m : Nat} :
    BitVec.toNat <$> toUint bits n = .ok m ↔ n < 2 ^ bits ∧ n = m := by
  simp only [map_eq_ok_iff, toUint_eq_ok_iff]
  constructor
  · intro given
    rcases given with ⟨w, ⟨fits, value⟩, same⟩
    exact ⟨fits, value.trans same⟩
  · intro given
    rcases given with ⟨fits, same⟩
    refine ⟨BitVec.ofNat bits n, ⟨fits, ?_⟩, ?_⟩
    · rw [BitVec.toNat_ofNat, Nat.mod_eq_of_lt fits]
    · rw [BitVec.toNat_ofNat, Nat.mod_eq_of_lt fits, same]

end Success

/-! ## Ways to revert -/

section Failures

variable {ε α β : Type} {E : ε → Prop} {F : Revert → Prop}

/-- Every way for a call to revert satisfies `E`. -/
def Fails (E : ε → Prop) (x : Except ε α) : Prop :=
  ∀ e, x = .error e → E e

theorem fails_ok (v : α) : Fails E (.ok v) := nofun

theorem fails_pure (v : α) : Fails E (pure v) := nofun

theorem Fails.bind {x : Except ε α} {f : α → Except ε β} (first : Fails E x)
    (rest : ∀ v, x = .ok v → Fails E (f v)) : Fails E (x >>= f) := by
  cases x with
  | error e =>
      intro e' reverts
      cases reverts
      exact first e rfl
  | ok v => exact rest v rfl

theorem Fails.map {x : Except ε α} (f : α → β) (first : Fails E x) : Fails E (f <$> x) := by
  cases x with
  | error e =>
      intro e' reverts
      cases reverts
      exact first e rfl
  | ok v => exact fails_ok _

theorem Fails.ite {c : Prop} [Decidable c] {x y : Except ε α} (yes : c → Fails E x)
    (no : ¬ c → Fails E y) : Fails E (if c then x else y) := by
  split
  · rename_i holds
    exact yes holds
  · rename_i fails
    exact no fails

theorem fails_require {cond : Prop} [Decidable cond] {message : String}
    (allowed : ¬ cond → F (.reason message)) : Fails F (require cond message) := by
  unfold require
  split
  · exact fails_ok _
  · rename_i fails
    intro e reverts
    cases reverts
    exact allowed fails

theorem fails_assert {cond : Prop} [Decidable cond] (holds : cond) : Fails F (assert cond) := by
  rw [assert, if_pos holds]
  exact fails_ok _

theorem fails_checked (n : Nat) (allowed : F (.panic 0x11)) : Fails F (checked n) := by
  refine .ite (fun _ => fails_ok _) fun _ e reverts => ?_
  cases reverts
  exact allowed

theorem fails_checkedSub (a b : Nat) (allowed : F (.panic 0x11)) :
    Fails F (checkedSub a b) := by
  refine .ite (fun _ => fails_ok _) fun _ e reverts => ?_
  cases reverts
  exact allowed

theorem fails_checkedDiv (a b : Nat) (allowed : F (.panic 0x12)) :
    Fails F (checkedDiv a b) := by
  refine .ite (fun _ e reverts => ?_) fun _ => fails_ok _
  cases reverts
  exact allowed

theorem fails_checkedInt (i : Int) (allowed : F (.panic 0x11)) : Fails F (checkedInt i) := by
  refine .ite (fun _ => fails_ok _) fun _ e reverts => ?_
  cases reverts
  exact allowed

theorem fails_element (l : List α) (i : Nat) (allowed : F (.panic 0x32)) :
    Fails F (element l i) := by
  unfold element
  split
  · exact fails_ok _
  · intro e reverts
    cases reverts
    exact allowed

end Failures

/-! ## Nested mappings -/

section Update₂

variable {A B C : Type} [DecidableEq A] [DecidableEq B]

/-- Assignment to one entry of a nested mapping. -/
def update₂ (m : A → B → C) (a : A) (b : B) (v : C) : A → B → C :=
  Function.update m a (Function.update (m a) b v)

theorem update₂_apply (m : A → B → C) (a : A) (b : B) (v : C) (a' : A) (b' : B) :
    update₂ m a b v a' b' = if a' = a ∧ b' = b then v else m a' b' := by
  unfold update₂
  by_cases ha : a' = a
  · subst ha
    by_cases hb : b' = b <;> simp [hb]
  · simp [ha]

@[simp]
theorem update₂_self (m : A → B → C) (a : A) (b : B) (v : C) : update₂ m a b v a b = v := by
  simp [update₂_apply]

theorem update₂_of_ne (m : A → B → C) {a a' : A} {b b' : B} (v : C)
    (other : ¬ (a' = a ∧ b' = b)) : update₂ m a b v a' b' = m a' b' := by
  simp [update₂_apply, other]

@[simp]
theorem update₂_eq_self (m : A → B → C) (a : A) (b : B) : update₂ m a b (m a b) = m := by
  funext a' b'
  rw [update₂_apply]
  split
  · rename_i same
    rw [same.1, same.2]
  · rfl

end Update₂

/-! ## Packed encodings -/

/-- The `width` low bytes of `n`, most significant first. -/
def bytesBE : Nat → Nat → Bytes
  | 0, _ => []
  | width + 1, n => bytesBE width (n / 256) ++ [UInt8.ofNat n]

@[simp]
theorem length_bytesBE (width n : Nat) : (bytesBE width n).length = width := by
  induction width generalizing n with
  | zero => rfl
  | succ width ih => simp [bytesBE, ih]

/-- A big-endian encoding determines every number that fits it. -/
theorem bytesBE_inj {width m n : Nat} (hm : m < 256 ^ width) (hn : n < 256 ^ width)
    (same : bytesBE width m = bytesBE width n) : m = n := by
  induction width generalizing m n with
  | zero =>
      simp only [pow_zero] at hm hn
      omega
  | succ width ih =>
      have parts := List.append_inj same (by simp)
      have high : m / 256 = n / 256 := by
        refine ih ?_ ?_ parts.1
        · exact Nat.div_lt_of_lt_mul (by rwa [pow_succ, mul_comm] at hm)
        · exact Nat.div_lt_of_lt_mul (by rwa [pow_succ, mul_comm] at hn)
      have low : m % 256 = n % 256 := by
        have bytes : UInt8.ofNat m = UInt8.ofNat n := by simpa using parts.2
        have values := congrArg UInt8.toNat bytes
        simpa using values
      omega

/-- The 20 packed bytes of an address. -/
def packAddress (a : Address) : Bytes := bytesBE 20 a.toNat

/-- The 32 packed bytes of a word. -/
def packWord (w : BitVec 256) : Bytes := bytesBE 32 w.toNat

@[simp]
theorem length_packAddress (a : Address) : (packAddress a).length = 20 :=
  length_bytesBE _ _

@[simp]
theorem length_packWord (w : BitVec 256) : (packWord w).length = 32 :=
  length_bytesBE _ _

theorem packAddress_inj {a b : Address} (same : packAddress a = packAddress b) : a = b := by
  have bound : (256 : Nat) ^ 20 = 2 ^ 160 := by decide
  exact BitVec.eq_of_toNat_eq
    (bytesBE_inj (by rw [bound]; exact a.isLt) (by rw [bound]; exact b.isLt) same)

theorem packWord_inj {v w : BitVec 256} (same : packWord v = packWord w) : v = w := by
  have bound : (256 : Nat) ^ 32 = 2 ^ 256 := by decide
  exact BitVec.eq_of_toNat_eq
    (bytesBE_inj (by rw [bound]; exact v.isLt) (by rw [bound]; exact w.isLt) same)

end Evm
