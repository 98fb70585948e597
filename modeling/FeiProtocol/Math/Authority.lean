import Mathlib.Logic.Function.Basic
import Mathlib.Logic.Function.Iterate
import Mathlib.Logic.Relation
import Mathlib.Tactic.Common

/-!
# Delegated authority

Accounts hold roles, and each role names the one whose holders grant it. The holders of one
role, the `root`, may rename the administrator of any. What a coalition of accounts can come to
hold is then decided by what it holds: it can acquire a role exactly if one of its accounts holds
a role above it, or above the root, on the chain of administrators.

* `Acquirable.of_reach`, `gained_of_reach`: a coalition gets no further.
* `exists_reach`: and gets that far by promotions of its own accounts.
-/

namespace Authority

open Relation

variable {Role Account : Type}

/-- Who holds which role, and which role administers it. -/
@[ext]
structure Grants (Role Account : Type) : Type where
  holds : Role → Account → Prop
  admin : Role → Role

section Reach

variable (root : Role) (C : Account → Prop)

/-- An account of the coalition holds the role, or one above it. -/
def Commands (g : Grants Role Account) (r : Role) : Prop :=
  ∃ n a, C a ∧ g.holds (g.admin^[n] r) a

/-- What the coalition can come to hold. -/
def Acquirable (g : Grants Role Account) (r : Role) : Prop :=
  Commands C g r ∨ Commands C g root

variable [DecidableEq Role]

/-- What the coalition may add. -/
inductive Promotion (g : Grants Role Account) : Grants Role Account → Prop
  | grant {a : Account} (r : Role) (b : Account) (acts : C a)
    (administers : g.holds (g.admin r) a) :
    Promotion g { g with holds := fun q c => g.holds q c ∨ q = r ∧ c = b }
  | appoint {a : Account} (r q : Role) (acts : C a) (rules : g.holds root a) :
    Promotion g { g with admin := Function.update g.admin r q }

/-- One change to the roles: what the coalition may add, or anything that only takes away. -/
inductive Move (g : Grants Role Account) : Grants Role Account → Prop
  | promotion {g' : Grants Role Account} (promoted : Promotion root C g g') : Move g g'
  | shed {g' : Grants Role Account} (admin : g'.admin = g.admin)
    (fewer : ∀ r a, g'.holds r a → g.holds r a) : Move g g'

/-- Any number of changes. -/
abbrev Reach : Grants Role Account → Grants Role Account → Prop :=
  ReflTransGen (Move root C)

end Reach

variable {root r : Role} {C D : Account → Prop} {g g' : Grants Role Account} {a : Account}

theorem Commands.of_holds (acts : C a) (holds : g.holds r a) : Commands C g r :=
  ⟨0, a, acts, holds⟩

theorem Commands.of_admin (commands : Commands C g (g.admin r)) : Commands C g r := by
  obtain ⟨n, a, acts, holds⟩ := commands
  exact ⟨n + 1, a, acts, holds⟩

theorem Acquirable.of_root (acquirable : Acquirable root C g root) : Acquirable root C g r :=
  .inr (acquirable.elim id id)

variable [DecidableEq Role]

theorem Promotion.mono (promoted : Promotion root C g g') (sub : ∀ a, C a → D a) :
    Promotion root D g g' := by
  cases promoted with
  | grant r b acts administers => exact .grant r b (sub _ acts) administers
  | appoint r q acts rules => exact .appoint r q (sub _ acts) rules

theorem Move.mono (move : Move root C g g') (sub : ∀ a, C a → D a) : Move root D g g' := by
  cases move with
  | promotion promoted => exact .promotion (promoted.mono sub)
  | shed admin fewer => exact .shed admin fewer

/-! ## No further -/

/-- A change to the roles puts nothing new within reach. -/
theorem Acquirable.of_move (move : Move root C g g') (acquirable : Acquirable root C g' r) :
    Acquirable root C g r := by
  cases move with
  | shed admin fewer =>
      refine acquirable.imp ?_ ?_ <;>
      · intro given
        rcases given with ⟨n, a, acts, holds⟩
        rw [admin] at holds
        exact ⟨n, a, acts, fewer _ _ holds⟩
  | promotion promoted =>
      cases promoted with
      | appoint q p acts rules => exact .inr (.of_holds acts rules)
      | grant q b acts administers =>
          refine acquirable.imp ?_ ?_ <;>
          · intro given
            rcases given with ⟨n, c, member, holds⟩
            rcases holds with before | ⟨here, _⟩
            · exact ⟨n, c, member, before⟩
            · -- the administrator of the role granted is one further up the chain
              refine ⟨n + 1, _, acts, ?_⟩
              rw [Function.iterate_succ_apply']
              exact here ▸ administers

theorem gained_of_move (move : Move root C g g') (holds : g'.holds r a) :
    g.holds r a ∨ Acquirable root C g r := by
  cases move with
  | shed admin fewer => exact .inl (fewer _ _ holds)
  | promotion promoted =>
      cases promoted with
      | appoint q p acts rules => exact .inl holds
      | grant q b acts administers =>
          rcases holds with before | ⟨here, _⟩
          · exact .inl before
          · subst here
            exact .inr (.inl (Commands.of_admin (.of_holds acts administers)))

/-- Only holders of the root change who administers a role. -/
theorem admin_of_move (move : Move root C g g') :
    g'.admin = g.admin ∨ Acquirable root C g root := by
  cases move with
  | shed admin fewer => exact .inl admin
  | promotion promoted =>
      cases promoted with
      | appoint q p acts rules => exact .inr (.inr (.of_holds acts rules))
      | grant q b acts administers => exact .inl rfl

theorem Acquirable.of_reach (reach : Reach root C g g') (acquirable : Acquirable root C g' r) :
    Acquirable root C g r := by
  induction reach with
  | refl => exact acquirable
  | tail _ move ih => exact ih (acquirable.of_move move)

theorem gained_of_reach (reach : Reach root C g g') (holds : g'.holds r a) :
    g.holds r a ∨ Acquirable root C g r := by
  induction reach with
  | refl => exact .inl holds
  | tail before move ih =>
      rcases gained_of_move move holds with earlier | acquirable
      · exact ih earlier
      · exact .inr (acquirable.of_reach before)

theorem admin_of_reach (reach : Reach root C g g') :
    g'.admin = g.admin ∨ Acquirable root C g root := by
  induction reach with
  | refl => exact .inl rfl
  | tail before move ih =>
      rcases admin_of_move move with same | acquirable
      · exact ih.imp_left same.trans
      · exact .inr (acquirable.of_reach before)

/-! ## That far -/

/-- What a promotion adds keeps everything within reach. -/
theorem Acquirable.of_promotion (promoted : Promotion root C g g')
    (acquirable : Acquirable root C g r) : Acquirable root C g' r := by
  cases promoted with
  | appoint q p acts rules => exact .inr (.of_holds acts rules)
  | grant q b acts administers =>
      refine acquirable.imp ?_ ?_ <;>
      · intro given
        rcases given with ⟨n, c, member, holds⟩
        exact ⟨n, c, member, .inl holds⟩

theorem Acquirable.of_promotions (promotions : ReflTransGen (Promotion root C) g g')
    (acquirable : Acquirable root C g r) : Acquirable root C g' r := by
  induction promotions with
  | refl => exact acquirable
  | tail _ promoted ih => exact ih.of_promotion promoted

/-- Promotions take nothing away. -/
theorem holds_of_promotions (promotions : ReflTransGen (Promotion root C) g g')
    (holds : g.holds r a) : g'.holds r a := by
  induction promotions with
  | refl => exact holds
  | tail _ promoted ih =>
      cases promoted with
      | appoint q p acts rules => exact ih
      | grant q b acts administers => exact .inl ih

/-- Down a chain of administrators, by granting. -/
theorem exists_promotions (root : Role) (commands : Commands C g r) :
    ∃ g', ReflTransGen (Promotion root C) g g' ∧ g'.admin = g.admin ∧
      (∀ q c, g.holds q c → g'.holds q c) ∧ ∃ a, C a ∧ g'.holds r a := by
  obtain ⟨n, a, acts, holds⟩ := commands
  -- induction on the length of the chain, for every role at its lower end
  have climb : ∀ (n : Nat) (r : Role), g.holds (g.admin^[n] r) a →
      ∃ g', ReflTransGen (Promotion root C) g g' ∧ g'.admin = g.admin ∧
        (∀ q c, g.holds q c → g'.holds q c) ∧ g'.holds r a := by
    intro n
    induction n with
    | zero => exact fun r holds => ⟨g, .refl, rfl, fun _ _ held => held, holds⟩
    | succ n ih =>
        intro r holds
        obtain ⟨g', reach, same, more, holds'⟩ := ih (g.admin r) holds
        have administers : g'.holds (g'.admin r) a := same.symm ▸ holds'
        exact ⟨_, reach.tail (.grant r a acts administers), same,
          fun q c held => .inl (more q c held), .inr ⟨rfl, rfl⟩⟩
  obtain ⟨g', reach, same, more, holds'⟩ := climb n r holds
  exact ⟨g', reach, same, more, a, acts, holds'⟩

/-- A coalition that can acquire the administrator of a role comes to administer it. -/
theorem exists_administers (acquirable : Acquirable root C g (g.admin r)) :
    ∃ g', ReflTransGen (Promotion root C) g g' ∧ ∃ a, C a ∧ g'.holds (g'.admin r) a := by
  rcases acquirable with direct | ruling
  · obtain ⟨g', reach, same, _, a, acts, holds⟩ := exists_promotions root direct
    exact ⟨g', reach, a, acts, same.symm ▸ holds⟩
  · -- holders of the root put the role under the root
    obtain ⟨g', reach, _, _, a, acts, rules⟩ := exists_promotions root ruling
    refine ⟨_, reach.tail (.appoint r root acts rules), a, acts, ?_⟩
    simp only [Function.update_self]
    exact rules

/-- A coalition acquires whatever is within its reach. -/
theorem exists_reach (acquirable : Acquirable root C g r) :
    ∃ g', ReflTransGen (Promotion root C) g g' ∧ ∃ a, C a ∧ g'.holds r a := by
  rcases acquirable with direct | ruling
  · obtain ⟨g', reach, _, _, held⟩ := exists_promotions root direct
    exact ⟨g', reach, held⟩
  · obtain ⟨g', reach, a, acts, administers⟩ := exists_administers (r := r) (.inr ruling)
    exact ⟨_, reach.tail (.grant r a acts administers), a, acts, .inr ⟨rfl, rfl⟩⟩

/-- **What a coalition can acquire** is decided by what it holds. -/
theorem exists_holds_iff :
    (∃ g', Reach root C g g' ∧ ∃ a, C a ∧ g'.holds r a) ↔ Acquirable root C g r := by
  constructor
  · intro given
    rcases given with ⟨g', reach, a, acts, holds⟩
    rcases gained_of_reach reach holds with before | acquirable
    · exact .inl (.of_holds acts before)
    · exact acquirable
  · intro acquirable
    obtain ⟨g', reach, held⟩ := exists_reach acquirable
    exact ⟨g', ReflTransGen.mono (fun _ _ => Move.promotion) _ _ reach, held⟩

end Authority
