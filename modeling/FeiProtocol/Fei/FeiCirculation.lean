import FeiProtocol.Fei.Fei

/-!
# FEI around a holder

What circulates outside a holder that has approved nobody, given what it pays out and takes
back by its own calls. What other minters create is read off the events.

* `call_circulates`: calls of other accounts add no more than they mint.
* `transfer_circulates`, `mint_circulates`, `transferFrom_circulates`: the calls of the holder.
-/

namespace FeiProtocol

open Evm

def FeiEvent.mintedBy (minter : Address) : FeiEvent → Nat
  | .Minting _ by' amount => if by' = minter then amount else 0
  | .Burning _ _ _ => 0

def FeiEvent.mintedElsewhere (minter : Address) : FeiEvent → Nat
  | .Minting _ by' amount => if by' = minter then 0 else amount
  | .Burning _ _ _ => 0

namespace Fei

/-- All FEI that `minter` has minted. -/
def mintedBy (s : FeiState) (minter : Address) : Nat :=
  (s.events.map (FeiEvent.mintedBy minter)).sum

/-- All FEI that other minters have minted. -/
def mintedElsewhere (s : FeiState) (minter : Address) : Nat :=
  (s.events.map (FeiEvent.mintedElsewhere minter)).sum

/-- Between `s` and `s'` the holder paid out `paid` at most, of which it minted `minted`, and
took back `taken` at least. -/
structure Circulates (holder : Address) (s s' : FeiState) (paid taken minted : Nat) : Prop where
  plain : Plain s'
  unapproved : Unapproved s' holder
  circulating_le : circulating s' holder + taken + mintedElsewhere s holder ≤
    circulating s holder + paid + mintedElsewhere s' holder
  mintedBy : mintedBy s' holder = mintedBy s holder + minted

variable {env : FeiEnv} {s s' s'' : FeiState} {holder sender receiver src : Address}
  {amount paid paid' taken taken' minted minted' : Nat}

theorem Circulates.refl (plain : Plain s) (none : Unapproved s holder) :
    Circulates holder s s 0 0 0 :=
  ⟨plain, none, Nat.le_refl _, rfl⟩

theorem Circulates.trans (first : Circulates holder s s' paid taken minted)
    (second : Circulates holder s' s'' paid' taken' minted') :
    Circulates holder s s'' (paid + paid') (taken + taken') (minted + minted') := by
  refine ⟨second.plain, second.unapproved, ?_, ?_⟩
  · have before := first.circulating_le
    have after := second.circulating_le
    omega
  · rw [second.mintedBy, first.mintedBy, Nat.add_assoc]

/-- A call that creates nothing. -/
theorem Outside.circulates (outside : Outside holder s s')
    (own : Fei.mintedBy s' holder = Fei.mintedBy s holder)
    (others : mintedElsewhere s' holder = mintedElsewhere s holder) :
    Circulates holder s s' 0 0 0 := by
  refine ⟨outside.plain, outside.unapproved, ?_, own⟩
  have le := outside.circulating_le
  omega

/-- A mint, by the holder or not. -/
theorem circulating_mint_le (plain : Plain s) (account : Address) {events : List FeiEvent} :
    circulating { s with erc20 := s.erc20.mint account amount, events } holder ≤
      circulating s holder + amount := by
  have grows : s.erc20.balanceOf holder ≤ (s.erc20.mint account amount).balanceOf holder := by
    rw [Erc20.mint_balanceOf]
    exact Nat.le_add_right _ _
  have room := plain.balance_le holder
  simp only [circulating, totalSupply, balanceOf, Erc20.mint] at grows room ⊢
  omega

theorem mint_plain (plain : Plain s) {account : Address} {events : List FeiEvent}
    (fits : s.erc20.totalSupply + amount < 2 ^ 256) :
    Plain { s with erc20 := s.erc20.mint account amount, events } :=
  ⟨plain.noIncentives, plain.consistent.mint fits⟩

/-- **Other accounts.** They add to what circulates no more than they mint. -/
theorem call_circulates {c : Call} (plain : Plain s) (none : Unapproved s holder)
    (other : sender ≠ holder) (succeeds : call env s sender c = .ok s') :
    Circulates holder s s' 0 0 0 := by
  -- no other call asks who is a minter
  let noMinter : FeiEnv := { env with core := { env.core with isMinter := fun _ => false } }
  have outside : call noMinter s sender c = .ok s' → Outside holder s s' :=
    call_outside plain none other Bool.false_ne_true
  cases c with
  | mint account amount =>
      obtain ⟨_, _, _, fits, same⟩ := (mint_eq_ok_iff plain).mp succeeds
      subst same
      refine ⟨mint_plain plain fits, none, ?_, ?_⟩
      · have le := @circulating_mint_le s holder amount.toNat plain account
          (s.events ++ [.Minting account sender amount.toNat])
        simp [mintedElsewhere, FeiEvent.mintedElsewhere, other]
        omega
      · simp [mintedBy, FeiEvent.mintedBy, other]
  | burn amount =>
      obtain ⟨_, _, _, same⟩ := (burn_eq_ok_iff plain).mp succeeds
      refine (outside succeeds).circulates ?_ ?_ <;> subst same
      · simp [mintedBy, FeiEvent.mintedBy]
      · simp [mintedElsewhere, FeiEvent.mintedElsewhere]
  | burnFrom account amount =>
      obtain ⟨_, _, _, _, _, same⟩ := (burnFrom_eq_ok_iff plain).mp succeeds
      refine (outside succeeds).circulates ?_ ?_ <;> subst same
      · simp [mintedBy, FeiEvent.mintedBy]
      · simp [mintedElsewhere, FeiEvent.mintedElsewhere]
  | transfer receiver amount =>
      obtain ⟨_, _, _, same⟩ := (_transfer_eq_ok_iff plain).mp succeeds
      refine (outside succeeds).circulates ?_ ?_ <;> subst same <;> rfl
  | transferFrom src dst amount =>
      have word : amount.toNat ≤ maxUint256 := Nat.le_pred_of_lt amount.isLt
      obtain ⟨_, _, _, _, _, same⟩ := (transferFrom_eq_ok_iff plain word).mp succeeds
      refine (outside succeeds).circulates ?_ ?_ <;> subst same <;> rfl
  | approve spender amount =>
      obtain ⟨_, _, same⟩ := approve_eq_ok_iff.mp succeeds
      refine (outside succeeds).circulates ?_ ?_ <;> subst same <;> rfl
  | pause =>
      have same := CoreRef.pause_eq succeeds
      refine (outside succeeds).circulates ?_ ?_ <;> subst same <;> rfl
  | unpause =>
      have same := CoreRef.unpause_eq succeeds
      refine (outside succeeds).circulates ?_ ?_ <;> subst same <;> rfl

/-- A payment of the holder. -/
theorem transfer_circulates (plain : Plain s) (none : Unapproved s holder)
    (succeeds : transfer env s holder receiver amount = .ok s') :
    Circulates holder s s' amount 0 0 := by
  obtain ⟨_, _, covered, same⟩ := (_transfer_eq_ok_iff plain).mp succeeds
  subst same
  refine ⟨⟨plain.noIncentives, plain.consistent.move covered⟩, none, ?_, rfl⟩
  have exact := Erc20.move_balanceOf covered receiver holder
  have room := plain.balance_le holder
  rw [if_pos rfl] at exact
  simp only [circulating, totalSupply, balanceOf, Erc20.move_totalSupply, mintedElsewhere]
    at exact room ⊢
  split at exact <;> omega

/-- A mint of the holder. -/
theorem mint_circulates (plain : Plain s) (none : Unapproved s holder)
    (succeeds : mint env s holder receiver amount = .ok s') :
    Circulates holder s s' amount 0 amount := by
  obtain ⟨_, _, _, fits, same⟩ := (mint_eq_ok_iff plain).mp succeeds
  subst same
  refine ⟨mint_plain plain fits, none, ?_, ?_⟩
  · have le := @circulating_mint_le s holder amount plain receiver
      (s.events ++ [.Minting receiver holder amount])
    simp [mintedElsewhere, FeiEvent.mintedElsewhere]
    omega
  · simp [mintedBy, FeiEvent.mintedBy]

/-- What the holder pulls to itself. -/
theorem transferFrom_circulates (plain : Plain s) (none : Unapproved s holder)
    (other : src ≠ holder) (word : amount ≤ maxUint256)
    (succeeds : transferFrom env s holder src holder amount = .ok s') :
    Circulates holder s s' 0 amount 0 := by
  obtain ⟨_, _, _, _, covered, same⟩ := (transferFrom_eq_ok_iff plain word).mp succeeds
  subst same
  have covered' : amount ≤ (s.erc20.spend src holder amount).balanceOf src := by
    rw [Erc20.spend_balanceOf]
    exact covered
  refine ⟨⟨plain.noIncentives, plain.consistent.spend.move covered'⟩, ?_, ?_, rfl⟩
  · intro spender
    have le := Erc20.spend_allowance_le s.erc20 src holder holder spender amount
    have zero : s.erc20.allowance holder spender = 0 := none spender
    rw [allowance, Erc20.move_allowance]
    omega
  · have exact := Erc20.move_balanceOf covered' holder holder
    have circulates := plain.balance_le_circulating other
    have room := plain.balance_le holder
    rw [if_neg other.symm, if_pos rfl, Erc20.spend_balanceOf] at exact
    simp only [circulating, totalSupply, balanceOf, Erc20.move_totalSupply,
      Erc20.spend_totalSupply, mintedElsewhere] at exact circulates room ⊢
    omega

end Fei

end FeiProtocol
