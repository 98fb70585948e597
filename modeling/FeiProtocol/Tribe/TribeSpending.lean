import FeiProtocol.Math.Tables
import FeiProtocol.Tribe.TribeSignatures

/-!
# Spending a holder's TRIBE

While a holder makes no calls itself, others take from it only what it let them: its allowances,
and the amounts of the permits that it has signed.
-/

namespace FeiProtocol

open Evm

namespace Tribe

variable {env : TribeEnv} {s s' : TribeState} {holder src dst : Address} {amount : Nat}

/-- All that the holder lets others spend. -/
def allowed (s : TribeState) (holder : Address) : Nat :=
  ∑ spender, s.allowances holder spender

/-- No allowance of the holder is infinite. -/
def Limited (s : TribeState) (holder : Address) : Prop :=
  ∀ spender, s.allowances holder spender < 2 ^ 96 - 1

/-- Not of the holder, and with no infinite permit of the holder's. -/
def Action.Foreign (holder : Address) : Action → Prop
  | .setMinter _ _ => True
  | .mint _ _ _ => True
  | .approve sender _ _ => holder ≠ sender
  | .permit owner _ rawAmount _ _ _ _ => owner = holder → rawAmount.toNat < 2 ^ 96 - 1
  | .transfer sender _ _ => holder ≠ sender
  | .transferFrom sender _ _ _ => holder ≠ sender
  | .delegate _ _ => True
  | .delegateBySig _ _ _ _ _ _ => True
  | .mine _ _ => True

/-- What a permit lets others spend of the holder's. -/
def Action.permitted (holder : Address) : Action → Nat
  | .permit owner _ rawAmount _ _ _ _ => if owner = holder then rawAmount.toNat else 0
  | _ => 0

/-- The amounts of the holder's permits that were accepted. -/
def permitted (env : TribeEnv) (holder : Address) (s : TribeState) (as : List Action) : Nat :=
  total (step env) (fun _ a _ => a.permitted holder) s as

/-- What others' transactions leave as it must be: the holder's loss is paid by its allowances
and by `granted`. -/
structure Spends (holder : Address) (granted : Nat) (s s' : TribeState) : Prop where
  limited : Limited s' holder
  bound : s.balances holder + allowed s' holder ≤
    s'.balances holder + allowed s holder + granted

theorem Spends.of_kept {granted : Nat} (limited : Limited s holder)
    (allowances : s'.allowances = s.allowances)
    (balance : s.balances holder ≤ s'.balances holder) : Spends holder granted s s' := by
  have same : allowed s' holder = allowed s holder := by rw [allowed, allowances, allowed]
  refine ⟨?_, by omega⟩
  rw [Limited, allowances]
  exact limited

theorem transferred_balance (covered : amount ≤ s.balances src) (a : Address) :
    (transferred s src dst amount).balances a + (if a = src then amount else 0) =
      s.balances a + if a = dst then amount else 0 := by
  simp only [transferred, Function.update_apply]
  by_cases source : a = src <;> by_cases target : a = dst <;> simp_all

theorem balance_of_transferTokens (succeeds : _transferTokens s src dst amount = .ok s')
    (a : Address) : s'.balances a + (if a = src then amount else 0) =
      s.balances a + if a = dst then amount else 0 := by
  obtain ⟨_, _, covered, _, moves⟩ := transferTokens_eq_ok_iff.mp succeeds
  rw [(moved_of_moveDelegates moves).balances]
  exact transferred_balance covered a

theorem spends_of_transferFrom {sender : Address} {rawAmount : Nat} (limited : Limited s holder)
    (other : holder ≠ sender) (succeeds : transferFrom s sender src dst rawAmount = .ok s') :
    Spends holder 0 s s' := by
  obtain ⟨t, transfers, balances, _, spent⟩ := spent_of_transferFrom succeeds
  have moved := balance_of_transferTokens transfers holder
  have aside := (aside_of_transferTokens transfers).allowances
  rw [balances] at moved
  by_cases source : holder = src
  · subst source
    rcases spent with ⟨_, _, enough, written⟩ | ⟨own | infinite, _⟩
    · have change := Tables.sum_update₂ id s.allowances holder sender
        (s.allowances holder sender - rawAmount)
      rw [← written, ← aside] at change
      simp only [id] at change
      rw [if_pos rfl] at moved
      refine ⟨fun spender => ?_, ?_⟩
      · rw [aside, written, update₂_apply]
        split
        · exact Nat.lt_of_le_of_lt (Nat.sub_le _ _) (limited sender)
        · exact limited spender
      · unfold allowed
        omega
    · exact absurd own.symm other
    · exact absurd infinite (Nat.ne_of_lt (limited sender))
  · rw [if_neg source] at moved
    have balance : s.balances holder ≤ s'.balances holder := by omega
    have same : s'.allowances holder = s.allowances holder := by
      rw [aside]
      rcases spent with ⟨_, _, _, written⟩ | ⟨_, kept⟩
      · rw [written]
        exact funext fun b => update₂_of_ne _ _ fun entry => source entry.1
      · rw [kept]
    refine ⟨?_, ?_⟩
    · rw [Limited, same]
      exact limited
    · unfold allowed
      rw [same]
      omega

theorem step_spends {act : Action} (limited : Limited s holder) (foreign : act.Foreign holder)
    (succeeds : step env s act = .ok s') : Spends holder (act.permitted holder) s s' := by
  cases act with
  | setMinter sender minter_ =>
      simp only [step, setMinter, bind_eq_ok_iff, pure_eq_ok_iff] at succeeds
      obtain ⟨_, _, same⟩ := succeeds
      subst same
      exact .of_kept limited rfl (Nat.le_refl _)
  | mint sender dst rawAmount =>
      refine .of_kept limited (aside_of_mint succeeds).allowances ?_
      obtain ⟨_, _, _, _, _, _, moves⟩ := mint_eq_ok_iff.mp succeeds
      rw [(moved_of_moveDelegates moves).balances]
      simp only [minted, Function.update_apply]
      split
      · rename_i same
        rw [same]
        exact Nat.le_add_right _ _
      · exact Nat.le_refl _
  | approve sender spender rawAmount =>
      simp only [step, approve, bind_eq_ok_iff, pure_eq_ok_iff] at succeeds
      obtain ⟨amount, _, same⟩ := succeeds
      subst same
      refine ⟨fun b => ?_, ?_⟩
      · dsimp only
        rw [update₂_of_ne _ _ fun entry => foreign entry.1]
        exact limited b
      · have row := Tables.sum_update₂_of_ne id s.allowances spender amount foreign
        simp only [id] at row
        simp only [allowed, row]
        exact Nat.le_add_right _ _
  | permit owner spender rawAmount deadline v r sig =>
      obtain ⟨_, _, _, amount, approved, same⟩ := permitted_of_permit succeeds
      subst same
      by_cases mine : owner = holder
      · subst mine
        have finite : rawAmount.toNat < 2 ^ 96 - 1 := foreign rfl
        have value : rawAmount.toNat = amount := by
          unfold approvedAmount at approved
          rw [if_neg (Nat.ne_of_lt (Nat.lt_of_lt_of_le finite (by decide)))] at approved
          exact (safe96_eq_ok_iff.mp approved).2
        subst value
        refine ⟨fun b => ?_, ?_⟩
        · simp only [update₂_apply]
          split
          · exact finite
          · exact limited b
        · have change := Tables.sum_update₂ id s.allowances owner spender rawAmount.toNat
          simp only [id] at change
          simp only [allowed, Action.permitted, if_true]
          omega
      · have other : holder ≠ owner := Ne.symm mine
        refine ⟨fun b => ?_, ?_⟩
        · dsimp only
          rw [update₂_of_ne _ _ fun entry => other entry.1]
          exact limited b
        · have row := Tables.sum_update₂_of_ne id s.allowances spender amount other
          simp only [id] at row
          simp only [allowed, row]
          exact Nat.le_add_right _ _
  | transfer sender dst rawAmount =>
      obtain ⟨amount, _, transfers⟩ := bind_eq_ok_iff.mp succeeds
      refine .of_kept limited (aside_of_transferTokens transfers).allowances ?_
      have moved := balance_of_transferTokens transfers holder
      rw [if_neg foreign] at moved
      omega
  | transferFrom sender src dst rawAmount =>
      exact spends_of_transferFrom limited foreign succeeds
  | delegate sender delegatee =>
      refine .of_kept limited (aside_of_delegate succeeds).allowances ?_
      rw [step, delegate, delegate_eq] at succeeds
      rw [(moved_of_moveDelegates succeeds).balances]
      exact Nat.le_refl _
  | delegateBySig delegatee nonce expiry v r sig =>
      obtain ⟨_, _, delegates⟩ := delegated_of_delegateBySig succeeds
      refine .of_kept limited (aside_of_delegate delegates).allowances ?_
      rw [delegate_eq] at delegates
      rw [(moved_of_moveDelegates delegates).balances]
      exact Nat.le_refl _
  | mine blocks seconds =>
      cases succeeds
      exact .of_kept limited rfl (Nat.le_refl _)

/-- **No loss without consent.** In a run of others' transactions, what the holder loses is at
most what its allowances lose and the amounts of its permits. -/
theorem loss_le_spent {as : List Action} (limited : Limited s holder)
    (foreign : ∀ a ∈ as, a.Foreign holder) :
    s.balances holder + allowed (run (step env) s as) holder ≤
      (run (step env) s as).balances holder + allowed s holder + permitted env holder s as := by
  have kept := @run_total _ _ _ (step env) Nat _ (fun _ a _ => a.permitted holder)
    (fun s => Limited s holder)
    (fun s n s' => s.balances holder + allowed s' holder ≤
      s'.balances holder + allowed s holder + n)
    (fun _ a => a.Foreign holder) (fun _ => Nat.le_add_right _ _)
    (fun first second => by omega) (fun limited foreign succeeds => by
      have spends := step_spends limited foreign succeeds
      exact ⟨spends.limited, spends.bound⟩) s limited as (along_of_forall foreign)
  exact kept.2

end Tribe

namespace Tribe.Sample

/-- Account 7 gets 1000 TRIBE and signs 400 to account 6, which takes 300 of them. -/
def spending : List Action :=
  [.transfer 5 7 1000, .permit 7 6 400 2000 27 0 0, .transferFrom 6 7 8 300]

theorem loss_le_spent_sample :
    start.balances 7 + allowed (run (step env) start spending) 7 ≤
      (run (step env) start spending).balances 7 + allowed start 7 +
        permitted env 7 start spending := by
  refine loss_le_spent (fun _ => (by decide : 0 < 2 ^ 96 - 1)) ?_
  intro a mem
  simp only [spending, List.mem_cons, List.not_mem_nil, or_false] at mem
  rcases mem with same | same | same <;> subst same
  · exact (by decide : (7 : Address) ≠ 5)
  · exact fun _ => by decide
  · exact (by decide : (7 : Address) ≠ 6)

end Tribe.Sample

end FeiProtocol
