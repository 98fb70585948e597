import FeiProtocol.Evm.Allowances
import FeiProtocol.Fei.FeiToken

/-!
# Spending a holder's FEI

While a holder makes no calls itself, others take from it only what it let them: its allowances,
and the values of the permits that it has signed. The exceptions are burners, and governors, who
can set incentive contracts.
-/

namespace FeiProtocol

open Evm

namespace Fei

open CoreRef

variable {env : FeiEnv} {s s' : FeiState} {sender holder : Address}

/-- What a call leaves as it must be around `holder`, whose loss its allowances pay for. -/
structure Spends (holder : Address) (s s' : FeiState) : Prop where
  plain : Plain s'
  unlimited : s'.erc20.unlimited = s.erc20.unlimited
  limited : s'.erc20.Limited holder
  allowed_le : s'.erc20.allowed holder ≤ s.erc20.allowed holder
  bound : balanceOf s holder + s'.erc20.allowed holder ≤
    balanceOf s' holder + s.erc20.allowed holder

/-- A transfer out of an allowance, or of another account. -/
theorem moved_spends {src dst spender : Address} {amount : Nat} (plain : Plain s)
    (limited : s.erc20.Limited holder) (covered : amount ≤ s.erc20.balanceOf src)
    (approved : amount ≤ s.erc20.allowance src spender) :
    Spends holder s { s with erc20 := (s.erc20.spend src spender amount).move src dst amount } := by
  have covered' : amount ≤ (s.erc20.spend src spender amount).balanceOf src := by
    rw [Erc20.spend_balanceOf]
    exact covered
  refine ⟨⟨plain.noIncentives, plain.consistent.spend.move covered'⟩, Erc20.spend_unlimited,
    limited.spend, Finset.sum_le_sum fun b _ => Erc20.spend_allowance_le _ _ _ _ _ _, ?_⟩
  have exact := Erc20.move_balanceOf covered' dst holder
  rw [Erc20.spend_balanceOf] at exact
  have same : ((s.erc20.spend src spender amount).move src dst amount).allowed holder =
      (s.erc20.spend src spender amount).allowed holder := rfl
  simp only [balanceOf, same]
  by_cases source : holder = src
  · subst source
    have spent := Erc20.allowed_spend limited approved
    rw [if_pos rfl] at exact
    omega
  · rw [Erc20.allowed_spend_of_ne source]
    rw [if_neg source] at exact
    omega

theorem burned_spends {erc20 : Erc20} {events : List FeiEvent} {account : Address} {amount : Nat}
    (plain : Plain s) (limited : s.erc20.Limited holder) (other : holder ≠ account)
    (burns : s.erc20.burn account amount = .ok erc20) :
    Spends holder s { s with erc20, events } := by
  have burned := Erc20.burned_of_burn burns
  have kept := burned.balance holder
  have allowances : erc20.allowed holder = s.erc20.allowed holder := by
    rw [Erc20.allowed, burned.allowance]
    rfl
  have flag : erc20.unlimited = s.erc20.unlimited := by
    obtain ⟨_, same⟩ := Erc20.burn_eq_ok_iff.mp burns
    subst same
    rfl
  refine ⟨⟨plain.noIncentives, burned.consistent plain.consistent⟩, flag, ?_,
    Nat.le_of_eq allowances, ?_⟩
  · rw [Erc20.Limited, flag, burned.allowance]
    exact limited
  · rw [if_neg other] at kept
    simp only [balanceOf, allowances]
    omega

/-- **One call.** Another account, not burning as a burner, takes from the holder only what its
allowances lose. -/
theorem call_spends {c : Call} (plain : Plain s) (limited : s.erc20.Limited holder)
    (other : holder ≠ sender) (safe : env.core.isBurner sender → s._paused = true)
    (succeeds : call env s sender c = .ok s') : Spends holder s s' := by
  cases c with
  | mint account amount =>
      obtain ⟨_, _, _, fits, same⟩ := (mint_eq_ok_iff plain).mp succeeds
      subst same
      refine ⟨⟨plain.noIncentives, plain.consistent.mint fits⟩, rfl, limited, Nat.le_refl _, ?_⟩
      have grows := @Erc20.mint_balanceOf s.erc20 account amount.toNat holder
      have same : (s.erc20.mint account amount.toNat).allowed holder =
          s.erc20.allowed holder := rfl
      simp only [balanceOf, same]
      omega
  | burn amount =>
      obtain ⟨_, erc20, burns, same⟩ := (burn_eq_ok_iff plain).mp succeeds
      subst same
      exact burned_spends plain limited other burns
  | burnFrom account amount =>
      obtain ⟨burner, running, _⟩ := (burnFrom_eq_ok_iff plain).mp succeeds
      rw [safe burner] at running
      cases running
  | transfer receiver amount =>
      obtain ⟨_, _, covered, same⟩ := (_transfer_eq_ok_iff plain).mp succeeds
      subst same
      refine ⟨⟨plain.noIncentives, plain.consistent.move covered⟩, rfl, limited, Nat.le_refl _, ?_⟩
      have exact := Erc20.move_balanceOf covered receiver holder
      rw [if_neg other] at exact
      have same : (s.erc20.move sender receiver amount.toNat).allowed holder =
          s.erc20.allowed holder := rfl
      simp only [balanceOf, same]
      omega
  | transferFrom src dst amount =>
      have word : amount.toNat ≤ maxUint256 := Nat.le_pred_of_lt amount.isLt
      obtain ⟨approved, _, _, _, covered, same⟩ := (transferFrom_eq_ok_iff plain word).mp succeeds
      subst same
      exact moved_spends plain limited covered approved
  | approve spender amount =>
      obtain ⟨_, _, same⟩ := approve_eq_ok_iff.mp succeeds
      subst same
      refine ⟨⟨plain.noIncentives, plain.consistent.approve⟩, rfl,
        limited.approve fun _ same => absurd same other,
        Nat.le_of_eq (Erc20.allowed_approve_of_ne other), ?_⟩
      simp only [balanceOf, Erc20.allowed_approve_of_ne other]
      exact Nat.le_refl _
  | pause =>
      have same := pause_eq succeeds
      subst same
      exact ⟨⟨plain.noIncentives, plain.consistent⟩, rfl, limited, Nat.le_refl _,
        Nat.le_refl _⟩
  | unpause =>
      have same := unpause_eq succeeds
      subst same
      exact ⟨⟨plain.noIncentives, plain.consistent⟩, rfl, limited, Nat.le_refl _,
        Nat.le_refl _⟩

end Fei

namespace FeiToken

open CoreRef Fei

variable {env : FeiTokenEnv} {s s' : FeiTokenState} {holder : Address}

/-- Not of the holder, a burner or a governor, and with no infinite permit of the holder's. -/
def Action.Foreign (env : FeiTokenEnv) (holder : Address) : Action → Prop
  | .call sender _ => holder ≠ sender ∧ ¬ env.fei.core.isBurner sender
  | .setIncentiveContract sender _ _ => ¬ env.fei.core.isGovernor sender
  | .permit owner _ value _ _ _ _ => owner = holder → value.toNat < maxUint256
  | .wait _ => True

/-- What a permit lets others spend of the holder's. -/
def Action.permitted (holder : Address) : Action → Nat
  | .permit owner _ value _ _ _ _ => if owner = holder then value.toNat else 0
  | _ => 0

/-- The values of the holder's permits that were accepted. -/
def permitted (env : FeiTokenEnv) (holder : Address) (s : FeiTokenState) (as : List Action) : Nat :=
  total (step env) (fun _ a _ => a.permitted holder) s as

theorem step_spends {a : Action} (plain : Plain s.toFeiState)
    (limited : s.erc20.Limited holder) (foreign : a.Foreign env holder)
    (succeeds : step env s a = .ok s') :
    (Plain s'.toFeiState ∧ s'.erc20.Limited holder) ∧
      balanceOf s.toFeiState holder + s'.erc20.allowed holder ≤
        balanceOf s'.toFeiState holder + s.erc20.allowed holder + a.permitted holder := by
  cases a with
  | call sender c =>
      simp only [step, bind_eq_ok_iff, pure_eq_ok_iff] at succeeds
      obtain ⟨fei, called, same⟩ := succeeds
      subst same
      have spends :=
        call_spends plain limited foreign.1 (fun burns => absurd burns foreign.2) called
      exact ⟨⟨spends.plain, spends.limited⟩, Nat.le_add_right_of_le spends.bound⟩
  | setIncentiveContract sender account incentive =>
      simp only [step, setIncentiveContract, onlyGovernor, bind_eq_ok_iff,
        require_eq_ok_iff] at succeeds
      exact absurd succeeds.choose_spec.1 foreign
  | permit owner spender value deadline v r sig =>
      have permitted := (permitted_of_permit succeeds).result
      subst permitted
      refine ⟨⟨⟨plain.noIncentives, plain.consistent.approve⟩, limited.approve fun _ same =>
        foreign same.symm⟩, ?_⟩
      simp only [balanceOf, Erc20.approve, Action.permitted]
      by_cases mine : owner = holder
      · subst mine
        have change := @Erc20.allowed_approve s.erc20 owner spender value.toNat
        simp only [Erc20.approve] at change
        rw [if_pos rfl]
        omega
      · have same := @Erc20.allowed_approve_of_ne s.erc20 owner holder spender value.toNat
          (Ne.symm mine)
        simp only [Erc20.approve] at same
        rw [same]
        omega
  | wait seconds =>
      cases succeeds
      exact ⟨⟨plain, limited⟩, Nat.le_add_right _ _⟩

/-- **No loss without consent.** In a run of others' transactions, none by a burner or a governor,
what the holder loses is at most what its allowances lose and the values of its permits. -/
theorem loss_le {as : List Action} (plain : Plain s.toFeiState)
    (limited : s.erc20.Limited holder) (foreign : ∀ a ∈ as, a.Foreign env holder) :
    balanceOf s.toFeiState holder + (run (step env) s as).erc20.allowed holder ≤
      balanceOf (run (step env) s as).toFeiState holder + s.erc20.allowed holder +
        permitted env holder s as := by
  have kept := @run_total _ _ _ (step env) Nat _ (fun _ a _ => a.permitted holder)
    (fun s => Plain s.toFeiState ∧ s.erc20.Limited holder)
    (fun s n s' => balanceOf s.toFeiState holder + s'.erc20.allowed holder ≤
      balanceOf s'.toFeiState holder + s.erc20.allowed holder + n)
    (fun _ a => a.Foreign env holder) (fun _ => Nat.le_add_right _ _)
    (fun first second => by omega) (fun inv foreign succeeds =>
      step_spends inv.1 inv.2 foreign succeeds) s ⟨plain, limited⟩ as (along_of_forall foreign)
  exact kept.2

end FeiToken

namespace FeiToken.Sample

/-- Account 9 is a burner; signatures with `v = 27` are those of account 7. -/
def env : FeiTokenEnv where
  fei := { core := ⟨fun _ => false, fun a => a = 9, fun _ => false, fun a => a = 2, fun _ => false⟩
           super := .standard
           incentivize := fun _ s _ _ _ _ => .ok s }
  precompiles := ⟨fun b => BitVec.ofNat 256 b.length, fun _ v _ _ => if v = 27 then 7 else 0⟩
  this := 0xFE
  chainId := 1

/-- Account 7 has 100 FEI. -/
def funded : FeiTokenState :=
  { construct env false 1000 with erc20 := (construct env false 1000).erc20.mint 7 100 }

theorem plain_funded : Fei.Plain funded.toFeiState := by
  refine ⟨fun _ => rfl, Erc20.Consistent.mint ⟨Finset.sum_eq_zero fun _ _ => rfl, ?_⟩ ?_⟩
  · exact Nat.two_pow_pos 256
  · decide

/-- Account 7 signs 30 FEI to account 5, which takes 20 of them. -/
def history : List Action :=
  [.permit 7 5 30 2000 27 0 0, .call 5 (.transferFrom 7 6 20)]

theorem loss_le_sample :
    Fei.balanceOf funded.toFeiState 7 + (run (step env) funded history).erc20.allowed 7 ≤
      Fei.balanceOf (run (step env) funded history).toFeiState 7 + funded.erc20.allowed 7 +
        permitted env 7 funded history := by
  refine loss_le plain_funded (fun limited => by cases limited) ?_
  intro a mem
  simp only [history, List.mem_cons, List.not_mem_nil, or_false] at mem
  rcases mem with same | same <;> subst same
  · exact fun _ => by decide
  · exact ⟨by decide, by decide⟩

end FeiToken.Sample

end FeiProtocol
