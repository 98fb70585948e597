import FeiProtocol.Dao.Timelock
import Mathlib.Data.List.Nodup

/-!
# Whose transactions a timelock holds

The timelock's queue says of a hash that it is queued. For which proposal it was queued, and
whether that queueing is used up, is a matter of history.

* `Held.queue`, `Held.cancel`, `Held.execute`: each proposal stays the holder of the transactions
  that it has a claim to.
* `Sound.timely`: what was executed was held by its own proposal, queued long enough before and
  not too long.
-/

namespace FeiProtocol

open Evm

/-- What a timelock has been made to do, and for which proposal. -/
inductive TimelockEntry : Type where
  /-- with the delay in force -/
  | queued (id : Nat) (tx : TimelockTransaction) (timestamp delay : Nat)
  | canceled (id : Nat) (tx : TimelockTransaction)
  | executed (id : Nat) (tx : TimelockTransaction) (timestamp : Nat)
  deriving DecidableEq, Repr

namespace Timelock

/-! ## Histories -/

/-- The proposal whose queueing of a transaction is not used up. Histories are newest first. -/
def holder (tx : TimelockTransaction) : List TimelockEntry → Option Nat
  | [] => none
  | .queued id tx' _ _ :: older => if tx' = tx then some id else holder tx older
  | .canceled _ tx' :: older => if tx' = tx then none else holder tx older
  | .executed _ tx' _ :: older => if tx' = tx then none else holder tx older

/-- What was executed for a proposal, oldest first. -/
def executions (id : Nat) : List TimelockEntry → List TimelockTransaction
  | [] => []
  | .queued _ _ _ _ :: older => executions id older
  | .canceled _ _ :: older => executions id older
  | .executed id' tx _ :: older =>
      if id' = id then executions id older ++ [tx] else executions id older

/-- Queued with the delay of the time, and executed for its holder, when due and before the
grace period has passed. -/
def Sound : List TimelockEntry → Prop
  | [] => True
  | .queued _ tx timestamp delay :: older => tx.eta = timestamp + delay ∧ Sound older
  | .canceled _ _ :: older => Sound older
  | .executed id tx timestamp :: older =>
      (holder tx older = some id ∧ tx.eta ≤ timestamp ∧ timestamp < tx.eta + GRACE_PERIOD) ∧
        Sound older

variable {id : Nat} {tx : TimelockTransaction} {history older : List TimelockEntry}

theorem queued_of_holder (held : holder tx history = some id) :
    ∃ timestamp delay, .queued id tx timestamp delay ∈ history := by
  induction history with
  | nil => cases held
  | cons entry older ih =>
      have later (held : holder tx older = some id) :
          ∃ timestamp delay, .queued id tx timestamp delay ∈ entry :: older := by
        obtain ⟨timestamp, delay, mem⟩ := ih held
        exact ⟨timestamp, delay, List.mem_cons_of_mem _ mem⟩
      cases entry with
      | queued id' tx' timestamp delay =>
          rw [holder] at held
          split at held
          · rename_i same
            cases held
            subst same
            exact ⟨timestamp, delay, List.mem_cons_self⟩
          · exact later held
      | canceled id' tx' =>
          rw [holder] at held
          split at held
          · cases held
          · exact later held
      | executed id' tx' timestamp =>
          rw [holder] at held
          split at held
          · cases held
          · exact later held

theorem Sound.tail {entry : TimelockEntry} (sound : Sound (entry :: older)) : Sound older := by
  cases entry with
  | queued id tx timestamp delay => exact sound.2
  | canceled id tx => exact sound
  | executed id tx timestamp => exact sound.2

theorem Sound.suffix (sound : Sound history) (part : older <:+ history) : Sound older := by
  induction history with
  | nil =>
      rw [List.suffix_nil.mp part]
      exact sound
  | cons entry rest ih =>
      rcases List.suffix_cons_iff.mp part with same | part
      · rw [same]
        exact sound
      · exact ih sound.tail part

theorem Sound.eta (sound : Sound history) {timestamp delay : Nat}
    (mem : .queued id tx timestamp delay ∈ history) : tx.eta = timestamp + delay := by
  obtain ⟨newer, older, split⟩ := List.append_of_mem mem
  exact (sound.suffix ⟨newer, split.symm⟩ : Sound (.queued id tx timestamp delay :: older)).1

/-- What was executed was queued by its own proposal, which held it, and was executed no sooner
than the delay after that and before the grace period had passed. -/
theorem Sound.timely (sound : Sound history) {timestamp : Nat}
    (part : .executed id tx timestamp :: older <:+ history) :
    holder tx older = some id ∧ timestamp < tx.eta + GRACE_PERIOD ∧
      ∃ queuedAt delay, .queued id tx queuedAt delay ∈ older ∧ tx.eta = queuedAt + delay ∧
        queuedAt + delay ≤ timestamp := by
  have inside := sound.suffix part
  obtain ⟨⟨held, due, fresh⟩, before⟩ := inside
  obtain ⟨queuedAt, delay, mem⟩ := queued_of_holder held
  have eta := before.eta mem
  refine ⟨held, fresh, queuedAt, delay, mem, eta, ?_⟩
  rw [← eta]
  exact due

/-! ## Claims -/

variable {H : Type}

/-- Each proposal holds the transactions that it has a claim to, and what is held is queued. -/
structure Held (env : TimelockEnv H) (claims : Nat → List TimelockTransaction)
    (t : TimelockState H) (history : List TimelockEntry) : Prop where
  held : ∀ {id tx}, tx ∈ claims id → holder tx history = some id
  distinct : ∀ id, (claims id).Nodup
  queued : ∀ {tx id}, holder tx history = some id →
    t.queuedTransactions (env.getTxHash tx) = true
  sound : Sound history

variable {env : TimelockEnv H} {claims claims' : Nat → List TimelockTransaction}
  {t t' : TimelockState H}

theorem Held.weaken (held : Held env claims t history)
    (fewer : ∀ id, (claims' id).Sublist (claims id))
    (same : t'.queuedTransactions = t.queuedTransactions) : Held env claims' t' history where
  held mem := held.held ((fewer _).subset mem)
  distinct id := (held.distinct id).sublist (fewer id)
  queued found := by
    rw [same]
    exact held.queued found
  sound := held.sound

/-- Nobody has a claim to what is not queued. -/
theorem Held.not_mem (held : Held env claims t history)
    (free : t.queuedTransactions (env.getTxHash tx) = false) (id : Nat) : tx ∉ claims id := by
  intro mem
  have queued := held.queued (held.held mem)
  rw [free] at queued
  cases queued

variable [DecidableEq H]

theorem Held.queue (held : Held env claims t history)
    (free : t.queuedTransactions (env.getTxHash tx) = false) {timestamp : Nat}
    (eta : tx.eta = timestamp + t.delay) (id : Nat) :
    Held env (Function.update claims id (claims id ++ [tx]))
      { t with
        queuedTransactions := Function.update t.queuedTransactions (env.getTxHash tx) true }
      (.queued id tx timestamp t.delay :: history) where
  held {id' tx'} mem := by
    have others (mem : tx' ∈ claims id') :
        holder tx' (.queued id tx timestamp t.delay :: history) = some id' := by
      rw [holder, if_neg]
      · exact held.held mem
      · intro same
        subst same
        exact held.not_mem free id' mem
    by_cases own : id' = id
    · subst own
      rw [Function.update_self, List.mem_append, List.mem_singleton] at mem
      rcases mem with mem | same
      · exact others mem
      · rw [same, holder, if_pos rfl]
    · rw [Function.update_of_ne own] at mem
      exact others mem
  distinct id' := by
    by_cases own : id' = id
    · subst own
      rw [Function.update_self]
      rw [← List.concat_eq_append]
      exact (held.distinct id').concat (held.not_mem free id')
    · rw [Function.update_of_ne own]
      exact held.distinct id'
  queued {tx' id'} found := by
    by_cases hash : env.getTxHash tx' = env.getTxHash tx
    · rw [hash]
      exact Function.update_self _ _ _
    · dsimp only
      rw [Function.update_of_ne hash]
      rw [holder, if_neg] at found
      · exact held.queued found
      · intro same
        exact hash (same ▸ rfl)
  sound := ⟨eta, held.sound⟩

/-- What is dequeued is no longer held. -/
theorem Held.dequeue (held : Held env claims t history)
    (injective : Function.Injective env.getTxHash) {entry : TimelockEntry}
    (frees : ∀ tx', holder tx' (entry :: history) = if tx = tx' then none else holder tx' history)
    (fewer : ∀ id, (claims' id).Sublist (claims id)) (unclaimed : ∀ id, tx ∉ claims' id)
    (sound : Sound (entry :: history)) :
    Held env claims'
      { t with
        queuedTransactions := Function.update t.queuedTransactions (env.getTxHash tx) false }
      (entry :: history) where
  held {id tx'} mem := by
    rw [frees, if_neg]
    · exact held.held ((fewer id).subset mem)
    · intro same
      subst same
      exact unclaimed id mem
  distinct id := (held.distinct id).sublist (fewer id)
  queued {tx' id} found := by
    rw [frees] at found
    split at found
    · cases found
    · rename_i other
      dsimp only
      rw [Function.update_of_ne fun same => other (injective same).symm]
      exact held.queued found
  sound := sound

theorem Held.cancel (held : Held env claims t history)
    (injective : Function.Injective env.getTxHash) (id : Nat) (unclaimed : ∀ id, tx ∉ claims id) :
    Held env claims
      { t with
        queuedTransactions := Function.update t.queuedTransactions (env.getTxHash tx) false }
      (.canceled id tx :: history) :=
  held.dequeue injective (fun _ => rfl) (fun _ => .refl _) unclaimed held.sound

/-- A proposal has the first of its transactions executed. -/
theorem Held.execute (held : Held env claims t history)
    (injective : Function.Injective env.getTxHash) {rest : List TimelockTransaction}
    (first : claims id = tx :: rest) {timestamp : Nat} (due : tx.eta ≤ timestamp)
    (fresh : timestamp < tx.eta + GRACE_PERIOD) :
    Held env (Function.update claims id rest)
      { t with
        queuedTransactions := Function.update t.queuedTransactions (env.getTxHash tx) false }
      (.executed id tx timestamp :: history) := by
  have own : holder tx history = some id := held.held (first ▸ List.mem_cons_self)
  have once := held.distinct id
  rw [first, List.nodup_cons] at once
  refine held.dequeue injective (fun _ => rfl) (fun id' => ?_) (fun id' mem => ?_)
    ⟨⟨own, due, fresh⟩, held.sound⟩
  · by_cases same : id' = id
    · subst same
      rw [Function.update_self, first]
      exact List.sublist_cons_self _ _
    · rw [Function.update_of_ne same]
  · by_cases same : id' = id
    · subst same
      rw [Function.update_self] at mem
      exact once.1 mem
    · rw [Function.update_of_ne same] at mem
      have both := held.held mem
      rw [own] at both
      exact same (Option.some.inj both).symm

end Timelock

end FeiProtocol
