import FeiProtocol.Evm.Execution

/-!
# The reentrancy guard

`nonReentrant` wraps a call body in the guard's three accesses to its status
word. A body that neither reads nor writes the status is `Transparent`; outside
of a call the guard around such a body does nothing (`nonReentrant_eq_ok_iff`), so
reasoning about guarded entry points is reasoning about their bodies.

Nothing here mentions a contract.
-/

namespace Evm

/-- Access to the guard's status word in a contract state. -/
class ReentrancyGuard (σ : Type) where
  status : σ → Nat
  withStatus : σ → Nat → σ
  status_withStatus : ∀ s n, status (withStatus s n) = n
  withStatus_withStatus : ∀ s m n, withStatus (withStatus s m) n = withStatus s n
  withStatus_status : ∀ s, withStatus s (status s) = s

namespace ReentrancyGuard

def _NOT_ENTERED : Nat := 1

def _ENTERED : Nat := 2

variable {σ α : Type} [ReentrancyGuard σ]

/-- The `nonReentrant` modifier around `body`. -/
def nonReentrant (body : σ → Except Revert σ) (s : σ) : Except Revert σ := do
  require (status s ≠ _ENTERED) "ReentrancyGuard: reentrant call"
  let s' ← body (withStatus s _ENTERED)
  return withStatus s' _NOT_ENTERED

theorem nonReentrant_inversion {body : σ → Except Revert σ} {s s' : σ} :
    nonReentrant body s = .ok s' ↔ status s ≠ _ENTERED ∧
      ∃ m, body (withStatus s _ENTERED) = .ok m ∧ withStatus m _NOT_ENTERED = s' := by
  simp only [nonReentrant, bind_eq_ok_iff, pure_eq_ok_iff, require_eq_ok_iff, exists_const]

/-- `body` succeeds alike under every status, and keeps the status. -/
def Transparent (body : σ → Except Revert σ) : Prop :=
  ∀ s n s', body (withStatus s n) = .ok s' ↔ ∃ m, body s = .ok m ∧ withStatus m n = s'

theorem Transparent.bind {f g : σ → Except Revert σ} (hf : Transparent f) (hg : Transparent g) :
    Transparent fun s => f s >>= g := by
  intro s n s'
  simp only [bind_eq_ok_iff]
  constructor
  · intro given
    rcases given with ⟨m, first, second⟩
    obtain ⟨k, first', rfl⟩ := (hf s n m).mp first
    obtain ⟨k', second', last⟩ := (hg k n s').mp second
    exact ⟨k', ⟨k, first', second'⟩, last⟩
  · intro given
    rcases given with ⟨k', ⟨k, first, second⟩, last⟩
    exact ⟨withStatus k n, (hf s n _).mpr ⟨k, first, rfl⟩, (hg k n s').mpr ⟨k', second, last⟩⟩

theorem Transparent.foldlM {f : σ → α → Except Revert σ} (hf : ∀ a, Transparent fun s => f s a)
    (l : List α) : Transparent fun s => l.foldlM f s := by
  induction l with
  | nil =>
      intro s n s'
      simp only [List.foldlM_nil, pure_eq_ok_iff, exists_eq_left']
  | cons a l ih =>
      intro s n s'
      simpa only [List.foldlM_cons] using (hf a).bind ih s n s'

theorem Transparent.require {body : σ → Except Revert σ} (hb : Transparent body)
    (cond : Prop) [Decidable cond] (message : String) :
    Transparent fun s => Evm.require cond message >>= fun _ => body s := by
  intro s n s'
  simp only [bind_eq_ok_iff, require_eq_ok_iff, exists_const, hb s n s']
  constructor
  · intro given
    rcases given with ⟨holds, m, first, last⟩
    exact ⟨m, ⟨holds, first⟩, last⟩
  · intro given
    rcases given with ⟨m, ⟨holds, first⟩, last⟩
    exact ⟨holds, m, first, last⟩

/-- **Outside of a call the guard does nothing.** -/
theorem nonReentrant_eq_ok_iff {body : σ → Except Revert σ} (transparent : Transparent body)
    {s s' : σ} (idle : status s = _NOT_ENTERED) :
    nonReentrant body s = .ok s' ↔ body s = .ok s' := by
  have entry : status s ≠ _ENTERED := by
    rw [idle]
    decide
  have kept : ∀ {m}, body s = .ok m → withStatus m _NOT_ENTERED = m := by
    intro m succeeds
    have here := (transparent s (status s) m).mp (by rwa [withStatus_status])
    obtain ⟨m', succeeds', same⟩ := here
    cases succeeds.symm.trans succeeds'
    rwa [idle] at same
  simp only [nonReentrant_inversion, transparent s _ENTERED]
  constructor
  · intro given
    rcases given with ⟨_, _, ⟨m, succeeds, rfl⟩, last⟩
    rw [withStatus_withStatus, kept succeeds] at last
    rw [succeeds, last]
  · intro succeeds
    refine ⟨entry, _, ⟨s', succeeds, rfl⟩, ?_⟩
    rw [withStatus_withStatus, kept succeeds]

end ReentrancyGuard

end Evm
