import FeiProtocol.Dao.FeiDAOTimelockSafety

/-!
# `DAOTimelockBurner`

A contract that accepts the admin of the DAO timelocks and can do nothing else, so that nobody has
the admin any more.

* `burned_stays`: the Fei DAO timelock neither queues nor executes anything after that, and keeps
  the burner as its admin, for as long as the accounts that are ever governors name no pending
  admin; and a governor that does gives the admin to anybody.

The Rari DAO timelock is not under this repository's control. The call that accepts its admin is
the same.
-/

namespace FeiProtocol

open Evm FeiDAOTimelock

namespace DAOTimelockBurner

variable {H : Type} [DecidableEq H] (env : TimelockEnv H) (this : Address)
  (governors : Address → Prop)

/-! ## The contract -/

def acceptFeiDAOTimelockAdmin (FEI_DAO_TIMELOCK : FeiDAOTimelockState H) :
    Except Revert (FeiDAOTimelockState H) :=
  call env FEI_DAO_TIMELOCK (.acceptAdmin this)

/-! ## What others can do -/

/-- A call as the timelock can receive it, other than out of a transaction that it executes: the
burner only accepts, the timelock itself calls nothing, and no account has the address zero. The
accounts that are ever governors name no pending admin. -/
def Received : Call → Prop
  | .setDelay sender _ | .setPendingAdmin sender _ | .queueTransaction sender _ _ _ _ _
  | .cancelTransaction sender _ _ _ _ _ => sender ≠ this ∧ sender ≠ env.this
  | .acceptAdmin sender => sender ≠ 0
  | .governorSetPendingAdmin sender _ => ¬ governors sender
  | .setCore core => ∀ account, core.isGovernor account → governors account
  | .vetoTransactions _ _ _ _ _ _ | .pause _ | .unpause _ => True

/-- The same of what is executed: the burner requests nothing. -/
def Requested : Job → Prop
  | .executeTransaction sender _ _ _ _ _ => sender ≠ this
  | .rollback _ => True

/-- Time passes, or a transaction comes with its callbacks, each as it can be received. What is
called in the course of an execution plays no part, since that reverts. -/
def Ordinary : Action → Prop
  | .transaction t => t.All (Received env this governors) (Requested this) fun job => ∃ sender,
      job = .rollback sender
  | .elapse _ => True

variable {env this governors} {s s' : FeiDAOTimelockState H}

/-- The burner is the admin, and nobody is to become it. -/
structure Burned (this : Address) (governors : Address → Prop) (s : FeiDAOTimelockState H) :
    Prop where
  admin : s.admin = this
  pendingAdmin : s.pendingAdmin = 0
  roles : ∀ account, s.core.isGovernor account → governors account

theorem burned_of_accept (accepts : acceptFeiDAOTimelockAdmin env this s = .ok s')
    (roles : ∀ account, s.core.isGovernor account → governors account) :
    Burned this governors s' := by
  obtain ⟨timelock, accepted, same⟩ := bind_eq_ok_iff.mp accepts
  obtain ⟨_, _, left⟩ := bind_eq_ok_iff.mp accepted
  cases left
  cases same
  exact ⟨rfl, rfl, roles⟩

/-- Only a veto is left that touches the queue. -/
theorem Burned.call {a : Call} (burned : Burned this governors s)
    (received : Received env this governors a) (succeeds : FeiDAOTimelock.call env s a = .ok s') :
    Burned this governors s' ∧ OnlyCanceled s s' := by
  cases a with
  | setDelay sender delay_ =>
      obtain ⟨timelock, sets, _⟩ := bind_eq_ok_iff.mp succeeds
      obtain ⟨_, self, _⟩ := bind_eq_ok_iff.mp sets
      exact absurd (require_eq_ok_iff.mp self) received.2
  | acceptAdmin sender =>
      obtain ⟨timelock, accepts, _⟩ := bind_eq_ok_iff.mp succeeds
      obtain ⟨_, pending, _⟩ := bind_eq_ok_iff.mp accepts
      exact absurd ((require_eq_ok_iff.mp pending).trans burned.pendingAdmin) received
  | setPendingAdmin sender pendingAdmin_ =>
      obtain ⟨timelock, sets, _⟩ := bind_eq_ok_iff.mp succeeds
      obtain ⟨_, self, _⟩ := bind_eq_ok_iff.mp sets
      exact absurd (require_eq_ok_iff.mp self) received.2
  | queueTransaction sender target value signature data eta =>
      obtain ⟨_, _, rest⟩ := bind_eq_ok_iff.mp succeeds
      obtain ⟨timelock, queues, _⟩ := bind_eq_ok_iff.mp rest
      have admin := (Timelock.queueTransaction_eq_ok_iff.mp queues).1
      exact absurd (admin.trans burned.admin) received.1
  | cancelTransaction sender target value signature data eta =>
      obtain ⟨_, admin, _⟩ := bind_eq_ok_iff.mp succeeds
      exact absurd ((require_eq_ok_iff.mp admin).trans burned.admin) received.1
  | vetoTransactions sender targets values signatures datas etas =>
      obtain ⟨_, _, rest⟩ := bind_eq_ok_iff.mp succeeds
      obtain ⟨txs, _, same⟩ := bind_eq_ok_iff.mp rest
      have only := (struck_since env s txs).2.2
      have kept := struck_admin env s txs
      cases same
      refine ⟨⟨kept.1.trans burned.admin, kept.2.1.trans burned.pendingAdmin, ?_⟩, only⟩
      rw [kept.2.2]
      exact burned.roles
  | governorSetPendingAdmin sender newAdmin =>
      obtain ⟨_, governor, _⟩ := bind_eq_ok_iff.mp succeeds
      exact absurd (burned.roles sender (require_eq_ok_iff.mp governor)) received
  | pause sender =>
      have same := CoreRef.pause_eq succeeds
      subst same
      exact ⟨⟨burned.admin, burned.pendingAdmin, burned.roles⟩, .quiet rfl rfl⟩
  | unpause sender =>
      have same := CoreRef.unpause_eq succeeds
      subst same
      exact ⟨⟨burned.admin, burned.pendingAdmin, burned.roles⟩, .quiet rfl rfl⟩
  | setCore core =>
      cases succeeds
      exact ⟨⟨burned.admin, burned.pendingAdmin, received⟩, .quiet rfl rfl⟩

/-- The admin is the burner, which has nothing executed. -/
theorem keeps_burned (base : FeiDAOTimelockState H) : (callbacks env).KeepsAmong
    (Received env this governors) (Requested this) (fun job => ∃ sender, job = .rollback sender)
    fun _ s => Burned this governors s ∧ OnlyCanceled base s where
  call inv received succeeds := by
    obtain ⟨burned, only⟩ := inv
    obtain ⟨kept, more⟩ := burned.call received succeeds
    exact ⟨kept, only.trans more⟩
  start inv requested succeeds := by
    rename_i job _ _
    cases job with
    | executeTransaction sender target value signature data eta =>
        obtain ⟨t, executes, _⟩ := bind_eq_ok_iff.mp succeeds
        obtain ⟨_, _, rest⟩ := bind_eq_ok_iff.mp executes
        obtain ⟨timelock, executed, _⟩ := bind_eq_ok_iff.mp rest
        have admin := (Timelock.executeTransaction_eq_ok_iff.mp executed).1
        exact absurd (admin.trans inv.1.admin) requested
    | rollback sender =>
        obtain ⟨_, _, same⟩ := bind_eq_ok_iff.mp succeeds
        cases same
        exact ⟨⟨sender, rfl⟩, inv⟩
  before inv succeeds := by
    cases succeeds
    exact inv
  finish inv := inv

/-- A governor can give the admin to anybody, who has to accept it. -/
theorem governor_unburns (s : FeiDAOTimelockState H) {governor : Address}
    (role : s.core.isGovernor governor) (newAdmin : Address) :
    (run (step env) s [.transaction (.call (.governorSetPendingAdmin governor newAdmin)),
      .transaction (.call (.acceptAdmin newAdmin))]).admin = newAdmin := by
  have named : step env s (.transaction (.call (.governorSetPendingAdmin governor newAdmin))) =
      .ok { s with pendingAdmin := newAdmin } := by
    change governorSetPendingAdmin s governor newAdmin = _
    simp only [governorSetPendingAdmin, bind_eq_ok_iff, pure_eq_ok_iff]
    exact ⟨(), require_eq_ok_iff.mpr role, trivial⟩
  have accepted : step env { s with pendingAdmin := newAdmin }
      (.transaction (.call (.acceptAdmin newAdmin))) =
      .ok { s with admin := newAdmin, pendingAdmin := 0 } := by
    change call env { s with pendingAdmin := newAdmin } (.acceptAdmin newAdmin) = _
    simp only [call, Timelock.acceptAdmin, bind_eq_ok_iff, pure_eq_ok_iff, require_eq_ok_iff]
    exact ⟨_, ⟨(), trivial, rfl⟩, rfl⟩
  rw [run_cons, commit_of_ok named, run_cons, commit_of_ok accepted, run_nil]

/-- Once the burner has accepted the admin, whatever others call, out of whatever they are called
by: the admin stays with it, and nothing is queued or executed any more. The accounts that are
governors at any time then name no pending admin; that there are none is enough. One that is a
governor in the end can still give the admin to anybody. -/
theorem burned_stays (accepts : acceptFeiDAOTimelockAdmin env this s = .ok s')
    (roles : ∀ account, s.core.isGovernor account → governors account) {history : List Action}
    (ordinary : ∀ a ∈ history, Ordinary env this governors a) :
    let last := run (step env) s' history
    last.admin = this ∧ last.pendingAdmin = 0 ∧ ∃ added, last.history = added ++ s'.history ∧
      (∀ e ∈ added, ∃ tx timestamp, e = .canceled tx timestamp) ∧
      ∀ governor newAdmin, last.core.isGovernor governor →
        (run (step env) last [.transaction (.call (.governorSetPendingAdmin governor newAdmin)),
          .transaction (.call (.acceptAdmin newAdmin))]).admin = newAdmin := by
  have start : Burned this governors s' ∧ OnlyCanceled s' s' :=
    ⟨burned_of_accept accepts roles, .quiet rfl rfl⟩
  have kept : Burned this governors (run (step env) s' history) ∧
      OnlyCanceled s' (run (step env) s' history) := by
    refine run_invariant (I := fun t => Burned this governors t ∧ OnlyCanceled s' t)
      (A := Ordinary env this governors) ?_ start ordinary
    intro t a t' kept ordinary succeeds
    cases a with
    | transaction transaction =>
        exact (keeps_burned s').perform transaction ordinary [] t t' kept succeeds
    | elapse seconds =>
        cases succeeds
        obtain ⟨burned, only⟩ := kept
        exact ⟨⟨burned.admin, burned.pendingAdmin, burned.roles⟩, only.elapse seconds⟩
  obtain ⟨burned, added, since, canceled⟩ := kept
  exact ⟨burned.admin, burned.pendingAdmin, added, since.history, canceled,
    fun _ newAdmin role => governor_unburns _ role newAdmin⟩

end DAOTimelockBurner

namespace DAOTimelockBurner.Sample

open FeiDAOTimelock.Sample

/-- A transaction is queued, the governor names the burner at 11, and there is no governor after
that. -/
def handedOver : FeiDAOTimelockState TimelockTransaction :=
  run (step env) start [queuePing, .transaction (.call (.governorSetPendingAdmin 1 11)),
    .transaction (.call (.setCore { core with isGovernor := fun _ => false }))]

def accepted : FeiDAOTimelockState TimelockTransaction :=
  { handedOver with admin := 11, pendingAdmin := 0 }

/-- The former admin and the former governor try, and the guardian vetoes. -/
def after : List Action := [.elapse 300000, executePing (.acceptAdmin 3),
  .transaction (.call (.governorSetPendingAdmin 1 3)),
  .transaction (.call (.vetoTransactions 5 [9] [0] ["ping()"] [[]] [301000])), queuePing]

theorem after_ordinary : ∀ a ∈ after, Ordinary env 11 (fun _ => False) a := by
  intro a mem
  simp only [after, executePing, queuePing, List.mem_cons, List.not_mem_nil, or_false] at mem
  rcases mem with same | same | same | same | same
  · subst same
    trivial
  · subst same
    exact ⟨(by decide : (3 : Address) ≠ 11), fun given => by cases given.choose_spec⟩
  · subst same
    exact id
  · subst same
    trivial
  · subst same
    exact ⟨(by decide : (3 : Address) ≠ 11), (by decide : (3 : Address) ≠ 2)⟩

end DAOTimelockBurner.Sample

namespace DAOTimelockBurner

open FeiDAOTimelock.Sample in
theorem burned_stays_sample :
    (run (step env) Sample.accepted Sample.after).admin = 11 ∧
    ∃ added, (run (step env) Sample.accepted Sample.after).history =
        added ++ [.queued ping 1000 100000] ∧
      ∀ e ∈ added, ∃ tx timestamp, e = FeiDAOTimelockEntry.canceled tx timestamp := by
  obtain ⟨admin, _, added, log, canceled, _⟩ := burned_stays
    (rfl : acceptFeiDAOTimelockAdmin env 11 Sample.handedOver = .ok Sample.accepted)
    (fun _ none => Bool.false_ne_true none) Sample.after_ordinary
  exact ⟨admin, added, log, canceled⟩

end DAOTimelockBurner

end FeiProtocol
