import FeiProtocol.Dao.FeiDAOTimelock

/-!
# Safety of the DAO's timelock

Whatever the roles become, whoever is the admin and whatever the targets of executed transactions
call back:

* `executed_timely`: what is executed was queued, by its hash, and neither struck nor executed
  since, and the delay has passed.
* `vetoed_waits`: what is struck, as by a veto of the guardian, is not executed before it has been
  queued again and has waited again.
* `paused_stays`: a paused timelock queues and executes nothing until somebody calls `unpause`:
  it can do nothing itself that would.
-/

namespace FeiProtocol

open Evm

namespace FeiDAOTimelock

variable {H : Type} [DecidableEq H]

/-! ## The log -/

/-- The queueing that stands for a hash: the last entry with that hash, if it is a queueing. -/
def standing (env : TimelockEnv H) (hash : H) : List FeiDAOTimelockEntry →
    Option FeiDAOTimelockEntry
  | [] => none
  | entry :: older =>
      if env.getTxHash entry.tx = hash then entry.queueing else standing env hash older

/-- What is queued waits for a delay that is within the limits, and what is executed stood in the
queue, was due and not stale. -/
def Sound (env : TimelockEnv H) : List FeiDAOTimelockEntry → Prop
  | [] => True
  | .queued tx timestamp delay :: older =>
      (env.MINIMUM_DELAY ≤ delay ∧ timestamp + delay ≤ tx.eta) ∧ Sound env older
  | .canceled _ _ :: older => Sound env older
  | .executed tx timestamp :: older =>
      ((standing env (env.getTxHash tx) older).isSome ∧ tx.eta ≤ timestamp ∧
        timestamp ≤ tx.eta + Timelock.GRACE_PERIOD) ∧ Sound env older

variable {env : TimelockEnv H} {s s' : FeiDAOTimelockState H} {sender : Address}
  {tx : TimelockTransaction} {hash : H} {entry : FeiDAOTimelockEntry}
  {log older : List FeiDAOTimelockEntry}

/-- A standing queueing is somewhere in the log, with nothing of its hash after it. -/
theorem exists_of_standing (stands : standing env hash log = some entry) :
    ∃ newer older tx timestamp delay, entry = .queued tx timestamp delay ∧
      log = newer ++ entry :: older ∧ env.getTxHash tx = hash ∧
      ∀ e ∈ newer, env.getTxHash e.tx ≠ hash := by
  induction log with
  | nil => cases stands
  | cons e older ih =>
      rw [standing] at stands
      split at stands
      · rename_i own
        cases e with
        | queued tx timestamp delay =>
            cases stands
            exact ⟨[], older, tx, timestamp, delay, rfl, rfl, own, by simp⟩
        | canceled tx timestamp => cases stands
        | executed tx timestamp => cases stands
      · rename_i other
        obtain ⟨newer, rest, tx, timestamp, delay, queued, split, own, since⟩ := ih stands
        refine ⟨e :: newer, rest, tx, timestamp, delay, queued, by rw [split]; rfl, own, ?_⟩
        intro e' mem
        rcases List.mem_cons.mp mem with same | mem
        · rw [same]
          exact other
        · exact since e' mem

theorem Sound.tail (sound : Sound env (entry :: older)) : Sound env older := by
  cases entry with
  | queued tx timestamp delay => exact sound.2
  | canceled tx timestamp => exact sound
  | executed tx timestamp => exact sound.2

theorem Sound.of_append {newer : List FeiDAOTimelockEntry} (sound : Sound env (newer ++ older)) :
    Sound env older := by
  induction newer with
  | nil => exact sound
  | cons e newer ih => exact ih sound.tail

/-- The queue is what stands in the log, the log is sound, and the delay is within the limits. -/
structure Invariant (env : TimelockEnv H) (s : FeiDAOTimelockState H) : Prop where
  sound : Sound env s.history
  queued : ∀ hash, s.queuedTransactions hash = true ↔ (standing env hash s.history).isSome
  delay : env.MINIMUM_DELAY ≤ s.delay

theorem Invariant.congr (inv : Invariant env s) (history : s'.history = s.history)
    (queued : s'.queuedTransactions = s.queuedTransactions)
    (delay : env.MINIMUM_DELAY ≤ s'.delay) : Invariant env s' := by
  refine ⟨?_, ?_, delay⟩
  · rw [history]
    exact inv.sound
  · rw [history, queued]
    exact inv.queued

/-- An entry that takes a hash out of the queue. -/
theorem Invariant.dequeue (inv : Invariant env s)
    (removes : ∀ hash, standing env hash s'.history =
      if env.getTxHash entry.tx = hash then none else standing env hash s.history)
    (queued : s'.queuedTransactions =
      Function.update s.queuedTransactions (env.getTxHash entry.tx) false)
    (delay : s'.delay = s.delay) (sound : Sound env s'.history) : Invariant env s' := by
  refine ⟨sound, fun hash => ?_, ?_⟩
  · rw [removes, queued]
    by_cases own : env.getTxHash entry.tx = hash
    · rw [if_pos own, ← own, Function.update_self]
      simp
    · rw [if_neg own, Function.update_of_ne (Ne.symm own)]
      exact inv.queued hash
  · rw [delay]
    exact inv.delay

theorem Invariant.cancel (inv : Invariant env s) (tx : TimelockTransaction) :
    Invariant env (_cancelTransaction env s tx) :=
  inv.dequeue (fun _ => rfl) rfl rfl inv.sound

theorem Invariant.veto (inv : Invariant env s) (txs : List TimelockTransaction) :
    Invariant env (txs.foldl (fun s tx => _cancelTransaction env s tx) s) := by
  induction txs generalizing s with
  | nil => exact inv
  | cons tx txs ih => exact ih (inv.cancel tx)

theorem Invariant.queue (inv : Invariant env s)
    (succeeds : queueTransaction env s sender tx = .ok s') : Invariant env s' := by
  obtain ⟨_, _, rest⟩ := bind_eq_ok_iff.mp succeeds
  obtain ⟨timelock, queued, same⟩ := bind_eq_ok_iff.mp rest
  obtain ⟨_, _, due, left⟩ := Timelock.queueTransaction_eq_ok_iff.mp queued
  subst left
  cases same
  refine ⟨⟨⟨inv.delay, due⟩, inv.sound⟩, fun hash => ?_, inv.delay⟩
  dsimp only
  by_cases own : env.getTxHash tx = hash
  · have here : standing env hash (.queued tx s.timestamp s.delay :: s.history) =
        some (.queued tx s.timestamp s.delay) := if_pos own
    rw [← own, Function.update_self, own, here]
    exact ⟨fun _ => rfl, fun _ => rfl⟩
  · have elsewhere : standing env hash (.queued tx s.timestamp s.delay :: s.history) =
        standing env hash s.history := if_neg own
    rw [Function.update_of_ne (Ne.symm own), elsewhere]
    exact inv.queued hash

theorem Invariant.execute (inv : Invariant env s)
    (succeeds : executeTransaction env s sender tx = .ok s') : Invariant env s' := by
  obtain ⟨_, _, rest⟩ := bind_eq_ok_iff.mp succeeds
  obtain ⟨timelock, executed, same⟩ := bind_eq_ok_iff.mp rest
  obtain ⟨_, queued, due, _, fresh, left⟩ := Timelock.executeTransaction_eq_ok_iff.mp executed
  subst left
  cases same
  exact inv.dequeue (fun _ => rfl) rfl rfl
    ⟨⟨(inv.queued _).mp queued, due, fresh⟩, inv.sound⟩

/-! ## What a call does -/

/-- The contract since some state: entries were added one after the other, with times from then
on. -/
structure Since (s s' : FeiDAOTimelockState H) (added : List FeiDAOTimelockEntry) : Prop where
  history : s'.history = added ++ s.history
  later : ∀ e ∈ added, s.timestamp ≤ e.timestamp
  past : ∀ e ∈ added, e.timestamp ≤ s'.timestamp
  ordered : added.Pairwise fun newer older => older.timestamp ≤ newer.timestamp
  timestamp : s.timestamp ≤ s'.timestamp

omit [DecidableEq H] in
/-- No entry. -/
theorem Since.quiet (history : s'.history = s.history) (timestamp : s'.timestamp = s.timestamp) :
    Since s s' [] :=
  ⟨history, by simp, by simp, .nil, Nat.le_of_eq timestamp.symm⟩

omit [DecidableEq H] in
theorem Since.trans {s'' : FeiDAOTimelockState H} {added added' : List FeiDAOTimelockEntry}
    (first : Since s s' added) (second : Since s' s'' added') :
    Since s s'' (added' ++ added) := by
  refine ⟨?_, fun e mem => ?_, fun e mem => ?_, ?_, Nat.le_trans first.timestamp second.timestamp⟩
  · rw [second.history, first.history, List.append_assoc]
  · rcases List.mem_append.mp mem with new | old
    · exact Nat.le_trans first.timestamp (second.later e new)
    · exact first.later e old
  · rcases List.mem_append.mp mem with new | old
    · exact second.past e new
    · exact Nat.le_trans (first.past e old) second.timestamp
  · refine List.pairwise_append.mpr ⟨second.ordered, first.ordered, fun e new e' old => ?_⟩
    exact Nat.le_trans (first.past e' old) (second.later e new)

omit [DecidableEq H] in
/-- One entry. -/
theorem Since.of_entry (history : s'.history = entry :: s.history)
    (now : entry.timestamp = s.timestamp) (timestamp : s'.timestamp = s.timestamp) :
    Since s s' [entry] := by
  refine ⟨history, ?_, ?_, List.pairwise_singleton _ _, Nat.le_of_eq timestamp.symm⟩
  · intro e mem
    rw [List.mem_singleton.mp mem, now]
  · intro e mem
    rw [List.mem_singleton.mp mem, now, timestamp]

omit [DecidableEq H] in
theorem Since.elapse {added : List FeiDAOTimelockEntry} (since : Since s s' added)
    (seconds : Nat) : Since s { s' with timestamp := s'.timestamp + seconds } added :=
  ⟨since.history, since.later, fun e mem => Nat.le_add_right_of_le (since.past e mem),
    since.ordered, Nat.le_add_right_of_le since.timestamp⟩

/-- The contract since some state, with nothing but transactions taken out of the queue. -/
def OnlyCanceled (s s' : FeiDAOTimelockState H) : Prop :=
  ∃ added, Since s s' added ∧ ∀ e ∈ added, ∃ tx timestamp, e = .canceled tx timestamp

omit [DecidableEq H] in
theorem OnlyCanceled.quiet (history : s'.history = s.history)
    (timestamp : s'.timestamp = s.timestamp) : OnlyCanceled s s' :=
  ⟨[], .quiet history timestamp, by simp⟩

omit [DecidableEq H] in
theorem OnlyCanceled.trans {s'' : FeiDAOTimelockState H} (first : OnlyCanceled s s')
    (second : OnlyCanceled s' s'') : OnlyCanceled s s'' := by
  obtain ⟨added, since, canceled⟩ := first
  obtain ⟨added', since', canceled'⟩ := second
  refine ⟨_, since.trans since', ?_⟩
  intro e mem
  rcases List.mem_append.mp mem with new | old
  · exact canceled' e new
  · exact canceled e old

omit [DecidableEq H] in
theorem OnlyCanceled.elapse (only : OnlyCanceled s s') (seconds : Nat) :
    OnlyCanceled s { s' with timestamp := s'.timestamp + seconds } := by
  obtain ⟨added, since, canceled⟩ := only
  exact ⟨added, since.elapse seconds, canceled⟩

/-- Everything a call can do to the queue and the log. -/
inductive Did (env : TimelockEnv H) (s : FeiDAOTimelockState H) :
    Call → FeiDAOTimelockState H → Prop where
  | queued {a s'} (sender : Address) (tx : TimelockTransaction)
    (queues : queueTransaction env s sender tx = .ok s') : Did env s a s'
  | struck {a s'} (txs : List TimelockTransaction)
    (same : s' = txs.foldl (fun s tx => _cancelTransaction env s tx) s) : Did env s a s'
  | quiet {a s'} (history : s'.history = s.history)
    (queued : s'.queuedTransactions = s.queuedTransactions)
    (timestamp : s'.timestamp = s.timestamp)
    (delay : env.MINIMUM_DELAY ≤ s.delay → env.MINIMUM_DELAY ≤ s'.delay)
    (paused : s._paused = true → s'._paused = true ∨ ∃ sender, a = .unpause sender) :
    Did env s a s'

theorem did_of_call {a : Call} (succeeds : call env s a = .ok s') : Did env s a s' := by
  cases a with
  | setDelay sender delay_ =>
      obtain ⟨timelock, set, same⟩ := bind_eq_ok_iff.mp succeeds
      simp only [Timelock.setDelay, bind_eq_ok_iff, pure_eq_ok_iff, require_eq_ok_iff] at set
      obtain ⟨_, _, _, enough, _, _, left⟩ := set
      subst left
      cases same
      exact .quiet rfl rfl rfl (fun _ => enough) .inl
  | acceptAdmin sender =>
      obtain ⟨timelock, accepts, same⟩ := bind_eq_ok_iff.mp succeeds
      obtain ⟨_, _, left⟩ := bind_eq_ok_iff.mp accepts
      cases left
      cases same
      exact .quiet rfl rfl rfl id .inl
  | setPendingAdmin sender pendingAdmin_ =>
      obtain ⟨timelock, sets, same⟩ := bind_eq_ok_iff.mp succeeds
      obtain ⟨_, _, left⟩ := bind_eq_ok_iff.mp sets
      cases left
      cases same
      exact .quiet rfl rfl rfl id .inl
  | queueTransaction sender target value signature data eta => exact .queued sender _ succeeds
  | cancelTransaction sender target value signature data eta =>
      obtain ⟨_, _, same⟩ := bind_eq_ok_iff.mp succeeds
      exact .struck [⟨target, value, signature, data, eta.toNat⟩] (pure_eq_ok_iff.mp same).symm
  | vetoTransactions sender targets values signatures datas etas =>
      obtain ⟨_, _, rest⟩ := bind_eq_ok_iff.mp succeeds
      obtain ⟨txs, _, same⟩ := bind_eq_ok_iff.mp rest
      exact .struck txs (pure_eq_ok_iff.mp same).symm
  | governorSetPendingAdmin sender newAdmin =>
      obtain ⟨_, _, same⟩ := bind_eq_ok_iff.mp succeeds
      cases same
      exact .quiet rfl rfl rfl id .inl
  | pause sender =>
      have same := CoreRef.pause_eq succeeds
      subst same
      exact .quiet rfl rfl rfl id fun _ => .inl rfl
  | unpause sender =>
      have same := CoreRef.unpause_eq succeeds
      subst same
      exact .quiet rfl rfl rfl id fun _ => .inr ⟨sender, rfl⟩
  | setCore core =>
      cases succeeds
      exact .quiet rfl rfl rfl id .inl

theorem struck_since (env : TimelockEnv H) (s : FeiDAOTimelockState H)
    (txs : List TimelockTransaction) :
    let s' := txs.foldl (fun s tx => _cancelTransaction env s tx) s
    s'._paused = s._paused ∧ s'.timestamp = s.timestamp ∧ OnlyCanceled s s' := by
  induction txs generalizing s with
  | nil => exact ⟨rfl, rfl, .quiet rfl rfl⟩
  | cons tx txs ih =>
      obtain ⟨paused, timestamp, only⟩ := ih (_cancelTransaction env s tx)
      have first : OnlyCanceled s (_cancelTransaction env s tx) := by
        refine ⟨[.canceled tx s.timestamp], .of_entry rfl rfl rfl, ?_⟩
        intro e mem
        exact ⟨tx, s.timestamp, List.mem_singleton.mp mem⟩
      exact ⟨paused, timestamp, first.trans only⟩

theorem struck_admin (env : TimelockEnv H) (s : FeiDAOTimelockState H)
    (txs : List TimelockTransaction) :
    let s' := txs.foldl (fun s tx => _cancelTransaction env s tx) s
    s'.admin = s.admin ∧ s'.pendingAdmin = s.pendingAdmin ∧ s'.core = s.core := by
  induction txs generalizing s with
  | nil => exact ⟨rfl, rfl, rfl⟩
  | cons tx txs ih => exact ih (_cancelTransaction env s tx)

theorem queued_since (queues : queueTransaction env s sender tx = .ok s') :
    s._paused = false ∧ Since s s' [.queued tx s.timestamp s.delay] := by
  obtain ⟨_, allowed, rest⟩ := bind_eq_ok_iff.mp queues
  obtain ⟨timelock, _, same⟩ := bind_eq_ok_iff.mp rest
  cases same
  exact ⟨CoreRef.whenNotPaused_eq_ok_iff.mp allowed, .of_entry rfl rfl rfl⟩

theorem executed_since (executes : executeTransaction env s sender tx = .ok s') :
    s._paused = false ∧ Since s s' [.executed tx s.timestamp] := by
  obtain ⟨_, allowed, rest⟩ := bind_eq_ok_iff.mp executes
  obtain ⟨timelock, _, same⟩ := bind_eq_ok_iff.mp rest
  cases same
  exact ⟨CoreRef.whenNotPaused_eq_ok_iff.mp allowed, .of_entry rfl rfl rfl⟩

theorem Did.invariant {a : Call} (did : Did env s a s') (inv : Invariant env s) :
    Invariant env s' := by
  cases did with
  | queued sender tx queues => exact inv.queue queues
  | struck txs same =>
      rw [same]
      exact inv.veto txs
  | quiet history queued timestamp delay paused => exact inv.congr history queued (delay inv.delay)

theorem Did.since {a : Call} (did : Did env s a s') : ∃ added, Since s s' added := by
  cases did with
  | queued sender tx queues => exact ⟨_, (queued_since queues).2⟩
  | struck txs same =>
      obtain ⟨_, _, added, since, _⟩ := struck_since env s txs
      rw [same]
      exact ⟨added, since⟩
  | quiet history queued timestamp delay paused =>
      exact ⟨[], .quiet history timestamp⟩

/-- A job either executes a transaction or rolls back. -/
theorem started_of_begin {job : Job} {calls : List Unit}
    (succeeds : begin env s job = .ok (s', calls)) :
    (∃ sender tx, executeTransaction env s sender tx = .ok s') ∨ s' = s := by
  cases job with
  | executeTransaction sender target value signature data eta =>
      obtain ⟨t, executes, same⟩ := bind_eq_ok_iff.mp succeeds
      cases same
      exact .inl ⟨sender, _, executes⟩
  | rollback sender =>
      obtain ⟨_, _, same⟩ := bind_eq_ok_iff.mp succeeds
      cases same
      exact .inr rfl

/-! ## Runs -/

/-- What every part of a transaction keeps, since some state. -/
theorem keeps_invariant (base : FeiDAOTimelockState H) : (callbacks env).Keeps
    fun _ s => Invariant env s ∧ ∃ added, Since base s added where
  call inv succeeds := by
    obtain ⟨inv, added, since⟩ := inv
    have did := did_of_call succeeds
    obtain ⟨added', since'⟩ := did.since
    exact ⟨did.invariant inv, _, since.trans since'⟩
  start inv succeeds := by
    obtain ⟨inv, added, since⟩ := inv
    rcases started_of_begin succeeds with ⟨sender, tx, executes⟩ | same
    · exact ⟨inv.execute executes, _, since.trans (executed_since executes).2⟩
    · rw [same]
      exact ⟨inv, added, since⟩
  before inv succeeds := by
    cases succeeds
    exact inv
  finish inv := inv

theorem run_invariant_since (inv : Invariant env s) (history : List Action) :
    Invariant env (run (step env) s history) ∧
      ∃ added, Since s (run (step env) s history) added := by
  refine run_invariant (I := fun t => Invariant env t ∧ ∃ added, Since s t added)
    (A := fun _ => True) ?_ ⟨inv, [], .quiet rfl rfl⟩ fun _ _ => trivial
  intro t a t' kept _ succeeds
  cases a with
  | transaction transaction =>
      exact (keeps_invariant s).perform transaction [] t t' kept succeeds
  | elapse seconds =>
      cases succeeds
      obtain ⟨inv, added, since⟩ := kept
      exact ⟨inv.congr rfl rfl inv.delay, added, since.elapse seconds⟩

theorem invariant_of_construct {core : Core} {timestamp : Nat} {admin_ : Address}
    {delay_ : UInt256} (deploys : construct env core timestamp admin_ delay_ = .ok s) :
    Invariant env s := by
  simp only [construct, Timelock.construct, bind_eq_ok_iff, pure_eq_ok_iff, require_eq_ok_iff]
    at deploys
  obtain ⟨timelock, ⟨_, enough, _, _, _, _, built⟩, same⟩ := deploys
  subst built
  subst same
  exact ⟨trivial, fun hash => by simp [standing], enough⟩

omit [DecidableEq H] in
theorem history_of_construct {core : Core} {timestamp : Nat} {admin_ : Address}
    {delay_ : UInt256} (deploys : construct env core timestamp admin_ delay_ = .ok s) :
    s.history = [] := by
  obtain ⟨timelock, _, same⟩ := bind_eq_ok_iff.mp deploys
  cases same
  rfl

/-! ## What was executed -/

/-- Whatever happens and however the targets call back, what is executed was queued under its hash,
neither struck nor executed under it since, and the delay has passed. The hash names another
transaction only if hashes collide. -/
theorem executed_timely {core : Core} {timestamp : Nat} {admin_ : Address} {delay_ : UInt256}
    (deploys : construct env core timestamp admin_ delay_ = .ok s) (history : List Action)
    {newer : List FeiDAOTimelockEntry} {executedAt : Nat}
    (split : (run (step env) s history).history = newer ++ .executed tx executedAt :: older) :
    ∃ since earlier tx' queuedAt delay, older = since ++ .queued tx' queuedAt delay :: earlier ∧
      env.getTxHash tx' = env.getTxHash tx ∧
      (∀ e ∈ since, env.getTxHash e.tx ≠ env.getTxHash tx) ∧
      env.MINIMUM_DELAY ≤ delay ∧ queuedAt + delay ≤ tx'.eta ∧
      tx.eta ≤ executedAt ∧ executedAt ≤ tx.eta + Timelock.GRACE_PERIOD ∧
      (tx' = tx → queuedAt + env.MINIMUM_DELAY ≤ executedAt) := by
  have sound := (run_invariant_since (invariant_of_construct deploys) history).1.sound
  rw [split] at sound
  obtain ⟨⟨stands, due, fresh⟩, before⟩ := sound.of_append
  obtain ⟨entry, stands⟩ := Option.isSome_iff_exists.mp stands
  obtain ⟨since, earlier, tx', queuedAt, delay, queued, parts, own, others⟩ :=
    exists_of_standing stands
  subst queued
  rw [parts] at before
  obtain ⟨⟨enough, eta⟩, _⟩ := before.of_append
  refine ⟨since, earlier, tx', queuedAt, delay, parts, own, others, enough, eta, due, fresh, ?_⟩
  intro same
  subst same
  calc queuedAt + env.MINIMUM_DELAY
    _ ≤ queuedAt + delay := Nat.add_le_add_left enough queuedAt
    _ ≤ tx'.eta := eta
    _ ≤ executedAt := due

/-! ## Vetoes -/

theorem standing_append (none : standing env hash older = none) (log : List FeiDAOTimelockEntry) :
    standing env hash (log ++ older) = standing env hash log := by
  induction log with
  | nil => exact none
  | cons e log ih => rw [List.cons_append, standing, standing, ih]

/-- What is struck does not stand. -/
theorem standing_struck (txs : List TimelockTransaction)
    (struck : (∃ tx ∈ txs, env.getTxHash tx = hash) ∨ standing env hash s.history = none) :
    standing env hash (txs.foldl (fun s tx => _cancelTransaction env s tx) s).history = none := by
  induction txs generalizing s with
  | nil =>
      rcases struck with ⟨tx, mem, _⟩ | none
      · cases mem
      · exact none
  | cons tx txs ih =>
      refine ih ?_
      have canceled : standing env hash (_cancelTransaction env s tx).history =
        if env.getTxHash tx = hash then none else standing env hash s.history := rfl
      rw [canceled]
      rcases struck with ⟨tx', mem, own⟩ | none
      · rcases List.mem_cons.mp mem with same | later
        · subst same
          exact .inr (if_pos own)
        · exact .inl ⟨tx', later, own⟩
      · rw [none]
        exact .inr (ite_self _)

/-- A transaction that was executed waited since some time in the queue, into which it came by one
of these entries. -/
def Requeued (env : TimelockEnv H) (older : List FeiDAOTimelockEntry) (tx : TimelockTransaction)
    (since executedAt : Nat) : Prop :=
  ∃ tx' queuedAt delay, .queued tx' queuedAt delay ∈ older ∧
    env.getTxHash tx' = env.getTxHash tx ∧ since ≤ queuedAt ∧
    env.MINIMUM_DELAY ≤ delay ∧ queuedAt + delay ≤ tx'.eta ∧ tx.eta ≤ executedAt ∧
    (tx' = tx → since + env.MINIMUM_DELAY ≤ executedAt)

/-- What did not stand in the queue was queued since. -/
theorem requeued_of_sound {newer base : List FeiDAOTimelockEntry} {since executedAt : Nat}
    (sound : Sound env (newer ++ .executed tx executedAt :: (older ++ base)))
    (struck : standing env (env.getTxHash tx) base = none)
    (later : ∀ e ∈ older, since ≤ e.timestamp) : Requeued env older tx since executedAt := by
  obtain ⟨⟨stands, due, _⟩, past⟩ := sound.of_append
  rw [standing_append struck] at stands
  obtain ⟨entry, stands⟩ := Option.isSome_iff_exists.mp stands
  obtain ⟨others, earlier, tx', queuedAt, delay, queued, parts, own, _⟩ :=
    exists_of_standing stands
  subst queued
  have mem : .queued tx' queuedAt delay ∈ older := by
    rw [parts]
    exact List.mem_append_right _ List.mem_cons_self
  have waits := later _ mem
  rw [parts, List.append_assoc, List.cons_append] at past
  obtain ⟨⟨enough, eta⟩, _⟩ := past.of_append
  refine ⟨tx', queuedAt, delay, mem, own, waits, enough, eta, due, ?_⟩
  intro same
  subst same
  calc since + env.MINIMUM_DELAY
    _ ≤ queuedAt + delay := Nat.add_le_add waits enough
    _ ≤ tx'.eta := eta
    _ ≤ executedAt := due

/-- What is struck, out of whatever call and at whatever point of whatever run, is executed only
after it has been queued anew and has waited anew. So is what the guardian or a governor names in a
veto, whether it was in the queue or not. -/
theorem vetoed_waits {core : Core} {timestamp : Nat} {admin_ : Address} {delay_ : UInt256}
    (deploys : construct env core timestamp admin_ delay_ = .ok s) :
    (∀ (history : List Action) {newer older before : List FeiDAOTimelockEntry}
      {tx struck : TimelockTransaction} {struckAt executedAt : Nat},
      (run (step env) s history).history =
        newer ++ .executed tx executedAt :: (older ++ .canceled struck struckAt :: before) →
      env.getTxHash struck = env.getTxHash tx → Requeued env older tx struckAt executedAt) ∧
    ∀ (before after : List Action) {sender : Address} {s' : FeiDAOTimelockState H}
      {targets : List Address} {values : List UInt256} {signatures : List String}
      {datas : List Bytes} {etas : List UInt256} {txs : List TimelockTransaction},
      vetoTransactions env (run (step env) s before) sender targets values signatures datas etas =
        .ok s' →
      transactions targets values signatures datas etas = .ok txs →
      ∀ tx ∈ txs, ∀ {newer older : List FeiDAOTimelockEntry} {executedAt : Nat},
        (run (step env) s' after).history =
          newer ++ .executed tx executedAt :: (older ++ s'.history) →
        Requeued env older tx s'.timestamp executedAt := by
  have start := invariant_of_construct deploys
  constructor
  · intro history newer older before tx struck struckAt executedAt split own
    obtain ⟨reached, added, since⟩ := run_invariant_since start history
    have sound := reached.sound
    have ordered := since.ordered
    have fresh : s.history = [] := history_of_construct deploys
    rw [← (List.append_nil added), ← fresh, ← since.history, split] at ordered
    rw [split] at sound
    refine requeued_of_sound sound (if_pos own) fun e mem => ?_
    have rest := (List.pairwise_cons.mp (List.pairwise_append.mp ordered).2.1).2
    exact (List.pairwise_append.mp rest).2.2 e mem _ List.mem_cons_self
  · intro before after sender s' targets values signatures datas etas txs vetoes named tx mem newer
      older executedAt split
    obtain ⟨_, _, rest⟩ := bind_eq_ok_iff.mp vetoes
    obtain ⟨txs', named', same⟩ := bind_eq_ok_iff.mp rest
    cases named.symm.trans named'
    have inv : Invariant env s' := by
      rw [← pure_eq_ok_iff.mp same]
      exact (run_invariant_since start before).1.veto txs
    have struck : standing env (env.getTxHash tx) s'.history = none := by
      rw [← pure_eq_ok_iff.mp same]
      exact standing_struck txs (.inl ⟨tx, mem, rfl⟩)
    obtain ⟨reached, added, since⟩ := run_invariant_since inv after
    have sound := reached.sound
    rw [split] at sound
    refine requeued_of_sound sound struck fun e old => since.later e ?_
    have whole : added ++ s'.history =
        (newer ++ .executed tx executedAt :: older) ++ s'.history := by
      rw [← since.history, split, List.append_assoc, List.cons_append]
    rw [List.append_cancel_right whole]
    exact List.mem_append_right _ (List.mem_cons_of_mem _ old)

/-! ## While paused -/

/-- Nobody unpauses the timelock, except out of a transaction that it executes. -/
def Action.LeavesPaused : Action → Prop
  | .transaction t => t.All (fun a => ∀ sender, a ≠ .unpause sender) (fun _ => True)
      fun job => ∃ sender, job = .rollback sender
  | .elapse _ => True

theorem Did.paused {a : Call} (did : Did env s a s') (other : ∀ sender, a ≠ .unpause sender)
    (paused : s._paused = true) : s'._paused = true ∧ OnlyCanceled s s' := by
  cases did with
  | queued sender tx queues =>
      rw [(queued_since queues).1] at paused
      cases paused
  | struck txs same =>
      obtain ⟨kept, _, only⟩ := struck_since env s txs
      subst same
      exact ⟨kept.trans paused, only⟩
  | quiet history queued timestamp delay unpaused =>
      refine ⟨?_, .quiet history timestamp⟩
      rcases unpaused paused with kept | ⟨sender, same⟩
      · exact kept
      · exact absurd same (other sender)

/-- A paused timelock executes nothing, so nothing that it would have executed unpauses it. -/
theorem keeps_paused (base : FeiDAOTimelockState H) : (callbacks env).KeepsAmong
    (fun a => ∀ sender, a ≠ .unpause sender) (fun _ => True)
    (fun job => ∃ sender, job = .rollback sender)
    fun _ s => s._paused = true ∧ OnlyCanceled base s where
  call inv other succeeds := by
    obtain ⟨paused, only⟩ := inv
    obtain ⟨kept, more⟩ := (did_of_call succeeds).paused other paused
    exact ⟨kept, only.trans more⟩
  start inv _ succeeds := by
    rename_i job _ _ _
    cases job with
    | executeTransaction sender target value signature data eta =>
        obtain ⟨t, executes, _⟩ := bind_eq_ok_iff.mp succeeds
        have paused := inv.1
        rw [(executed_since executes).1] at paused
        cases paused
    | rollback sender =>
        obtain ⟨_, _, same⟩ := bind_eq_ok_iff.mp succeeds
        cases same
        exact ⟨⟨sender, rfl⟩, inv⟩
  before inv succeeds := by
    cases succeeds
    exact inv
  finish inv := inv

/-- A paused timelock stays paused, queues nothing and executes nothing until somebody unpauses
it: it can do nothing itself that would. -/
theorem paused_stays (paused : s._paused = true) {history : List Action}
    (left : ∀ a ∈ history, a.LeavesPaused) :
    (run (step env) s history)._paused = true ∧
      ∃ added, (run (step env) s history).history = added ++ s.history ∧
        ∀ e ∈ added, ∃ tx timestamp, e = .canceled tx timestamp := by
  have along : (run (step env) s history)._paused = true ∧
      OnlyCanceled s (run (step env) s history) := by
    refine run_invariant (I := fun t => t._paused = true ∧ OnlyCanceled s t)
      (A := Action.LeavesPaused) ?_ ⟨paused, .quiet rfl rfl⟩ left
    intro t a t' kept leaves succeeds
    cases a with
    | transaction transaction =>
        exact (keeps_paused s).perform transaction leaves [] t t' kept succeeds
    | elapse seconds =>
        cases succeeds
        exact ⟨kept.1, kept.2.elapse seconds⟩
  obtain ⟨kept, added, since, canceled⟩ := along
  exact ⟨kept, added, since.history, canceled⟩

end FeiDAOTimelock

/-! ## A deployment -/

namespace FeiDAOTimelock.Sample

/-- A timelock at 2, where transactions wait for a day at least. -/
def env : TimelockEnv TimelockTransaction := ⟨2, 86400, fun tx => tx⟩

/-- The timelock is a guardian too. -/
def core : Core where
  isMinter _ := false
  isBurner _ := false
  isPCVController _ := false
  isGovernor a := a = 1
  isGuardian a := a = 5 ∨ a = 2

/-- Run by account 3. -/
def start : FeiDAOTimelockState TimelockTransaction where
  admin := 3
  pendingAdmin := 0
  delay := 100000
  queuedTransactions := fun _ => false
  core := core
  _paused := false
  timestamp := 1000
  history := []

theorem deploys : construct env core 1000 3 100000 = .ok start := rfl

def ping : TimelockTransaction := ⟨9, 0, "ping()", [], 301000⟩

def queuePing : Action := .transaction (.call (.queueTransaction 3 9 0 "ping()" [] 301000))

/-- The target calls the timelock first. -/
def executePing (inner : Call) : Action :=
  .transaction (.work (.executeTransaction 3 9 0 "ping()" [] 301000)
    (.next (.next (.call inner) .none) true .none))

def served : List Action := [queuePing, .elapse 300000, executePing (.acceptAdmin 9)]

def vetoed : FeiDAOTimelockState TimelockTransaction :=
  _cancelTransaction env (run (step env) start [queuePing]) ping

theorem vetoes : vetoTransactions env (run (step env) start [queuePing]) 5 [9] [0] ["ping()"] [[]]
    [301000] = .ok vetoed := rfl

/-- Queued again after a veto. -/
def again : List Action := [.elapse 100000, queuePing, .elapse 200000, executePing (.pause 5)]

/-- Another transaction, whose target has the guardian veto the first. -/
def struckWithin : List Action :=
  [queuePing, .transaction (.call (.queueTransaction 3 9 0 "pong()" [] 101000)), .elapse 100000,
    .transaction (.work (.executeTransaction 3 9 0 "pong()" [] 101000)
      (.next (.next (.call (.vetoTransactions 5 [9] [0] ["ping()"] [[]] [301000])) .none) true
        .none)),
    queuePing, .elapse 200000, executePing (.pause 5)]

/-- Paused with a transaction that is due, which would unpause. -/
def paused : FeiDAOTimelockState TimelockTransaction :=
  run (step env) start [queuePing, .elapse 300000, .transaction (.call (.pause 5))]

def attempts : List Action :=
  [executePing (.unpause 2), .transaction (.call (.cancelTransaction 3 9 0 "ping()" [] 301000))]

end FeiDAOTimelock.Sample

namespace FeiDAOTimelock

theorem executed_timely_sample :
    (run (step Sample.env) Sample.start Sample.served).history =
      [.executed Sample.ping 301000, .queued Sample.ping 1000 100000] ∧
    ∃ since earlier tx' queuedAt delay,
      [FeiDAOTimelockEntry.queued Sample.ping 1000 100000] =
        since ++ .queued tx' queuedAt delay :: earlier ∧
        86400 ≤ delay ∧ (tx' = Sample.ping → queuedAt + 86400 ≤ 301000) := by
  have log : (run (step Sample.env) Sample.start Sample.served).history =
      [.executed Sample.ping 301000, .queued Sample.ping 1000 100000] := by decide +kernel
  obtain ⟨since, earlier, tx', queuedAt, delay, parts, _, _, enough, _, _, _, waited⟩ :=
    executed_timely Sample.deploys Sample.served (log.trans (List.nil_append _).symm)
  exact ⟨log, since, earlier, tx', queuedAt, delay, parts, enough, waited⟩

/-- Struck out of a callback at 101000, and by a veto at 1000. -/
theorem vetoed_waits_sample :
    Requeued Sample.env [.queued Sample.ping 101000 100000] Sample.ping 101000 301000 ∧
      Requeued Sample.env [.queued Sample.ping 101000 100000] Sample.ping 1000 301000 := by
  have within : (run (step Sample.env) Sample.start Sample.struckWithin).history =
      [] ++ .executed Sample.ping 301000 ::
        ([.queued Sample.ping 101000 100000] ++ .canceled Sample.ping 101000 ::
          [.executed ⟨9, 0, "pong()", [], 101000⟩ 101000,
            .queued ⟨9, 0, "pong()", [], 101000⟩ 1000 100000,
            .queued Sample.ping 1000 100000]) := by decide +kernel
  have log : (run (step Sample.env) Sample.vetoed Sample.again).history =
      [] ++ .executed Sample.ping 301000 ::
        ([.queued Sample.ping 101000 100000] ++ Sample.vetoed.history) := by decide +kernel
  have waits := vetoed_waits Sample.deploys
  exact ⟨waits.1 Sample.struckWithin within rfl,
    waits.2 [Sample.queuePing] Sample.again Sample.vetoes (rfl : _ = Except.ok [Sample.ping])
      Sample.ping List.mem_cons_self log⟩

theorem paused_stays_sample :
    (run (step Sample.env) Sample.paused Sample.attempts)._paused = true ∧
    ∃ added, [.canceled Sample.ping 301000, .queued Sample.ping 1000 100000] =
      added ++ [.queued Sample.ping 1000 100000] ∧
        ∀ e ∈ added, ∃ tx timestamp, e = FeiDAOTimelockEntry.canceled tx timestamp := by
  have left : ∀ a ∈ Sample.attempts, a.LeavesPaused := by
    simp [Sample.attempts, Sample.executePing, Action.LeavesPaused, Transaction.All]
  obtain ⟨stays, added, log, canceled⟩ :=
    @paused_stays _ _ Sample.env Sample.paused rfl _ left
  exact ⟨stays, added, log, canceled⟩

end FeiDAOTimelock

end FeiProtocol
